import TypedClient.Proofs.Text.Lists
import TypedClient.Proofs.TypeText.Scan
import TypedClient.Proofs.TypeText.Spelling

/-!
# Writing and reading back

What is written from parts is read as the type that is built from what the parts are read as, in
whatever place it stands: behind an operator, inside brackets, before anything that ends a word. A
union joined by `|` and an intersection joined by `&` are put together by their alternatives, so an
intersection of unions without parentheses is read across them.
-/
namespace TypedClient.TypeText

open Schema (Member)

/-! ### Unions and intersections of types -/

def Factor.IsGroup : Factor → Prop
  | .group _ => True
  | _ => False

namespace Reading

/-- A type with some factors before its first alternative. -/
def after (factors : List Factor) : Reading → Reading
  | [] => [factors]
  | alternative :: rest => (factors ++ alternative) :: rest

/-- Two types with `&` between them and no parentheses. -/
def followedBy : Reading → Reading → Reading
  | [], u => u
  | [alternative], u => u.after alternative
  | alternative :: t, u => alternative :: followedBy t u

/-- The intersection of types; each is one operand of it. -/
def meet : List Reading → Reading
  | [t] => t
  | ts => [ts.flatMap operands]

/-- Types with `&` between them and no parentheses. -/
def chain : List Reading → Reading
  | [] => []
  | [t] => t
  | t :: ts => t.followedBy (chain ts)

section

variable {q : Factor → Prop}

theorem all_after {t : Reading} (type : t.All q) {fs : List Factor} (factors : ∀ f ∈ fs, f.All q) :
    (t.after fs).All q := by
  cases t with
  | nil =>
    intro f hf
    exact factors f (by simpa [after] using hf)
  | cons a t =>
    intro f hf
    simp only [after, List.flatten_cons, List.append_assoc, List.mem_append] at hf
    rcases hf with hf | hf | hf
    · exact factors f hf
    · exact type f (by simp [hf])
    · exact type f (by simp only [List.flatten_cons, List.mem_append, hf, or_true])

theorem all_followedBy {t u : Reading} (first : t.All q) (second : u.All q) :
    (t.followedBy u).All q := by
  induction t with
  | nil => exact second
  | cons a t ih =>
    cases t with
    | nil => exact all_after second fun f hf => first f (by simpa using hf)
    | cons b t =>
      have here : Reading.All q [a] := fun f hf => first f (by
        simp only [List.flatten_cons, List.mem_append] at hf ⊢
        exact .inl (by simpa using hf))
      exact here.append (ih fun f hf => first f (by
        rw [List.flatten_cons, List.mem_append]
        exact .inr hf))

theorem all_chain {ts : List Reading} (each : ∀ t ∈ ts, t.All q) : (chain ts).All q := by
  induction ts with
  | nil => simp [chain, Reading.All]
  | cons t ts ih =>
    cases ts with
    | nil => exact each t List.mem_cons_self
    | cons u ts =>
      exact all_followedBy (each t List.mem_cons_self)
        (ih fun v hv => each v (List.mem_cons_of_mem _ hv))

theorem all_of_mem_meet {ts : List Reading} (all : (meet ts).All q) :
    ∀ t ∈ ts, t.All q := by
  unfold meet at all
  split at all
  · simpa using all
  · intro t ht
    have each : ∀ f ∈ t.operands, f.All q := fun f hf => all f (by
      simp only [List.flatten_cons, List.flatten_nil, List.append_nil, List.mem_flatMap]
      exact ⟨t, ht, hf⟩)
    unfold operands at each
    split at each
    · intro f hf
      exact each f (by simpa using hf)
    · exact (each _ List.mem_cons_self).inside

end

theorem chain_eq_meet {ts : List Reading} (some : ts ≠ []) (single : ∀ t ∈ ts, ∃ fs, t = [fs]) :
    chain ts = meet ts := by
  induction ts with
  | nil => exact absurd rfl some
  | cons t ts ih =>
    cases ts with
    | nil => rfl
    | cons u ts =>
      simp only [List.mem_cons, forall_eq_or_imp] at single
      obtain ⟨⟨fs, rfl⟩, ⟨gs, rfl⟩, others⟩ := single
      have behind := ih (by simp) (by simpa using others)
      rw [chain, behind]
      · cases ts <;> simp [meet, followedBy, after, operands]
      · simp

end Reading

/-! ### Cutting -/

/-- What no word goes on in. -/
def Stops (rest : List Char) : Prop :=
  ∀ c, rest.head? = some c → Naming.isIdentifierChar c = false

/-- Cutting a text gives some tokens, whatever stands behind it that stops a word. -/
def Lexes (text : List Char) (ts : List Token) : Prop :=
  ∀ rest, Stops rest → lex (text ++ rest) = (lex rest).map (ts ++ ·)

theorem Stops.append {text rest : List Char} (here : Stops text) (behind : Stops rest) :
    Stops (text ++ rest) := by
  cases text with
  | nil => exact behind
  | cons c text => exact here

theorem stops_cons {c : Char} {text : List Char} (other : Naming.isIdentifierChar c = false) :
    Stops (c :: text) := by
  intro d hd
  cases hd
  exact other

theorem lexes_nil : Lexes [] [] := by
  intro rest _
  simp

theorem Lexes.append {a b : List Char} {ts us : List Token} (first : Lexes a ts)
    (second : Lexes b us) (stops : Stops b) : Lexes (a ++ b) (ts ++ us) := by
  intro rest behind
  rw [List.append_assoc, first _ (stops.append behind), second rest behind, Option.map_map]
  simp [Function.comp_def]

theorem Lexes.skip {c : Char} (blank : isBlank c = true) {text : List Char} {ts : List Token}
    (behind : Lexes text ts) : Lexes (c :: text) ts := by
  intro rest stops
  rw [List.cons_append, lex, if_pos blank, behind rest stops]

theorem Lexes.blank {text : List Char} {ts : List Token} (behind : Lexes text ts) :
    Lexes (' ' :: text) ts :=
  behind.skip (by decide)

theorem Mark.ofChar?_char (m : Mark) : ofChar? m.char = some m := by
  cases m <;> decide

/-- A mark is no other token. -/
theorem Mark.other (m : Mark) :
    isBlank m.char = false ∧ Naming.isIdentifierStart m.char = false ∧ m.char ≠ '\'' := by
  cases m <;> decide

theorem Lexes.mark (m : Mark) {text : List Char} {ts : List Token} (behind : Lexes text ts) :
    Lexes (m.char :: text) (.mark m :: ts) := by
  obtain ⟨notBlank, notStart, notQuote⟩ := m.other
  intro rest stops
  rw [List.cons_append, lex, if_neg (by simp [notBlank]), if_neg (by simp [notStart]),
    if_neg notQuote, m.ofChar?_char]
  simp only [behind rest stops, Option.map_map]
  rfl

theorem takeWhile_append_of_stops {letters rest : List Char}
    (word : ∀ c ∈ letters, Naming.isIdentifierChar c) (stops : Stops rest) :
    (letters ++ rest).takeWhile Naming.isIdentifierChar = letters ∧
      (letters ++ rest).dropWhile Naming.isIdentifierChar = rest := by
  have none : rest.takeWhile Naming.isIdentifierChar = [] ∧
      rest.dropWhile Naming.isIdentifierChar = rest := by
    cases rest with
    | nil => exact ⟨rfl, rfl⟩
    | cons c rest => simp [stops c rfl]
  rw [List.takeWhile_append_of_pos word, List.dropWhile_append_of_pos word, none.1, none.2,
    List.append_nil]
  exact ⟨rfl, rfl⟩

theorem lexes_word {s : String} (word : isWord s) : Lexes s.toList [.name s] := by
  unfold isWord at word
  split at word
  · cases word
  · next c letters same =>
    simp only [Bool.and_eq_true, List.all_eq_true] at word
    intro rest stops
    obtain ⟨taken, dropped⟩ := takeWhile_append_of_stops word.2 stops
    have notBlank : isBlank c = false := by
      cases blank : isBlank c with
      | false => rfl
      | true =>
        simp only [isBlank, Bool.or_eq_true, decide_eq_true_eq] at blank
        rcases blank with ((rfl | rfl) | rfl) | rfl <;> exact absurd word.1 (by decide)
    have whole : String.ofList (c :: letters) = s := by rw [← same, String.ofList_toList]
    rw [same, List.cons_append, lex, if_neg (by simp [notBlank]), if_pos word.1, taken, dropped,
      whole]
    rfl

theorem readLiteral_flatMap {text : List Char} (unbroken : ∀ c ∈ text, isBreak c = false)
    (rest : List Char) :
    readLiteral false (text.flatMap escapeChar ++ '\'' :: rest) = some (text, rest) := by
  induction text with
  | nil => rfl
  | cons c text ih =>
    simp only [List.mem_cons, forall_eq_or_imp] at unbroken
    have behind := ih unbroken.2
    rw [List.flatMap_cons, List.append_assoc]
    by_cases marked : (c = '\\' || c = '\'') = true
    · have escape : escapeChar c = ['\\', c] := if_pos marked
      rw [escape]
      simp only [List.cons_append, List.nil_append, readLiteral, behind, marked, if_true]
      rfl
    · have escape : escapeChar c = [c] := if_neg marked
      simp only [Bool.or_eq_true, decide_eq_true_eq, not_or] at marked
      rw [escape]
      simp [readLiteral, behind, marked.1, marked.2, unbroken.1]

theorem lexes_literal {s : String} (unbroken : isUnbroken s) :
    Lexes (literal s).toList [.literal s] := by
  intro rest _
  have plain : ∀ c ∈ s.toList, isBreak c = false := by simpa [isUnbroken] using unbroken
  have said := readLiteral_flatMap plain rest
  rw [toList_literal, List.cons_append, List.append_assoc, List.singleton_append, lex,
    if_neg (by decide), if_neg (by decide), if_pos rfl]
  split
  · next t behind found =>
    cases said.symm.trans found
    rw [String.ofList_toList]
    rfl
  · next none => simp [said] at none

/-! ### Reading -/

theorem Reader.run_append (r : Reader) (ts us : List Token) :
    r.run (ts ++ us) = (r.run ts).bind fun s => s.run us := List.foldlM_append

namespace Reading

theorem ofFactors_concat {f : Factor} (single : ¬f.IsGroup) (fs : List Factor) :
    ofFactors (fs ++ [f]) = [fs ++ [f]] := by
  unfold ofFactors
  split
  · next t same =>
    cases fs with
    | nil =>
      cases same
      exact absurd trivial single
    | cons g fs => simp at same
  · rfl

theorem after_append {t : Reading} (some : t ≠ []) (u : Reading) (fs : List Factor) :
    Reading.after fs (t ++ u) = t.after fs ++ u := by
  cases t with
  | nil => exact absurd rfl some
  | cons a t => rfl

theorem followedBy_concat (t : Reading) (fs : List Factor) (u : Reading) :
    followedBy (t ++ [fs]) u = t ++ u.after fs := by
  induction t with
  | nil => rfl
  | cons a t ih =>
    cases t with
    | nil => rfl
    | cons b t => exact congrArg (a :: ·) ih

theorem append_followedBy {t : Reading} (some : t ≠ []) (s u : Reading) :
    followedBy (s ++ t) u = s ++ followedBy t u := by
  induction s with
  | nil => rfl
  | cons a s ih =>
    cases behind : s ++ t with
    | nil =>
      rw [List.append_eq_nil_iff] at behind
      exact absurd behind.2 some
    | cons b rest =>
      rw [List.cons_append, List.cons_append, ← ih, behind]
      rfl

theorem followedBy_after {t : Reading} (some : t ≠ []) (u : Reading) (fs : List Factor) :
    followedBy (t.after fs) u = (followedBy t u).after fs := by
  cases t with
  | nil => exact absurd rfl some
  | cons a t =>
    cases t with
    | nil =>
      cases u with
      | nil => rfl
      | cons b u => simp [after, followedBy]
    | cons b t => rfl

end Reading

/-- Some tokens make a type in any place where an operand has to follow: what the part before them
gets is what it would get from the type by itself, and the last factor is still open. -/
def Makes (ts : List Token) (t : Reading) : Prop :=
  ∀ opened level, ∃ level' f, Reader.run ⟨opened, level, .operand⟩ ts =
      some ⟨opened, level', .behind [[f]]⟩ ∧ ¬f.IsGroup ∧
    level'.alternatives ++ [level'.factors ++ [f]] = level.alternatives ++ t.after level.factors

theorem Makes.ne_nil {ts : List Token} {t : Reading} (makes : Makes ts t) : t ≠ [] := by
  rintro rfl
  obtain ⟨level, f, -, -, same⟩ := makes [] {}
  have last := congrArg List.getLast? same
  simp [Reading.after] at last

theorem Level.close_factor {f : Factor} (single : ¬f.IsGroup) (l : Level) :
    l.close [[f]] = l.alternatives ++ [l.factors ++ [f]] := by
  rw [close, Reading.operands, Reading.ofFactors_concat single]

/-- Tokens that make a type make it between brackets. -/
theorem Makes.closes {ts : List Token} {t : Reading} (makes : Makes ts t) (opened : List Opened) :
    ∃ level f, Reader.run ⟨opened, {}, .operand⟩ ts = some ⟨opened, level, .behind [[f]]⟩ ∧
      level.close [[f]] = t := by
  obtain ⟨level, f, reads, single, same⟩ := makes opened {}
  refine ⟨level, f, reads, ?_⟩
  rw [Level.close_factor single, same]
  cases t with
  | nil => exact absurd rfl makes.ne_nil
  | cons a t => rfl

theorem makes_factor {ts : List Token} {f : Factor} (single : ¬f.IsGroup)
    (reads : ∀ opened level, Reader.run ⟨opened, level, .operand⟩ ts =
      some ⟨opened, level, .behind [[f]]⟩) : Makes ts [[f]] :=
  fun opened level => ⟨level, f, reads opened level, single, rfl⟩

theorem Makes.bar {ts us : List Token} {t u : Reading} (first : Makes ts t) (second : Makes us u) :
    Makes (ts ++ .mark .bar :: us) (t ++ u) := by
  intro opened level
  obtain ⟨middle, f, reads, single, same⟩ := first opened level
  obtain ⟨level', g, reads', single', same'⟩ := second opened (middle.bar [[f]])
  refine ⟨level', g, ?_, single', ?_⟩
  · rw [Reader.run_append, reads]
    exact reads'
  · rw [same', Level.bar, Level.close_factor single, same, Reading.after_append first.ne_nil,
      List.append_assoc]
    cases u with
    | nil => exact absurd rfl second.ne_nil
    | cons a u => rfl

theorem Makes.ampersand {ts us : List Token} {t u : Reading} (first : Makes ts t)
    (second : Makes us u) : Makes (ts ++ .mark .ampersand :: us) (t.followedBy u) := by
  intro opened level
  obtain ⟨middle, f, reads, single, same⟩ := first opened level
  obtain ⟨level', g, reads', single', same'⟩ := second opened (middle.ampersand [[f]])
  refine ⟨level', g, ?_, single', ?_⟩
  · rw [Reader.run_append, reads]
    exact reads'
  · have some : t.after level.factors ≠ [] := by cases t <;> simp [Reading.after]
    rw [same', Level.ampersand, Reading.operands, ← Reading.followedBy_concat, same,
      Reading.append_followedBy some, Reading.followedBy_after first.ne_nil]

/-- Brackets behind a single factor. -/
theorem Makes.array {ts : List Token} {f : Factor} (makes : Makes ts [[f]]) :
    Makes (ts ++ [.mark .bracket, .mark .bracketEnd]) [[.array [[f]]]] := by
  refine makes_factor id fun opened level => ?_
  obtain ⟨level', g, reads, -, same⟩ := makes opened level
  obtain ⟨alternatives, open_⟩ := List.append_inj' same rfl
  have joined : level'.factors ++ [g] = level.factors ++ [f] := (List.cons.inj open_).1
  obtain ⟨factors, last⟩ := List.append_inj' joined rfl
  cases last
  obtain ⟨alternatives', factors'⟩ := level'
  cases alternatives
  cases factors
  rw [Reader.run_append, reads]
  rfl

/-- Parentheses around a type, and brackets behind them. -/
theorem Makes.groupArray {ts : List Token} {t : Reading} (makes : Makes ts t) :
    Makes (.mark .parenthesis :: ts ++ [.mark .parenthesisEnd, .mark .bracket, .mark .bracketEnd])
      [[.array t]] := by
  refine makes_factor id fun opened level => ?_
  obtain ⟨level', f, reads, closes⟩ := makes.closes (.group level :: opened)
  have opens : Reader.run ⟨opened, level, .operand⟩ (.mark .parenthesis :: ts) =
      some ⟨.group level :: opened, level', .behind [[f]]⟩ := reads
  rw [Reader.run_append, opens, ← closes]
  rfl

/-! ### Texts -/

/-- A text is read as a type wherever an operand has to follow. -/
def Reads (text : List Char) (t : Reading) : Prop := ∃ ts, Lexes text ts ∧ Makes ts t

theorem read_of_reads {text : String} {t : Reading} (reads : Reads text.toList t) :
    read text = some t := by
  obtain ⟨ts, lexes, makes⟩ := reads
  have cut := lexes [] (by simp [Stops])
  rw [List.append_nil, lex, Option.map_some, List.append_nil] at cut
  obtain ⟨level, f, run, closes⟩ := makes.closes []
  unfold read
  simp only [cut]
  rw [show Reader.run {} ts = _ from run]
  exact congrArg some closes

theorem reads_name {s : String} (word : isWord s) : Reads s.toList [[.name s]] :=
  ⟨_, lexes_word word, makes_factor id fun _ _ => rfl⟩

theorem reads_literal {s : String} (unbroken : isUnbroken s) :
    Reads (literal s).toList [[.literal s]] :=
  ⟨_, lexes_literal unbroken, makes_factor id fun _ _ => rfl⟩

section Joined

variable {a b : List Char} {t u : Reading}

theorem Reads.bar (first : Reads a t) (second : Reads b u) :
    Reads (a ++ ' ' :: '|' :: ' ' :: b) (t ++ u) := by
  obtain ⟨ts, cut, makes⟩ := first
  obtain ⟨us, cut', makes'⟩ := second
  exact ⟨_, cut.append (cut'.blank.mark .bar).blank (stops_cons (by decide)), makes.bar makes'⟩

theorem Reads.ampersand (first : Reads a t) (second : Reads b u) :
    Reads (a ++ ' ' :: '&' :: ' ' :: b) (t.followedBy u) := by
  obtain ⟨ts, cut, makes⟩ := first
  obtain ⟨us, cut', makes'⟩ := second
  exact ⟨_, cut.append (cut'.blank.mark .ampersand).blank (stops_cons (by decide)), makes.ampersand makes'⟩

theorem Reads.array {f : Factor} (items : Reads a [[f]]) :
    Reads (a ++ ['[', ']']) [[.array [[f]]]] := by
  obtain ⟨ts, cut, makes⟩ := items
  exact ⟨_, cut.append ((lexes_nil.mark .bracketEnd).mark .bracket) (stops_cons (by decide)), makes.array⟩

theorem Reads.groupArray (items : Reads a t) :
    Reads (('(' :: a ++ [')']) ++ ['[', ']']) [[.array t]] := by
  obtain ⟨ts, cut, makes⟩ := items
  have ends : Lexes [')', '[', ']'] [.mark .parenthesisEnd, .mark .bracket, .mark .bracketEnd] :=
    ((lexes_nil.mark .bracketEnd).mark .bracket).mark .parenthesisEnd
  refine ⟨_, ?_, makes.groupArray⟩
  have whole := (cut.append ends (stops_cons (by decide))).mark .parenthesis
  simpa [Mark.char] using whole

end Joined

/-! ### Records and maps -/

/-- Where the key of a member may stand behind the members given. -/
def Place.TakesKey (members : List (Member Reading)) : Place → Prop
  | .brace => members = []
  | .key before => before = members
  | _ => False

/-- Tokens of a member, from its key to the end of its type. -/
def MakesMember (ts : List Token) (m : Member Reading) : Prop :=
  ∀ opened level members place, Place.TakesKey members place → ∃ level' f,
    Reader.run ⟨opened, level, place⟩ ts =
      some ⟨.member level members m.name m.required :: opened, level', .behind [[f]]⟩ ∧
    level'.close [[f]] = m.type

/-- Tokens of members, before the brace that ends their record. -/
def MakesMembers (ts : List Token) (ms : List (Member Reading)) : Prop :=
  ∀ opened level members place, Place.TakesKey members place →
    Reader.run ⟨opened, level, place⟩ (ts ++ [.mark .braceEnd]) =
      some ⟨opened, level, .behind [[.record (members ++ ms)]]⟩

def Token.IsKey (name : String) (t : Token) : Prop := t = .name name ∨ t = .literal name

theorem makesMember {key : Token} {name : String} (isKey : key.IsKey name) (required : Bool)
    {ts : List Token} {t : Reading} (makes : Makes ts t) :
    MakesMember (key :: (if required then [] else [.mark .question]) ++ .mark .colon :: ts)
      ⟨name, required, t⟩ := by
  intro opened level members place takes
  obtain ⟨level', f, reads, closes⟩ := makes.closes (.member level members name required :: opened)
  refine ⟨level', f, ?_, closes⟩
  have named : Reader.step ⟨opened, level, place⟩ key =
      some ⟨opened, level, .named members name⟩ := by
    cases place with
    | brace =>
      cases takes
      rcases isKey with rfl | rfl <;> rfl
    | key before =>
      cases takes
      rcases isKey with rfl | rfl <;> rfl
    | _ => cases takes
  rw [Reader.run, List.cons_append, List.foldlM_cons, named]
  cases required <;> exact reads

theorem MakesMember.last {ts : List Token} {m : Member Reading} (makes : MakesMember ts m) :
    MakesMembers ts [m] := by
  intro opened level members place takes
  obtain ⟨level', f, reads, closes⟩ := makes opened level members place takes
  obtain ⟨name, required, type⟩ := m
  subst closes
  rw [Reader.run_append, reads]
  rfl

theorem MakesMember.cons {ts us : List Token} {m : Member Reading} {ms : List (Member Reading)}
    (first : MakesMember ts m) (rest : MakesMembers us ms) :
    MakesMembers (ts ++ .mark .semicolon :: us) (m :: ms) := by
  intro opened level members place takes
  obtain ⟨level', f, reads, closes⟩ := first opened level members place takes
  have behind := rest opened level (members ++ [m]) (.key (members ++ [m])) rfl
  rw [List.append_assoc, Reader.run_append, reads, List.append_cons members m ms, ← behind]
  obtain ⟨name, required, type⟩ := m
  subst closes
  rfl

def ReadsMember (text : List Char) (m : Member Reading) : Prop :=
  ∃ ts, Lexes text ts ∧ MakesMember ts m

def ReadsMembers (text : List Char) (ms : List (Member Reading)) : Prop :=
  ∃ ts, Lexes text ts ∧ MakesMembers ts ms

theorem dropFinalBreak_of_isUnbroken {s : String} (unbroken : isUnbroken s = true) :
    Text.dropFinalBreak s.toList = s.toList := by
  refine Text.dropFinalBreak_eq_self fun member => ?_
  rw [isUnbroken, List.all_eq_true] at unbroken
  exact absurd (unbroken _ member) (by decide)

theorem isIdentifier_eq (s : String) :
    Naming.isIdentifier s = isWord (String.ofList (Text.dropFinalBreak s.toList)) := by
  rw [isWord, String.toList_ofList]
  rfl

theorem isWord_of_isIdentifier {s : String} (identifier : Naming.isIdentifier s)
    (unbroken : isUnbroken s) : isWord s := by
  rwa [isIdentifier_eq, dropFinalBreak_of_isUnbroken unbroken, String.ofList_toList] at identifier

theorem lexes_propertyKey {name : String} (unbroken : isUnbroken name) :
    ∃ key, Lexes (propertyKey name).toList [key] ∧ key.IsKey name := by
  unfold propertyKey
  split
  · next identifier => exact ⟨_, lexes_word (isWord_of_isIdentifier identifier unbroken), .inl rfl⟩
  · exact ⟨_, lexes_literal unbroken, .inr rfl⟩

theorem lexes_memberText {key type : String} {keys ts : List Token}
    (cut : Lexes key.toList keys) (required : Bool) (cut' : Lexes type.toList ts) :
    Lexes (Schema.memberText key required type).toList
      (keys ++ ((if required then [] else [.mark .question]) ++ .mark .colon :: ts)) := by
  have colon : Lexes (':' :: ' ' :: type.toList) (.mark .colon :: ts) := cut'.blank.mark .colon
  cases required with
  | true =>
    have whole := cut.append colon (stops_cons (by decide))
    simpa [Schema.memberText] using whole
  | false =>
    have whole := cut.append (colon.mark .question) (stops_cons (by decide))
    simpa [Schema.memberText, Mark.char] using whole

theorem readsMember {name type : String} {t : Reading} (unbroken : isUnbroken name)
    (required : Bool) (reads : Reads type.toList t) :
    ReadsMember (Schema.memberText (propertyKey name) required type).toList
      ⟨name, required, t⟩ := by
  obtain ⟨key, cut, isKey⟩ := lexes_propertyKey unbroken
  obtain ⟨ts, cut', makes⟩ := reads
  exact ⟨_, lexes_memberText cut required cut', makesMember isKey required makes⟩

theorem ReadsMember.last {text : List Char} {m : Member Reading} (reads : ReadsMember text m) :
    ReadsMembers text [m] := by
  obtain ⟨ts, cut, makes⟩ := reads
  exact ⟨ts, cut, makes.last⟩

theorem ReadsMember.cons {a b : List Char} {m : Member Reading} {ms : List (Member Reading)}
    (first : ReadsMember a m) (rest : ReadsMembers b ms) :
    ReadsMembers (a ++ ';' :: ' ' :: b) (m :: ms) := by
  obtain ⟨ts, cut, makes⟩ := first
  obtain ⟨us, cut', makes'⟩ := rest
  exact ⟨_, cut.append (cut'.blank.mark .semicolon) (stops_cons (by decide)), makes.cons makes'⟩

theorem reads_record_nil : Reads ['\x7b', '\x7d'] [[.record []]] :=
  ⟨_, (lexes_nil.mark .braceEnd).mark .brace, makes_factor id fun _ _ => rfl⟩

theorem ReadsMembers.record {text : List Char} {ms : List (Member Reading)}
    (reads : ReadsMembers text ms) : Reads ('\x7b' :: text ++ ['\x7d']) [[.record ms]] := by
  obtain ⟨ts, cut, makes⟩ := reads
  have whole := (cut.append (lexes_nil.mark .braceEnd) (stops_cons (by decide))).mark
    .brace
  refine ⟨_, whole, makes_factor id fun opened level => ?_⟩
  exact makes opened level [] .brace rfl

theorem Reads.map {text : List Char} {t : Reading} (reads : Reads text t) :
    Reads ('\x7b' :: (("[key: string]: ").toList ++ text) ++ ['\x7d']) [[.map t]] := by
  obtain ⟨ts, cut, makes⟩ := reads
  have type : Lexes (text ++ ['\x7d']) (ts ++ [.mark .braceEnd]) :=
    cut.append (lexes_nil.mark .braceEnd) (stops_cons (by decide))
  have value : Lexes ("string".toList ++ ']' :: ':' :: ' ' :: (text ++ ['\x7d']))
      (.name "string" :: .mark .bracketEnd :: .mark .colon :: (ts ++ [.mark .braceEnd])) :=
    (lexes_word (by decide)).append ((type.blank.mark .colon).mark .bracketEnd) (stops_cons (by decide))
  have key : Lexes ("key".toList ++ ':' :: ' ' :: ("string".toList ++ ']' :: ':' :: ' ' ::
      (text ++ ['\x7d']))) (.name "key" :: .mark .colon :: .name "string" :: .mark .bracketEnd ::
        .mark .colon :: (ts ++ [.mark .braceEnd])) :=
    (lexes_word (by decide)).append (value.blank.mark .colon) (stops_cons (by decide))
  have whole := (key.mark .bracket).mark .brace
  refine ⟨_, whole, makes_factor id fun opened level => ?_⟩
  obtain ⟨level', f, run, closes⟩ := makes.closes (.values level :: opened)
  subst closes
  change Reader.run ⟨.values level :: opened, {}, .operand⟩ (ts ++ [.mark .braceEnd]) = _
  rw [Reader.run_append, run]
  rfl

end TypedClient.TypeText
