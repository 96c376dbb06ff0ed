import TypedClient.Proofs.TypeText.Reading

/-!
# Spelling

Whatever text is read, the names in the type that comes out of it are words, and no literal and no
key of a member is broken over lines. The reader keeps this up from token to token, because a token
that is cut out of a text is well spelled and nothing else gets into a type.
-/
namespace TypedClient.TypeText

open Schema (Member)

/-- A word of the generated language. -/
def isWord (s : String) : Bool :=
  match s.toList with
  | [] => false
  | c :: rest => Naming.isIdentifierStart c && rest.all Naming.isIdentifierChar

/-- A text without line breaks. -/
def isUnbroken (s : String) : Bool := s.toList.all fun c => !isBreak c

def Token.IsSpelled : Token → Prop
  | .name s => isWord s
  | .literal s => isUnbroken s
  | .mark _ => True

theorem isBreak_of_isIdentifierChar {c : Char} (letter : Naming.isIdentifierChar c) :
    isBreak c = false := by
  cases broken : isBreak c with
  | false => rfl
  | true =>
    simp only [isBreak, Bool.or_eq_true, decide_eq_true_eq] at broken
    rcases broken with rfl | rfl <;> exact absurd letter (by decide)

theorem isUnbroken_of_isWord {s : String} (word : isWord s) : isUnbroken s := by
  unfold isWord at word
  unfold isUnbroken
  split at word
  · cases word
  · next c rest same =>
    simp only [Bool.and_eq_true, List.all_eq_true] at word
    simp only [same, List.all_cons, Bool.and_eq_true, List.all_eq_true, Bool.not_eq_true']
    refine ⟨isBreak_of_isIdentifierChar ?_, fun d hd => isBreak_of_isIdentifierChar (word.2 d hd)⟩
    simp [Naming.isIdentifierChar, word.1]

theorem not_isBreak_of_readLiteral {escaped : Bool} {text said rest : List Char}
    (read : readLiteral escaped text = some (said, rest)) : ∀ c ∈ said, isBreak c = false := by
  induction text generalizing escaped said with
  | nil => cases read
  | cons c text ih =>
    simp only [readLiteral] at read
    repeat' split at read
    · next marked =>
      obtain ⟨p, deeper, same⟩ := Option.map_eq_some_iff.mp read
      cases same
      intro d hd
      rcases List.mem_cons.mp hd with rfl | hd
      · simp only [Bool.or_eq_true, decide_eq_true_eq] at marked
        rcases marked with rfl | rfl <;> rfl
      · exact ih deeper d hd
    · cases read
    · cases read
      simp
    · exact ih read
    · cases read
    · next unbroken =>
      obtain ⟨p, deeper, same⟩ := Option.map_eq_some_iff.mp read
      cases same
      intro d hd
      rcases List.mem_cons.mp hd with rfl | hd
      · simpa using unbroken
      · exact ih deeper d hd

/-- The tokens of any text are well spelled. -/
theorem isSpelled_of_mem_lex {text : List Char} {ts : List Token} (cut : lex text = some ts) :
    ∀ t ∈ ts, t.IsSpelled := by
  induction length : text.length using Nat.strongRecOn generalizing text ts with
  | ind n ih =>
    cases text with
    | nil =>
      rw [lex] at cut
      cases cut
      simp
    | cons c rest =>
      rw [lex] at cut
      simp only [List.length_cons] at length
      split at cut
      · exact ih rest.length (by omega) cut rfl
      · split at cut
        · next start =>
          obtain ⟨us, behind, rfl⟩ := Option.map_eq_some_iff.mp cut
          have shorter := (List.dropWhile_sublist (l := rest) Naming.isIdentifierChar).length_le
          have others := ih _ (by omega) behind rfl
          simp only [List.mem_cons, forall_eq_or_imp]
          refine ⟨?_, others⟩
          simp only [Token.IsSpelled, isWord, String.toList_ofList, Bool.and_eq_true,
            List.all_eq_true]
          exact ⟨start, List.all_eq_true.mp List.all_takeWhile⟩
        · split at cut
          · split at cut
            · next said behind read =>
              obtain ⟨us, behind, rfl⟩ := Option.map_eq_some_iff.mp cut
              have shorter := length_readLiteral read
              have others := ih _ (by omega) behind rfl
              simp only [List.mem_cons, forall_eq_or_imp]
              refine ⟨?_, others⟩
              simpa [Token.IsSpelled, isUnbroken] using not_isBreak_of_readLiteral read
            · cases cut
          · split at cut
            · obtain ⟨us, behind, rfl⟩ := Option.map_eq_some_iff.mp cut
              have others := ih rest.length (by omega) behind rfl
              simp only [List.mem_cons, forall_eq_or_imp]
              exact ⟨trivial, others⟩
            · cases cut

/-! ### Parts of types -/

namespace Factor

/-- The factors that stand directly inside a factor. -/
def inner : Factor → List Factor
  | .name _ | .literal _ => []
  | .array t | .map t | .group t => t.flatten
  | .record members => members.flatMap fun m => m.type.flatten

/-- A property of a factor and of everything inside it. -/
inductive All (p : Factor → Prop) : Factor → Prop
  | intro {f : Factor} (here : p f) (inner : ∀ e ∈ f.inner, All p e) : All p f

theorem All.here {p : Factor → Prop} {f : Factor} (all : f.All p) : p f := by
  obtain ⟨here, -⟩ := all
  exact here

theorem All.inside {p : Factor → Prop} {f : Factor} (all : f.All p) : ∀ e ∈ f.inner, e.All p := by
  obtain ⟨-, inner⟩ := all
  exact inner

/-- No name and no key that could not be written. -/
def IsSpelled : Factor → Prop
  | .name s => isWord s
  | .literal s => isUnbroken s
  | .record members => ∀ m ∈ members, isUnbroken m.name
  | _ => True

end Factor

namespace Reading

/-- A property of everything inside a type. -/
def All (p : Factor → Prop) (t : Reading) : Prop := ∀ f ∈ t.flatten, f.All p

variable {p : Factor → Prop} {t u : Reading}

theorem All.append (first : t.All p) (second : u.All p) : Reading.All p (t ++ u) := by
  intro f hf
  rw [List.flatten_append, List.mem_append] at hf
  exact hf.elim (first f) (second f)

theorem all_single {f : Factor} (all : f.All p) : Reading.All p [[f]] := by
  intro e he
  simp only [List.flatten_cons, List.flatten_nil, List.append_nil, List.mem_singleton] at he
  subst he
  exact all

theorem All.single {f : Factor} (all : Reading.All p [[f]]) : f.All p := all f (by simp)

theorem all_operands (group : ∀ t, p (.group t)) (all : t.All p) : ∀ f ∈ t.operands, f.All p := by
  unfold operands
  split
  · intro f hf
    exact all f (by simpa using hf)
  · simp only [List.mem_singleton, forall_eq]
    exact .intro (group _) all

theorem all_ofFactors {fs : List Factor} (all : ∀ f ∈ fs, f.All p) :
    Reading.All p (ofFactors fs) := by
  unfold ofFactors
  split
  · exact (all _ List.mem_cons_self).inside
  · intro f hf
    exact all f (by simpa using hf)

end Reading

/-! ### What the reader keeps up -/

namespace Reader

/-- Members whose keys and types are well spelled. -/
def MembersSpelled (members : List (Member Reading)) : Prop :=
  ∀ m ∈ members, isUnbroken m.name ∧ m.type.All Factor.IsSpelled

structure LevelSpelled (l : Level) : Prop where
  alternatives : Reading.All Factor.IsSpelled l.alternatives
  factors : ∀ f ∈ l.factors, f.All Factor.IsSpelled

def OpenedSpelled : Opened → Prop
  | .group outer | .values outer => LevelSpelled outer
  | .member outer members name _ => LevelSpelled outer ∧ MembersSpelled members ∧ isUnbroken name

def PlaceSpelled : Place → Prop
  | .behind t | .bracket t => t.All Factor.IsSpelled
  | .key members => MembersSpelled members
  | .named members name | .optional members name => MembersSpelled members ∧ isUnbroken name
  | _ => True

structure IsSpelled (r : Reader) : Prop where
  opened : ∀ o ∈ r.opened, OpenedSpelled o
  level : LevelSpelled r.level
  place : PlaceSpelled r.place

variable {r r' : Reader}

theorem levelSpelled_empty : LevelSpelled {} where
  alternatives := by simp [Reading.All]
  factors := by simp

theorem all_close {l : Level} {t : Reading} (level : LevelSpelled l)
    (type : t.All Factor.IsSpelled) : (l.close t).All Factor.IsSpelled := by
  refine level.alternatives.append (Reading.all_ofFactors fun f hf => ?_)
  rcases List.mem_append.mp hf with hf | hf
  · exact level.factors f hf
  · exact Reading.all_operands (fun _ => trivial) type f hf

theorem membersSpelled_concat {members : List (Member Reading)} {m : Member Reading}
    (before : MembersSpelled members) (key : isUnbroken m.name)
    (type : m.type.All Factor.IsSpelled) : MembersSpelled (members ++ [m]) := by
  intro n hn
  rcases List.mem_append.mp hn with hn | hn
  · exact before n hn
  · rw [List.mem_singleton.mp hn]
    exact ⟨key, type⟩

theorem all_record {members : List (Member Reading)} (spelled : MembersSpelled members) :
    Reading.All Factor.IsSpelled [[.record members]] := by
  refine Reading.all_single (.intro (fun m hm => (spelled m hm).1) fun e he => ?_)
  obtain ⟨m, hm, he⟩ := List.mem_flatMap.mp he
  exact (spelled m hm).2 e he

theorem isSpelled_operand {t : Token} (before : r.IsSpelled) (token : t.IsSpelled)
    (step : r.operand t = some r') : r'.IsSpelled := by
  unfold operand at step
  split at step <;> cases step
  · exact ⟨before.opened, before.level, Reading.all_single (.intro token (by simp [Factor.inner]))⟩
  · exact ⟨before.opened, before.level, Reading.all_single (.intro token (by simp [Factor.inner]))⟩
  · refine ⟨fun o ho => ?_, levelSpelled_empty, trivial⟩
    rcases List.mem_cons.mp ho with rfl | ho
    · exact before.level
    · exact before.opened o ho
  · exact ⟨before.opened, before.level, trivial⟩

theorem isSpelled_key {members : List (Member Reading)} {t : Token} (before : r.IsSpelled)
    (spelled : MembersSpelled members) (token : t.IsSpelled) (step : r.key members t = some r') :
    r'.IsSpelled := by
  unfold key at step
  split at step <;> cases step
  · exact ⟨before.opened, before.level, spelled, isUnbroken_of_isWord token⟩
  · exact ⟨before.opened, before.level, spelled, token⟩

theorem isSpelled_behind {t : Reading} {m : Mark} (before : r.IsSpelled)
    (type : t.All Factor.IsSpelled) (step : r.behind t m = some r') : r'.IsSpelled := by
  have closed := all_close before.level type
  have member : ∀ {outer members name required opened},
      r.opened = .member outer members name required :: opened →
      (∀ o ∈ opened, OpenedSpelled o) ∧ LevelSpelled outer ∧
        MembersSpelled (members ++ [⟨name, required, r.level.close t⟩]) := by
    intro outer members name required opened same
    have all := before.opened
    simp only [same, List.mem_cons, forall_eq_or_imp] at all
    obtain ⟨⟨level, spelled, key⟩, others⟩ := all
    exact ⟨others, level, membersSpelled_concat spelled key closed⟩
  unfold behind at step
  split at step
  · cases step
    exact ⟨before.opened, ⟨closed, by simp [Level.bar]⟩, trivial⟩
  · cases step
    refine ⟨before.opened, ⟨before.level.alternatives, fun f hf => ?_⟩, trivial⟩
    rcases List.mem_append.mp hf with hf | hf
    · exact before.level.factors f hf
    · exact Reading.all_operands (fun _ => trivial) type f hf
  · cases step
    exact ⟨before.opened, before.level, type⟩
  · split at step
    · next outer opened same =>
      cases step
      have all := before.opened
      simp only [same, List.mem_cons, forall_eq_or_imp] at all
      exact ⟨all.2, all.1, closed⟩
    · cases step
  · split at step
    · next same =>
      cases step
      obtain ⟨others, level, members⟩ := member same
      exact ⟨others, level, members⟩
    · cases step
  · split at step
    · next same =>
      cases step
      obtain ⟨others, level, members⟩ := member same
      exact ⟨others, level, all_record members⟩
    · next outer opened same =>
      cases step
      have all := before.opened
      simp only [same, List.mem_cons, forall_eq_or_imp] at all
      exact ⟨all.2, all.1, Reading.all_single (.intro trivial closed)⟩
    · cases step
  · cases step

/-- A token that is well spelled leaves nothing behind that is not. -/
theorem isSpelled_step {t : Token} (before : r.IsSpelled) (token : t.IsSpelled)
    (next : r.step t = some r') : r'.IsSpelled := by
  have place := before.place
  have none : MembersSpelled [] := by simp [MembersSpelled]
  have opens : ∀ {members name required}, MembersSpelled members → isUnbroken name →
      IsSpelled ⟨.member r.level members name required :: r.opened, {}, .operand⟩ := by
    intro members name required spelled key
    refine ⟨fun o ho => ?_, levelSpelled_empty, trivial⟩
    rcases List.mem_cons.mp ho with rfl | ho
    · exact ⟨before.level, spelled, key⟩
    · exact before.opened o ho
  unfold step at next
  split at next
  · exact isSpelled_operand before token next
  · next type m same =>
    rw [same] at place
    exact isSpelled_behind before place next
  · next type same =>
    rw [same] at place
    cases next
    exact ⟨before.opened, before.level, Reading.all_single (.intro trivial place)⟩
  · cases next
    exact ⟨before.opened, before.level, all_record none⟩
  · cases next
    exact ⟨before.opened, before.level, trivial⟩
  · exact isSpelled_key before none token next
  · next members same =>
    rw [same] at place
    exact isSpelled_key before place token next
  · next members name same =>
    rw [same] at place
    cases next
    exact ⟨before.opened, before.level, place⟩
  · next members name same =>
    rw [same] at place
    cases next
    exact opens place.1 place.2
  · next members name same =>
    rw [same] at place
    cases next
    exact opens place.1 place.2
  · cases next
    exact ⟨before.opened, before.level, trivial⟩
  · cases next
    exact ⟨before.opened, before.level, trivial⟩
  · cases next
    exact ⟨before.opened, before.level, trivial⟩
  · cases next
    exact ⟨before.opened, before.level, trivial⟩
  · cases next
    refine ⟨fun o ho => ?_, levelSpelled_empty, trivial⟩
    rcases List.mem_cons.mp ho with rfl | ho
    · exact before.level
    · exact before.opened o ho
  · cases next

theorem isSpelled_run {ts : List Token} (before : r.IsSpelled) (tokens : ∀ t ∈ ts, t.IsSpelled)
    (reads : r.run ts = some r') : r'.IsSpelled := by
  induction ts generalizing r with
  | nil =>
    cases reads
    exact before
  | cons t ts ih =>
    rw [run, List.foldlM_cons] at reads
    obtain ⟨s, next, reads⟩ := Option.bind_eq_some_iff.mp reads
    simp only [List.mem_cons, forall_eq_or_imp] at tokens
    exact ih (isSpelled_step before tokens.1 next) tokens.2 reads

end Reader

/-- Whatever is read is well spelled. -/
theorem isSpelled_of_read {text : String} {t : Reading} (reads : read text = some t) :
    t.All Factor.IsSpelled := by
  unfold read at reads
  split at reads
  · next ts cut =>
    obtain ⟨r, reads, done⟩ := Option.bind_eq_some_iff.mp reads
    have start : Reader.IsSpelled {} := ⟨by simp, Reader.levelSpelled_empty, trivial⟩
    have spelled := Reader.isSpelled_run start (isSpelled_of_mem_lex cut) reads
    unfold Reader.finish at done
    split at done
    · next type _ same =>
      cases done
      have place := spelled.place
      rw [same] at place
      exact Reader.all_close spelled.level place
    · cases done
  · cases reads

end TypedClient.TypeText
