import Mathlib.Data.List.Infix
import TypedClient.Pointer
import TypedClient.Proofs.Document.Part
import TypedClient.Proofs.Failure.Success
import TypedClient.Proofs.Text.Lists

/-!
# Reading document pointers

A pointer is read segment by segment, `~1` as `/` and `~0` as `~`, and walked from a value: a segment
is a key of a mapping, or a number in a list. What is written in escaped segments is read back. Of
segments that are written as they are, just those are read back that are plain: they have no slash and
nothing that reads as an escape. No two paths lead to one node where none stands in two places.
-/
namespace TypedClient

namespace Text

theorem pieces_of_not_mem {c : Char} {text : List Char} (plain : c ∉ text) :
    pieces c text = [text] := by
  induction text with
  | nil => rfl
  | cons d text ih =>
    rw [List.mem_cons, not_or] at plain
    have rest : piecesBy (fun x => decide (x = c)) text = [text] := ih plain.2
    simp [pieces, piecesBy, rest, Ne.symm plain.1]

theorem pieces_append (c : Char) (text text' : List Char) :
    pieces c (text ++ c :: text') = pieces c text ++ pieces c text' :=
  piecesBy_append (decide_eq_true rfl) text text'

/-- A text is one piece only if no separator stands in it. -/
theorem not_mem_of_pieces {c : Char} {text piece : List Char} (one : pieces c text = [piece]) :
    c ∉ text := by
  intro member
  obtain ⟨before, after, rfl⟩ := List.append_of_mem member
  rw [pieces_append] at one
  have lengths := congrArg List.length one
  have first := List.length_pos_iff.mpr (piecesBy_ne_nil (· = c) before)
  have second := List.length_pos_iff.mpr (piecesBy_ne_nil (· = c) after)
  simp only [pieces, List.length_append, List.length_singleton] at lengths
  omega

end Text

namespace Pointer

/-! ### Segments -/

/-- The text of a segment as it is read. -/
def unescape : List Char → List Char
  | '~' :: '1' :: rest => '/' :: unescape rest
  | '~' :: '0' :: rest => '~' :: unescape rest
  | c :: rest => c :: unescape rest
  | [] => []

theorem unescape_cons {c : Char} (other : c ≠ '~') (rest : List Char) :
    unescape (c :: rest) = c :: unescape rest := by
  rw [unescape]
  · rintro rest' rfl
    exact absurd rfl other
  · rintro rest' rfl
    exact absurd rfl other

/-- What has been escaped is read as it was. -/
theorem unescape_escape (s : String) : String.ofList (unescape (escape s).toList) = s := by
  suffices read : ∀ text : List Char, unescape (text.flatMap escapeChar) = text by
    rw [toList_escape, read, String.ofList_toList]
  intro text
  induction text with
  | nil => rfl
  | cons c text ih =>
    rw [List.flatMap_cons, escapeChar]
    split
    · next tilde => rw [tilde, List.cons_append, List.cons_append, List.nil_append, unescape, ih]
    · next other =>
      split
      · next slash => rw [slash, List.cons_append, List.cons_append, List.nil_append, unescape, ih]
      · rw [List.cons_append, List.nil_append, unescape_cons other, ih]

theorem slash_not_mem_escape (s : String) : '/' ∉ (escape s).toList := by
  rw [toList_escape, List.mem_flatMap]
  rintro ⟨c, -, member⟩
  unfold escapeChar at member
  split at member
  · simp at member
  · split at member
    · simp at member
    · next other => exact other (List.mem_singleton.mp member).symm

/-- A text without the characters that are escaped stays as it is. -/
theorem escape_eq_self {s : String} (noTilde : '~' ∉ s.toList) (noSlash : '/' ∉ s.toList) :
    escape s = s := by
  have same : s.toList.flatMap escapeChar = s.toList.flatMap fun c => [c] := by
    refine List.flatMap_congr fun c member => ?_
    rw [escapeChar, if_neg (by rintro rfl; exact noTilde member),
      if_neg (by rintro rfl; exact noSlash member)]
  exact String.toList_inj.mp (by rw [toList_escape, same, List.flatMap_singleton'])

theorem escape_toString (n : Nat) : escape (toString n) = toString n := by
  have digits : ∀ c ∈ (toString n).toList, c.isDigit = true := by
    rw [Nat.toString_eq_repr, Nat.toList_repr]
    exact fun c => Nat.isDigit_of_mem_toDigits (by decide) (by decide)
  refine escape_eq_self (fun member => ?_) fun member => ?_
  · exact absurd (digits _ member) (by decide)
  · exact absurd (digits _ member) (by decide)

theorem length_unescape_le (text : List Char) : (unescape text).length ≤ text.length := by
  fun_induction unescape text <;> simp only [List.length_cons, List.length_nil] <;> omega

/-- The segment has no slash and nothing that reads as an escape. -/
structure IsPlain (segment : String) : Prop where
  noSlash : '/' ∉ segment.toList
  noEscape : ¬['~', '0'] <:+: segment.toList ∧ ¬['~', '1'] <:+: segment.toList

/-- A text reads as itself exactly if nothing in it reads as an escape. -/
theorem unescape_eq_self_iff {text : List Char} :
    unescape text = text ↔ ¬['~', '0'] <:+: text ∧ ¬['~', '1'] <:+: text := by
  fun_induction unescape text with
  | case1 rest ih =>
    refine iff_of_false (fun same => ?_) fun plain => plain.2 ⟨[], rest, rfl⟩
    exact absurd (List.cons.inj same).1 (by decide)
  | case2 rest ih =>
    refine iff_of_false (fun same => ?_) fun plain => plain.1 ⟨[], rest, rfl⟩
    have shorter := length_unescape_le rest
    rw [(List.cons.inj same).2, List.length_cons] at shorter
    omega
  | case3 c rest noSlash noTilde ih =>
    have first : ¬['~', '0'] <+: c :: rest := by
      rintro ⟨rest', same⟩
      obtain ⟨rfl, rfl⟩ := List.cons.inj same
      exact noTilde rest' rfl rfl
    have second : ¬['~', '1'] <+: c :: rest := by
      rintro ⟨rest', same⟩
      obtain ⟨rfl, rfl⟩ := List.cons.inj same
      exact noSlash rest' rfl rfl
    rw [List.cons_inj_right, ih, List.infix_cons_iff, List.infix_cons_iff, or_iff_right first,
      or_iff_right second]
  | case4 => simp

/-- The segments that the text of one is read as: more than one where it has slashes. -/
def readSegment (segment : String) : List String :=
  (Text.pieces '/' segment.toList).map fun piece => String.ofList (unescape piece)

theorem readSegment_ne_nil (segment : String) : readSegment segment ≠ [] :=
  mt List.map_eq_nil_iff.mp (Text.piecesBy_ne_nil _ _)

theorem readSegment_eq_self_iff {segment : String} :
    readSegment segment = [segment] ↔ IsPlain segment := by
  unfold readSegment
  constructor
  · intro same
    obtain ⟨piece, one, read⟩ := List.map_eq_singleton_iff.mp same
    have noSlash := Text.not_mem_of_pieces one
    obtain rfl : segment.toList = piece :=
      List.singleton_inj.mp ((Text.pieces_of_not_mem noSlash).symm.trans one)
    have same : unescape segment.toList = segment.toList := by
      rw [← String.toList_ofList (l := unescape segment.toList), read]
    exact ⟨noSlash, unescape_eq_self_iff.mp same⟩
  · rintro ⟨noSlash, noEscape⟩
    rw [Text.pieces_of_not_mem noSlash, List.map_singleton, unescape_eq_self_iff.mpr noEscape,
      String.ofList_toList]

theorem readSegment_escape (segment : String) : readSegment (escape segment) = [segment] := by
  rw [readSegment, Text.pieces_of_not_mem (slash_not_mem_escape segment), List.map_singleton,
    unescape_escape]

theorem readSegment_append (segment segment' : String) :
    readSegment (segment ++ ("/" ++ segment')) = readSegment segment ++ readSegment segment' := by
  unfold readSegment
  rw [String.toList_append, String.toList_append, ← List.map_append]
  exact congrArg _ (Text.pieces_append '/' segment.toList segment'.toList)

/-- Where elements give one element or more each and the same list in the end, each gives itself. -/
theorem eq_singleton_of_flatMap {α : Type} {f : α → List α} (some : ∀ x, f x ≠ []) {l : List α}
    (same : l.flatMap f = l) : ∀ x ∈ l, f x = [x] := by
  have longer : ∀ l : List α, l.length ≤ (l.flatMap f).length := by
    intro l
    induction l with
    | nil => exact Nat.le_refl _
    | cons x l ih =>
      have first := List.length_pos_iff.mpr (some x)
      rw [List.flatMap_cons, List.length_append, List.length_cons]
      omega
  induction l with
  | nil => nofun
  | cons x l ih =>
    obtain ⟨y, ys, given⟩ := List.exists_cons_of_ne_nil (some x)
    rw [List.flatMap_cons, given, List.cons_append] at same
    obtain ⟨rfl, rest⟩ := List.cons.inj same
    -- the rest gives as many elements as it has at least, so nothing is left over for the first
    have least := longer l
    have lengths := congrArg List.length rest
    rw [List.length_append] at lengths
    obtain rfl : ys = [] := List.length_eq_zero_iff.mp (by omega)
    exact List.forall_mem_cons.mpr ⟨given, ih rest⟩

/-! ### Pointers -/

/-- The segments that a pointer has: none, or those behind its slashes. -/
def read? (pointer : String) : Option (List String) :=
  match pointer.toList with
  | [] => some []
  | c :: rest => if c = '/' then some (readSegment (String.ofList rest)) else none

/-- Segments one after the other as they are, each behind a slash. -/
def written : List String → String
  | [] => ""
  | segment :: rest => "/" ++ (segment ++ written rest)

theorem written_append (path path' : List String) :
    written (path ++ path') = written path ++ written path' := by
  induction path with
  | nil => exact String.empty_append.symm
  | cons segment path ih => rw [List.cons_append, written, written, ih]; simp [String.append_assoc]

theorem written_pair (segment segment' : String) :
    written [segment, segment'] = "/" ++ segment ++ "/" ++ segment' := by
  simp only [written, String.append_empty, String.append_assoc]

theorem readSegment_append_written (segment : String) (path : List String) :
    readSegment (segment ++ written path) = (segment :: path).flatMap readSegment := by
  induction path generalizing segment with
  | nil => simp [written]
  | cons next path ih =>
    rw [written, readSegment_append, ih, List.flatMap_cons]
    rfl

/-- Each segment that is written is read as the segments that its text has. -/
theorem read?_written (path : List String) : read? (written path) = some (path.flatMap readSegment) := by
  cases path with
  | nil => rfl
  | cons segment path =>
    have behind : (written (segment :: path)).toList = '/' :: (segment ++ written path).toList := by
      rw [written, String.toList_append]
      rfl
    simp only [read?, behind, if_true, String.ofList_toList, readSegment_append_written]

/-- Segments that are escaped are read back. -/
theorem read?_written_escape (path : List String) :
    read? (written (path.map escape)) = some path := by
  rw [read?_written, List.flatMap_map]
  simp [readSegment_escape]

/-- Segments that are written as they are are read back exactly if they are plain. -/
theorem read?_written_eq_iff {path : List String} :
    read? (written path) = some path ↔ ∀ segment ∈ path, IsPlain segment := by
  rw [read?_written, Option.some.injEq]
  constructor
  · exact fun same segment member =>
      readSegment_eq_self_iff.mp (eq_singleton_of_flatMap readSegment_ne_nil same segment member)
  · intro plain
    have same : path.flatMap readSegment = path.flatMap fun segment => [segment] :=
      List.flatMap_congr fun segment member => readSegment_eq_self_iff.mpr (plain segment member)
    rw [same, List.flatMap_singleton']

/-- The segments of a pointer that is written as a fragment, where `#` is the root. -/
def readFragment? (fragment : String) : Option (List String) :=
  match fragment.toList with
  | [] => none
  | c :: rest => if c = '#' then read? (String.ofList rest) else none

/-- The segments behind the root are those of the pointer behind the mark. -/
theorem readFragment?_append (pointer : String) : readFragment? ("#" ++ pointer) = read? pointer := by
  have behind : ("#" ++ pointer).toList = '#' :: pointer.toList := by
    rw [String.toList_append]
    rfl
  simp only [readFragment?, behind, if_true, String.ofList_toList]

/-- The number that a segment is written as, without zeros before it. -/
def index? (segment : String) : Option Nat :=
  let n := Nat.ofDigitChars 10 segment.toList 0
  if toString n = segment then some n else none

theorem index?_eq_some_iff {segment : String} {n : Nat} :
    index? segment = some n ↔ toString n = segment := by
  unfold index?
  constructor
  · intro number
    simp only at number
    split at number
    · next same => exact Option.some.inj number ▸ same
    · cases number
  · rintro rfl
    have digits : (toString n).toList = Nat.toDigits 10 n := by
      rw [Nat.toString_eq_repr, Nat.toList_repr]
    simp only [digits, Nat.ofDigitChars_ten_toDigits, if_true]

end Pointer

/-! ### Walking down from a value -/

namespace Graph

/-- The part of a value that a segment leads to: that under a key, or that with a number. -/
def step? (g : Graph) (v : Value) (segment : String) : Option Value :=
  match g.view v with
  | .mapping _ es => Entries.lookup? es (.text segment)
  | .list _ items => (Pointer.index? segment).bind (items[·]?)
  | .pair _ first second => (Pointer.index? segment).bind ([first, second][·]?)
  | _ => none

/-- The value that segments lead to one after the other. -/
def walk? (g : Graph) : Value → List String → Option Value
  | v, [] => some v
  | v, segment :: rest => (g.step? v segment).bind fun w => walk? g w rest

/-- The pointer is read as segments that lead from the root to the value. -/
def Leads (g : Graph) (root : Value) (pointer : String) (v : Value) : Prop :=
  ∃ path, Pointer.read? pointer = some path ∧ g.walk? root path = some v

variable {g : Graph} {v w : Value} {path path' : List String}

theorem step?_of_entries? {es : Entries} (entries : g.entries? v = some es) (segment : String) :
    g.step? v segment = Entries.lookup? es (.text segment) := by
  obtain ⟨id, rfl, view⟩ := view_of_entries? entries
  rw [step?, view]

theorem step?_field {es : Entries} (entries : g.entries? v = some es) {name : String}
    (given : es.field name ≠ .null) : g.step? v name = some (es.field name) := by
  rw [step?_of_entries? entries]
  unfold Entries.field at given ⊢
  cases found : Entries.lookup? es (.text name) with
  | none =>
    rw [found] at given
    exact absurd rfl given
  | some w => rfl

theorem step?_field_fields {name : String} (given : (g.fields v).field name ≠ .null) :
    g.step? v name = some ((g.fields v).field name) :=
  step?_field (entries?_of_field name given) given

theorem step?_of_view_list {id : NodeId} {items : List Value} (view : g.view v = .list id items)
    (n : Nat) : g.step? v (toString n) = items[n]? := by
  have number : Pointer.index? (toString n) = some n := Pointer.index?_eq_some_iff.mpr rfl
  simp only [step?, view, number, Option.bind_some]

/-- An element of a list or a pair stands under its number; elements of other values are scalars. -/
theorem step?_of_elements? {vs : List Value} (elements : g.elements? v = some vs) {n : Nat}
    (member : vs[n]? = some w) : (∃ s, w = .scalar s) ∨ g.step? v (toString n) = some w := by
  have listed : w ∈ vs := List.mem_of_getElem? member
  unfold elements? at elements
  split at elements
  · next view =>
    cases elements
    exact .inr ((step?_of_view_list view n).trans member)
  · cases elements
    obtain ⟨e, -, rfl⟩ := List.mem_map.mp listed
    exact .inl ⟨_, rfl⟩
  · next view =>
    cases elements
    have number : Pointer.index? (toString n) = some n := Pointer.index?_eq_some_iff.mpr rfl
    exact .inr (by simp only [step?, view, number, Option.bind_some, member])
  · cases elements
    obtain ⟨s, -, rfl⟩ := List.mem_map.mp listed
    exact .inl ⟨_, rfl⟩
  · cases elements
    obtain ⟨c, -, rfl⟩ := List.mem_map.mp listed
    exact .inl ⟨_, rfl⟩
  · cases elements
    obtain ⟨b, -, rfl⟩ := List.mem_map.mp listed
    exact .inl ⟨_, rfl⟩
  · cases elements

/-- An entry of a mapping that has each key once stands under its key. -/
theorem step?_of_mem_fields (distinct : (Entries.keys (g.fields v)).Nodup) {name : String}
    (member : (Scalar.text name, w) ∈ g.fields v) : g.step? v name = some w := by
  cases entries : g.entries? v with
  | none =>
    rw [fields_of_other entries] at member
    cases member
  | some es =>
    rw [fields_of_entries? entries] at distinct member
    rw [step?_of_entries? entries, Entries.lookup?_text_of_mem distinct member]

/-- Behind a segment a path leads on from what the segment leads to. -/
theorem walk?_cons {segment : String} (step : g.step? v segment = some w) (path : List String) :
    g.walk? v (segment :: path) = g.walk? w path := by
  rw [walk?, step, Option.bind_some]

theorem walk?_append (path path' : List String) :
    g.walk? v (path ++ path') = (g.walk? v path).bind fun w => g.walk? w path' := by
  induction path generalizing v with
  | nil => rfl
  | cons segment path ih =>
    rw [List.cons_append, walk?, walk?, Option.bind_assoc]
    exact congrArg _ (funext fun w => ih)

/-- The segment that leads to a part, by its number. -/
def segment? (g : Graph) (v : Value) (n : Nat) : Option String :=
  match g.shape v with
  | .mapping keys =>
    match keys[n]? with
    | some (.text key) => some key
    | _ => none
  | _ => some (toString n)

theorem exists_part_of_step? {segment : String} (found : g.step? v segment = some w) :
    ∃ n : Nat, (g.parts v)[n]? = some w ∧ g.segment? v n = some segment := by
  have numbered : ∀ vs : List Value, (Pointer.index? segment).bind (vs[·]?) = some w →
      ∃ n : Nat, vs[n]? = some w ∧ toString n = segment := by
    intro vs found
    obtain ⟨n, number, here⟩ := Option.bind_eq_some_iff.mp found
    exact ⟨n, here, Pointer.index?_eq_some_iff.mp number⟩
  unfold step? at found
  unfold segment?
  rcases view_cases g v with ⟨s, rfl⟩ | ⟨view, -⟩ | ⟨id, items, view, shape, parts⟩ |
    ⟨id, es, view, shape, parts⟩ | ⟨id, first, second, view, shape, parts⟩ | ⟨id, members, view, -⟩
  case inr.inr.inl =>
    rw [view] at found
    obtain ⟨n, here, number⟩ := numbered items found
    rw [shape, parts]
    exact ⟨n, here, congrArg some number⟩
  case inr.inr.inr.inl =>
    rw [view] at found
    obtain ⟨n, here⟩ := List.mem_iff_getElem?.mp (Entries.mem_of_lookup?_text found)
    refine ⟨n, by rw [parts, List.getElem?_map, here]; rfl, ?_⟩
    rw [shape]
    simp only [Entries.keys, List.getElem?_map, here, Option.map_some]
  case inr.inr.inr.inr.inl =>
    rw [view] at found
    obtain ⟨n, here, number⟩ := numbered [first, second] found
    rw [shape, parts]
    exact ⟨n, here, congrArg some number⟩
  all_goals
    try rw [view] at found
    cases found

/-- The segments that lead to a place. -/
def spell? (g : Graph) : Value → List Nat → Option (List String)
  | _, [] => some []
  | v, n :: place =>
    (g.parts v)[n]?.bind fun w => (g.segment? v n).bind fun segment =>
      (spell? g w place).map (segment :: ·)

/-- Where segments lead there is a place that they spell. -/
theorem exists_place_of_walk? (found : g.walk? v path = some w) :
    ∃ place, g.at? v place = some w ∧ g.spell? v place = some path := by
  induction path generalizing v with
  | nil =>
    cases found
    exact ⟨[], rfl, rfl⟩
  | cons segment path ih =>
    obtain ⟨u, step, rest⟩ := Option.bind_eq_some_iff.mp found
    obtain ⟨n, part, named⟩ := exists_part_of_step? step
    obtain ⟨place, here, spelled⟩ := ih rest
    refine ⟨n :: place, ?_, ?_⟩
    · rw [at?, part, Option.bind_some, here]
    · rw [spell?, part, Option.bind_some, named, Option.bind_some, spelled]
      rfl

/-- Where no node stands in two places, no two paths lead to one node. -/
theorem Unshared.path_eq (unshared : g.Unshared v) {id : NodeId}
    (here : g.walk? v path = some (.node id)) (there : g.walk? v path' = some (.node id)) :
    path' = path := by
  obtain ⟨place, found, spelled⟩ := exists_place_of_walk? here
  obtain ⟨place', found', spelled'⟩ := exists_place_of_walk? there
  obtain rfl := unshared place place' id found found'
  exact Option.some.inj (spelled'.symm.trans spelled)

/-- Below an unshared value a pointer that is written as it is leads to the node that its segments lead
to exactly if they are plain. -/
theorem Unshared.leads_written_iff (unshared : g.Unshared v) {id : NodeId}
    (here : g.walk? v path = some (.node id)) :
    g.Leads v (Pointer.written path) (.node id) ↔ ∀ segment ∈ path, Pointer.IsPlain segment := by
  rw [← Pointer.read?_written_eq_iff]
  constructor
  · rintro ⟨path', read, there⟩
    rw [read, unshared.path_eq here there]
  · exact fun read => ⟨path, read, here⟩

/-- A pointer of escaped segments leads to what they lead to. -/
theorem leads_written_escape (here : g.walk? v path = some w) :
    g.Leads v (Pointer.written (path.map Pointer.escape)) w :=
  ⟨path, Pointer.read?_written_escape path, here⟩

end Graph

end TypedClient
