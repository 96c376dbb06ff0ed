import Mathlib.Data.List.TakeWhile
import TypedClient.Route

/-!
# The pieces of a route

A route whose braces are in order is written as a list of plain pieces, and these pieces are found in
it again. The placeholder that `delete` cuts off is the last piece, behind a slash.
-/
namespace TypedClient.Route

/-- A piece as it stands in a route. -/
def Piece.written : Piece → List Char
  | .char c => [c]
  | .placeholder name => '\x7b' :: (name.toList ++ ['\x7d'])

/-- The route that pieces make up. -/
def written (ps : List Piece) : List Char := ps.flatMap Piece.written

/-- There is no brace in the piece but the two around the name of a placeholder, and there is a
name. -/
def Piece.IsPlain : Piece → Prop
  | .char c => c ≠ '\x7b' ∧ c ≠ '\x7d'
  | .placeholder name => name ≠ "" ∧ '\x7b' ∉ name.toList ∧ '\x7d' ∉ name.toList

instance : (p : Piece) → Decidable p.IsPlain
  | .char _ => inferInstanceAs (Decidable (_ ∧ _))
  | .placeholder _ => inferInstanceAs (Decidable (_ ∧ _))

theorem placeholder?_eq_some_iff {text name rest : List Char} :
    placeholder? text = some (name, rest) ↔
      text = name ++ '\x7d' :: rest ∧ name ≠ [] ∧ '\x7d' ∉ name := by
  constructor
  · intro found
    unfold placeholder? at found
    split at found
    · next c front d tail before behind =>
      obtain ⟨rfl, rfl⟩ := Prod.mk.inj (Option.some.inj found)
      have close : d = '\x7d' := by
        have head := List.head?_dropWhile_not (fun c => decide (c ≠ '\x7d')) text
        rw [behind] at head
        simpa using head
      refine ⟨?_, List.cons_ne_nil _ _, fun member => ?_⟩
      · rw [← close, ← before, ← behind, List.takeWhile_append_dropWhile]
      · have inside := List.all_eq_true.mp (List.all_takeWhile (l := text)
          (p := fun c => decide (c ≠ '\x7d'))) _ (before ▸ member)
        simp at inside
    · cases found
  · rintro ⟨rfl, some, closed⟩
    have inside : ∀ c ∈ name, decide (c ≠ '\x7d') = true := fun c member =>
      decide_eq_true fun same => closed (same ▸ member)
    have before : (name ++ '\x7d' :: rest).takeWhile (fun c => decide (c ≠ '\x7d')) = name := by
      rw [List.takeWhile_append_of_pos inside]
      simp
    have behind : (name ++ '\x7d' :: rest).dropWhile (fun c => decide (c ≠ '\x7d')) =
        '\x7d' :: rest := by
      rw [List.dropWhile_append_of_pos inside]
      simp
    unfold placeholder?
    rw [before, behind]
    cases name with
    | nil => exact absurd rfl some
    | cons c name => rfl

theorem pieces_char {c : Char} (other : c ≠ '\x7b') (text : List Char) :
    pieces (c :: text) = .char c :: pieces text := by
  rw [pieces, if_neg other]

theorem pieces_brace (text : List Char) :
    pieces ('\x7b' :: text) = match placeholder? text with
      | some (name, after) => .placeholder (String.ofList name) :: pieces after
      | none => .char '\x7b' :: pieces text := by
  rw [pieces, if_pos rfl]
  split
  · next found => rw [found]
  · next none => rw [none]

/-- Pieces are found again in the route that they make up. -/
theorem pieces_written {ps : List Piece} (plain : ∀ p ∈ ps, p.IsPlain) :
    pieces (written ps) = ps := by
  induction ps with
  | nil => rw [written, List.flatMap_nil, pieces]
  | cons p ps ih =>
    obtain ⟨here, plain⟩ := List.forall_mem_cons.mp plain
    have rest := ih plain
    cases p with
    | char c => exact (pieces_char here.1 _).trans (congrArg _ rest)
    | placeholder name =>
      have found : placeholder? (name.toList ++ '\x7d' :: written ps) =
          some (name.toList, written ps) :=
        placeholder?_eq_some_iff.mpr ⟨rfl, fun empty => here.1 (String.toList_eq_nil_iff.mp empty),
          here.2.2⟩
      have text : written (.placeholder name :: ps) =
          '\x7b' :: (name.toList ++ '\x7d' :: written ps) := by
        simp [written, Piece.written]
      rw [text, pieces_brace, found]
      simp only [String.ofList_toList, rest]

/-- Nothing of a route is lost in its pieces. -/
theorem written_pieces (text : List Char) : written (pieces text) = text := by
  fun_induction pieces text with
  | case1 => rfl
  | case2 rest name after found ih =>
    obtain ⟨rfl, -, -⟩ := placeholder?_eq_some_iff.mp found
    have here : written (.placeholder (String.ofList name) :: pieces after) =
        '\x7b' :: (name ++ '\x7d' :: written (pieces after)) := by
      simp [written, Piece.written]
    rw [here, ih]
  | case3 rest none ih => exact congrArg ('\x7b' :: ·) ih
  | case4 c rest other ih => exact congrArg (c :: ·) ih

theorem closes_of_mem_pieces {text : List Char} {name : String}
    (member : .placeholder name ∈ pieces text) : '\x7d' ∈ text := by
  rw [← written_pieces text]
  exact List.mem_flatMap.mpr ⟨_, member, by simp [Piece.written]⟩

/-- The placeholders of a route are placeholders of every route that starts with it. -/
theorem mem_pieces_append {text : List Char} (more : List Char) {name : String}
    (member : .placeholder name ∈ pieces text) : .placeholder name ∈ pieces (text ++ more) := by
  fun_induction pieces text with
  | case1 => cases member
  | case2 rest first after found ih =>
    obtain ⟨rfl, some, closed⟩ := placeholder?_eq_some_iff.mp found
    have found' : placeholder? (first ++ '\x7d' :: (after ++ more)) = .some (first, after ++ more) :=
      placeholder?_eq_some_iff.mpr ⟨rfl, some, closed⟩
    rw [List.cons_append, List.append_assoc, List.cons_append, pieces_brace, found']
    exact List.mem_cons.mpr ((List.mem_cons.mp member).imp_right ih)
  | case3 rest none ih =>
    have inside := (List.mem_cons.mp member).resolve_left nofun
    -- a placeholder that goes on behind the text would have been found in the text itself
    have none' : placeholder? (rest ++ more) = .none := by
      refine Option.eq_none_iff_forall_ne_some.mpr fun (first, after) found => ?_
      obtain ⟨cut, some, closed⟩ := placeholder?_eq_some_iff.mp found
      rcases List.append_eq_append_iff.mp cut with ⟨t, rfl, -⟩ | ⟨t, rfl, behind⟩
      · exact closed (List.mem_append_left _ (closes_of_mem_pieces inside))
      · cases t with
        | nil => exact closed (List.append_nil first ▸ closes_of_mem_pieces inside)
        | cons c t =>
          obtain ⟨rfl, -⟩ := List.cons.inj behind
          rw [placeholder?_eq_some_iff.mpr ⟨rfl, some, closed⟩] at none
          cases none
    rw [List.cons_append, pieces_brace, none']
    exact List.mem_cons_of_mem _ (ih inside)
  | case4 c rest other ih =>
    rw [List.cons_append, pieces_char other]
    exact List.mem_cons_of_mem _ (ih ((List.mem_cons.mp member).resolve_left nofun))

theorem mem_placeholders_iff {text : List Char} {name : String} :
    name ∈ placeholders text ↔ .placeholder name ∈ pieces text := by
  unfold placeholders
  rw [List.mem_filterMap]
  constructor
  · rintro ⟨p, member, named⟩
    cases p with
    | char c => cases named
    | placeholder name' => exact Option.some.inj named ▸ member
  · exact fun member => ⟨_, member, rfl⟩

theorem mem_placeholders_append {text : List Char} (more : List Char) {name : String}
    (member : name ∈ placeholders text) : name ∈ placeholders (text ++ more) :=
  mem_placeholders_iff.mpr (mem_pieces_append more (mem_placeholders_iff.mp member))

/-! ### The placeholder that ends a route -/

theorem onlyPlaceholder?_eq_some {text name : List Char}
    (only : onlyPlaceholder? text = some name) :
    ∃ rest, text = '\x7b' :: (name ++ '\x7d' :: rest) ∧ name ≠ [] ∧ '\x7d' ∉ name ∧
      (rest = [] ∨ rest = ['\n']) := by
  unfold onlyPlaceholder? at only
  split at only
  · split at only
    · next found =>
      cases only
      obtain ⟨rfl, some, closed⟩ := placeholder?_eq_some_iff.mp found
      exact ⟨[], rfl, some, closed, .inl rfl⟩
    · next found =>
      cases only
      obtain ⟨rfl, some, closed⟩ := placeholder?_eq_some_iff.mp found
      exact ⟨['\n'], rfl, some, closed, .inr rfl⟩
    · cases only
  · cases only

theorem trailing?_cons {c : Char} {text : List Char}
    (goesOn : c = '/' → onlyPlaceholder? text = none) :
    trailing? (c :: text) = (trailing? text).map fun cut => (c :: cut.1, cut.2) := by
  have none : (if c = '/' then onlyPlaceholder? text else none) = none := by
    split
    · next slash => exact goesOn slash
    · rfl
  rw [trailing?, none]

/-- A route that is cut off ends in a slash and the placeholder that is cut off with it. There may be
a line feed behind them. -/
theorem trailing?_eq_some {text before name : List Char}
    (cut : trailing? text = some (before, name)) :
    ∃ rest, text = before ++ '/' :: '\x7b' :: (name ++ '\x7d' :: rest) ∧ name ≠ [] ∧
      '\x7d' ∉ name ∧ (rest = [] ∨ rest = ['\n']) := by
  induction text generalizing before with
  | nil => cases cut
  | cons c text ih =>
    by_cases goesOn : c = '/' → onlyPlaceholder? text = none
    · rw [trailing?_cons goesOn] at cut
      obtain ⟨⟨before', name'⟩, later, same⟩ := Option.map_eq_some_iff.mp cut
      cases same
      obtain ⟨rest, rfl, ends⟩ := ih later
      exact ⟨rest, rfl, ends⟩
    · obtain ⟨rfl, here⟩ := Classical.not_imp.mp goesOn
      obtain ⟨name', only⟩ := Option.ne_none_iff_exists'.mp here
      rw [trailing?, if_pos rfl, only] at cut
      cases cut
      obtain ⟨rest, rfl, ends⟩ := onlyPlaceholder?_eq_some only
      exact ⟨rest, rfl, ends⟩

/-- What has no opening brace in it is passed over, and the closing brace behind it too. -/
theorem trailing?_append {name : List Char} (plain : '\x7b' ∉ name) (text : List Char) :
    trailing? (name ++ '\x7d' :: text) =
      (trailing? text).map fun cut => (name ++ '\x7d' :: cut.1, cut.2) := by
  induction name with
  | nil => exact trailing?_cons (absurd · (by decide))
  | cons c name ih =>
    have plain : '\x7b' ∉ name := fun member => plain (List.mem_cons_of_mem _ member)
    have goesOn : onlyPlaceholder? (name ++ '\x7d' :: text) = none := by
      cases name with
      | nil => rfl
      | cons d name =>
        have other : d ≠ '\x7b' := fun same => plain (same ▸ List.mem_cons_self)
        unfold onlyPlaceholder?
        split
        · next brace => exact absurd (List.cons.inj brace).1 other
        · rfl
    rw [List.cons_append, trailing?_cons fun _ => goesOn, ih plain]
    cases trailing? text <;> rfl

variable {ps : List Piece}

/-- The pieces make up a route that does not end in a line feed. -/
theorem ne_concat_break (ends : (written ps).getLast? ≠ some '\n') (before : List Piece) :
    ps ≠ before ++ [.char '\n'] := by
  rintro rfl
  exact ends (by simp [written, Piece.written])

theorem onlyPlaceholder?_written (plain : ∀ p ∈ ps, p.IsPlain)
    (ends : ∀ before, ps ≠ before ++ [.char '\n']) {name : List Char}
    (only : onlyPlaceholder? (written ps) = some name) :
    ps = [.placeholder (String.ofList name)] := by
  obtain ⟨rest, text, some, closed, tail⟩ := onlyPlaceholder?_eq_some only
  have pieces : ps = .placeholder (String.ofList name) :: pieces rest := by
    rw [← pieces_written plain, text, pieces_brace, placeholder?_eq_some_iff.mpr ⟨rfl, some, closed⟩]
  rcases tail with rfl | rfl
  · rwa [Route.pieces] at pieces
  · rw [pieces_char (by decide), Route.pieces] at pieces
    exact absurd pieces (ends [_])

theorem trailing?_written_cons {p : Piece} (plain : p.IsPlain)
    (goesOn : p = .char '/' → onlyPlaceholder? (written ps) = none) :
    trailing? (written (p :: ps)) =
      (trailing? (written ps)).map fun cut => (p.written ++ cut.1, cut.2) := by
  cases p with
  | char c => exact trailing?_cons fun slash => goesOn (congrArg _ slash)
  | placeholder name =>
    have text : written (.placeholder name :: ps) =
        '\x7b' :: (name.toList ++ '\x7d' :: written ps) := by
      simp [written, Piece.written]
    rw [text, trailing?_cons (absurd · (by decide)), trailing?_append plain.2.1]
    cases trailing? (written ps) <;> simp [Piece.written]

/-- Without the slash and the placeholder that end it, a route is what stands before them. -/
theorem trailing?_written_concat {name : String} (plain : ∀ p ∈ ps, p.IsPlain)
    (last : (Piece.placeholder name).IsPlain) :
    trailing? (written (ps ++ [.char '/', .placeholder name])) =
      some (written ps, name.toList) := by
  induction ps with
  | nil =>
    have found : placeholder? (name.toList ++ ['\x7d']) = some (name.toList, []) :=
      placeholder?_eq_some_iff.mpr ⟨rfl, fun empty => last.1 (String.toList_eq_nil_iff.mp empty),
        last.2.2⟩
    have only : onlyPlaceholder? ('\x7b' :: (name.toList ++ ['\x7d'])) = some name.toList := by
      rw [onlyPlaceholder?, found]
    simp only [List.nil_append, written, List.flatMap_cons, List.flatMap_nil, Piece.written,
      List.singleton_append, List.append_nil]
    rw [trailing?, if_pos rfl, only]
  | cons p ps ih =>
    obtain ⟨here, plain⟩ := List.forall_mem_cons.mp plain
    have all : ∀ q ∈ ps ++ [.char '/', .placeholder name], q.IsPlain := by
      simp only [List.forall_mem_append, List.forall_mem_cons]
      exact ⟨plain, by decide, last, nofun⟩
    have ends : ∀ before, ps ++ [.char '/', .placeholder name] ≠ before ++ [.char '\n'] := by
      intro before same
      have last := congrArg List.getLast? same
      simp at last
    have goesOn : onlyPlaceholder? (written (ps ++ [.char '/', .placeholder name])) = none := by
      refine Option.eq_none_iff_forall_ne_some.mpr fun name' only => ?_
      have single := congrArg List.length (onlyPlaceholder?_written all ends only)
      simp at single
    rw [List.cons_append, trailing?_written_cons here fun _ => goesOn, ih plain]
    rfl

theorem trailing?_written_eq_none (plain : ∀ p ∈ ps, p.IsPlain)
    (ends : ∀ before, ps ≠ before ++ [.char '\n'])
    (other : ∀ before name, ps ≠ before ++ [.char '/', .placeholder name]) :
    trailing? (written ps) = none := by
  induction ps with
  | nil => rfl
  | cons p ps ih =>
    obtain ⟨here, plain⟩ := List.forall_mem_cons.mp plain
    have ends' : ∀ before, ps ≠ before ++ [.char '\n'] := fun before same =>
      ends (p :: before) (congrArg (p :: ·) same)
    have goesOn : p = .char '/' → onlyPlaceholder? (written ps) = none := by
      intro slash
      refine Option.eq_none_iff_forall_ne_some.mpr fun name only => ?_
      have single := onlyPlaceholder?_written plain ends' only
      exact other [] _ (by rw [slash, single]; rfl)
    rw [trailing?_written_cons here goesOn,
      ih plain ends' fun before name same => other (p :: before) name (congrArg (p :: ·) same)]
    rfl

end TypedClient.Route
