import TypedClient.Path
import TypedClient.Proofs.Text.Lists

/-!
# Resolved paths

A path that is resolved begins at the root and goes along names only: no segment of it is empty, says
nothing, leads back or has a slash. So its text is read back to the same path. Symbolic links, which
resolving would have to follow, are left out.
-/
namespace TypedClient.Path

variable {p start : Path} {s : String}

/-- A text that can stand between the slashes of a path. -/
def IsSegment (s : String) : Prop := s ≠ "" ∧ s ≠ "." ∧ '/' ∉ s.toList

/-- The path begins at the root and goes along names only. -/
structure IsClean (p : Path) : Prop where
  anchor : p.anchor = .root
  names : ∀ s ∈ p.segments, IsSegment s ∧ s ≠ back

theorem isSegment_of_mem_ofText {text : String} (member : s ∈ (ofText text).segments) :
    IsSegment s := by
  obtain ⟨nonempty, stated⟩ := ne_of_mem_segmentsOf member
  obtain ⟨piece, cut, rfl⟩ := List.mem_map.mp (List.mem_filter.mp member).1
  refine ⟨nonempty, stated, fun slash => ?_⟩
  rw [String.toList_ofList] at slash
  simpa using Text.not_of_mem_piecesBy cut _ slash

/-! ### Resolving -/

/-- The walk along segments goes nowhere else. -/
theorem mem_or_mem_of_mem_foldl_step {segments walked : List String}
    (member : s ∈ segments.foldl step walked) : s ∈ walked ∨ s ∈ segments := by
  induction segments generalizing walked with
  | nil => exact .inl member
  | cons t rest ih =>
    rcases ih member with earlier | later
    · unfold step at earlier
      split at earlier
      · exact .inl ((List.dropLast_sublist walked).subset earlier)
      · exact (List.mem_append.mp earlier).imp_right fun here =>
          List.mem_cons.mpr (.inl (List.mem_singleton.mp here))
    · exact .inr (List.mem_cons_of_mem _ later)

/-- A path resolves to a clean one from where there are segments, and from anywhere if it is absolute. -/
theorem isClean_resolve (own : ∀ s ∈ p.segments, IsSegment s)
    (above : p.isAbsolute = true ∨ ∀ s ∈ start.segments, IsSegment s) : IsClean (p.resolve start) := by
  refine ⟨rfl, fun s member => ⟨?_, fun leads => ?_⟩⟩
  · have along := (mem_or_mem_of_mem_foldl_step member).resolve_left List.not_mem_nil
    unfold append at along
    split at along
    · exact own s along
    · next relative =>
      rcases List.mem_append.mp along with before | behind
      · exact above.resolve_left relative s before
      · exact own s behind
  · exact back_notMem_resolve p start (leads ▸ member)

theorem IsClean.parent (clean : IsClean p) : IsClean p.parent :=
  ⟨clean.anchor, fun s member => clean.names s ((List.dropLast_sublist _).subset member)⟩

/-- What is read from a text resolves to a clean path from a clean one. -/
theorem isClean_resolve_ofText (text : String) (clean : IsClean start) :
    IsClean ((ofText text).resolve start) :=
  isClean_resolve (fun _ => isSegment_of_mem_ofText) (.inr fun s member => (clean.names s member).1)

/-! ### Texts of clean paths -/

theorem pieces_flatMap {segments : List String} (plain : ∀ s ∈ segments, '/' ∉ s.toList) :
    Text.pieces '/' (segments.flatMap fun s => '/' :: s.toList) = [] :: segments.map String.toList := by
  unfold Text.pieces
  induction segments with
  | nil => rfl
  | cons s rest ih =>
    rw [List.forall_mem_cons] at plain
    have apart : ∀ c ∈ s.toList, decide (c = '/') = false := fun c member =>
      decide_eq_false fun slash => plain.1 (slash ▸ member)
    rw [List.flatMap_cons, List.cons_append, ← List.nil_append ('/' :: _),
      Text.piecesBy_append (by simp), Text.piecesBy_append_of_plain apart, ih plain.2]
    simp [Text.piecesBy]

/-- The text of a clean path is read back to it. -/
theorem ofText_text (clean : IsClean p) : ofText p.text = p := by
  obtain ⟨anchor, segments⟩ := p
  obtain rfl : anchor = .root := clean.anchor
  have names : ∀ s ∈ segments, IsSegment s := fun s member => (clean.names s member).1
  cases segments with
  | nil => decide +kernel
  | cons first rest =>
    have spelled : (Path.text ⟨.root, first :: rest⟩).toList =
        (first :: rest).flatMap fun s => '/' :: s.toList := by
      simp only [Path.text]
      rw [String.toList_append, Text.toList_joinWith_cons]
      rfl
    have cut : segmentsOf ((first :: rest).flatMap fun s => '/' :: s.toList) = first :: rest := by
      rw [segmentsOf, pieces_flatMap fun s member => (names s member).2.2]
      simp only [List.map_cons, List.map_map, Function.comp_def, String.ofList_toList, List.map_id']
      rw [List.filter_cons_of_neg (by simp), List.filter_eq_self.mpr]
      intro s member
      obtain ⟨nonempty, stated, -⟩ := names s member
      simp [nonempty, stated]
    have root : anchorOf ((first :: rest).flatMap fun s => '/' :: s.toList) = .root := by
      obtain ⟨nonempty, -, plain⟩ := names first List.mem_cons_self
      cases letters : first.toList with
      | nil => exact absurd (String.toList_inj.mp letters) nonempty
      | cons c others =>
        rw [letters, List.mem_cons, not_or] at plain
        simp [anchorOf, letters, Ne.symm plain.1]
    rw [ofText, spelled, cut, root]

end TypedClient.Path
