import TypedClient.Proofs.Failure.Success
import TypedClient.Reference

/-!
# References in documents

A value mentions a reference if a mapping at or below it holds the text of the reference. A document
declares a reference if its components have an entry for it. One value covers another if it mentions
whatever the other does: a mapping covers its entries and a collection its elements.
-/
namespace TypedClient.Graph

variable {g : Graph}

/-- A mapping at the value or below it holds the text of the reference. -/
inductive Mentions (g : Graph) : Value → Reference → Prop
  | here {v : Value} {t : String} {r : Reference} (text : (g.fields v).field "$ref" = .text t)
    (parsed : Reference.parse? t = some r) : Mentions g v r
  | entry {v w : Value} {k : Scalar} {r : Reference} (member : (k, w) ∈ g.fields v)
    (inside : Mentions g w r) : Mentions g v r
  | element {v w : Value} {vs : List Value} {r : Reference} (elements : g.elements? v = some vs)
    (member : w ∈ vs) (inside : Mentions g w r) : Mentions g v r

/-- The components of a document in one namespace. -/
def components (g : Graph) (document : Value) (ns : Namespace) : Entries :=
  g.fields ((g.fields ((g.fields document).field "components")).field ns.key)

/-- The components of a document have an entry for the reference. -/
def Declares (g : Graph) (document : Value) (r : Reference) : Prop :=
  .text r.name ∈ Entries.keys (g.components document r.namespace_)

instance (g : Graph) (document : Value) (r : Reference) : Decidable (g.Declares document r) :=
  inferInstanceAs (Decidable (_ ∈ _))

theorem exists_scalar_of_mem_elements? {v : Value} {s : Scalar} {vs : List Value}
    (view : g.view v = .scalar s) (elements : g.elements? v = some vs) :
    ∀ w ∈ vs, ∃ s', w = .scalar s' := by
  intro w member
  unfold elements? at elements
  rw [view] at elements
  cases s with
  | text s =>
    obtain rfl := Option.some.inj elements
    obtain ⟨c, -, rfl⟩ := List.mem_map.mp member
    exact ⟨_, rfl⟩
  | bytes bs =>
    obtain rfl := Option.some.inj elements
    obtain ⟨b, -, rfl⟩ := List.mem_map.mp member
    exact ⟨_, rfl⟩
  | _ => cases elements

/-- Nothing is mentioned in a scalar, not even in the letters of a text. -/
theorem not_mentions_of_view_scalar {v : Value} {s : Scalar} (view : g.view v = .scalar s)
    (r : Reference) : ¬g.Mentions v r := by
  intro mention
  induction mention generalizing s with
  | here text =>
    simp only [fields, entries?, view] at text
    cases text
  | entry member =>
    simp only [fields, entries?, view] at member
    cases member
  | element elements member inside ih =>
    obtain ⟨s', rfl⟩ := exists_scalar_of_mem_elements? view elements _ member
    exact ih (view_scalar g s')

/-- Whatever is mentioned in the second value is mentioned in the first. -/
def Covers (g : Graph) (v w : Value) : Prop := ∀ r, g.Mentions w r → g.Mentions v r

namespace Covers

variable {u v w : Value}

theorem trans (upper : g.Covers u v) (lower : g.Covers v w) : g.Covers u w :=
  fun r mention => upper r (lower r mention)

theorem scalar (s : Scalar) : g.Covers v (.scalar s) :=
  fun r mention => absurd mention (not_mentions_of_view_scalar (view_scalar g s) r)

theorem entry {k : Scalar} (member : (k, w) ∈ g.fields v) : g.Covers v w :=
  fun _ mention => .entry member mention

theorem element {vs : List Value} (elements : g.elements? v = some vs) (member : w ∈ vs) :
    g.Covers v w :=
  fun _ mention => .element elements member mention

theorem optionalElement {vs : List Value} (success : g.optionalElements v = .ok vs)
    (member : w ∈ vs) : g.Covers v w := by
  rcases elements?_of_optionalElements success with rfl | elements
  · cases member
  · exact element elements member

theorem lookup (key : Scalar) : g.Covers v ((Entries.lookup? (g.fields v) key).getD .null) := by
  unfold Entries.lookup?
  cases found : (g.fields v).find? fun e => e.1.same key with
  | none => exact scalar .null
  | some e => exact entry (List.mem_of_find?_eq_some found)

theorem field (name : String) : g.Covers v ((g.fields v).field name) := lookup (.text name)

end Covers

/-- The type of this name is generated from a component that the value mentions. -/
def MentionsType (g : Graph) (v : Value) (name : String) : Prop :=
  ∃ r, g.Mentions v r ∧ r.typeName = name

theorem MentionsType.of_covers {v w : Value} {name : String} (mention : g.MentionsType w name)
    (covers : g.Covers v w) : g.MentionsType v name := by
  obtain ⟨r, mention, named⟩ := mention
  exact ⟨r, covers r mention, named⟩

end TypedClient.Graph
