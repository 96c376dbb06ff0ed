import TypedClient.Binary64.Decimal
import TypedClient.Document.Calendar
import TypedClient.Text.Code

/-!
# Documents

A document is a graph of lists, mappings, pairs and sets over scalars. Nodes have identities
because one node may stand in several places, and may even contain itself. A mapping keeps the order
in which its keys first arrived; keys that are equal as values (`1`, `1.0` and `true`) are one key.

The statements say what writing an entry does to a mapping: a present key keeps its place, a new
one goes to the end, and the written value is found afterwards.
-/
namespace TypedClient

inductive Scalar where
  | null
  | bool (b : Bool)
  | int (n : Int)
  | float (x : Binary64)
  | text (s : String)
  | date (d : Date)
  | timestamp (t : Timestamp)
  | bytes (bs : List UInt8)
  deriving DecidableEq, Repr

abbrev NodeId := Nat

inductive Value where
  | scalar (s : Scalar)
  | node (id : NodeId)
  deriving DecidableEq, Repr

abbrev Entries := List (Scalar × Value)

inductive Node where
  | list (items : List Value)
  | mapping (entries : Entries)
  /-- An entry that stands in a list instead of a mapping. -/
  | pair (first second : Value)
  | set (members : List Scalar)
  deriving DecidableEq, Repr

structure Graph where
  nodes : Array Node := #[]
  deriving DecidableEq, Repr

/-- What a value is once its node is looked up. -/
inductive View where
  | scalar (s : Scalar)
  | list (id : NodeId) (items : List Value)
  | mapping (id : NodeId) (entries : Entries)
  | pair (id : NodeId) (first second : Value)
  | set (id : NodeId) (members : List Scalar)
  deriving DecidableEq, Repr

/-- What scalars that are equal as values have in common: numbers their value, points in time with
an offset their instant. -/
inductive Key where
  | null
  | number (n : Int)
  | float (x : Binary64)
  | text (s : String)
  | date (d : Date)
  | timestamp (t : Timestamp)
  | instant (microseconds : Int)
  | bytes (bs : List UInt8)
  deriving DecidableEq, Repr

namespace Scalar

def key : Scalar → Key
  | .null => .null
  | .bool b => .number (if b then 1 else 0)
  | .int n => .number n
  | .float x =>
    match x.toInt? with
    | some n => .number n
    | none => .float x
  | .text s => .text s
  | .date d => .date d
  | .timestamp t => if t.offset.isSome then .instant t.instant else .timestamp t
  | .bytes bs => .bytes bs

def same (a b : Scalar) : Bool := a.key = b.key

def truthy : Scalar → Bool
  | .null => false
  | .bool b => b
  | .int n => n ≠ 0
  | .float x => !x.isZero
  | .text s => s ≠ ""
  | .bytes bs => bs ≠ []
  | .date _ | .timestamp _ => true

theorem same_text_iff {a : Scalar} {s : String} : a.same (.text s) = true ↔ a = .text s := by
  cases a with
  | float x => cases hx : x.toInt? <;> simp [same, key, hx]
  | timestamp t => cases ht : t.offset <;> simp [same, key, ht]
  | _ => simp [same, key]

end Scalar

namespace Value

def null : Value := .scalar .null

def text (s : String) : Value := .scalar (.text s)

def isText (v : Value) (s : String) : Bool := v = .text s

end Value

namespace Entries

variable {α : Type}

/-- The value at a key, in any list of keyed values. -/
def lookup? (es : List (Scalar × α)) (key : Scalar) : Option α :=
  (es.find? fun e => e.1.same key).map (·.2)

/-- The value of a named field; null where there is none. -/
def field (es : Entries) (name : String) : Value := (lookup? es (.text name)).getD .null

/-- Writes an entry: in place where the key is present, at the end otherwise. -/
def put (key : Scalar) (v : α) : List (Scalar × α) → List (Scalar × α)
  | [] => [(key, v)]
  | e :: es => if e.1.same key then (e.1, v) :: es else e :: put key v es

/-- Entries written one after the other. -/
def ofList (es : List (Scalar × α)) : List (Scalar × α) :=
  es.foldl (fun acc e => put e.1 e.2 acc) []

def keys (es : List (Scalar × α)) : List Scalar := es.map (·.1)

theorem lookup?_put_self (es : List (Scalar × α)) (key : Scalar) (v : α) :
    lookup? (put key v es) key = some v := by
  induction es with
  | nil => simp [put, lookup?, Scalar.same]
  | cons e es ih =>
    by_cases he : e.1.same key
    · simp [put, lookup?, he]
    · simpa [put, lookup?, he] using ih

theorem keys_put (es : List (Scalar × α)) (key : Scalar) (v : α) :
    keys (put key v es) = if es.any (fun e => e.1.same key) then keys es else keys es ++ [key] := by
  induction es with
  | nil => rfl
  | cons e es ih =>
    by_cases he : e.1.same key
    · simp [put, keys, he]
    · simp only [put, he, Bool.false_eq_true, if_false, List.any_cons, Bool.false_or]
      by_cases ha : es.any fun e => e.1.same key
      · simpa [keys, ha] using ih
      · simpa [keys, ha] using ih

end Entries

namespace Graph

def empty : Graph := {}

def add (g : Graph) (n : Node) : Graph × Value := (⟨g.nodes.push n⟩, .node g.nodes.size)

def set (g : Graph) (id : NodeId) (n : Node) : Graph := ⟨g.nodes.setIfInBounds id n⟩

def view (g : Graph) : Value → View
  | .scalar s => .scalar s
  | .node id =>
    match g.nodes[id]? with
    | some (.list items) => .list id items
    | some (.mapping entries) => .mapping id entries
    | some (.pair first second) => .pair id first second
    | some (.set members) => .set id members
    | none => .scalar .null

/-- Null, false, zero and whatever is empty are false; all else is true. -/
def truthy (g : Graph) (v : Value) : Bool :=
  match g.view v with
  | .scalar s => s.truthy
  | .list _ items => !items.isEmpty
  | .mapping _ entries => !entries.isEmpty
  | .pair _ _ _ => true
  | .set _ members => !members.isEmpty

def entries? (g : Graph) (v : Value) : Option Entries :=
  match g.view v with
  | .mapping _ entries => some entries
  | _ => none

def isMapping (g : Graph) (v : Value) : Bool := (g.entries? v).isSome

/-- The elements that a value is walked over by: those of a list, pair or set, the keys of a
mapping, the letters of a text, the numbers of a byte string. -/
def elements? (g : Graph) (v : Value) : Option (List Value) :=
  match g.view v with
  | .list _ items => some items
  | .mapping _ entries => some (entries.map fun e => .scalar e.1)
  | .pair _ first second => some [first, second]
  | .set _ members => some (members.map .scalar)
  | .scalar (.text s) => some ((Text.letters s.toList).map fun c => .text (String.ofList c))
  | .scalar (.bytes bs) => some (bs.map fun b => .scalar (.int b.toNat))
  | .scalar _ => none

@[simp] theorem view_scalar (g : Graph) (s : Scalar) : g.view (.scalar s) = .scalar s := rfl

theorem lt_size_of_view_list {g : Graph} {v : Value} {id : NodeId} {items : List Value}
    (h : g.view v = .list id items) : id < g.nodes.size := by
  cases v with
  | scalar s => simp [view] at h
  | node i =>
    simp only [view] at h
    split at h <;> try contradiction
    next _ hi =>
      obtain ⟨hlt, -⟩ := Array.getElem?_eq_some_iff.mp hi
      simp only [View.list.injEq] at h
      exact h.1 ▸ hlt

theorem lt_size_of_view_mapping {g : Graph} {v : Value} {id : NodeId} {es : Entries}
    (h : g.view v = .mapping id es) : id < g.nodes.size := by
  cases v with
  | scalar s => simp [view] at h
  | node i =>
    simp only [view] at h
    split at h <;> try contradiction
    next _ hi =>
      obtain ⟨hlt, -⟩ := Array.getElem?_eq_some_iff.mp hi
      simp only [View.mapping.injEq] at h
      exact h.1 ▸ hlt

theorem lt_size_of_view_pair {g : Graph} {v first second : Value} {id : NodeId}
    (h : g.view v = .pair id first second) : id < g.nodes.size := by
  cases v with
  | scalar s => simp [view] at h
  | node i =>
    simp only [view] at h
    split at h <;> try contradiction
    next _ _ hi =>
      obtain ⟨hlt, -⟩ := Array.getElem?_eq_some_iff.mp hi
      simp only [View.pair.injEq] at h
      exact h.1 ▸ hlt

/-- How many nodes are not among `active`: what bounds a descent that enters no node twice. -/
def unvisited (g : Graph) (active : List NodeId) : Nat :=
  ((List.range g.nodes.size).filter fun id => id ∉ active).length

theorem unvisited_cons_lt {g : Graph} {active : List NodeId} {id : NodeId}
    (hlt : id < g.nodes.size) (hnew : id ∉ active) :
    g.unvisited (id :: active) < g.unvisited active := by
  have split : (List.range g.nodes.size).filter (fun i => i ∉ id :: active) =
      ((List.range g.nodes.size).filter fun i => i ∉ active).filter (fun i => i ≠ id) := by
    rw [List.filter_filter]
    apply List.filter_congr
    intro i _
    simp [not_or]
  have member : id ∈ (List.range g.nodes.size).filter fun i => i ∉ active := by
    simp [hlt, hnew]
  rw [unvisited, unvisited, split]
  exact List.length_filter_lt_length_iff_exists.mpr ⟨id, member, by simp⟩

end Graph

end TypedClient
