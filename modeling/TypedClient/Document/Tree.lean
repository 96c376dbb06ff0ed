import TypedClient.Document.Basic

/-!
# Documents as trees

A tree is a document in which every node stands in one place. `Graph.addTree` makes fresh nodes for
a tree, so that a graph made from trees alone shares nothing. `Graph.unfold` goes the other way: it
copies a shared node to each of its places, and where a node contains itself it writes how many
levels up the node is.
-/
namespace TypedClient

/-- The kinds of containers that may contain themselves. -/
inductive Container where
  | list
  | mapping
  | pair
  deriving DecidableEq, Repr

inductive Tree where
  | scalar (s : Scalar)
  | list (items : List Tree)
  | mapping (entries : List (Scalar × Tree))
  | pair (first second : Tree)
  | set (members : List Scalar)
  /-- The container so many levels up, counted from the innermost one. -/
  | again (levels : Nat) (container : Container)
  deriving Repr

namespace Graph

mutual

/-- Adds a tree to the graph, each container as a node of its own. -/
def addTree (g : Graph) : Tree → Graph × Value
  | .scalar s => (g, .scalar s)
  | .again _ _ => (g, .null)
  | .list items =>
    let (g, vs) := addTrees g items
    g.add (.list vs)
  | .mapping entries =>
    let (g, es) := addTreeEntries g entries
    g.add (.mapping es)
  | .pair first second =>
    let (g, a) := addTree g first
    let (g, b) := addTree g second
    g.add (.pair a b)
  | .set members => g.add (.set members)

def addTrees (g : Graph) : List Tree → Graph × List Value
  | [] => (g, [])
  | t :: ts =>
    let (g, v) := addTree g t
    let (g, vs) := addTrees g ts
    (g, v :: vs)

def addTreeEntries (g : Graph) : List (Scalar × Tree) → Graph × Entries
  | [] => (g, [])
  | (k, t) :: ts =>
    let (g, v) := addTree g t
    let (g, es) := addTreeEntries g ts
    (g, (k, v) :: es)

end

def ofTree (t : Tree) : Graph × Value := empty.addTree t

/-- The tree below a value inside the containers `path`, innermost first. -/
def unfoldWithin (g : Graph) (path : List NodeId) (v : Value) : Tree :=
  match h : g.view v with
  | .scalar s => .scalar s
  | .list id items =>
    if hp : id ∈ path then .again (path.idxOf id + 1) .list
    else .list (items.map fun item => unfoldWithin g (id :: path) item)
  | .mapping id entries =>
    if hp : id ∈ path then .again (path.idxOf id + 1) .mapping
    else .mapping (entries.map fun e => (e.1, unfoldWithin g (id :: path) e.2))
  | .pair id first second =>
    if hp : id ∈ path then .again (path.idxOf id + 1) .pair
    else .pair (unfoldWithin g (id :: path) first) (unfoldWithin g (id :: path) second)
  | .set _ members => .set members
termination_by g.unvisited path
decreasing_by
  · exact unvisited_cons_lt (lt_size_of_view_list h) hp
  · exact unvisited_cons_lt (lt_size_of_view_mapping h) hp
  · exact unvisited_cons_lt (lt_size_of_view_pair h) hp
  · exact unvisited_cons_lt (lt_size_of_view_pair h) hp

def unfold (g : Graph) (v : Value) : Tree := g.unfoldWithin [] v

end Graph

end TypedClient
