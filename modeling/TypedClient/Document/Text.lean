import TypedClient.Document.Tree
import TypedClient.Text.Quoted

/-!
# The text of a value

How a value of a document reads when it is put into a name, a message or generated code. A text
stands for itself at the top and is quoted inside a container. A whole number of more than 4300
digits has no text, nor has a value with such a number in it.
-/
namespace TypedClient

/-- The least number that has no text. -/
def textLimit : Nat := Nat.pow 10 4300

namespace Scalar

/-- Whether a scalar has a text. -/
def hasText : Scalar → Bool
  | .int n => n.natAbs < textLimit
  | _ => true

def display : Scalar → String
  | .null => "None"
  | .bool b => if b then "True" else "False"
  | .int n => toString n
  | .float x => x.text
  | .text s => s
  | .date d => d.text
  | .timestamp t => t.text
  | .bytes bs => Text.quotedBytes bs

/-- The form of a scalar inside a container. -/
def quoted : Scalar → String
  | .text s => Text.quoted s
  | .date d => d.quoted
  | .timestamp t => t.quoted
  | s => s.display

end Scalar

namespace Tree

mutual

/-- The form of a value inside a container; a container within itself is cut short. -/
def quoted : Tree → String
  | .scalar s => s.quoted
  | .list items => "[" ++ Text.joinWith ", " (quotedItems items) ++ "]"
  | .mapping entries => "\x7b" ++ Text.joinWith ", " (quotedEntries entries) ++ "\x7d"
  | .pair first second => "(" ++ quoted first ++ ", " ++ quoted second ++ ")"
  | .set [] => "set()"
  | .set (s :: rest) => "\x7b" ++ Text.joinWith ", " ((s :: rest).map Scalar.quoted) ++ "\x7d"
  | .again _ .list => "[...]"
  | .again _ .mapping => "\x7b...\x7d"
  | .again _ .pair => "(...)"

def quotedItems : List Tree → List String
  | [] => []
  | t :: ts => quoted t :: quotedItems ts

def quotedEntries : List (Scalar × Tree) → List String
  | [] => []
  | (k, t) :: ts => (k.quoted ++ ": " ++ quoted t) :: quotedEntries ts

end

def display : Tree → String
  | .scalar s => s.display
  | t => t.quoted

mutual

/-- Whether a value has a text. -/
def hasText : Tree → Bool
  | .scalar s => s.hasText
  | .list items => haveText items
  | .mapping entries => entriesHaveText entries
  | .pair first second => hasText first && hasText second
  | .set members => members.all Scalar.hasText
  | .again _ _ => true

def haveText : List Tree → Bool
  | [] => true
  | t :: ts => hasText t && haveText ts

def entriesHaveText : List (Scalar × Tree) → Bool
  | [] => true
  | (k, t) :: ts => k.hasText && hasText t && entriesHaveText ts

end

end Tree

namespace Graph

def display (g : Graph) : Value → String
  | .scalar s => s.display
  | .node id => (g.unfold (.node id)).display

def hasText (g : Graph) : Value → Bool
  | .scalar s => s.hasText
  | .node id => (g.unfold (.node id)).hasText

end Graph

end TypedClient
