import TypedClient.Naming

/-!
# Texts of types

Reading and writing the text of generated types: string literals, property keys, and two scans that
tell a union or intersection and a single record from their text. Both scans skip string literals
and everything inside brackets.
-/
namespace TypedClient.TypeText

def escapeChar (c : Char) : List Char := if c = '\\' || c = '\'' then ['\\', c] else [c]

/-- A text as a single-quoted string literal. -/
def literal (s : String) : String :=
  String.ofList ('\'' :: s.toList.flatMap escapeChar ++ ['\''])

/-- A property name as the key of a record: bare where it is an identifier. -/
def propertyKey (name : String) : String :=
  if Naming.isIdentifier name then name else literal name

def isOpening (c : Char) : Bool := c = '\x7b' || c = '(' || c = '[' || c = '<'

def isClosing (c : Char) : Bool := c = '\x7d' || c = ')' || c = ']' || c = '>'

/-- Where a scan stands: in plain text, in a string literal, or behind its escape character. -/
inductive Mode where
  | plain
  | quoted
  | escaped
  deriving DecidableEq, Repr

structure Scan where
  mode : Mode := .plain
  depth : Int := 0
  deriving DecidableEq, Repr

namespace Scan

def step (s : Scan) (c : Char) : Scan :=
  match s.mode with
  | .escaped => { s with mode := .quoted }
  | .quoted =>
    if c = '\\' then { s with mode := .escaped }
    else if c = '\'' then { s with mode := .plain }
    else s
  | .plain =>
    if c = '\'' then { s with mode := .quoted }
    else if isOpening c then { s with depth := s.depth + 1 }
    else if isClosing c then { s with depth := s.depth - 1 }
    else s

/-- Outside of literals and brackets. -/
def atTop (s : Scan) : Bool := s.mode = .plain && s.depth = 0

/-- The state after a text. -/
def run (s : Scan) (text : List Char) : Scan := text.foldl step s

end Scan

/-- Whether an operator `|` or `&` between two blanks stands at the top of the text that follows
`before`. -/
def hasOperator (s : Scan) (before : Option Char) : List Char → Bool
  | [] => false
  | c :: rest =>
    if s.atTop && (c = '|' || c = '&') && before = some ' ' && rest.head? = some ' ' then true
    else hasOperator (s.step c) (some c) rest

/-- Whether the text is a union or an intersection. -/
def isCompound (text : String) : Bool := hasOperator {} none text.toList

/-- Whether the text is one record or map. -/
def isRecord (text : String) : Bool :=
  text.toList.head? = some '\x7b' && text.toList.getLast? = some '\x7d' && !isCompound text

end TypedClient.TypeText
