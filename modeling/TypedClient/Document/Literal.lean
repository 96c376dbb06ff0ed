import TypedClient.Document.Text
import TypedClient.Text.Code

/-!
# Values as literals

The one-line JSON form of a value, which is also a literal of the generated language. Everything
beyond ASCII is escaped by 16-bit units. A pair is a list of two. Dates, byte strings, sets and
whole numbers without a text have no such form, nor has a value that contains itself.
-/
namespace TypedClient

/-- Why a value has no literal form. -/
inductive LiteralFault where
  | unwritable
  | numberTooLong
  | circular
  deriving DecidableEq, Repr

namespace Literal

def unitEscape (n : Nat) : List Char := '\\' :: 'u' :: Text.hexDigits 4 n

/-- The escape of a character by its one or two 16-bit units. -/
def escapeUnits (n : Nat) : List Char :=
  if n < 0x10000 then unitEscape n
  else unitEscape (0xD800 + (n - 0x10000) / 0x400) ++ unitEscape (0xDC00 + (n - 0x10000) % 0x400)

def escapeCode (n : Nat) : List Char :=
  let c := Char.ofNat n
  if Text.isHalf n then unitEscape n
  else if c = '"' || c = '\\' then ['\\', c]
  else if c = '\n' then ['\\', 'n']
  else if c = '\r' then ['\\', 'r']
  else if c = '\t' then ['\\', 't']
  else if n = 0x08 then ['\\', 'b']
  else if n = 0x0C then ['\\', 'f']
  else if 0x20 ≤ n && n < 0x7F then [c]
  else escapeUnits n

def ofText (s : String) : String :=
  String.ofList ('"' :: (Text.codes s.toList).flatMap escapeCode ++ ['"'])

def ofFloat : Binary64 → String
  | .nan _ => "NaN"
  | .infinite s => if s then "-Infinity" else "Infinity"
  | x => x.text

def ofScalar : Scalar → Except LiteralFault String
  | .null => .ok "null"
  | .bool b => .ok (if b then "true" else "false")
  | .int n => if (Scalar.int n).hasText then .ok (toString n) else .error .numberTooLong
  | .float x => .ok (ofFloat x)
  | .text s => .ok (ofText s)
  | .date _ | .timestamp _ | .bytes _ => .error .unwritable

/-- Keys are always quoted, whatever they are. -/
def ofKey : Scalar → Except LiteralFault String
  | .text s => .ok (ofText s)
  | s => (ofScalar s).map ofText

mutual

def ofTree : Tree → Except LiteralFault String
  | .scalar s => ofScalar s
  | .list items => do
    let parts ← ofItems items
    return "[" ++ Text.joinWith ", " parts ++ "]"
  | .mapping entries => do
    let parts ← ofEntries entries
    return "\x7b" ++ Text.joinWith ", " parts ++ "\x7d"
  | .pair first second => do
    let a ← ofTree first
    let b ← ofTree second
    return "[" ++ Text.joinWith ", " [a, b] ++ "]"
  | .set _ => .error .unwritable
  | .again _ _ => .error .circular

def ofItems : List Tree → Except LiteralFault (List String)
  | [] => .ok []
  | t :: ts => do
    let s ← ofTree t
    let rest ← ofItems ts
    return s :: rest

def ofEntries : List (Scalar × Tree) → Except LiteralFault (List String)
  | [] => .ok []
  | (k, t) :: ts => do
    let key ← ofKey k
    let s ← ofTree t
    let rest ← ofEntries ts
    return (key ++ ": " ++ s) :: rest

end

end Literal

def Graph.literal (g : Graph) (v : Value) : Except LiteralFault String :=
  Literal.ofTree (g.unfold v)

end TypedClient
