import TypedClient.Text.Printable
import TypedClient.Text.Code

/-!
# Quoted text

The one-line quoted form in which texts and byte strings appear inside lists, mappings and
messages. Single quotes are used unless the text holds a single quote and no double quote; the
quote in use, the backslash, every unprintable character and every half of a character are escaped.
-/
namespace TypedClient.Text

/-- The digit of value `n` in bases up to sixteen. -/
def hexDigit (n : Nat) : Char := if n < 10 then Char.ofNat (48 + n) else Char.ofNat (87 + n)

/-- The lowest `width` base sixteen digits of `n`, most significant first. -/
def hexDigits : Nat → Nat → List Char
  | 0, _ => []
  | width + 1, n => hexDigits width (n / 16) ++ [hexDigit (n % 16)]

/-- The quote that needs the fewest escapes, a single one in case of doubt. -/
def quoteFor (text : List Char) : Char :=
  if text.contains '\'' && !text.contains '"' then '"' else '\''

/-- The form of an unprintable character: as short as its code point allows. -/
def escapeCode (n : Nat) : List Char :=
  if n < 0x100 then '\\' :: 'x' :: hexDigits 2 n
  else if n < 0x10000 then '\\' :: 'u' :: hexDigits 4 n
  else '\\' :: 'U' :: hexDigits 8 n

def quoteChar (quote c : Char) : List Char :=
  if c = quote || c = '\\' then ['\\', c]
  else if c = '\n' then ['\\', 'n']
  else if c = '\r' then ['\\', 'r']
  else if c = '\t' then ['\\', 't']
  else if isPrintable c then [c]
  else escapeCode c.toNat

def quoteCode (quote : Char) (n : Nat) : List Char :=
  if isHalf n then escapeCode n else quoteChar quote (Char.ofNat n)

/-- A text in its quoted form. -/
def quoted (text : String) : String :=
  let quote := quoteFor text.toList
  String.ofList (quote :: (codes text.toList).flatMap (quoteCode quote) ++ [quote])

/-- A byte string in its quoted form, marked by a leading `b`. -/
def quotedBytes (bytes : List UInt8) : String :=
  let text := bytes.map fun b => Char.ofNat b.toNat
  let quote := quoteFor text
  let body := text.flatMap fun c =>
    if c.toNat < 0x7F then quoteChar quote c else escapeCode c.toNat
  String.ofList ('b' :: quote :: body ++ [quote])

end TypedClient.Text
