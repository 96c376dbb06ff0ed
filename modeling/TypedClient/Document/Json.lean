import TypedClient.Document.Tree
import TypedClient.Text.Code

/-!
# Reading JSON

A reader for JSON texts that keeps the order of members, tells whole numbers from numbers with a
fraction or exponent, and accepts `NaN`, `Infinity` and `-Infinity`. Of members with one name the
last value stands in the place of the first. A fault says what was expected and where: line and
column are counted from one, the offset from zero, all in codes.
-/
namespace TypedClient.Json

inductive Complaint where
  | value
  | memberName
  | colon
  | comma
  | unterminatedText
  | controlCharacter
  | escape
  | unicodeEscape
  | extraData
  | byteOrderMark
  /-- A whole number with more digits than are read. -/
  | numeralTooLong
  /-- A list or mapping inside more of them than are read. -/
  | tooDeep
  deriving DecidableEq, Repr

structure Fault where
  complaint : Complaint
  line : Nat
  column : Nat
  offset : Nat
  deriving DecidableEq, Repr

def Complaint.message : Complaint → String
  | .value => "Expecting value"
  | .memberName => "Expecting property name enclosed in double quotes"
  | .colon => "Expecting ':' delimiter"
  | .comma => "Expecting ',' delimiter"
  | .unterminatedText => "Unterminated string starting at"
  | .controlCharacter => "Invalid control character at"
  | .escape => "Invalid \\escape"
  | .unicodeEscape => "Invalid \\uXXXX escape"
  | .extraData => "Extra data"
  | .byteOrderMark => "Unexpected UTF-8 BOM (decode using utf-8-sig)"
  | .numeralTooLong => "Numeral too long"
  | .tooDeep => "Nested too deeply"

def Fault.message (f : Fault) : String :=
  s!"{f.complaint.message}: line {f.line} column {f.column} (char {f.offset})"

/-- A complaint about the place where `rest` begins. -/
structure Complained where
  complaint : Complaint
  rest : List Char

def isSpace (c : Char) : Bool := c = ' ' || c = '\t' || c = '\n' || c = '\r'

def skipSpace (text : List Char) : List Char := text.dropWhile isSpace

def hexValue? (c : Char) : Option Nat :=
  if c.isDigit then some (c.toNat - 48)
  else if 'a' ≤ c ∧ c ≤ 'f' then some (c.toNat - 87)
  else if 'A' ≤ c ∧ c ≤ 'F' then some (c.toNat - 55)
  else none

/-- The number written by the first four characters, if they are base sixteen digits. -/
def unit? : List Char → Option Nat
  | a :: b :: c :: d :: _ => do
    return (((← hexValue? a) * 16 + (← hexValue? b)) * 16 + (← hexValue? c)) * 16 + (← hexValue? d)
  | _ => none

def unescape? : Char → Option Char
  | '"' => some '"'
  | '\\' => some '\\'
  | '/' => some '/'
  | 'b' => some '\x08'
  | 'f' => some '\x0c'
  | 'n' => some '\n'
  | 'r' => some '\r'
  | 't' => some '\t'
  | _ => none

def isHigh (n : Nat) : Bool := 0xD800 ≤ n && n < 0xDC00

def isLow (n : Nat) : Bool := 0xDC00 ≤ n && n < 0xE000

/-- The code point of the character that two halves make. -/
def pairCode (high low : Nat) : Nat := 0x10000 + (high - 0xD800) * 0x400 + (low - 0xDC00)

/-- Adds the letter of a code to what was read so far in reverse. -/
def pushCode (n : Nat) (acc : List Char) : List Char := (Text.ofCode n).reverse ++ acc

/-- Whether a text begins with an escape by unit that is not the last thing in it. -/
def beginsUnit (text : List Char) : Bool :=
  text.take 2 = ['\\', 'u'] && !(Text.dropLetters 6 (text.take 14)).isEmpty

/-- The text up to the closing quote. `start` is where the opening quote stands, `acc` what was
read so far in reverse. A unit escape must not be the last thing in the input. -/
def readText (start acc text : List Char) : Except Complained (String × List Char) :=
  match text with
  | [] => .error ⟨.unterminatedText, start⟩
  | c :: rest =>
    if c = '"' then .ok (String.ofList acc.reverse, rest)
    else if c.toNat < 0x20 then .error ⟨.controlCharacter, text⟩
    else if c ≠ '\\' then readText start (c :: acc) rest
    else
      match rest with
      | [] => .error ⟨.unterminatedText, start⟩
      | 'u' :: digits =>
        match unit? digits, digits.drop 4 with
        | some _, [] | none, _ => .error ⟨.unicodeEscape, rest⟩
        | some high, _ :: _ =>
          let after := digits.drop 4
          if isHigh high && beginsUnit after then
            match unit? (after.drop 2) with
            | none => .error ⟨.unicodeEscape, after.drop 1⟩
            | some low =>
              if isLow low then
                readText start (pushCode (pairCode high low) acc) (after.drop 6)
              else readText start (pushCode high acc) after
          else readText start (pushCode high acc) after
      | e :: rest' =>
        match unescape? e with
        | some c => readText start (c :: acc) rest'
        | none => .error ⟨.escape, text⟩
termination_by text.length
decreasing_by
  all_goals simp only [List.length_cons, List.length_drop]; omega

def digitsValue (digits : List Char) : Nat :=
  digits.foldl (fun n c => n * 10 + (c.toNat - 48)) 0

/-- The fraction of a number: its digits and what follows; no digits without a point and a digit. -/
def takeFraction : List Char → List Char × List Char
  | '.' :: c :: rest =>
    if c.isDigit then ((c :: rest).takeWhile Char.isDigit, (c :: rest).dropWhile Char.isDigit)
    else ([], '.' :: c :: rest)
  | text => ([], text)

/-- The exponent of a number, if there is one with at least one digit, and what follows. -/
def takeExponent (text : List Char) : Option Int × List Char :=
  match text with
  | e :: rest =>
    if e = 'e' || e = 'E' then
      let negative := rest.head? = some '-'
      let unsigned := if negative || rest.head? = some '+' then rest.drop 1 else rest
      let digits := unsigned.takeWhile Char.isDigit
      if digits.isEmpty then (none, text)
      else
        let n : Int := digitsValue digits
        (some (if negative then -n else n), unsigned.dropWhile Char.isDigit)
    else (none, text)
  | [] => (none, text)

/-- Whole numbers of more digits than this are refused. -/
def maxDigits : Nat := 4300

def numberOf (negative : Bool) (whole fraction : List Char) (exponent : Option Int) : Scalar :=
  if fraction.isEmpty && exponent.isNone then
    let n : Int := digitsValue whole
    .int (if negative then -n else n)
  else
    .float (Binary64.ofDecimal negative (digitsValue (whole ++ fraction))
      (exponent.getD 0 - fraction.length))

/-- A number without its sign; `start` is where the sign stands. -/
def readNumber (start : List Char) (negative : Bool) (text : List Char) :
    Except Complained (Scalar × List Char) :=
  match text with
  | [] => .error ⟨.value, start⟩
  | c :: rest =>
    if !c.isDigit then .error ⟨.value, start⟩
    else
      let whole := if c = '0' then [c] else c :: rest.takeWhile Char.isDigit
      let after := if c = '0' then rest else rest.dropWhile Char.isDigit
      let (fraction, after) := takeFraction after
      let (exponent, after) := takeExponent after
      if fraction.isEmpty && exponent.isNone && maxDigits < whole.length then
        .error ⟨.numeralTooLong, start⟩
      else .ok (numberOf negative whole fraction exponent, after)

/-- The words that stand for values of their own. -/
def words : List (List Char × Scalar) :=
  [("null".toList, .null), ("true".toList, .bool true), ("false".toList, .bool false),
   ("NaN".toList, .float .quiet), ("Infinity".toList, .float (.infinite false)),
   ("-Infinity".toList, .float (.infinite true))]

def readWord? (text : List Char) : Option (Scalar × List Char) :=
  words.findSome? fun w => (Text.dropStart? w.1 text).map fun rest => (w.2, rest)

def readScalar (text : List Char) : Except Complained (Scalar × List Char) :=
  match readWord? text with
  | some r => .ok r
  | none =>
    match text with
    | '-' :: rest => readNumber text true rest
    | _ => readNumber text false text

mutual

/-- One value, inside at most `depth` further containers. Every step that descends or moves on uses
up one unit of the budget, and any two of them at least one character of the text. -/
def readValue (depth : Nat) : Nat → List Char → Except Complained (Tree × List Char)
  | 0, text => .error ⟨.value, text⟩
  | budget + 1, text =>
    match text with
    | '"' :: rest => do
      let (s, rest) ← readText text [] rest
      return (.scalar (.text s), rest)
    | '[' :: rest =>
      if depth = 0 then .error ⟨.tooDeep, text⟩
      else
        match skipSpace rest with
        | ']' :: rest => .ok (.list [], rest)
        | rest => do
          let (items, rest) ← readItems (depth - 1) budget rest
          return (.list items, rest)
    | '\x7b' :: rest =>
      if depth = 0 then .error ⟨.tooDeep, text⟩
      else
        match skipSpace rest with
        | '\x7d' :: rest => .ok (.mapping [], rest)
        | rest => do
          let (members, rest) ← readMembers (depth - 1) budget rest
          return (.mapping (Entries.ofList members), rest)
    | _ => do
      let (s, rest) ← readScalar text
      return (.scalar s, rest)

def readItems (depth : Nat) : Nat → List Char → Except Complained (List Tree × List Char)
  | 0, text => .error ⟨.value, text⟩
  | budget + 1, text => do
    let (item, rest) ← readValue depth budget text
    match skipSpace rest with
    | ']' :: rest => return ([item], rest)
    | ',' :: rest =>
      let (items, rest) ← readItems depth budget (skipSpace rest)
      return (item :: items, rest)
    | rest => .error ⟨.comma, rest⟩

def readMembers (depth : Nat) :
    Nat → List Char → Except Complained (List (Scalar × Tree) × List Char)
  | 0, text => .error ⟨.value, text⟩
  | budget + 1, text => do
    let '"' :: rest := text | .error ⟨.memberName, text⟩
    let (name, rest) ← readText text [] rest
    let rest := skipSpace rest
    let ':' :: rest := rest | .error ⟨.colon, rest⟩
    let (member, rest) ← readValue depth budget (skipSpace rest)
    match skipSpace rest with
    | '\x7d' :: rest => return ([(.text name, member)], rest)
    | ',' :: rest =>
      let (members, rest) ← readMembers depth budget (skipSpace rest)
      return ((.text name, member) :: members, rest)
    | rest => .error ⟨.comma, rest⟩

end

/-- The fault of a complaint about a text. -/
def locate (text : List Char) (c : Complained) : Fault :=
  let before := text.take (text.length - c.rest.length)
  let line := (before.reverse.takeWhile (· ≠ '\n')).reverse
  ⟨c.complaint, before.count '\n' + 1, Text.size line + 1, Text.size before⟩

/-- The greatest depth of nesting that is read. -/
def maxDepth : Nat := 991

def readDocument (text : List Char) : Except Complained Tree :=
  if text.head? = some '\uFEFF' then .error ⟨.byteOrderMark, text⟩
  else do
    let (t, rest) ← readValue maxDepth (2 * text.length + 2) (skipSpace text)
    let rest := skipSpace rest
    if rest.isEmpty then return t else .error ⟨.extraData, rest⟩

/-- The value that a text writes. -/
def read (text : String) : Except Fault Tree :=
  (readDocument text.toList).mapError (locate text.toList)

end TypedClient.Json
