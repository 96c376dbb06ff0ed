import TypedClient.Text.Basic

/-!
# Texts as codes

A text is a sequence of codes: code points, and halves of characters, which come from 16-bit units
that stand alone. It is kept as a `String` of characters. There a half is written as a mark with a
private character behind it, the mark itself is written twice, and every other code point is its
own character; what one code is written by is a letter. So different texts are different strings.
-/
namespace TypedClient.Text

/-- Whether a code is half of a character. -/
def isHalf (n : Nat) : Bool := 0xD800 ≤ n && n < 0xE000

/-- The code point of the mark, which is a character of no script. -/
def markCode : Nat := 0x9FFFE

/-- The mark before the second character of a letter. -/
def mark : Char := Char.ofNat markCode

/-- The first of the private characters that tell which half a letter is. -/
def halvesStart : Nat := 0xF0000

/-- The letter of a code. -/
def ofCode (n : Nat) : List Char :=
  if isHalf n then [mark, Char.ofNat (halvesStart + (n - 0xD800))]
  else if n = markCode then [mark, mark]
  else [Char.ofNat n]

/-- The code that a mark and a character behind it stand for. -/
def markedCode (c : Char) : Nat :=
  if c = mark then markCode else 0xD800 + (c.toNat - halvesStart)

/-- The codes of a text. -/
def codes : List Char → List Nat
  | [] => []
  | [c] => [c.toNat]
  | c :: d :: rest =>
    if c = mark then markedCode d :: codes rest else c.toNat :: codes (d :: rest)

/-- The letters of a text. -/
def letters : List Char → List (List Char)
  | [] => []
  | [c] => [[c]]
  | c :: d :: rest => if c = mark then [c, d] :: letters rest else [c] :: letters (d :: rest)

/-- The text with the given codes. -/
def ofCodes (ns : List Nat) : List Char := ns.flatMap ofCode

/-- The text of a string whose characters are all meant as they stand. -/
def ofString (s : String) : String := String.ofList (ofCodes (s.toList.map Char.toNat))

/-- A string to be shown for a text. A half is shown as a replacement character. -/
def toShown (text : String) : String :=
  String.ofList ((codes text.toList).map fun n => if isHalf n then '\uFFFD' else Char.ofNat n)

/-- How many codes a text has. -/
def size (text : List Char) : Nat := (letters text).length

/-- The text without its first letters. -/
def dropLetters (n : Nat) (text : List Char) : List Char := ((letters text).drop n).flatten

/-- Whether there is half a character in a text. -/
def hasHalf (text : String) : Bool := (codes text.toList).any isHalf

/-- Whether a text comes before another one, or is the same, by its codes. -/
def isBeforeOrSame (a b : String) : Bool :=
  !(codes b.toList).lex (codes a.toList) fun m n => decide (m < n)

end TypedClient.Text
