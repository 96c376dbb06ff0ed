import TypedClient.Text.Code

/-!
# Texts as bytes

The UTF-8 form of texts, as names of files have it. The halves U+DC80 to U+DCFF stand for single
bytes that are part of no character; the other halves have no bytes. Bytes that were read give the
characters that they write, and such a half for every byte that writes none.
-/
namespace TypedClient.Text

/-- The bytes of a code, if it has some. -/
def encodeCode? (n : Nat) : Option (List Nat) :=
  if n < 0x80 then some [n]
  else if n < 0x800 then some [0xC0 + n / 0x40, 0x80 + n % 0x40]
  else if isHalf n then if 0xDC80 ≤ n && n ≤ 0xDCFF then some [n - 0xDC00] else none
  else if n < 0x10000 then some [0xE0 + n / 0x1000, 0x80 + n / 0x40 % 0x40, 0x80 + n % 0x40]
  else
    some [0xF0 + n / 0x40000, 0x80 + n / 0x1000 % 0x40, 0x80 + n / 0x40 % 0x40, 0x80 + n % 0x40]

/-- The bytes of a text, if all of its codes have some. -/
def bytes? (text : String) : Option (List Nat) :=
  ((codes text.toList).mapM encodeCode?).map List.flatten

/-- How many bytes a text has. -/
def byteSize (text : String) : Nat := ((bytes? text).map List.length).getD 0

/-- The code point that all of the bytes together are the form of. -/
def decodeCode? (bytes : List Nat) : Option Nat :=
  let n :=
    match bytes with
    | [a, b] => (a - 0xC0) * 0x40 + (b - 0x80)
    | [a, b, c] => ((a - 0xE0) * 0x40 + (b - 0x80)) * 0x40 + (c - 0x80)
    | [a, b, c, d] => (((a - 0xF0) * 0x40 + (b - 0x80)) * 0x40 + (c - 0x80)) * 0x40 + (d - 0x80)
    | _ => bytes.headD 0
  if n < 0x110000 && !isHalf n && encodeCode? n = some bytes then some n else none

/-- The codes that bytes write. -/
def decode (bytes : List Nat) : List Nat :=
  match bytes with
  | [] => []
  | b :: rest =>
    let codeOf (k : Nat) : Option (Nat × Nat) :=
      (decodeCode? (b :: rest.take k)).map fun n => (n, k)
    match [0, 1, 2, 3].findSome? codeOf with
    | some (n, k) => n :: decode (rest.drop k)
    | none => (0xDC00 + b) :: decode rest
termination_by bytes.length
decreasing_by all_goals simp only [List.length_cons, List.length_drop]; omega

/-- The text that is read back when a text was stored as bytes. -/
def readBack (text : String) : String :=
  ((bytes? text).map fun bytes => String.ofList (ofCodes (decode bytes))).getD text

end TypedClient.Text
