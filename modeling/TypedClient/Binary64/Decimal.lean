import TypedClient.Binary64.Basic

/-!
# Binary64 numbers in decimal

The text of a number is the fewest digits that read back to it, of two such the nearer. It is
positional for decimal exponents from -4 to 15 and has a signed exponent of at least two digits
outside; a whole number keeps one place after the point.
-/
namespace TypedClient.Binary64

/-- `digits · 10 ^ exponent`. -/
structure Decimal where
  digits : Nat
  exponent : Int
  deriving DecidableEq, Repr

/-- The least `k` with `num / den < 10 ^ k`, for a positive quotient. -/
def decimalScale (num den : Nat) : Int :=
  if den ≤ num then ((Nat.toDigits 10 (num / den)).length : Int)
  else 1 - ((Nat.toDigits 10 ((den - 1) / num)).length : Int)

def readsBack (x : Binary64) (d : Decimal) : Bool := ofDecimal false d.digits d.exponent = x

/-- The neighbour of `num / den` on the grid of multiples of `10 ^ exponent` that reads back to
`x`; of two the nearer, on a tie the even one. -/
def onGrid? (x : Binary64) (num den : Nat) (exponent : Int) : Option Decimal :=
  let n := num * Nat.pow 10 (-exponent).toNat
  let d := den * Nat.pow 10 exponent.toNat
  let below : Decimal := ⟨n / d, exponent⟩
  let above : Decimal := ⟨n / d + 1, exponent⟩
  match readsBack x below, readsBack x above with
  | true, true => if roundQuotient n d = n / d then some below else some above
  | true, false => some below
  | false, true => some above
  | false, false => none

/-- Removes the zeros at the end of the digits, at most `count` of them. -/
def dropZeros : Nat → Decimal → Decimal
  | 0, d => d
  | count + 1, d =>
    if d.digits ≠ 0 && d.digits % 10 = 0 then dropZeros count ⟨d.digits / 10, d.exponent + 1⟩ else d

/-- The fewest digits that read back to `significand · 2 ^ exponent`, not zero. Seventeen digits
always suffice; the exact value stands in where the search would find none. -/
def shortest (significand : Nat) (exponent : Int) : Decimal :=
  let x : Binary64 := .finite false significand exponent
  let num := significand * Nat.pow 2 exponent.toNat
  let den := Nat.pow 2 (-exponent).toNat
  let scale := decimalScale num den
  let found := (List.range 17).findSome? fun n => onGrid? x num den (scale - (n + 1 : Nat))
  dropZeros 400 (found.getD ⟨num * Nat.pow 5 (-exponent).toNat, -((-exponent).toNat : Int)⟩)

def zeros (n : Nat) : List Char := List.replicate n '0'

/-- Digits with the decimal point after the first `point` of them. -/
def positional (digits : List Char) (point : Int) : List Char :=
  if point ≤ 0 then '0' :: '.' :: zeros (-point).toNat ++ digits
  else if digits.length ≤ point.toNat then
    digits ++ zeros (point.toNat - digits.length) ++ ['.', '0']
  else digits.take point.toNat ++ '.' :: digits.drop point.toNat

/-- One digit before the point and a signed exponent of at least two digits. -/
def scientific (digits : List Char) (exponent : Int) : List Char :=
  let mantissa :=
    match digits with
    | d :: [] => [d]
    | d :: rest => d :: '.' :: rest
    | [] => []
  let size := Nat.toDigits 10 exponent.natAbs
  mantissa ++ ['e', if exponent < 0 then '-' else '+'] ++ zeros (2 - size.length) ++ size

/-- The text of a finite value without its sign. -/
def magnitudeText (significand : Nat) (exponent : Int) : List Char :=
  if significand = 0 then ['0', '.', '0']
  else
    let d := shortest significand exponent
    let digits := Nat.toDigits 10 d.digits
    let point := d.exponent + digits.length
    if -4 < point && point ≤ 16 then positional digits point else scientific digits (point - 1)

def text : Binary64 → String
  | .finite s m e => String.ofList ((if s then ['-'] else []) ++ magnitudeText m e)
  | .infinite s => if s then "-inf" else "inf"
  | .nan _ => "nan"

end TypedClient.Binary64
