/-!
# Binary64 numbers

The numbers of the 64-bit binary format as exact values `± significand · 2 ^ exponent`, and the
rounding of a quotient to the nearest of them, ties to the even significand. Sums and products are
the exact result, rounded once. Equality is equality of representations: what is not a number has a
payload, which is all that tells two of them apart. `toInt?` says which values are whole numbers.
-/
namespace TypedClient

inductive Binary64 where
  | finite (negative : Bool) (significand : Nat) (exponent : Int)
  | infinite (negative : Bool)
  | nan (payload : Nat)
  deriving DecidableEq, Repr

namespace Binary64

/-- What is not a number, where nothing says more about it. -/
def quiet : Binary64 := .nan 0

/-- The exponent of the least positive value. -/
def minExponent : Int := -1074

/-- The exponent of the greatest finite values. -/
def maxExponent : Int := 971

def zero (negative : Bool) : Binary64 := .finite negative 0 minExponent

/-- The quotient rounded to the nearest whole number, ties to the even one. -/
def roundQuotient (num den : Nat) : Nat :=
  let q := num / den
  let r := num % den
  if 2 * r < den then q
  else if den < 2 * r then q + 1
  else q + q % 2

/-- `num / den` in units of `2 ^ exponent`, as a quotient of whole numbers. -/
def inUnits (num den : Nat) (exponent : Int) : Nat × Nat :=
  (num * Nat.pow 2 (-exponent).toNat, den * Nat.pow 2 exponent.toNat)

/-- The exponent whose unit gives `num / den` a 53-bit whole part, or the least exponent. -/
def unitExponent (num den : Nat) : Int :=
  let guess : Int := (num.log2 : Int) - den.log2 - 52
  let (n, d) := inUnits num den guess
  let exact := if n < d * Nat.pow 2 52 then guess - 1 else guess
  max exact minExponent

/-- The value nearest to `± num / den`. -/
def ofQuotient (negative : Bool) (num den : Nat) : Binary64 :=
  if num = 0 then zero negative
  else
    let exponent := unitExponent num den
    let (n, d) := inUnits num den exponent
    let rounded := roundQuotient n d
    let (significand, exponent) :=
      if rounded = Nat.pow 2 53 then (Nat.pow 2 52, exponent + 1) else (rounded, exponent)
    if maxExponent < exponent then .infinite negative
    else if significand = 0 then zero negative
    else .finite negative significand exponent

/-- The value nearest to `± digits · 10 ^ exponent`. Exponents far outside the format's range are
decided without computing the power. -/
def ofDecimal (negative : Bool) (digits : Nat) (exponent : Int) : Binary64 :=
  let magnitude : Int := (Nat.toDigits 10 digits).length + exponent
  if digits = 0 || magnitude < -330 then zero negative
  else if 320 < magnitude then .infinite negative
  else ofQuotient negative (digits * Nat.pow 10 exponent.toNat) (Nat.pow 10 (-exponent).toNat)

def ofInt (n : Int) : Binary64 := ofQuotient (n < 0) n.natAbs 1

/-- A signed number of units of `2 ^ exponent`, rounded; `negativeZero` is the sign of zero. -/
def ofUnits (negativeZero : Bool) (units : Int) (exponent : Int) : Binary64 :=
  if units = 0 then zero negativeZero
  else
    ofQuotient (units < 0) (units.natAbs * Nat.pow 2 exponent.toNat)
      (Nat.pow 2 (-exponent).toNat)

private def signed (negative : Bool) (n : Nat) : Int := if negative then -(n : Int) else n

def add : Binary64 → Binary64 → Binary64
  | .nan p, _ | _, .nan p => .nan p
  | .infinite s, .infinite t => if s = t then .infinite s else quiet
  | .infinite s, _ | _, .infinite s => .infinite s
  | .finite s m e, .finite t n f =>
    let unit := min e f
    ofUnits (s && t)
      (signed s (m * Nat.pow 2 (e - unit).toNat) + signed t (n * Nat.pow 2 (f - unit).toNat)) unit

def mul : Binary64 → Binary64 → Binary64
  | .nan p, _ | _, .nan p => .nan p
  | .infinite s, .infinite t => .infinite (s != t)
  | .infinite s, .finite t n _ | .finite t n _, .infinite s =>
    if n = 0 then quiet else .infinite (s != t)
  | .finite s m e, .finite t n f =>
    let product := m * n
    ofUnits (s != t) (signed (s != t) product) (e + f)

def neg : Binary64 → Binary64
  | .finite s m e => .finite (!s) m e
  | .infinite s => .infinite (!s)
  | .nan p => .nan p

def isZero : Binary64 → Bool
  | .finite _ m _ => m = 0
  | _ => false

/-- The whole number that a value is, if it is one. -/
def toInt? : Binary64 → Option Int
  | .finite s m e =>
    if 0 ≤ e then some (signed s (m * Nat.pow 2 e.toNat))
    else
      let den := Nat.pow 2 (-e).toNat
      if m % den = 0 then some (signed s (m / den)) else none
  | _ => none

end Binary64

end TypedClient
