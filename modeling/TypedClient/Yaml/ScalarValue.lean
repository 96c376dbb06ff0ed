import TypedClient.Text.Blank
import TypedClient.Text.Digit
import TypedClient.Yaml.Cursor
import TypedClient.Yaml.Kind

/-!
# Values of YAML scalars

What the text of a scalar stands for once its kind is known. A kind reads the text in its own way,
or refuses it.
-/
namespace TypedClient.Yaml.ScalarValue

def wrong {α : Type} (m : Malformed) : Except Fault α := .error (.malformed m)

def digitOf? (base : Nat) (c : Char) : Option Nat := do
  let d ← if c.isDigit then some (c.toNat - 48) else
    if c.isLower then some (c.toNat - 87) else
    if c.isUpper then some (c.toNat - 55) else none
  if d < base then some d else none

/-- A numeral in ASCII: the digits of all scripts and all white space beyond ASCII count. -/
def plainForm (text : List Char) : List Char :=
  text.map fun c =>
    if c.toNat < 0x7F then c
    else if Text.isBlank c then ' '
    else (Text.digitValue? c).elim '?' fun d => Char.ofNat (48 + d)

def isGap (c : Char) : Bool := c = ' ' || (0x09 ≤ c.toNat && c.toNat ≤ 0x0D)

def trim (text : List Char) : List Char :=
  Text.dropEndWhile isGap (text.dropWhile isGap)

/-- What may stand before the digits of a base. -/
def dropBase (base : Nat) (text : List Char) : List Char :=
  match base, text with
  | 2, '0' :: 'b' :: rest | 2, '0' :: 'B' :: rest
  | 8, '0' :: 'o' :: rest | 8, '0' :: 'O' :: rest
  | 16, '0' :: 'x' :: rest | 16, '0' :: 'X' :: rest => rest
  | _, _ => text

/-- A whole number in a base, with blanks around it, a sign and a mark of the base allowed. -/
def numeral (base : Nat) (text : List Char) : Except Fault Int :=
  let text := trim (plainForm text)
  let digits := dropBase base (Kind.dropSign text)
  match digits.foldlM (fun n c => (digitOf? base c).map fun d => n * base + d) 0 with
  | some n =>
    if digits.isEmpty || (base = 10 && Json.maxDigits < digits.length) then wrong .unreadableNumber
    else .ok (if text.head? = some '-' then -(n : Int) else n)
  | none => wrong .unreadableNumber

/-- The value of groups, each worth sixty of the next. -/
def sixtieths (groups : List Int) : Int := groups.foldl (fun n g => n * 60 + g) 0

def toInt (text : List Char) : Except Fault Int := do
  let chars := text.filter (· ≠ '_')
  let negative := chars.head? = some '-'
  let digits := Kind.dropSign chars
  let magnitude ←
    match digits with
    | [] => wrong .emptyNumber
    | ['0'] => pure 0
    | '0' :: 'b' :: rest => numeral 2 rest
    | '0' :: 'x' :: rest => numeral 16 rest
    | '0' :: _ => numeral 8 digits
    | _ =>
      let groups ← (Text.pieces ':' digits).mapM (numeral 10)
      pure (sixtieths groups)
  return if negative then -magnitude else magnitude

/-- A number as it is written in decimal, with blanks around it allowed. -/
def decimal (text : List Char) : Except Fault Binary64 :=
  let text := trim (plainForm text)
  let negative := text.head? = some '-'
  let unsigned := Kind.dropSign text
  if ["inf", "infinity"].contains (String.ofList unsigned) then .ok (.infinite negative)
  else if unsigned = "nan".toList then .ok .quiet
  else
    let whole := unsigned.takeWhile Char.isDigit
    let rest := unsigned.dropWhile Char.isDigit
    let (fraction, rest) :=
      match rest with
      | '.' :: rest => (rest.takeWhile Char.isDigit, rest.dropWhile Char.isDigit)
      | _ => ([], rest)
    let (exponent, rest) := Json.takeExponent rest
    if (whole ++ fraction).isEmpty || !rest.isEmpty then wrong .unreadableNumber
    else
      .ok (.ofDecimal negative (Json.digitsValue (whole ++ fraction))
        (exponent.getD 0 - fraction.length))

/-- The sum of groups, the last worth `unit` and each worth sixty of the next. A unit beyond the
greatest number cannot be calculated with. -/
def sumSixtieths (unit : Int) (sum : Binary64) : List Binary64 → Except Fault Binary64
  | [] => .ok sum
  | g :: rest =>
    match Binary64.ofInt unit with
    | .infinite _ => wrong .numberTooLarge
    | x => sumSixtieths (unit * 60) (sum.add (g.mul x)) rest

/-- A number that has been calculated. If it is none, it is told from others by the payload. -/
def calculated (payload : Nat) : Binary64 → Binary64
  | .nan _ => .nan payload
  | x => x

def toFloat (payload : Nat) (text : List Char) : Except Fault Binary64 := do
  let chars := Text.lowerAscii (text.filter (· ≠ '_'))
  let negative := chars.head? = some '-'
  let digits := Kind.dropSign chars
  if chars.isEmpty then wrong .emptyNumber
  else if digits = ".inf".toList then return .infinite negative
  else if digits = ".nan".toList then return .quiet
  else
    let magnitude ←
      if digits.contains ':' then do
        let groups ← (Text.pieces ':' digits).mapM decimal
        sumSixtieths 1 (.zero false) groups.reverse
      else decimal digits
    return calculated payload (if negative then magnitude.neg else magnitude)

def number (digits : List Char) : Nat := Json.digitsValue digits

/-- Microseconds from the digits behind the point, of which six count. -/
def microseconds (digits : List Char) : Nat :=
  let six := digits.take 6
  number six * Nat.pow 10 (6 - six.length)

def zoneOffset : Option (Char × List Char × List Char) → Int
  | none => 0
  | some (sign, hours, minutes) =>
    let n : Int := number hours * 60 + number minutes
    if sign = '-' then -n else n

def toMoment (text : List Char) : Except Fault Scalar :=
  match Moment.ofText? (Text.dropFinalBreak text) with
  | none => wrong .notMoment
  | some m =>
    match Date.ofParts? (number m.year) (number m.month) (number m.day), m.clock with
    | none, _ => wrong .impossibleDate
    | some d, none => .ok (.date d)
    | some d, some (hour, minute, second, fraction) =>
      match Timestamp.ofParts? d (number hour) (number minute) (number second)
          (microseconds fraction) (m.zone.map zoneOffset) with
      | some t => .ok (.timestamp t)
      | none => wrong .impossibleDate

def toBool (text : String) : Except Fault Bool :=
  let word := String.ofList (Text.lowerAscii text.toList)
  if Kind.trueWords.contains word then .ok true
  else if Kind.falseWords.contains word then .ok false
  else wrong .unknownTruthValue

/-- The value of a base 64 digit. -/
def sextet? (c : Char) : Option Nat :=
  if c.isUpper then some (c.toNat - 65)
  else if c.isLower then some (c.toNat - 71)
  else if c.isDigit then some (c.toNat + 4)
  else if c = '+' then some 62
  else if c = '/' then some 63
  else none

/-- Reads base 64 digits, passing over other characters. `held` is what is left of the digit
before, `count` the digits of the group so far and `pads` the signs of padding behind them. -/
def base64 (held count pads : Nat) : List Char → Option (List UInt8)
  | [] => if count = 0 then some [] else none
  | '=' :: rest =>
    if 2 ≤ count && 4 ≤ count + pads + 1 then some []
    else base64 held count (if 2 ≤ count then pads + 1 else pads) rest
  | c :: rest =>
    match sextet? c with
    | none => base64 held count pads rest
    | some d =>
      match count with
      | 0 => base64 d 1 0 rest
      | 1 => (base64 (d % 16) 2 0 rest).map fun bs => UInt8.ofNat (held * 4 + d / 16) :: bs
      | 2 => (base64 (d % 4) 3 0 rest).map fun bs => UInt8.ofNat (held * 16 + d / 4) :: bs
      | _ => (base64 0 0 0 rest).map fun bs => UInt8.ofNat (held * 64 + d) :: bs

def toBytes (text : String) : Except Fault (List UInt8) :=
  if text.toList.any fun c => 0x7F < c.toNat then .error .invalid
  else
    match base64 0 0 0 text.toList with
    | some bs => .ok bs
    | none => .error .invalid

/-- The value of a text of a known kind. The payload is for what turns out not to be a number. -/
def ofKind (payload : Nat) (text : String) : Kind → Except Fault Scalar
  | .null => .ok .null
  | .bool => (toBool text).map .bool
  | .int => (toInt text.toList).map .int
  | .float => (toFloat payload text.toList).map .float
  | .timestamp => toMoment text.toList
  | .text => .ok (.text text)
  | .binary => (toBytes text).map .bytes
  | .sequence | .mapping | .set | .pairs | .merge | .default => .error .invalid

end TypedClient.Yaml.ScalarValue
