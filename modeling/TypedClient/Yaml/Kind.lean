import TypedClient.Document.Json
import TypedClient.Yaml.Moment

/-!
# Kinds of YAML nodes

What the tag of a node says about it. Where no tag is stated, the kind of a scalar follows from its
text: null, truth values, whole numbers in several bases, numbers with a point, dates and points in
time; everything else is text. One line feed at the end of the text is overlooked.
-/
namespace TypedClient.Yaml

/-- The kinds of nodes that have a meaning. -/
inductive Kind where
  | null
  | bool
  | int
  | float
  | timestamp
  | text
  | binary
  | sequence
  | mapping
  /-- A mapping of which only the keys count. -/
  | set
  /-- A sequence of mappings with one entry each. -/
  | pairs
  /-- The key `<<`, whose value is merged into the mapping around it. -/
  | merge
  /-- The key `=`, which is a text only as a key. -/
  | default
  deriving DecidableEq, Repr

namespace Kind

def names : List (String × Kind) :=
  [("null", .null), ("bool", .bool), ("int", .int), ("float", .float), ("timestamp", .timestamp),
   ("str", .text), ("binary", .binary), ("seq", .sequence), ("map", .mapping), ("set", .set),
   ("omap", .pairs), ("pairs", .pairs), ("merge", .merge), ("value", .default)]

def ofTag? (tag : String) : Option Kind := do
  let name ← Text.dropStart? "tag:yaml.org,2002:".toList tag.toList
  names.lookup (String.ofList name)

/-- Whether a node of this kind has an identity of its own, and its parts are read later. -/
def isContainer : Kind → Bool
  | .sequence | .mapping | .set | .pairs => true
  | _ => false

section Recognition

def trueWords : List String := ["yes", "true", "on"]

def falseWords : List String := ["no", "false", "off"]

/-- A word in lower case, capitalised or in upper case. -/
def isSpelling (word text : String) : Bool :=
  let letters := word.toList
  let capitalised :=
    match letters with
    | c :: rest => String.ofList (c.toUpper :: rest)
    | [] => ""
  text = word || text = capitalised || text = String.ofList (letters.map Char.toUpper)

def isBool (text : String) : Bool := (trueWords ++ falseWords).any fun w => isSpelling w text

def isNull (text : String) : Bool := text = "" || text = "~" || isSpelling "null" text

def dropSign : List Char → List Char
  | '+' :: rest | '-' :: rest => rest
  | unsigned => unsigned

def isDigitOrLow (c : Char) : Bool := c.isDigit || c = '_'

/-- Digits and underscores, a digit first. -/
def isNumeral : List Char → Bool
  | c :: rest => c.isDigit && rest.all isDigitOrLow
  | [] => false

/-- A count of minutes or seconds: one digit, or two below sixty. -/
def isSixtieth : List Char → Bool
  | [a] => a.isDigit
  | [a, b] => '0' ≤ a && a ≤ '5' && b.isDigit
  | _ => false

/-- Groups behind colons, at least one. -/
def areSixtieths (groups : List (List Char)) : Bool := !groups.isEmpty && groups.all isSixtieth

def isHexDigit (c : Char) : Bool := (Json.hexValue? c).isSome

/-- A whole number: in base 2, 8, 16 or 10, or in groups of sixty. -/
def isInt (text : List Char) : Bool :=
  match dropSign text with
  | ['0'] => true
  | '0' :: 'b' :: c :: rest => (c :: rest).all fun d => d = '0' || d = '1' || d = '_'
  | '0' :: 'x' :: c :: rest => (c :: rest).all fun d => isHexDigit d || d = '_'
  | '0' :: rest => rest.all fun d => ('0' ≤ d && d ≤ '7') || d = '_'
  | c :: rest =>
    match Text.pieces ':' (c :: rest) with
    | [whole] => isNumeral whole
    | whole :: groups => isNumeral whole && areSixtieths groups
    | [] => false
  | [] => false

/-- A signed exponent, or nothing. -/
def isExponent : List Char → Bool
  | [] => true
  | e :: sign :: c :: rest =>
    (e = 'e' || e = 'E') && (sign = '+' || sign = '-') && (c :: rest).all Char.isDigit
  | _ => false

/-- What follows the point of a number. -/
def isFraction (text : List Char) : Bool := isExponent (text.dropWhile isDigitOrLow)

/-- A number with a point, an infinity or the not-a-number. -/
def isFloat (text : List Char) : Bool :=
  let spelled (words : List String) (text : List Char) : Bool := words.contains (String.ofList text)
  match text with
  | '.' :: c :: rest =>
    (c.isDigit && isFraction (c :: rest)) || spelled ["inf", "Inf", "INF"] (c :: rest) ||
      spelled ["nan", "NaN", "NAN"] (c :: rest)
  | _ =>
    match dropSign text with
    | '.' :: rest => spelled ["inf", "Inf", "INF"] rest
    | unsigned =>
      match Text.cutFirst '.' unsigned with
      | none => false
      | some (whole, fraction) =>
        match Text.pieces ':' whole with
        | [digits] => isNumeral digits && isFraction fraction
        | digits :: groups =>
          isNumeral digits && areSixtieths groups && fraction.all isDigitOrLow
        | [] => false

/-- A plain date has two digits each for month and day. -/
def isTimestamp (text : List Char) : Bool :=
  match Moment.ofText? text with
  | some m => m.clock.isSome || (m.month.length = 2 && m.day.length = 2)
  | none => false

/-- The kind of a scalar by a text without a line feed at its end. The signs of tags, anchors and
aliases have a kind without a meaning. -/
def ofBareText? (text : String) : Option Kind :=
  let chars := text.toList
  if isBool text then some .bool
  else if isFloat chars then some .float
  else if isInt chars then some .int
  else if text = "<<" then some .merge
  else if isNull text then some .null
  else if isTimestamp chars then some .timestamp
  else if text = "=" then some .default
  else if text = "!" || text = "&" || text = "*" then none
  else some .text

/-- The kind of a scalar by its text. -/
def ofText? (text : String) : Option Kind :=
  if text = "\n" then some .text
  else ofBareText? (String.ofList (Text.dropFinalBreak text.toList))

end Recognition

end Kind

end TypedClient.Yaml
