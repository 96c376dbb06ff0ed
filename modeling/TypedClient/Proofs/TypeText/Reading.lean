import TypedClient.Proofs.Schema.Outline

/-!
# Reading texts of types

How the generated language reads a type: brackets behind an operand bind tightest, then `&`, then
`|`, and parentheses group. `lex` cuts a text into words, literals and marks; `Reader` takes these
one by one and keeps the brackets that are open; `read` does both for a whole text. Only the part of
the language that types are written in is known here, and anything else cannot be read.

What has been read is a union of intersections. A union that is an operand of an intersection is one
factor of it; parentheses that change nothing leave no trace.
-/
namespace TypedClient.TypeText

open Schema (Member)

/-! ### Types that have been read -/

/-- An operand of an intersection. A type is a list of alternatives, each a list of factors. -/
inductive Factor where
  | name (s : String)
  | literal (s : String)
  | array (items : List (List Factor))
  | record (members : List (Member (List (List Factor))))
  | map (values : List (List Factor))
  | group (alternatives : List (List Factor))
  deriving Repr

/-- A union of intersections. -/
abbrev Reading := List (List Factor)

namespace Reading

/-- A type as operands of an intersection. -/
def operands : Reading → List Factor
  | [factors] => factors
  | t => [.group t]

/-- Factors as a type: a union that stands alone is what it is without parentheses. -/
def ofFactors : List Factor → Reading
  | [.group t] => t
  | factors => [factors]

end Reading

/-! ### Words, literals and marks -/

inductive Mark where
  | bar
  | ampersand
  | parenthesis
  | parenthesisEnd
  | bracket
  | bracketEnd
  | brace
  | braceEnd
  | semicolon
  | colon
  | question
  deriving DecidableEq, Repr

inductive Token where
  | name (s : String)
  | literal (s : String)
  | mark (m : Mark)
  deriving DecidableEq, Repr

namespace Mark

def all : List Mark :=
  [.bar, .ampersand, .parenthesis, .parenthesisEnd, .bracket, .bracketEnd, .brace, .braceEnd,
   .semicolon, .colon, .question]

def char : Mark → Char
  | .bar => '|'
  | .ampersand => '&'
  | .parenthesis => '('
  | .parenthesisEnd => ')'
  | .bracket => '['
  | .bracketEnd => ']'
  | .brace => '\x7b'
  | .braceEnd => '\x7d'
  | .semicolon => ';'
  | .colon => ':'
  | .question => '?'

def ofChar? (c : Char) : Option Mark := all.find? fun m => m.char = c

end Mark

def isBlank (c : Char) : Bool := c = ' ' || c = '\t' || c = '\n' || c = '\r'

/-- A literal may not be broken over lines. -/
def isBreak (c : Char) : Bool := c = '\n' || c = '\r'

/-- What a literal says, from behind its opening quote, and what stands behind it. -/
def readLiteral (escaped : Bool) : List Char → Option (List Char × List Char)
  | [] => none
  | c :: rest =>
    if escaped then
      if c = '\\' || c = '\'' then (readLiteral false rest).map fun p => (c :: p.1, p.2) else none
    else if c = '\'' then some ([], rest)
    else if c = '\\' then readLiteral true rest
    else if isBreak c then none
    else (readLiteral false rest).map fun p => (c :: p.1, p.2)

theorem length_readLiteral {escaped : Bool} {text said rest : List Char}
    (read : readLiteral escaped text = some (said, rest)) : rest.length < text.length := by
  induction text generalizing escaped said with
  | nil => cases read
  | cons c text ih =>
    simp only [readLiteral] at read
    repeat' split at read
    · obtain ⟨p, deeper, same⟩ := Option.map_eq_some_iff.mp read
      cases same
      exact Nat.lt_succ_of_lt (ih deeper)
    · cases read
    · cases read
      exact Nat.lt_succ_self _
    · exact Nat.lt_succ_of_lt (ih read)
    · cases read
    · obtain ⟨p, deeper, same⟩ := Option.map_eq_some_iff.mp read
      cases same
      exact Nat.lt_succ_of_lt (ih deeper)

/-- The words, literals and marks of a text. A word takes in all letters that follow. -/
def lex : List Char → Option (List Token)
  | [] => some []
  | c :: rest =>
    if isBlank c then lex rest
    else if Naming.isIdentifierStart c then
      (lex (rest.dropWhile Naming.isIdentifierChar)).map fun ts =>
        .name (String.ofList (c :: rest.takeWhile Naming.isIdentifierChar)) :: ts
    else if c = '\'' then
      match _h : readLiteral false rest with
      | some (said, behind) => (lex behind).map fun ts => .literal (String.ofList said) :: ts
      | none => none
    else
      match Mark.ofChar? c with
      | some m => (lex rest).map fun ts => .mark m :: ts
      | none => none
termination_by text => text.length
decreasing_by
  · simp
  · have shorter := (List.dropWhile_sublist (l := rest) Naming.isIdentifierChar).length_le
    simp only [List.length_cons]
    omega
  · have shorter := length_readLiteral _h
    simp only [List.length_cons]
    omega
  · simp

/-! ### Precedence -/

/-- The part of a type before the operand at hand. -/
structure Level where
  alternatives : Reading := []
  factors : List Factor := []
  deriving Repr

namespace Level

/-- The type that ends with an operand. -/
def close (l : Level) (t : Reading) : Reading :=
  l.alternatives ++ Reading.ofFactors (l.factors ++ t.operands)

/-- Behind `|`. -/
def bar (l : Level) (t : Reading) : Level := ⟨l.close t, []⟩

/-- Behind `&`. -/
def ampersand (l : Level) (t : Reading) : Level := ⟨l.alternatives, l.factors ++ t.operands⟩

end Level

/-- A bracket that is open, with the part of the type that it stands in. -/
inductive Opened where
  | group (outer : Level)
  | member (outer : Level) (members : List (Member Reading)) (name : String) (required : Bool)
  | values (outer : Level)
  deriving Repr

/-- What has been read since the last operator or bracket. -/
inductive Place where
  /-- An operand has to follow. -/
  | operand
  | behind (t : Reading)
  /-- Behind an opening bracket that follows an operand. -/
  | bracket (t : Reading)
  | brace
  /-- The key of another member has to follow. -/
  | key (members : List (Member Reading))
  | named (members : List (Member Reading)) (name : String)
  | optional (members : List (Member Reading)) (name : String)
  /-- Within the brackets of a map. -/
  | index
  | indexName
  | indexColon
  | indexType
  | indexEnd
  deriving Repr

structure Reader where
  opened : List Opened := []
  level : Level := {}
  place : Place := .operand
  deriving Repr

namespace Reader

/-- Reads a token as an operand or the beginning of one. -/
def operand (r : Reader) : Token → Option Reader
  | .name s => some { r with place := .behind [[.name s]] }
  | .literal s => some { r with place := .behind [[.literal s]] }
  | .mark .parenthesis => some ⟨.group r.level :: r.opened, {}, .operand⟩
  | .mark .brace => some { r with place := .brace }
  | _ => none

/-- Reads a mark behind an operand. -/
def behind (r : Reader) (t : Reading) : Mark → Option Reader
  | .bar => some { r with level := r.level.bar t, place := .operand }
  | .ampersand => some { r with level := r.level.ampersand t, place := .operand }
  | .bracket => some { r with place := .bracket t }
  | .parenthesisEnd =>
    match r.opened with
    | .group outer :: opened => some ⟨opened, outer, .behind (r.level.close t)⟩
    | _ => none
  | .semicolon =>
    match r.opened with
    | .member outer members name required :: opened =>
      some ⟨opened, outer, .key (members ++ [⟨name, required, r.level.close t⟩])⟩
    | _ => none
  | .braceEnd =>
    match r.opened with
    | .member outer members name required :: opened =>
      some ⟨opened, outer, .behind [[.record (members ++ [⟨name, required, r.level.close t⟩])]]⟩
    | .values outer :: opened => some ⟨opened, outer, .behind [[.map (r.level.close t)]]⟩
    | _ => none
  | _ => none

/-- Reads the key of a member behind others. -/
def key (r : Reader) (members : List (Member Reading)) : Token → Option Reader
  | .name s | .literal s => some { r with place := .named members s }
  | _ => none

def step (r : Reader) (t : Token) : Option Reader :=
  match r.place, t with
  | .operand, t => r.operand t
  | .behind type, .mark m => r.behind type m
  | .bracket type, .mark .bracketEnd => some { r with place := .behind [[.array type]] }
  | .brace, .mark .braceEnd => some { r with place := .behind [[.record []]] }
  | .brace, .mark .bracket => some { r with place := .index }
  | .brace, t => r.key [] t
  | .key members, t => r.key members t
  | .named members name, .mark .question => some { r with place := .optional members name }
  | .named members name, .mark .colon =>
    some ⟨.member r.level members name true :: r.opened, {}, .operand⟩
  | .optional members name, .mark .colon =>
    some ⟨.member r.level members name false :: r.opened, {}, .operand⟩
  | .index, .name _ => some { r with place := .indexName }
  | .indexName, .mark .colon => some { r with place := .indexColon }
  | .indexColon, .name "string" => some { r with place := .indexType }
  | .indexType, .mark .bracketEnd => some { r with place := .indexEnd }
  | .indexEnd, .mark .colon => some ⟨.values r.level :: r.opened, {}, .operand⟩
  | _, _ => none

/-- The state after some tokens. -/
def run (r : Reader) (ts : List Token) : Option Reader := ts.foldlM step r

/-- The type that has been read, if nothing is missing at its end. -/
def finish (r : Reader) : Option Reading :=
  match r.opened, r.place with
  | [], .behind t => some (r.level.close t)
  | _, _ => none

end Reader

/-- The type that a text is read as. -/
def read (text : String) : Option Reading :=
  match lex text.toList with
  | some ts => (Reader.run {} ts).bind Reader.finish
  | none => none

example : read "A | B & C[]" =
    some [[.name "A"], [.name "B", .array [[.name "C"]]]] := by
  with_unfolding_all rfl

example : read "(A | B) & \x7bx?: 'y'\x7d" =
    some [[.group [[.name "A"], [.name "B"]], .record [⟨"x", false, [[.literal "y"]]⟩]]] := by
  with_unfolding_all rfl

end TypedClient.TypeText
