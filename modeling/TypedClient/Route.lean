import TypedClient.Naming

/-!
# Routes

A route is text with placeholders in braces. In the call that is generated each placeholder is an
interpolation of its identifier; everything else stays as it is.
-/
namespace TypedClient.Route

inductive Piece where
  | char (c : Char)
  | placeholder (name : String)
  deriving DecidableEq, Repr

/-- The name of the placeholder whose opening brace has just been read, and what follows it. -/
def placeholder? (text : List Char) : Option (List Char × List Char) :=
  match text.takeWhile (· ≠ '\x7d'), text.dropWhile (· ≠ '\x7d') with
  | c :: name, _ :: rest => some (c :: name, rest)
  | _, _ => none

theorem length_lt_of_placeholder? {text name rest : List Char}
    (h : placeholder? text = some (name, rest)) : rest.length < text.length := by
  unfold placeholder? at h
  split at h
  · next hd =>
    simp only [Option.some.injEq, Prod.mk.injEq] at h
    have hs := congrArg List.length hd
    have hl := (List.dropWhile_suffix (l := text) (fun c => decide (c ≠ '\x7d'))).length_le
    simp only [List.length_cons, h.2] at hs
    omega
  · contradiction

/-- The characters and placeholders of a route. -/
def pieces (text : List Char) : List Piece :=
  match text with
  | [] => []
  | c :: rest =>
    if c = '\x7b' then
      match _h : placeholder? rest with
      | some (name, after) => .placeholder (String.ofList name) :: pieces after
      | none => .char c :: pieces rest
    else .char c :: pieces rest
termination_by text.length
decreasing_by
  · have := length_lt_of_placeholder? _h
    simp only [List.length_cons]
    omega
  · simp
  · simp

def Piece.name? : Piece → Option String
  | .char _ => none
  | .placeholder name => some name

/-- The names of the placeholders, from left to right. -/
def placeholders (text : List Char) : List String := (pieces text).filterMap Piece.name?

def Piece.template : Piece → List Char
  | .char c => [c]
  | .placeholder name => "$\x7b".toList ++ (Naming.placeholderIdentifier name).toList ++ ['\x7d']

/-- The route with each placeholder as an interpolation. -/
def template (text : List Char) : String := String.ofList ((pieces text).flatMap Piece.template)

/-- The name of a placeholder that, after a slash, is the whole rest of the route. One line feed
at the end is overlooked. -/
def onlyPlaceholder? : List Char → Option (List Char)
  | '\x7b' :: text =>
    match placeholder? text with
    | some (name, []) | some (name, ['\n']) => some name
    | _ => none
  | _ => none

/-- The route before a slash and the placeholder that ends it, and the name of that. -/
def trailing? : List Char → Option (List Char × List Char)
  | [] => none
  | c :: rest =>
    match if c = '/' then onlyPlaceholder? rest else none with
    | some name => some ([], name)
    | none => (trailing? rest).map fun p => (c :: p.1, p.2)

end TypedClient.Route
