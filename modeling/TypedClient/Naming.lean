import TypedClient.Text.Basic

/-!
# Names

Names of generated types and methods. A text is cut into words at everything that is not an ASCII
letter or digit, between a lower case letter or digit and an upper case letter, and before the last
capital of a run of capitals that goes on in lower case. Pascal case capitalises each word.
-/
namespace TypedClient.Naming

/-- Marks the boundary in `petStore`: a capital after a lower case letter or digit. -/
def markHumps : List Char → List Char
  | a :: b :: rest =>
    if (a.isLower || a.isDigit) && b.isUpper then a :: '_' :: markHumps (b :: rest)
    else a :: markHumps (b :: rest)
  | text => text

/-- A run of capitals that goes on in lower case: the mark stands before its last capital, if there is
another one before that. -/
def markRun (run : List Char) : List Char :=
  if run.length < 2 then run else run.dropLast ++ '_' :: run.getLast?.toList

/-- Marks the runs of capitals in a text behind the beginning of one. -/
def markRuns (run : List Char) : List Char → List Char
  | [] => run
  | c :: rest =>
    if c.isUpper then markRuns (run ++ [c]) rest
    else (if c.isLower then markRun run else run) ++ c :: markRuns [] rest

/-- Marks the boundary in `HTTPError`: of the longest run of capitals before a lower case letter the
last one begins a word. -/
def markAcronyms (text : List Char) : List Char := markRuns [] text

/-- The words of a text, none of them empty. -/
def words (text : List Char) : List (List Char) :=
  (Text.piecesBy (fun c => !c.isAlphanum) (markAcronyms (markHumps text))).filter (· ≠ [])

/-- A word with its first letter in upper case and the others in lower case. -/
def capitalise : List Char → List Char
  | [] => []
  | c :: rest => c.toUpper :: rest.map Char.toLower

def pascalCase (s : String) : String := String.ofList ((words s.toList).flatMap capitalise)

/-- Pascal case with the first letter in lower case. -/
def camelCase (s : String) : String :=
  match (pascalCase s).toList with
  | [] => ""
  | c :: rest => String.ofList (c.toLower :: rest)

def isIdentifierStart (c : Char) : Bool := c.isAlpha || c = '_' || c = '$'

def isIdentifierChar (c : Char) : Bool := isIdentifierStart c || c.isDigit

/-- Whether a text can stand unquoted as a property key: a letter, `_` or `$`, then letters,
digits, `_` or `$`. One line feed at the end is overlooked. -/
def isIdentifier (s : String) : Bool :=
  match Text.dropFinalBreak s.toList with
  | [] => false
  | c :: rest => isIdentifierStart c && rest.all isIdentifierChar

/-- Types that are built into the generated language, in lower case. -/
def builtInTypes : List String :=
  ["any", "blobpart", "boolean", "never", "null", "number", "object", "string", "undefined",
   "unknown", "void"]

/-- Lower case, so far as the result can be ASCII: the letters `A` to `Z` and the kelvin sign. -/
def foldCase (c : Char) : Char := if c = '\u212A' then 'k' else c.toLower

/-- Whether a name is that of a built-in type in any mixture of cases. -/
def isBuiltInType (name : String) : Bool :=
  builtInTypes.contains (String.ofList (name.toList.map foldCase))

/-- The identifier for a placeholder of a route. -/
def placeholderIdentifier (name : String) : String :=
  if isIdentifier name then name else camelCase name

end TypedClient.Naming
