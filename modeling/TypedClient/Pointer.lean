import TypedClient.Text.Basic

/-!
# Document pointers

A pointer names a node of a document by the keys on the way to it, `#/paths/~1pets/get`. Inside a
segment `~` is written `~0` and `/` is written `~1`.
-/
namespace TypedClient.Pointer

/-- A segment as a pointer has it: first each tilde is replaced, then each slash. -/
def escape (segment : String) : String :=
  String.ofList (Text.replace '/' ['~', '1'] (Text.replace '~' ['~', '0'] segment.toList))

/-- What stands in a pointer for one character of a segment. -/
def escapeChar (c : Char) : List Char :=
  if c = '~' then ['~', '0'] else if c = '/' then ['~', '1'] else [c]

/-- Neither replacement sees what the other one has put in: each character is replaced by itself. -/
theorem toList_escape (segment : String) :
    (escape segment).toList = segment.toList.flatMap escapeChar := by
  rw [escape, String.toList_ofList, Text.replace, Text.replace, List.flatMap_assoc]
  refine congrArg (segment.toList.flatMap ·) (funext fun c => ?_)
  rw [escapeChar]
  split
  · rfl
  · simp

/-- The pointer with the given segments below the root. -/
def ofSegments (segments : List String) : String :=
  "#/" ++ Text.joinWith "/" (segments.map escape)

/-- The pointer without its last segment. -/
def parent (pointer : String) : String :=
  match Text.cutLast '/' pointer.toList with
  | some (before, _) => String.ofList before
  | none => pointer

end TypedClient.Pointer
