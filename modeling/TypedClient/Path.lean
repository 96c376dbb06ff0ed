import TypedClient.Text.Bytes

/-!
# Paths

A path is read from its text without the segments that say nothing: empty ones and `.`. The segment
`..` stays until the path is resolved, which makes it absolute and takes `..` as the way back over
the segment before it. That is done on the path alone: it holds of file systems without symbolic
links, where nothing else has to be looked up. Two leading slashes are an anchor of their own, more of
them are one slash.

The statements say that no segment of a path read from text says nothing, that a resolved path
has no way back in it, and that an absolute path resolves to the same from everywhere.
-/
namespace TypedClient

/-- Where a path begins. -/
inductive Anchor where
  | relative
  | root
  | doubleRoot
  deriving DecidableEq, Repr

structure Path where
  anchor : Anchor
  segments : List String
  deriving DecidableEq, Repr

namespace Path

def back : String := ".."

def anchorOf (text : List Char) : Anchor :=
  match (text.takeWhile (· = '/')).length with
  | 0 => .relative
  | 2 => .doubleRoot
  | _ => .root

def segmentsOf (text : List Char) : List String :=
  ((Text.pieces '/' text).map String.ofList).filter fun s => s ≠ "" && s ≠ "."

def ofText (text : String) : Path := ⟨anchorOf text.toList, segmentsOf text.toList⟩

def text (p : Path) : String :=
  let joined := Text.joinWith "/" p.segments
  match p.anchor with
  | .relative => if p.segments.isEmpty then "." else joined
  | .root => "/" ++ joined
  | .doubleRoot => "//" ++ joined

def isAbsolute (p : Path) : Bool := p.anchor ≠ .relative

/-- Whether a segment has a null character, which no name of a file has. -/
def isNulled (segment : String) : Bool := segment.toList.contains '\x00'

/-- Whether a segment has no bytes, as names of files have. -/
def isUnstorable (segment : String) : Bool := (Text.bytes? segment).isNone

/-- The path `q` as seen from `p`. -/
def append (p q : Path) : Path :=
  if q.isAbsolute then q else ⟨p.anchor, p.segments ++ q.segments⟩

/-- Goes along a segment. -/
def step (walked : List String) (segment : String) : List String :=
  if segment = back then walked.dropLast else walked ++ [segment]

/-- The absolute path without way back, where a relative path begins at `start`. -/
def resolve (p start : Path) : Path := ⟨.root, (start.append p).segments.foldl step []⟩

def parent (p : Path) : Path := ⟨p.anchor, p.segments.dropLast⟩

/-- The last segment, if there is one. -/
def name (p : Path) : String := p.segments.getLast?.getD ""

/-- The name before and from its last point. A point at the beginning or at the end of the name
does not count. -/
def stemAndSuffix (p : Path) : String × String :=
  match Text.cutLast '.' p.name.toList with
  | some (before, after) =>
    if before.isEmpty || after.isEmpty then (p.name, "")
    else (String.ofList before, String.ofList ('.' :: after))
  | none => (p.name, "")

def stem (p : Path) : String := p.stemAndSuffix.1

def suffix (p : Path) : String := p.stemAndSuffix.2

theorem ne_of_mem_segmentsOf {text : List Char} {s : String} (h : s ∈ segmentsOf text) :
    s ≠ "" ∧ s ≠ "." := by
  simpa using (List.mem_filter.mp h).2

theorem back_notMem_foldl_step (segments walked : List String) (h : back ∉ walked) :
    back ∉ segments.foldl step walked := by
  induction segments generalizing walked with
  | nil => exact h
  | cons s rest ih =>
    apply ih
    unfold step
    split
    · exact fun hm => h ((List.dropLast_sublist walked).subset hm)
    · next hs => simp [h, Ne.symm hs]

theorem back_notMem_resolve (p start : Path) : back ∉ (p.resolve start).segments :=
  back_notMem_foldl_step _ _ (by simp)

theorem resolve_of_isAbsolute {p : Path} (h : p.isAbsolute = true) (here there : Path) :
    p.resolve here = p.resolve there := by
  simp [resolve, append, h]

end Path

end TypedClient
