/-!
# Texts joined and cut

Small operations on texts and character lists that the rest of the library shares: joining with a
separator, cutting at the first or last occurrence of a character, replacing one, lower case for ASCII
letters. Statements say that there is always a piece, that dropping repeats keeps each text once, and
what is left behind a beginning.
-/
namespace TypedClient.Text

/-- The texts in order, with `separator` between neighbours. -/
def joinWith (separator : String) : List String → String
  | [] => ""
  | [s] => s
  | s :: t :: rest => s ++ separator ++ joinWith separator (t :: rest)

/-- The lines of a block, each after the first preceded by a line feed. -/
def lines (ls : List String) : String := joinWith "\n" ls

/-- What stands before the first `c` and what stands after it, if `c` occurs. -/
def cutFirst (c : Char) : List Char → Option (List Char × List Char)
  | [] => none
  | d :: rest =>
    if d = c then some ([], rest)
    else (cutFirst c rest).map fun p => (d :: p.1, p.2)

/-- What stands before the last `c` and what stands after it, if `c` occurs. -/
def cutLast (c : Char) : List Char → Option (List Char × List Char)
  | [] => none
  | d :: rest =>
    match cutLast c rest with
    | some p => some (d :: p.1, p.2)
    | none => if d = c then some ([], rest) else none

/-- The pieces between the characters that satisfy `p`; one more piece than there are such. -/
def piecesBy (p : Char → Bool) : List Char → List (List Char)
  | [] => [[]]
  | c :: rest =>
    match piecesBy p rest with
    | [] => [[c]]
    | piece :: pieces => if p c then [] :: piece :: pieces else (c :: piece) :: pieces

/-- The pieces between the occurrences of `c`. -/
def pieces (c : Char) (text : List Char) : List (List Char) := piecesBy (· = c) text

/-- The elements in order of their first occurrence. -/
def distinct : List String → List String
  | [] => []
  | s :: rest => s :: (distinct rest).filter (· ≠ s)

/-- The text without its beginning `start`, if it begins so. -/
def dropStart? : List Char → List Char → Option (List Char)
  | [], text => some text
  | _ :: _, [] => none
  | s :: start, c :: text => if s = c then dropStart? start text else none

def startsWith (start text : List Char) : Bool := (dropStart? start text).isSome

def endsWith (ending text : List Char) : Bool := startsWith ending.reverse text.reverse

/-- Drops the longest ending of characters that satisfy `p`. -/
def dropEndWhile (p : Char → Bool) (text : List Char) : List Char :=
  (text.reverse.dropWhile p).reverse

/-- The text without one line feed at its very end. -/
def dropFinalBreak (text : List Char) : List Char :=
  if text.getLast? = some '\n' then text.dropLast else text

/-- The text with `new` for each `c`. -/
def replace (c : Char) (new text : List Char) : List Char :=
  text.flatMap fun d => if d = c then new else [d]

/-- Lower case for `A` to `Z`; every other character stays. -/
def lowerAscii (text : List Char) : List Char := text.map Char.toLower

/-- The text with `\n` for each of its line ends. -/
def unifyLineEnds : List Char → List Char
  | [] => []
  | '\r' :: '\n' :: rest => '\n' :: unifyLineEnds rest
  | '\r' :: rest => '\n' :: unifyLineEnds rest
  | c :: rest => c :: unifyLineEnds rest

theorem piecesBy_ne_nil (p : Char → Bool) (text : List Char) : piecesBy p text ≠ [] := by
  cases text with
  | nil => simp [piecesBy]
  | cons c rest =>
    simp only [piecesBy]
    split
    · simp
    · split <;> simp

@[simp] theorem mem_distinct {s : String} {names : List String} :
    s ∈ distinct names ↔ s ∈ names := by
  induction names with
  | nil => simp [distinct]
  | cons n rest ih =>
    by_cases h : s = n
    · simp [distinct, h]
    · simp [distinct, h, ih]

theorem nodup_distinct (names : List String) : (distinct names).Nodup := by
  induction names with
  | nil => simp [distinct]
  | cons n rest ih => exact List.nodup_cons.mpr ⟨by simp, ih.filter _⟩

theorem dropStart?_eq_some_iff {start text rest : List Char} :
    dropStart? start text = some rest ↔ text = start ++ rest := by
  induction start generalizing text with
  | nil => simp [dropStart?, eq_comm]
  | cons s start ih =>
    cases text with
    | nil => simp [dropStart?]
    | cons c text =>
      by_cases hc : s = c
      · simp [dropStart?, hc, ih]
      · simp [dropStart?, hc, Ne.symm hc]

end TypedClient.Text
