import TypedClient.Proofs.Text.Lists
import TypedClient.Text.Blank

/-!
# Lines, comments and code

A text is read line by line. Readers differ in what ends a line for them, so all of this holds of any
characters that may do so. A line is code unless there is nothing on it or it is a comment as a whole.
The code of lines that are joined is that of each of them, one after the other.
-/
namespace TypedClient.Text

/-- What ends a line for a reader: the line feed and maybe others, but neither blank nor slash. -/
structure LineEnds where
  isEnd : Char → Bool
  feed : isEnd '\n' = true
  blank : isEnd ' ' = false
  slash : isEnd '/' = false

/-- The white space of scripts besides their line ends. -/
def spaceRanges : List (Nat × Nat) :=
  [(0x09, 0x09), (0x0B, 0x0C), (0x20, 0x20), (0xA0, 0xA0), (0x1680, 0x1680), (0x2000, 0x200A),
   (0x202F, 0x202F), (0x205F, 0x205F), (0x3000, 0x3000), (0xFEFF, 0xFEFF)]

def isSpace (c : Char) : Bool := inRanges spaceRanges c.toNat

/-- Whether there is something on a line that is no comment. -/
def isCode (line : List Char) : Bool :=
  match line.dropWhile isSpace with
  | [] => false
  | '/' :: '/' :: _ => false
  | _ => true

/-- Whether a line begins as the comment of a method does. -/
def isMarked (line : List Char) : Bool := startsWith "  //".toList line

theorem isMarked_iff {line : List Char} : isMarked line = true ↔ "  //".toList <+: line := by
  rw [isMarked, startsWith, Option.isSome_iff_exists]
  exact exists_congr fun rest => dropStart?_eq_some_iff.trans eq_comm

/-- A line that begins as a comment is no code. -/
theorem isCode_of_isMarked {line : List Char} (marked : isMarked line = true) :
    isCode line = false := by
  obtain ⟨rest, rfl⟩ := isMarked_iff.mp marked
  have blank : isSpace ' ' = true := by decide
  have slash : ¬isSpace '/' = true := by decide
  have indent : "  //".toList ++ rest = ' ' :: ' ' :: '/' :: '/' :: rest := rfl
  rw [isCode, indent, List.dropWhile_cons_of_pos blank, List.dropWhile_cons_of_pos blank,
    List.dropWhile_cons_of_neg slash]
  rfl

namespace LineEnds

/-- Only the line feed ends a line. -/
def feeds : LineEnds where
  isEnd c := c = '\n'
  feed := by decide
  blank := by decide
  slash := by decide

/-- What ends a line of a script. A carriage return with a line feed behind it ends two, the second of
which is empty. -/
def script : LineEnds where
  isEnd c := c = '\n' || c = '\r' || c = '\u2028' || c = '\u2029'
  feed := by decide
  blank := by decide
  slash := by decide

def linesOf (ends : LineEnds) (text : String) : List (List Char) :=
  piecesBy ends.isEnd text.toList

/-- The lines of a text behind its first one. -/
def behind (ends : LineEnds) (text : String) : List (List Char) := (ends.linesOf text).tail

/-- The lines of a text that are code. -/
def code (ends : LineEnds) (text : String) : List (List Char) := (ends.linesOf text).filter isCode

/-- What of a text in a comment is code. -/
def leaked (ends : LineEnds) (comment : String) : List (List Char) :=
  (ends.behind comment).filter isCode

variable (ends : LineEnds)

theorem linesOf_append (text text' : String) :
    ends.linesOf (text ++ "\n" ++ text') = ends.linesOf text ++ ends.linesOf text' := by
  rw [linesOf, String.toList_append, String.toList_append, List.append_assoc]
  exact piecesBy_append ends.feed text.toList text'.toList

theorem code_append (text text' : String) :
    ends.code (text ++ "\n" ++ text') = ends.code text ++ ends.code text' := by
  rw [code, linesOf_append, List.filter_append]
  rfl

/-- The code of joined lines, which may have line ends themselves. -/
theorem code_lines (texts : List String) : ends.code (lines texts) = texts.flatMap ends.code := by
  induction texts with
  | nil => rfl
  | cons text rest ih =>
    cases rest with
    | nil => rw [List.flatMap_singleton]; rfl
    | cons next rest => rw [List.flatMap_cons, ← ih, ← code_append]; rfl

/-- A text behind the mark of a comment has that mark on its first line and stays as it is behind
it. -/
theorem linesOf_comment (text : String) :
    ∃ first, isMarked first = true ∧
      ends.linesOf ("  // " ++ text) = first :: ends.behind text := by
  have plain : ∀ c ∈ "  // ".toList, ends.isEnd c = false := by
    intro c member
    have listed : c = ' ' ∨ c = '/' := by
      revert member
      simp only [String.reduceToList, List.mem_cons, List.not_mem_nil]
      tauto
    rcases listed with rfl | rfl
    · exact ends.blank
    · exact ends.slash
  obtain ⟨first, rest, cut⟩ := List.exists_cons_of_ne_nil (piecesBy_ne_nil ends.isEnd text.toList)
  refine ⟨"  // ".toList ++ first, isMarked_iff.mpr ⟨' ' :: first, rfl⟩, ?_⟩
  rw [behind, linesOf, linesOf, String.toList_append, piecesBy_append_of_plain plain, cut]
  rfl

/-- The code of a comment is what leaks out of it. -/
theorem code_comment (text : String) : ends.code ("  // " ++ text) = ends.leaked text := by
  obtain ⟨first, marked, cut⟩ := ends.linesOf_comment text
  rw [code, cut, List.filter_cons_of_neg (by rw [isCode_of_isMarked marked]; decide)]
  rfl

end LineEnds

end TypedClient.Text
