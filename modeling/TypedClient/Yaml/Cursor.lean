import TypedClient.Failure

/-!
# Places in a YAML text

A cursor is a place in a text: what is still to be read, and where that begins. Line breaks are
`\n`, `\r`, `\r\n`, U+0085, U+2028 and U+2029. Reading past the end gives the null character, which
no YAML text contains.
-/
namespace TypedClient.Yaml

/-- Why a text is not read: it is no YAML, or it writes a value that does not exist. -/
inductive Fault where
  | invalid
  | malformed (m : Malformed)
  deriving DecidableEq, Repr

structure Cursor where
  rest : List Char
  /-- The number of letters of the whole text. -/
  size : Nat
  index : Nat := 0
  line : Nat := 0
  column : Nat := 0
  deriving Repr

def endMark : Char := '\x00'

def isBreak (c : Char) : Bool :=
  c = '\n' || c = '\r' || c = '\u0085' || c = '\u2028' || c = '\u2029'

/-- A line break or the end of the text. -/
def isLineEnd (c : Char) : Bool := isBreak c || c = endMark

/-- A space, a tab, a line break or the end of the text. -/
def isGap (c : Char) : Bool := isLineEnd c || c = ' ' || c = '\t'

/-- The characters of anchors, handles and directive names. -/
def isWord (c : Char) : Bool := c.isAlphanum || c = '-' || c = '_'

/-- The codes that a text may hold at all. -/
def isAllowed (n : Nat) : Bool :=
  n = 0x09 || n = 0x0A || n = 0x0D || (0x20 ≤ n && n ≤ 0x7E) || n = 0x85 ||
    (0xA0 ≤ n && n ≤ 0xFFFD && !Text.isHalf n) || 0x10000 ≤ n

namespace Cursor

def ofText (text : List Char) : Cursor := { rest := text, size := Text.size text }

/-- How many letters are still to be read. -/
def remaining (c : Cursor) : Nat := c.size - c.index

def peek (c : Cursor) : Char := c.rest.headD endMark

def peekAt (c : Cursor) (n : Nat) : Char := (c.rest.drop n).headD endMark

/-- The letter at a place. -/
def letter (c : Cursor) : List Char := ((Text.letters (c.rest.take 2)).head?).getD [endMark]

/-- One letter on. A carriage return before a line feed does not end the line by itself, and a
byte order mark takes no column. -/
def next (c : Cursor) : Cursor :=
  match c.rest with
  | [] => c
  | ch :: rest =>
    let rest := if ch = Text.mark then rest.drop 1 else rest
    let c := { c with rest := rest, index := c.index + 1 }
    if isBreak ch && !(ch = '\r' && rest.head? = some '\n') then
      { c with line := c.line + 1, column := 0 }
    else if ch = '\uFEFF' then c
    else { c with column := c.column + 1 }

def forward : Nat → Cursor → Cursor
  | 0, c => c
  | n + 1, c => forward n c.next

/-- The longest run of characters that satisfy `p`, and the place behind it. -/
def takeWhile (p : Char → Bool) (c : Cursor) : List Char × Cursor :=
  let run := c.rest.takeWhile p
  (run, c.forward (Text.size run))

def skipWhile (p : Char → Bool) (c : Cursor) : Cursor := (c.takeWhile p).2

def skipSpaces (c : Cursor) : Cursor := c.skipWhile (· = ' ')

/-- The line break at a place, if there is one, and the place behind it. All breaks but U+2028 and
U+2029 count as line feeds. -/
def lineBreak (c : Cursor) : List Char × Cursor :=
  match c.rest with
  | '\r' :: '\n' :: _ => (['\n'], c.forward 2)
  | ch :: _ =>
    if ch = '\u2028' || ch = '\u2029' then ([ch], c.next)
    else if isBreak ch then (['\n'], c.next)
    else ([], c)
  | [] => ([], c)

/-- Spaces and a comment, to the end of the line. -/
def skipComment (c : Cursor) : Cursor :=
  let c := c.skipSpaces
  if c.peek = '#' then c.skipWhile fun ch => !isLineEnd ch else c

/-- The rest of a line that may hold nothing but a comment. -/
def ignoredLine (c : Cursor) : Except Fault Cursor :=
  let c := c.skipComment
  if isLineEnd c.peek then .ok c.lineBreak.2 else .error .invalid

/-- Whether `---` or `...` stands at a place, alone. -/
def atSeparator (c : Cursor) : Bool :=
  let mark := c.rest.take 3
  (mark = ['-', '-', '-'] || mark = ['.', '.', '.']) && isGap (c.peekAt 3)

end Cursor

end TypedClient.Yaml
