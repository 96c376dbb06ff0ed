import TypedClient.Yaml.Cursor

/-!
# Texts of YAML scalars

The texts written by plain, quoted and block scalars. Line breaks inside a scalar are folded: a
single break becomes a space, and each further one stands for itself.
-/
namespace TypedClient.Yaml.ScalarText

/-- A line break with the further ones behind it, folded. -/
def fold (first : List Char) (more : List Char) : List Char :=
  if first ≠ ['\n'] then first ++ more
  else if more.isEmpty then [' ']
  else more

section Quoted

/-- The line breaks that follow one inside quotes, with the blanks around them. A document
separator must not stand there. -/
def quotedBreaks : Nat → Cursor → Except Fault (List Char × Cursor)
  | 0, _ => .error .invalid
  | budget + 1, c =>
    if c.atSeparator then .error .invalid
    else
      let c := c.skipWhile fun ch => ch = ' ' || ch = '\t'
      if isBreak c.peek then do
        let (br, c) := c.lineBreak
        let (more, c) ← quotedBreaks budget c
        return (br ++ more, c)
      else .ok ([], c)

/-- Blanks and line breaks inside quotes. -/
def quotedBlanks (budget : Nat) (c : Cursor) : Except Fault (List Char × Cursor) :=
  let (blanks, c) := c.takeWhile fun ch => ch = ' ' || ch = '\t'
  if c.peek = endMark then .error .invalid
  else if isBreak c.peek then do
    let (br, c) := c.lineBreak
    let (more, c) ← quotedBreaks budget c
    return (fold br more, c)
  else .ok (blanks, c)

/-- What a one-letter escape stands for. -/
def escape? (ch : Char) : Option Char :=
  match ch with
  | '0' => some '\x00'
  | 'a' => some '\x07'
  | 'b' => some '\x08'
  | 't' | '\t' => some '\t'
  | 'n' => some '\n'
  | 'v' => some '\x0b'
  | 'f' => some '\x0c'
  | 'r' => some '\r'
  | 'e' => some '\x1b'
  | ' ' => some ' '
  | '"' => some '"'
  | '\\' => some '\\'
  | '/' => some '/'
  | 'N' => some '\u0085'
  | '_' => some '\u00a0'
  | 'L' => some '\u2028'
  | 'P' => some '\u2029'
  | _ => none

/-- The number of digits of an escape by code point. -/
def codeLength? (ch : Char) : Option Nat :=
  match ch with
  | 'x' => some 2
  | 'u' => some 4
  | 'U' => some 8
  | _ => none

/-- The letter of a code point, which may be half of a character. -/
def codeLetter (n : Nat) : Except Fault (List Char) :=
  if 0x7FFFFFFF < n then .error (.malformed .codePointTooLarge)
  else if 0x10FFFF < n then .error (.malformed .unreadableNumber)
  else .ok (Text.ofCode n)

def hexNumber? (digits : List Char) : Option Nat :=
  digits.foldlM (fun n ch => (Json.hexValue? ch).map fun d => n * 16 + d) 0

/-- The escape whose backslash has just been read. -/
def readEscape (budget : Nat) (c : Cursor) : Except Fault (List Char × Cursor) :=
  match escape? c.peek, codeLength? c.peek with
  | some ch, _ => .ok ([ch], c.next)
  | none, some length => do
    let c := c.next
    let digits := c.rest.take length
    match if digits.length = length then hexNumber? digits else none with
    | some n => return (← codeLetter n, c.forward length)
    | none => .error .invalid
  | none, none =>
    if isBreak c.peek then quotedBreaks budget c.lineBreak.2 else .error .invalid

def endsRun (ch : Char) : Bool := ch = '\'' || ch = '"' || ch = '\\' || isGap ch

/-- The text up to the closing quote, and the place behind it. -/
def quoted (quote : Char) : Nat → Cursor → Except Fault (List Char × Cursor)
  | 0, _ => .error .invalid
  | budget + 1, c =>
    let (run, c) := c.takeWhile fun ch => !endsRun ch
    let ch := c.peek
    let goOn (part : List Char) (c : Cursor) : Except Fault (List Char × Cursor) := do
      let (more, c) ← quoted quote budget c
      return (run ++ part ++ more, c)
    if quote = '\'' && ch = '\'' && c.peekAt 1 = '\'' then goOn ['\''] (c.forward 2)
    else if ch = quote then .ok (run, c.next)
    else if quote = '"' && ch = '\\' then do
      let (part, c) ← readEscape (c.remaining + 1) c.next
      goOn part c
    else if ch = '\'' || ch = '"' || ch = '\\' then goOn [ch] c.next
    else do
      let (part, c) ← quotedBlanks (c.remaining + 1) c
      goOn part c

end Quoted

section Block

inductive Chomping where
  | strip
  | clip
  | keep
  deriving DecidableEq, Repr

structure Header where
  chomping : Chomping := .clip
  increment : Option Nat := none

def chomping? (ch : Char) : Option Chomping :=
  if ch = '+' then some .keep else if ch = '-' then some .strip else none

/-- The indicators of a block scalar in either order. -/
def readHeader (c : Cursor) : Except Fault (Header × Cursor) := do
  let readIncrement (c : Cursor) : Except Fault (Option Nat × Cursor) :=
    if c.peek = '0' then .error .invalid
    else if c.peek.isDigit then .ok (some (c.peek.toNat - 48), c.next)
    else .ok (none, c)
  let (header, c) ←
    match chomping? c.peek with
    | some chomping => do
      let (increment, c) ← readIncrement c.next
      pure (Header.mk chomping increment, c)
    | none => do
      let (increment, c) ← readIncrement c
      match increment, chomping? c.peek with
      | some _, some chomping => pure (Header.mk chomping increment, c.next)
      | _, _ => pure (Header.mk .clip increment, c)
  if c.peek = ' ' || isLineEnd c.peek then return (header, c) else .error .invalid

/-- The empty lines before a block whose depth is not stated, and the greatest depth in them. -/
def leadingLines : Nat → Nat → Cursor → List Char × Nat × Cursor
  | 0, deepest, c => ([], deepest, c)
  | budget + 1, deepest, c =>
    if c.peek = ' ' then
      let c := c.next
      leadingLines budget (max deepest c.column) c
    else if isBreak c.peek then
      let (br, c) := c.lineBreak
      let (more, deepest, c) := leadingLines budget deepest c
      (br ++ more, deepest, c)
    else ([], deepest, c)

def skipIndent (depth : Nat) (c : Cursor) : Cursor :=
  let spaces := (c.rest.takeWhile (· = ' ')).length
  c.forward (min spaces (depth - c.column))

/-- The empty lines between two lines of a block. -/
def blockBreaks (depth : Nat) : Nat → Cursor → List Char × Cursor
  | 0, c => ([], c)
  | budget + 1, c =>
    let c := skipIndent depth c
    if isBreak c.peek then
      let (br, c) := c.lineBreak
      let (more, c) := blockBreaks depth budget c
      (br ++ more, c)
    else ([], c)

/-- The lines of a block, the break that ends the last of them and the empty lines behind. -/
def blockLines (folded : Bool) (depth : Nat) :
    Nat → List Char → Cursor → List Char × List Char × List Char × Cursor
  | 0, breaks, c => ([], [], breaks, c)
  | budget + 1, breaks, c =>
    if c.column ≠ depth || c.peek = endMark then ([], [], breaks, c)
    else
      let flush := c.peek ≠ ' ' && c.peek ≠ '\t'
      let (line, c) := c.takeWhile fun ch => !isLineEnd ch
      let (br, c) := c.lineBreak
      let (after, c) := blockBreaks depth (c.remaining + 1) c
      if c.column = depth && c.peek ≠ endMark then
        let joint :=
          if folded && br = ['\n'] && flush && c.peek ≠ ' ' && c.peek ≠ '\t' then
            if after.isEmpty then [' '] else []
          else br
        let (more, last, tail, c) := blockLines folded depth budget after c
        (breaks ++ line ++ joint ++ more, last, tail, c)
      else (breaks ++ line, br, after, c)

/-- A block scalar behind its first indicator, inside a collection of the given depth. -/
def block (folded : Bool) (depth : Int) (c : Cursor) : Except Fault (List Char × Cursor) := do
  let (header, c) ← readHeader c
  let c ← c.ignoredLine
  let least := (max (depth + 1) 1).toNat
  let budget := c.remaining + 1
  let (breaks, depth, c) :=
    match header.increment with
    | none =>
      let (breaks, deepest, c) := leadingLines budget 0 c
      (breaks, max least deepest, c)
    | some n =>
      let depth := least + n - 1
      let (breaks, c) := blockBreaks depth budget c
      (breaks, depth, c)
  let (text, last, tail, c) := blockLines folded depth budget breaks c
  let ending :=
    match header.chomping with
    | .strip => []
    | .clip => last
    | .keep => last ++ tail
  return (text ++ ending, c)

end Block

section Plain

/-- Whether a plain scalar ends at a place. -/
def endsPlain (inFlow : Bool) (c : Cursor) : Bool :=
  let ch := c.peek
  let flowMark (ch : Char) : Bool :=
    ch = ',' || ch = '[' || ch = ']' || ch = '\x7b' || ch = '\x7d'
  isGap ch ||
    (ch = ':' && (isGap (c.peekAt 1) || (inFlow && flowMark (c.peekAt 1)))) ||
    (inFlow && (ch = '?' || flowMark ch))

/-- The letters of a plain scalar up to a blank or its end. -/
def plainRun (inFlow : Bool) : Nat → Cursor → List Char × Cursor
  | 0, c => ([], c)
  | budget + 1, c =>
    if endsPlain inFlow c then ([], c)
    else
      let (run, after) := plainRun inFlow budget c.next
      (c.letter ++ run, after)

/-- The spaces and breaks behind the first break inside a plain scalar; none before a document
separator. -/
def plainBreaks : Nat → Cursor → Option (List Char) × Cursor
  | 0, c => (none, c)
  | budget + 1, c =>
    if c.peek = ' ' then plainBreaks budget c.next
    else if isBreak c.peek then
      let (br, c) := c.lineBreak
      if c.atSeparator then (none, c)
      else
        let (more, c) := plainBreaks budget c
        (more.map fun m => br ++ m, c)
    else (some [], c)

/-- The spaces between two runs of a plain scalar, folded, and whether they hold a line break.
Nothing is folded before a document separator. -/
def plainSpaces (c : Cursor) : List Char × Bool × Cursor :=
  let (blanks, c) := c.takeWhile (· = ' ')
  if isBreak c.peek then
    let (br, c) := c.lineBreak
    if c.atSeparator then ([], true, c)
    else
      match plainBreaks (c.remaining + 1) c with
      | (some more, c) => (fold br more, true, c)
      | (none, c) => ([], true, c)
  else (blanks, false, c)

/-- A plain scalar whose lines must stand at least at the given depth, and whether it ends behind a
line break. `spaces` come before the next run and `broken` says that they hold a line break. -/
def plain (inFlow : Bool) (depth : Int) :
    Nat → List Char → Bool → Cursor → List Char × Bool × Cursor
  | 0, _, broken, c => ([], broken, c)
  | budget + 1, spaces, broken, c =>
    if c.peek = '#' then ([], broken, c)
    else
      let (run, c) := plainRun inFlow (c.remaining + 1) c
      if run.isEmpty then ([], broken, c)
      else
        let (after, broken, c) := plainSpaces c
        if after.isEmpty || c.peek = '#' || (!inFlow && (c.column : Int) < depth) then
          (spaces ++ run, broken, c)
        else
          let (more, broken, c) := plain inFlow depth budget after broken c
          (spaces ++ run ++ more, broken, c)

end Plain

end TypedClient.Yaml.ScalarText
