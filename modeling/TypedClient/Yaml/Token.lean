import TypedClient.Yaml.ScalarText

/-!
# Tokens of YAML

A YAML text as tokens. Block structure shows as start and end tokens that follow from indentation.
A token that may turn out to be a mapping key is remembered; when the colon behind it comes, a key
token is put in front of it. Such a key stands on one line and within 1024 characters. A value that
does not exist stops the tokens where it is written, behind those that are settled by then.
-/
namespace TypedClient.Yaml

inductive Directive where
  | version (major : Nat)
  | handle (name : String) (start : String)
  | other
  deriving DecidableEq, Repr

inductive Token where
  | directive (d : Directive)
  | documentStart
  | documentEnd
  | blockSequenceStart
  | blockMappingStart
  | blockEnd
  | flowSequenceStart
  | flowSequenceEnd
  | flowMappingStart
  | flowMappingEnd
  | blockEntry
  | flowEntry
  | key
  | value
  | alias (name : String)
  | anchor (name : String)
  | tag (handle : Option String) (rest : String)
  | scalar (text : String) (isPlain : Bool)
  /-- What stands for no token. Nothing comes behind it. -/
  | unreadable (m : Malformed)
  deriving DecidableEq, Repr

/-- A token that may be a key, at its position among the tokens. -/
structure PendingKey where
  level : Nat
  position : Nat
  required : Bool
  index : Nat
  line : Nat
  column : Nat

structure Scanner where
  cursor : Cursor
  /-- The tokens so far, the last one first. -/
  tokens : List Token := []
  /-- How many tokens there are. -/
  size : Nat := 0
  flowLevel : Nat := 0
  /-- The column of the innermost block collection, -1 outside of all. -/
  indent : Int := -1
  outerIndents : List Int := []
  keyAllowed : Bool := true
  pending : List PendingKey := []

namespace Scanner

abbrev Step := Except Fault Scanner

def invalid : Step := .error .invalid

def inFlow (s : Scanner) : Bool := s.flowLevel ≠ 0

def push (s : Scanner) (t : Token) : Scanner :=
  { s with tokens := t :: s.tokens, size := s.size + 1 }

/-- Puts a token at a position among the tokens. -/
def insertAt (s : Scanner) (position : Nat) (t : Token) : Scanner :=
  { s with
    tokens := s.tokens.insertIdx (s.size - position) t
    size := s.size + 1 }

/-- Drops pending keys that have become too old; a key that had to be one must not be among them. -/
def dropStale (s : Scanner) : Step :=
  let isStale (k : PendingKey) : Bool :=
    k.line ≠ s.cursor.line || 1024 < s.cursor.index - k.index
  if s.pending.any fun k => isStale k && k.required then invalid
  else .ok { s with pending := s.pending.filter fun k => !isStale k }

/-- Drops the pending key of the current level. -/
def dropPending (s : Scanner) : Step :=
  if s.pending.any fun k => k.level = s.flowLevel && k.required then invalid
  else .ok { s with pending := s.pending.filter fun k => k.level ≠ s.flowLevel }

/-- Remembers that the next token may be a key, where keys are allowed. -/
def savePending (s : Scanner) : Step :=
  if !s.keyAllowed then .ok s
  else do
    let required := !s.inFlow && s.indent = s.cursor.column
    let s ← s.dropPending
    let key : PendingKey :=
      ⟨s.flowLevel, s.size, required, s.cursor.index, s.cursor.line, s.cursor.column⟩
    return { s with pending := key :: s.pending }

/-- Closes the block collections that are deeper than a column. -/
def closeBlocks (column : Int) : List Int → Scanner → Scanner
  | [], s => s
  | outer :: rest, s =>
    if column < s.indent then
      closeBlocks column rest { s.push .blockEnd with indent := outer, outerIndents := rest }
    else s

def unwind (s : Scanner) (column : Int) : Scanner :=
  if s.inFlow then s else closeBlocks column s.outerIndents s

/-- Opens a block collection at a column, if it is deeper than the one around it. -/
def openBlock? (s : Scanner) (column : Nat) : Option Scanner :=
  if s.indent < column then
    some { s with indent := column, outerIndents := s.indent :: s.outerIndents }
  else none

/-- Blanks, comments and line breaks before the next token. -/
def skipToToken (s : Scanner) : Nat → Scanner
  | 0 => s
  | budget + 1 =>
    let c := s.cursor
    let c := if c.index = 0 && c.peek = '\uFEFF' then c.next else c
    let c := c.skipComment
    if isBreak c.peek then
      skipToToken { s with
        cursor := c.lineBreak.2
        keyAllowed := s.keyAllowed || !s.inFlow } budget
    else { s with cursor := c }

section Directives

/-- A tag handle: `!`, `!!` or a word between exclamation marks. -/
def readHandle (c : Cursor) : Except Fault (String × Cursor) :=
  if c.peek ≠ '!' then .error .invalid
  else if c.peekAt 1 = ' ' then .ok ("!", c.next)
  else
    let (word, after) := c.next.takeWhile isWord
    if after.peek = '!' then .ok (String.ofList ('!' :: word ++ ['!']), after.next)
    else .error .invalid

def isUriChar (ch : Char) : Bool :=
  ch.isAlphanum || "-;/?:@&=+$,_.!~*'()[]%".toList.contains ch

/-- The byte of an escape `%xx` whose sign has been read. -/
def readByte (c : Cursor) : Except Fault (UInt8 × Cursor) :=
  match c.rest with
  | a :: b :: _ =>
    match Json.hexValue? a, Json.hexValue? b with
    | some x, some y => .ok (UInt8.ofNat (x * 16 + y), c.forward 2)
    | _, _ => .error .invalid
  | _ => .error .invalid

/-- The bytes of consecutive escapes. -/
def readBytes : Nat → Cursor → Except Fault (List UInt8 × Cursor)
  | 0, _ => .error .invalid
  | budget + 1, c =>
    if c.peek ≠ '%' then .ok ([], c)
    else do
      let (b, c) ← readByte c.next
      let (bs, c) ← readBytes budget c
      return (b :: bs, c)

/-- The characters of a tag, with escapes decoded. -/
def readUriChars : Nat → Cursor → Except Fault (List Char × Cursor)
  | 0, _ => .error .invalid
  | budget + 1, c =>
    if c.peek = '%' then do
      let (bytes, c) ← readBytes (c.remaining + 1) c
      match String.fromUTF8? ⟨bytes.toArray⟩ with
      | some text =>
        let (more, c) ← readUriChars budget c
        return ((Text.ofString text).toList ++ more, c)
      | none => .error .invalid
    else if isUriChar c.peek then do
      let (more, c') ← readUriChars budget c.next
      return (c.peek :: more, c')
    else .ok ([], c)

def readUri (c : Cursor) : Except Fault (String × Cursor) := do
  let (chars, after) ← readUriChars (c.remaining + 1) c
  if after.index = c.index then .error .invalid else return (String.ofList chars, after)

def readNumber (c : Cursor) : Except Fault (Nat × Cursor) :=
  let (digits, c) := c.takeWhile Char.isDigit
  if digits.isEmpty then .error .invalid
  else if Json.maxDigits < digits.length then .error (.malformed .unreadableNumber)
  else .ok (Json.digitsValue digits, c)

/-- The end of what a directive says. -/
def endsDirective (c : Cursor) : Bool := c.peek = ' ' || isLineEnd c.peek

def readDirectiveBody (name : List Char) (c : Cursor) : Except Fault (Directive × Cursor) := do
  if name = "YAML".toList then
    let (major, c) ← readNumber c.skipSpaces
    if c.peek ≠ '.' then .error .invalid
    let (_, c) ← readNumber c.next
    if endsDirective c then return (.version major, c) else .error .invalid
  else if name = "TAG".toList then
    let (handle, c) ← readHandle c.skipSpaces
    if c.peek ≠ ' ' then .error .invalid
    let (start, c) ← readUri c.skipSpaces
    if endsDirective c then return (.handle handle start, c) else .error .invalid
  else return (.other, c.skipWhile fun ch => !isLineEnd ch)

/-- A directive behind its percent sign, with the rest of its line. -/
def readDirective (c : Cursor) : Except Fault (Directive × Cursor) := do
  let (name, c) := c.takeWhile isWord
  if name.isEmpty || !endsDirective c then .error .invalid
  let (d, c) ← readDirectiveBody name c
  return (d, ← c.ignoredLine)

end Directives

section Properties

/-- The name of an anchor or alias. -/
def readName (c : Cursor) : Except Fault (String × Cursor) :=
  let (name, c) := c.takeWhile isWord
  if name.isEmpty then .error .invalid
  else if isGap c.peek || "?:,]\x7d%@`".toList.contains c.peek then .ok (String.ofList name, c)
  else .error .invalid

/-- Whether a tag uses a handle: an exclamation mark comes before the next space. -/
def usesHandle : List Char → Bool
  | [] => false
  | ch :: rest => if ch = ' ' || isLineEnd ch then false else ch = '!' || usesHandle rest

def readTag (c : Cursor) : Except Fault (Token × Cursor) := do
  let ch := c.peekAt 1
  let (t, c) ←
    if ch = '<' then do
      let (rest, c) ← readUri (c.forward 2)
      if c.peek = '>' then pure (Token.tag none rest, c.next) else .error .invalid
    else if isGap ch then pure (Token.tag none "!", c.next)
    else if usesHandle (c.rest.drop 1) then do
      let (handle, c) ← readHandle c
      let (rest, c) ← readUri c
      pure (Token.tag (some handle) rest, c)
    else do
      let (rest, c) ← readUri c.next
      pure (Token.tag (some "!") rest, c)
  if c.peek = ' ' || isLineEnd c.peek then return (t, c) else .error .invalid

end Properties

/-- Adds a token that may be a key and forbids another one right behind it. -/
def addNode (s : Scanner) (read : Cursor → Except Fault (Token × Cursor)) : Step := do
  let s ← s.savePending
  let (t, c) ← read s.cursor
  return { s.push t with cursor := c, keyAllowed := false }

/-- Adds a document marker or directive, which ends all block collections. -/
def addMarker (s : Scanner) (t : Token) (c : Cursor) : Step := do
  let s ← (s.unwind (-1)).dropPending
  return { s.push t with cursor := c, keyAllowed := false }

def addFlowStart (s : Scanner) (t : Token) : Step := do
  let s ← s.savePending
  return { s.push t with
    cursor := s.cursor.next
    flowLevel := s.flowLevel + 1
    keyAllowed := true }

def addFlowEnd (s : Scanner) (t : Token) : Step :=
  if !s.inFlow then invalid
  else do
    let s ← s.dropPending
    return { s.push t with
      cursor := s.cursor.next
      flowLevel := s.flowLevel - 1
      keyAllowed := false }

def addFlowEntry (s : Scanner) : Step := do
  let s ← s.dropPending
  return { s.push .flowEntry with cursor := s.cursor.next, keyAllowed := true }

/-- Opens a block collection for an entry or key at the cursor, where one may start. -/
def openAt (s : Scanner) (start : Token) : Step :=
  if s.inFlow then .ok s
  else if !s.keyAllowed then invalid
  else
    match s.openBlock? s.cursor.column with
    | some opened => .ok (opened.push start)
    | none => .ok s

def addBlockEntry (s : Scanner) : Step := do
  let s ← s.openAt .blockSequenceStart
  let s ← s.dropPending
  return { s.push .blockEntry with cursor := s.cursor.next, keyAllowed := true }

def addKey (s : Scanner) : Step := do
  let s ← s.openAt .blockMappingStart
  let s ← s.dropPending
  return { s.push .key with cursor := s.cursor.next, keyAllowed := !s.inFlow }

/-- Puts a key token before the token that turned out to be a key, and the start of a block mapping
before that, if the key opens one. -/
def insertKey (s : Scanner) (k : PendingKey) : Scanner :=
  let s := { s.insertAt k.position .key with
    pending := s.pending.filter fun p => p.level ≠ s.flowLevel
    keyAllowed := false }
  if s.inFlow then s
  else
    match s.openBlock? k.column with
    | some opened => opened.insertAt k.position .blockMappingStart
    | none => s

def addValue (s : Scanner) : Step := do
  let s ←
    match s.pending.find? fun k => k.level = s.flowLevel with
    | some k => pure (s.insertKey k)
    | none => do
      let s ← s.openAt .blockMappingStart
      let s ← s.dropPending
      pure { s with keyAllowed := !s.inFlow }
  return { s.push .value with cursor := s.cursor.next }

def addBlockScalar (s : Scanner) (folded : Bool) : Step := do
  let s ← s.dropPending
  let (text, c) ← ScalarText.block folded s.indent s.cursor.next
  return { s.push (.scalar (String.ofList text) false) with cursor := c, keyAllowed := true }

def addQuoted (s : Scanner) (quote : Char) : Step :=
  s.addNode fun c => do
    let (text, c) ← ScalarText.quoted quote (c.remaining + 1) c.next
    return (.scalar (String.ofList text) false, c)

def addPlain (s : Scanner) : Step := do
  let s ← s.savePending
  let (text, broken, c) :=
    ScalarText.plain s.inFlow (s.indent + 1) (s.cursor.remaining + 1) [] false s.cursor
  return { s.push (.scalar (String.ofList text) true) with cursor := c, keyAllowed := broken }

/-- Whether a plain scalar starts at a place. -/
def startsPlain (inFlow : Bool) (c : Cursor) : Bool :=
  let ch := c.peek
  if ch = '-' then !isGap (c.peekAt 1)
  else if ch = '?' || ch = ':' then !inFlow && !isGap (c.peekAt 1)
  else !isGap ch && !",[]\x7b\x7d#&*!|>'\"%@`".toList.contains ch

/-- Whether an indicator counts as one: anywhere in a flow collection, else before a gap. -/
def isIndicator (s : Scanner) : Bool := s.inFlow || isGap (s.cursor.peekAt 1)

/-- Adds the token at the cursor. -/
def addToken (s : Scanner) : Step :=
  let c := s.cursor
  let atStart := c.column = 0
  match c.peek with
  | '[' => s.addFlowStart .flowSequenceStart
  | '\x7b' => s.addFlowStart .flowMappingStart
  | ']' => s.addFlowEnd .flowSequenceEnd
  | '\x7d' => s.addFlowEnd .flowMappingEnd
  | ',' => s.addFlowEntry
  | '*' => s.addNode fun c => do
    let (name, c) ← readName c.next
    return (.alias name, c)
  | '&' => s.addNode fun c => do
    let (name, c) ← readName c.next
    return (.anchor name, c)
  | '!' => s.addNode readTag
  | '\'' => s.addQuoted '\''
  | '"' => s.addQuoted '"'
  | '%' =>
    if !atStart then invalid
    else do
      let s ← (s.unwind (-1)).dropPending
      let (d, c) ← readDirective s.cursor.next
      s.addMarker (.directive d) c
  | '|' => if s.inFlow then invalid else s.addBlockScalar false
  | '>' => if s.inFlow then invalid else s.addBlockScalar true
  | '-' =>
    if atStart && c.atSeparator then s.addMarker .documentStart (c.forward 3)
    else if isGap (c.peekAt 1) then s.addBlockEntry
    else s.addPlain
  | '.' =>
    if atStart && c.atSeparator then s.addMarker .documentEnd (c.forward 3) else s.addPlain
  | '?' =>
    if s.isIndicator then s.addKey
    else if startsPlain s.inFlow c then s.addPlain
    else invalid
  | ':' =>
    if s.isIndicator then s.addValue
    else if startsPlain s.inFlow c then s.addPlain
    else invalid
  | _ => if startsPlain s.inFlow c then s.addPlain else invalid

/-- The tokens before the first one that may still become a key. -/
def settled (s : Scanner) : List Token :=
  match s.dropStale with
  | .ok s => s.tokens.reverse.take (s.pending.foldl (fun n k => min n k.position) s.size)
  | .error _ => []

/-- Goes to where the next token begins, which may end block collections. -/
def prepare (s : Scanner) : Step := do
  let s ← (s.skipToToken (s.cursor.remaining + 1)).dropStale
  return s.unwind s.cursor.column

/-- All tokens to the end of the text. Every token takes up at least one character. -/
def run : Nat → Scanner → Except Fault (List Token)
  | 0, _ => .error .invalid
  | budget + 1, s => do
    let ready ← s.prepare
    if ready.cursor.rest.isEmpty then
      let ended ← (ready.unwind (-1)).dropPending
      return ended.tokens.reverse
    else
      match ready.addToken with
      | .ok next => run budget next
      | .error (.malformed m) => return s.settled ++ [.unreadable m]
      | .error .invalid => .error .invalid

end Scanner

/-- The tokens of a text. -/
def Token.scan (text : String) : Except Fault (List Token) :=
  let chars := text.toList
  if !(Text.codes chars).all isAllowed then .error .invalid
  else Scanner.run (chars.length + 1) { cursor := Cursor.ofText chars }

end TypedClient.Yaml
