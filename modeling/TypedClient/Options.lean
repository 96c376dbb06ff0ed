import TypedClient.Text.Basic
import TypedClient.Text.Digit

/-!
# Options

How the arguments of a command are read. A flag may be cut short as long as it stays the only one
that begins so, and its value may be joined to it by `=`. The first unbroken run of arguments that
are neither flags nor values are the words of a command; more of them are too many. After `--` all
arguments are words; joined to a flag, it leaves the flag without a value. Asking for help ends the
reading at once, but only where all arguments before it could be read and none at all is ambiguous.
-/
namespace TypedClient

structure Flag where
  name : String
  takesValue : Bool := false
  deriving DecidableEq, Repr

/-- What an argument is taken for. -/
inductive Argument where
  | word (text : String)
  /-- The mark after which all arguments are words. -/
  | separator
  | flag (f : Flag) (joined : Option String)
  | unknown
  deriving DecidableEq, Repr

namespace Argument

def named (flags : List Flag) (name : List Char) : Option Flag :=
  flags.find? fun f => f.name.toList = name

/-- The flags that begin with a text. -/
def completions (flags : List Flag) (start : List Char) : List Flag :=
  flags.filter fun f => Text.startsWith start f.name.toList

/-- A minus and a number of digits, with or without a point; a line feed may follow. -/
def isNegativeNumber (text : List Char) : Bool :=
  match text with
  | '-' :: rest =>
    let body := Text.dropFinalBreak rest
    let whole := body.takeWhile Text.isDecimalDigit
    match body.drop whole.length with
    | [] => !whole.isEmpty
    | '.' :: fraction => !fraction.isEmpty && fraction.all Text.isDecimalDigit
    | _ => false
  | _ => false

/-- An argument that begins as a flag does and is none. -/
def ofStray (text : List Char) : Argument :=
  if isNegativeNumber text || text.contains ' ' then .word (String.ofList text) else .unknown

/-- A flag with a text joined to it. One of a single letter that takes no value may be repeated in
the text. -/
def ofJoined (f : Flag) (joined : List Char) : Argument :=
  match f.name.toList with
  | ['-', letter] =>
    if !f.takesValue && !joined.isEmpty && joined.all (· = letter) then .flag f none
    else .flag f (some (String.ofList joined))
  | _ => .flag f (some (String.ofList joined))

/-- An argument that begins with two hyphens. There is none if it is ambiguous. -/
def ofLong (flags : List Flag) (text : List Char) : Option Argument :=
  let (start, joined) := match Text.cutFirst '=' text with
    | some (before, after) => (before, some (String.ofList after))
    | none => (text, none)
  match completions flags start with
  | [] => some (ofStray text)
  | [f] => some (.flag f joined)
  | _ => none

def ofShort (flags : List Flag) (text : List Char) : Argument :=
  match named flags (text.take 2) with
  | some f => ofJoined f (text.drop 2)
  | none => ofStray text

/-- What an argument is taken for where flags are expected. There is nothing if it is ambiguous. -/
def ofText (flags : List Flag) (text : String) : Option Argument :=
  match text.toList with
  | '-' :: second :: rest =>
    let text := '-' :: second :: rest
    match named flags text with
    | some f => some (.flag f none)
    | none =>
      match Text.cutFirst '=' text with
      | some (before, after) =>
        match named flags before with
        | some f => some (ofJoined f after)
        | none => if second = '-' then ofLong flags text else some (ofShort flags text)
      | none => if second = '-' then ofLong flags text else some (ofShort flags text)
  | _ => some (.word text)

def ofTexts (flags : List Flag) : List String → Option (List Argument)
  | [] => some []
  | text :: rest =>
    if text = "--" then some (.separator :: rest.map .word)
    else do
      let a ← ofText flags text
      let as ← ofTexts flags rest
      return a :: as

end Argument

/-- How far the words of a command have been read. -/
inductive Phase where
  | before
  | during
  | after
  deriving DecidableEq, Repr

/-- What the arguments of a command say. Later values of a flag come first. -/
structure Options where
  words : List String := []
  values : List (String × Option String) := []
  deriving DecidableEq, Repr

inductive Reading where
  | help
  | refused
  | options (o : Options)
  deriving DecidableEq, Repr

namespace Options

def shortHelp : Flag := { name := "-h" }

def longHelp : Flag := { name := "--help" }

/-- What is said by a flag, if it is there: its value, unless it has none. -/
def value? (o : Options) (name : String) : Option (Option String) := o.values.lookup name

def has (o : Options) (name : String) : Bool := (o.value? name).isSome

def set (o : Options) (f : Flag) (value : Option String) : Options :=
  { o with values := (f.name, value) :: o.values }

/-- The value that a joined text gives to a flag. -/
def joinedValue (joined : String) : Option String := if joined = "--" then none else some joined

/-- The phase after a flag. -/
def interrupted : Phase → Phase
  | .before => .before
  | .during | .after => .after

/-- Goes through the arguments. `excess` tells whether there has been one too many. -/
def gather (phase : Phase) (excess : Bool) (o : Options) : List Argument → Reading
  | [] => if excess then .refused else .options o
  | .unknown :: rest => gather (interrupted phase) true o rest
  | .word text :: rest =>
    match phase with
    | .after => gather .after true o rest
    | _ => gather .during excess { o with words := o.words ++ [text] } rest
  | .separator :: rest =>
    match phase with
    | .after => gather .after true o rest
    | _ => gather .during excess o rest
  | .flag f (some joined) :: rest =>
    if f.takesValue then gather (interrupted phase) excess (o.set f (joinedValue joined)) rest
    else .refused
  | [.flag f none] =>
    if f.takesValue then .refused
    else if f = shortHelp || f = longHelp then .help
    else gather (interrupted phase) excess (o.set f none) []
  | .flag f none :: next :: rest =>
    if f.takesValue then
      match next with
      | .word text => gather (interrupted phase) excess (o.set f (some text)) rest
      | _ => .refused
    else if f = shortHelp || f = longHelp then .help
    else gather (interrupted phase) excess (o.set f none) (next :: rest)

/-- The options that arguments state, for a command that takes words or not. -/
def read (flags : List Flag) (takesWords : Bool) (arguments : List String) : Reading :=
  match Argument.ofTexts (shortHelp :: longHelp :: flags) arguments with
  | some as => gather (if takesWords then .before else .after) false {} as
  | none => .refused

end Options

end TypedClient
