import TypedClient.Path
import TypedClient.Source
import TypedClient.Text.Blank

/-!
# Locations

A document is located by a path or by the address of a remote resource. Its format is told from the
ending of the path of the location, and where that says nothing from how the text begins.

A location is split as an address is: an optional scheme, an optional host after two slashes, and
a path that ends before a query or fragment. A host with brackets anywhere is refused unless it is
an address of version 6 or later, and where brackets enclose the address nothing but a port may
follow them. A host is also refused if a character in it stands for one of the characters that
delimit hosts.
-/
namespace TypedClient.Location

/-- Only these two beginnings, in lower case, make a location remote. -/
def isRemote (location : String) : Bool :=
  Text.startsWith "http://".toList location.toList ||
    Text.startsWith "https://".toList location.toList

/-- What the split leaves out: controls and spaces at the beginning, tabs and line breaks. -/
def cleaned (location : List Char) : List Char :=
  (location.dropWhile fun c => c.toNat ≤ 0x20).filter fun c => c ≠ '\t' && c ≠ '\n' && c ≠ '\r'

def isSchemeChar (c : Char) : Bool := c.isAlphanum || c = '+' || c = '-' || c = '.'

def isScheme (text : List Char) : Bool :=
  match text with
  | [] => false
  | c :: _ => c.isAlpha && text.all isSchemeChar

/-- The scheme in lower case, if there is one, and what follows it. -/
def cutScheme (text : List Char) : List Char × List Char :=
  match Text.cutFirst ':' text with
  | some (before, after) => if isScheme before then (Text.lowerAscii before, after) else ([], text)
  | none => ([], text)

/-- Whether a host or path ends before this character. -/
def endsHost (c : Char) : Bool := c = '/' || c = '?' || c = '#'

/-- The host, if there is one, and what follows it. -/
def cutHost (text : List Char) : List Char × List Char :=
  match text with
  | '/' :: '/' :: rest => (rest.takeWhile (!endsHost ·), rest.dropWhile (!endsHost ·))
  | _ => ([], text)

def isHexDigit (c : Char) : Bool :=
  c.isDigit || ('a' ≤ c && c ≤ 'f') || ('A' ≤ c && c ≤ 'F')

/-- A number from 0 to 255 without leading zeros. -/
def isOctet (text : List Char) : Bool :=
  !text.isEmpty && text.length ≤ 3 && text.all Char.isDigit &&
    (text = ['0'] || text.head? ≠ some '0') &&
    text.foldl (fun n c => n * 10 + (c.toNat - 48)) 0 ≤ 255

def isDottedAddress (text : List Char) : Bool :=
  let octets := Text.pieces '.' text
  octets.length = 4 && octets.all isOctet

def isGroup (text : List Char) : Bool :=
  !text.isEmpty && text.length ≤ 4 && text.all isHexDigit

/-- The groups between colons, with two groups for a dotted address at the end. -/
def groupsOf (text : List Char) : List (List Char) :=
  let groups := Text.pieces ':' text
  match groups.getLast? with
  | some tail => if isDottedAddress tail then groups.dropLast ++ [['0'], ['0']] else groups
  | none => groups

/-- The groups on one side of a gap: a single empty one if there are none. -/
def isSide (groups : List (List Char)) : Bool := groups = [[]] || groups.all isGroup

/-- Eight groups, or fewer with one gap that stands for at least one. -/
def areGroups (groups : List (List Char)) : Bool :=
  let inner := (List.range (groups.length - 1)).filter fun i => 0 < i && groups[i]? = some []
  match inner with
  | [] => groups.length = 8 && groups.all isGroup
  | [gap] =>
    isSide (groups.take gap) && isSide (groups.drop (gap + 1)) &&
      (groups.filter fun g => !g.isEmpty).length ≤ 7
  | _ => false

/-- An address of version 6, which may name a zone. -/
def isAddress6 (text : List Char) : Bool :=
  match Text.cutFirst '%' text with
  | some (address, zone) =>
    !zone.isEmpty && !zone.contains '%' && areGroups (groupsOf address)
  | none => areGroups (groupsOf text)

/-- An address of a version yet to come: `v`, the version, a point and anything. -/
def isLaterAddress (text : List Char) : Bool :=
  match text with
  | 'v' :: rest =>
    let version := rest.takeWhile isHexDigit
    match rest.drop version.length with
    | '.' :: address => !version.isEmpty && !address.isEmpty
    | _ => false
  | _ => false

def isAddress (text : List Char) : Bool :=
  if text.head? = some 'v' then isLaterAddress text else isAddress6 text

/-- What follows the name of a user. -/
def dropUser (host : List Char) : List Char := ((Text.cutLast '@' host).map (·.2)).getD host

/-- The text before a character, which may be missing, and what follows it. -/
def cutBefore (c : Char) (text : List Char) : List Char × List Char :=
  (Text.cutFirst c text).getD (text, [])

/-- Whether a host is an address, in brackets or not. -/
def holdsAddress (host : List Char) : Bool :=
  let host := dropUser host
  match Text.cutFirst '[' host with
  | some (before, rest) =>
    let (address, port) := cutBefore ']' rest
    before.isEmpty && (port.isEmpty || port.head? = some ':') && isAddress address
  | none => isAddress (cutBefore ':' host).1

/-- Closed ranges of the characters whose compatible form has a delimiter in it. -/
def disguisedRanges : List (Nat × Nat) :=
  [(0x2047, 0x2049), (0x2100, 0x2101), (0x2105, 0x2106), (0x2A74, 0x2A74), (0xFE13, 0xFE13),
   (0xFE16, 0xFE16), (0xFE55, 0xFE56), (0xFE5F, 0xFE5F), (0xFE6B, 0xFE6B), (0xFF03, 0xFF03),
   (0xFF0F, 0xFF0F), (0xFF1A, 0xFF1A), (0xFF1F, 0xFF20)]

def isHost (host : List Char) : Bool :=
  host.contains '[' = host.contains ']' && (!host.contains '[' || holdsAddress host) &&
    !host.any fun c => Text.inRanges disguisedRanges c.toNat

/-- The schemes whose paths may end in parameters. -/
def parameterSchemes : List String :=
  ["", "ftp", "hdl", "prospero", "http", "imap", "https", "shttp", "rtsp", "rtspu", "sip",
   "sips", "mms", "sftp", "tel"]

/-- The path without the parameters of its last segment. -/
def dropParameters (path : List Char) : List Char :=
  match Text.cutLast '/' path with
  | some (before, last) => before ++ '/' :: last.takeWhile (· ≠ ';')
  | none => path.takeWhile (· ≠ ';')

/-- The path of a location. -/
def path (location : String) : Result Path :=
  let (scheme, rest) := cutScheme (cleaned location.toList)
  let (host, rest) := cutHost rest
  if isHost host then
    let path := rest.takeWhile fun c => c ≠ '?' && c ≠ '#'
    let named := parameterSchemes.contains (String.ofList scheme)
    .ok (Path.ofText (String.ofList (if named then dropParameters path else path)))
  else malformed .malformedHost

/-- The format that an ending stands for, in whichever case. -/
def formatOfSuffix? (suffix : String) : Option Format :=
  let lower := String.ofList (Text.lowerAscii suffix.toList)
  if lower = ".yml" || lower = ".yaml" then some .yaml
  else if lower = ".json" then some .json
  else none

/-- Whether a text begins as a list or a mapping does in JSON. -/
def beginsAsJson (text : String) : Bool :=
  match text.toList.dropWhile Text.isBlank with
  | c :: _ => c = '\x7b' || c = '['
  | [] => false

/-- The format of the document at a location, whose text may be known. -/
def format (location : String) (text : Option String) : Result Format := do
  let path ← path location
  match formatOfSuffix? path.suffix with
  | some f => return f
  | none => return if (text.map beginsAsJson).getD false then .json else .yaml

end TypedClient.Location
