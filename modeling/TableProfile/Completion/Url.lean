import TableProfile.Completion.Host

/-!
# Web addresses

`Url.read?` reads an absolute address: scheme, authority, path, query and fragment. A name and a password
in the authority are checked and left out. The special schemes (`http`, `https`, `ftp`, `ws`, `wss`,
`file`) have a host, a backslash counts as a slash in them, and their paths begin with one; any other
scheme may have a host, a path, or a text that has no structure. Characters that may not stand in a part
are percent-encoded, the segments `.` and `..` are resolved, and tabs and line ends are ignored.

`target` is what a request asks its host for; `text` is the whole address.
-/
namespace TableProfile

structure Url where
  scheme : String
  /-- Host and port, if there are two slashes before them; the port of the scheme itself is left out. -/
  authority : Option String
  path : String
  query : Option String
  fragment : Option String
  deriving DecidableEq, Repr

namespace Url

/-! ## Schemes -/

/-- The special schemes with their ports. -/
def special : List (String × Option Nat) :=
  [("http", some 80), ("https", some 443), ("ftp", some 21), ("ws", some 80), ("wss", some 443),
    ("file", none)]

def isSpecial (scheme : String) : Bool := special.any (·.1 == scheme)

def standardPort? (scheme : String) : Option Nat := (special.find? (·.1 == scheme)).bind (·.2)

/-- A scheme and what stands behind its colon. -/
def readScheme? (cs : List Char) : Option (String × List Char) :=
  let isSchemeChar (c : Char) : Bool := c.isAlphanum || c == '+' || c == '-' || c == '.'
  match cs.takeWhile isSchemeChar, cs.dropWhile isSchemeChar with
  | c :: name, ':' :: rest =>
    if c.isAlpha then some (String.ofList ((c :: name).map Char.toLower), rest) else none
  | _, _ => none

/-! ## Paths -/

/-- What is encoded in a path, beside control characters and what is not ASCII. -/
def inPath : List Char := [' ', '"', '<', '>', '\x60', '#', '?', '\x7b', '\x7d']

def inQuery : List Char := [' ', '"', '<', '>', '#']

def inFragment : List Char := [' ', '"', '<', '>', '\x60']

def isDot (segment : List Char) : Bool :=
  let s := String.ofList (segment.map Char.toLower)
  s == "." || s == "%2e"

def isDotDot (segment : List Char) : Bool :=
  let s := String.ofList (segment.map Char.toLower)
  s == ".." || s == ".%2e" || s == "%2e." || s == "%2e%2e"

/-- Segments with the dots among them resolved; `done` holds those before, last first. -/
def resolve (done : List (List Char)) : List (List Char) → List (List Char)
  | [] => done.reverse
  | [last] =>
    if isDotDot last then ([] :: done.drop 1).reverse
    else if isDot last then ([] :: done).reverse
    else (last :: done).reverse
  | s :: rest =>
    if isDotDot s then resolve (done.drop 1) rest
    else if isDot s then resolve done rest
    else resolve (s :: done) rest

/-- The path that characters write, of which a slash at the front is none of the first segment. -/
def readPath (cs : List Char) : List Char :=
  let body := match cs with
    | '/' :: rest => rest
    | cs => cs
  let segments := resolve [] (Split.pieces '/' [] body)
  '/' :: List.intercalate ['/'] (segments.map (Host.percentEncode inPath))

/-! ## Authorities -/

/-- The port that digits write; outside, if it is none; inside, if it is that of the scheme. -/
def readPort? (scheme : String) (digits : List Char) : Option (Option Nat) :=
  let port := digits.foldl (fun n c => 10 * n + (c.toNat - '0'.toNat)) 0
  if !digits.all Char.isDigit || 65535 < port then none
  else if digits.isEmpty || standardPort? scheme = some port then some none
  else some (some port)

/-- What stands before the colon in front of a port; a colon in brackets is none of it. -/
def beforePort (inBrackets : Bool) : List Char → List Char
  | [] => []
  | c :: rest =>
    if c == ':' && !inBrackets then []
    else c :: beforePort (if c == '[' then true else if c == ']' then false else inBrackets) rest

/-- Host and port that an authority writes. -/
def readAuthority? (scheme : String) (cs : List Char) : Option String :=
  let hostAndPort := (cs.reverse.takeWhile (· != '@')).reverse
  let written := beforePort false hostAndPort
  let behind := hostAndPort.drop written.length
  if written.isEmpty && (isSpecial scheme || !behind.isEmpty || cs.contains '@') then none
  else
    (if isSpecial scheme then Host.readWeb? written else Host.readOther? written).bind fun host =>
      (readPort? scheme (behind.drop 1)).map fun port =>
        host.text ++ (port.map (":" ++ toString ·)).getD ""

/-- The host of a file; the computer itself is not named. -/
def readFileHost? (cs : List Char) : Option String :=
  if cs.isEmpty then some ""
  else
    (Host.readWeb? cs).map fun host =>
      if host = .name "localhost" then "" else host.text

/-! ## Addresses -/

/-- What stands behind a scheme, without query and fragment: authority and path. -/
def readHierarchy? (scheme : String) (cs : List Char) : Option (Option String × List Char) :=
  let cs := if isSpecial scheme then cs.map fun c => if c == '\\' then '/' else c else cs
  let atSlash (cs : List Char) : List Char × List Char := (cs.takeWhile (· != '/'), cs.dropWhile (· != '/'))
  if scheme == "file" then
    match cs with
    | '/' :: '/' :: rest =>
      let (host, path) := atSlash rest
      (readFileHost? host).map fun host =>
        (some host, '/' :: (readPath path).dropWhile (· == '/'))
    | cs => some (some "", '/' :: (readPath cs).dropWhile (· == '/'))
  else if isSpecial scheme then
    let (authority, path) := atSlash (cs.dropWhile (· == '/'))
    (readAuthority? scheme authority).map fun authority => (some authority, readPath path)
  else
    match cs with
    | '/' :: '/' :: rest =>
      let (authority, path) := atSlash rest
      (readAuthority? scheme authority).map fun authority =>
        (some authority, if path.isEmpty then [] else readPath path)
    | '/' :: rest =>
      let path := readPath rest
      some (none, if ['/', '/'].isPrefixOf path then '/' :: '.' :: path else path)
    | cs => some (none, Host.percentEncode [] cs)

/-- The address that a text writes. -/
def read? (text : String) : Option Url :=
  let isEdge (c : Char) : Bool := c.toNat ≤ 0x20
  let cs := (((text.toList.dropWhile isEdge).reverse.dropWhile isEdge).reverse).filter fun c =>
    c != '\t' && c != '\n' && c != '\r'
  (readScheme? cs).bind fun (scheme, rest) =>
    let (beforeFragment, fragment) := Split.once '#' rest
    let (beforeQuery, query) := Split.once '?' beforeFragment
    (readHierarchy? scheme beforeQuery).map fun (authority, path) =>
      let inQuery := if isSpecial scheme then '\'' :: inQuery else inQuery
      let encoded (set : List Char) (cs : List Char) : String := String.ofList (Host.percentEncode set cs)
      { scheme, authority
        path := String.ofList path
        query := if beforeFragment.contains '?' then some (encoded inQuery query) else none
        fragment := if rest.contains '#' then some (encoded inFragment fragment) else none }

/-- Whether requests can be sent to an address. -/
def isWeb (u : Url) : Bool := u.scheme == "http" || u.scheme == "https"

def hasHost (u : Url) : Bool := u.authority.any (· != "")

/-- What a request asks the host for. -/
def target (u : Url) : String := u.path ++ ((u.query.map ("?" ++ ·)).getD "")

def text (u : Url) : String :=
  u.scheme ++ ":" ++ ((u.authority.map ("//" ++ ·)).getD "") ++ u.target
    ++ ((u.fragment.map ("#" ++ ·)).getD "")

end Url

end TableProfile
