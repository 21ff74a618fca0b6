import TableProfile.Settings.Toml.Text
import TableProfile.Settings.Value

/-!
# Keys and tables of a settings file

A key has one or more parts with points between them. Keys name values and tables; a table is there once
and for all, but may be named on the way to others before that, and those of a row follow one another.

`define` and `openTable` change the tables of a file, or say why a key clashes with one that is there.
-/
namespace TableProfile.Toml

open Reader

/-! ## Keys -/

def isKeyChar (c : Char) : Bool := c.isAlphanum || c == '-' || c == '_'

def keyPart : Reader String := fun cs =>
  String.ofList <$> (match cs with
    | '"' :: _ => basicText
    | '\'' :: _ => literalText
    | _ => someOf isKeyChar) <| cs

/-- How deep tables and sequences may be within each other, and how many parts a key may have. -/
def depthLimit : Nat := 80

def Complaint.tooDeep : Complaint := .ofCause "recursion limit exceeded"

/-- A key with blanks around it and around its points. -/
def key : Reader (List String) :=
  passing false (fun path => if path.length < depthLimit then .ok path else .error .tooDeep)
    (named "key" (separated '.' (blanks *> keyPart <* blanks)))

/-! ## Tables -/

/-- What a key stands for. A table is implicit if only keys below it were named, and dotted if they were
named in one key with points; of tables in a row the last is kept. -/
inductive Item where
  | value (v : SettingValue)
  | table (implicit dotted : Bool) (entries : List (String × Item))
  | row (last : List (String × Item))

abbrev Entries := List (String × Item)

/-- Where a key is in the way. -/
inductive Owner where
  | root
  | table (path : List String)
  /-- A table that is not named: one in braces, or one that another key has made. -/
  | unnamed
  deriving DecidableEq, Repr

def Owner.ofPath (path : List String) : Owner := if path.isEmpty then .root else .table path

/-- Why a key cannot be defined. -/
inductive Clash where
  /-- The key is there; as it is written in the message. -/
  | again (written : String) (owner : Owner)
  | noTable (path : List String) (kind : String)
  deriving DecidableEq, Repr

def Clash.message : Clash → String
  | again written .unnamed => "duplicate key `" ++ written ++ "`"
  | again written .root => "duplicate key `" ++ written ++ "` in document root"
  | again written (.table path) =>
    "duplicate key `" ++ written ++ "` in table `" ++ String.intercalate "." path ++ "`"
  | noTable path kind =>
    "dotted key `" ++ String.intercalate "." path ++ "` attempted to extend non-table type (" ++ kind ++ ")"

def Clash.complaint (c : Clash) : Complaint := .ofCause c.message

def kindOf : SettingValue → String
  | .bool _ => "boolean"
  | .signed _ | .unsigned _ => "integer"
  | .float _ => "float"
  | .text _ => "string"
  | .date => "datetime"
  | .sequence => "array"
  | .table => "inline table"
  | .absent => "none"

def find? (es : Entries) (key : String) : Option Item := (es.find? (·.1 == key)).map (·.2)

/-- Puts an item in the place of the one of its key, or behind all. -/
def put (es : Entries) (key : String) (item : Item) : Entries :=
  if es.any (·.1 == key) then es.map fun e => if e.1 == key then (key, item) else e
  else es ++ [(key, item)]

/-- Changes the table that a path leads to, making those that are not there. `above` is the path so far;
the change learns how its table is defined. -/
def changeAt (dotted : Bool) (f : (isDotted : Bool) → Entries → Except Clash Entries) :
    (above path : List String) → (isDotted : Bool) → Entries → Except Clash Entries
  | _, [], isDotted, es => f isDotted es
  | above, key :: path, _, es =>
    match find? es key with
    | none =>
      (changeAt dotted f (above ++ [key]) path dotted []).map fun inner =>
        put es key (.table true dotted inner)
    | some (.row last) =>
      (changeAt dotted f (above ++ [key]) path false last).map fun inner => put es key (.row inner)
    | some (.table implicit isDotted entries) =>
      if dotted && !implicit then .error (.again key .unnamed)
      else
        (changeAt dotted f (above ++ [key]) path isDotted entries).map fun inner =>
          put es key (.table implicit isDotted inner)
    | some (.value v) => .error (.noTable (above ++ [key]) (kindOf v))

/-- Defines a key with a value in a table that `owner` names. -/
def defineIn (owner : Owner) (key : List String) (item : Item) (es : Entries) : Except Clash Entries :=
  let name := key.getLastD ""
  let dots := key.dropLast
  let insert (isDotted : Bool) (es : Entries) : Except Clash Entries :=
    if isDotted == dots.isEmpty then .error (.again name .unnamed)
    else if es.any (·.1 == name) then .error (.again name owner)
    else .ok (put es name item)
  changeAt true insert [] dots false es

/-- Defines a key with a value in the table at `place`. -/
def define (place key : List String) (v : SettingValue) (root : Entries) : Except Clash Entries :=
  changeAt false (fun _ => defineIn (.ofPath place) key (.value v)) [] place false root

/-- The entries of a table in braces; a table among them is closed. -/
def ofPairs (pairs : List (List String × SettingValue)) : Except Clash Entries :=
  pairs.foldlM (fun es (key, v) =>
    defineIn .unnamed key (if v = .table then .table false false [] else .value v) es) []

/-! ## Headers -/

/-- A control character that double quotes hold only as an escape. -/
def isControl (c : Char) : Bool := (c.toNat < 0x20 || c.toNat == 0x7F) && c != '\t'

def escapeControl (c : Char) : List Char :=
  match c with
  | '\x08' => ['\\', 'b']
  | '\t' => ['\\', 't']
  | '\n' => ['\\', 'n']
  | '\x0c' => ['\\', 'f']
  | '\r' => ['\\', 'r']
  | '"' => ['\\', '"']
  | '\\' => ['\\', '\\']
  | c =>
    if isControl c then
      let figures := (Nat.toDigits 16 c.toNat).map Char.toUpper
      ['\\', 'u'] ++ List.replicate (4 - figures.length) '0' ++ figures
    else [c]

/-- A part of a key as one would write it: bare, else in double quotes if it needs no escapes, else in
single quotes if they can hold it. -/
def written (part : String) : String :=
  let cs := part.toList
  if !cs.isEmpty && cs.all isKeyChar then part
  else if !cs.any isControl && cs.any (fun c => c == '"' || c == '\\') && !cs.contains '\'' then
    String.ofList ('\'' :: cs ++ ['\''])
  else String.ofList ('"' :: cs.flatMap escapeControl ++ ['"'])

/-- Opens a table, or one more table of a row. -/
def openTable (isRow : Bool) (path : List String) (root : Entries) : Except Clash Entries :=
  let name := path.getLastD ""
  let start (_ : Bool) (es : Entries) : Except Clash Entries :=
    match find? es name, isRow with
    | none, true => .ok (put es name (.row []))
    | some (.row _), true => .ok (put es name (.row []))
    | none, false => .ok (put es name (.table false false []))
    | some (.table true false entries), false => .ok (put es name (.table false false entries))
    | some _, _ => .error (.again (written name) (.ofPath path.dropLast))
  changeAt false start [] path.dropLast false root

end TableProfile.Toml
