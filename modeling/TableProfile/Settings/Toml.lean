import TableProfile.Settings.Toml.Number
import TableProfile.Settings.Toml.Table
import TableProfile.Text.Utf8

/-!
# The settings file

The file is TOML. Reading it gives the keys of its root, each with a value; of sequences, tables and dates
only the kind is kept, but all of the file must be well-formed and no key may be defined twice.
-/
namespace TableProfile.Toml

open Reader

/-! ## Values -/

/-- A word for a value that is neither a number nor in quotes. What does not go on as the word does was
perhaps meant to be a text. -/
def meantAsText {α : Type} (r : Reader α) : Reader α := expecting ["`\"`", "`'`"] (named "string" r)

def number : Reader SettingValue :=
  orElse (dateTime *> pure .date) (orElse (SettingValue.float <$> double) (SettingValue.signed <$> integer))

/-- A value without parts. -/
def scalar : Reader SettingValue := fun cs =>
  match cs with
  | [] => refuse cs
  | c :: _ =>
    if c == '"' || c == '\'' then (SettingValue.text <$> text) cs
    else if isSign c || c.isDigit then number cs
    else if c == '_' then expecting ["leading digit"] (SettingValue.signed <$> integer) cs
    else if c == '.' then expecting ["leading digit"] (SettingValue.float <$> double) cs
    else if c == 't' then meantAsText (firmly (exactly "true".toList) *> pure (.bool true)) cs
    else if c == 'f' then meantAsText (firmly (exactly "false".toList) *> pure (.bool false)) cs
    else if c == 'i' then meantAsText (exactly "inf".toList *> pure (.float (Number.infinity false))) cs
    else if c == 'n' then meantAsText (exactly "nan".toList *> pure (.float Number.undefined)) cs
    else meantAsText refuse cs

/-- A sequence of items in brackets. A comma may stand behind the last. -/
def sequence (item : Reader SettingValue) : Reader SettingValue := do
  discard (one '[')
  firmly (do
    if (← get).head? != some ']' then
      let items ← separatedIfAny ',' (gap *> item <* gap)
      if !items.isEmpty then discard (optional (one ','))
      gap)
  expecting ["`]`"] (named "array" (firmly (discard (one ']'))))
  return .sequence

/-- A key with its value, behind whose equals sign blanks may stand. -/
def pair (item : Reader SettingValue) : Reader (List String × SettingValue) := do
  let path ← key
  firmly (expecting ["`.`", "`=`"] (discard (one '=')))
  blanks
  return (path, ← firmly item)

/-- A table in braces. -/
def bracedTable (item : Reader SettingValue) : Reader SettingValue := do
  discard (one '\x7b')
  let entries (pairs : List (List String × SettingValue)) : Except Complaint Entries :=
    (ofPairs pairs).mapError Clash.complaint
  discard (passing true entries
    (firmly (separatedIfAny ',' (pair item <* blanks) <* blanks)))
  expecting ["`\x7d`"] (named "inline table" (firmly (discard (one '\x7d'))))
  return .table

/-- A value with at most `room` sequences and tables within each other. -/
def value : (room : Nat) → Reader SettingValue
  | room, cs =>
    if cs.head? != some '[' && cs.head? != some '\x7b' then scalar cs
    else
      match room with
      | 0 => .error ⟨cs, true, .tooDeep⟩
      | room + 1 => (if cs.head? == some '[' then sequence (value room) else bracedTable (value room)) cs

/-! ## The file -/

/-- What has been read of a file: its tables, and the one that is open. -/
structure Document where
  root : Entries
  place : List String

/-- A line `key = value`. -/
def definition (d : Document) : Reader Document :=
  passing true (fun (path, v) =>
      match define d.place path v d.root with
      | .ok root => .ok { d with root }
      | .error clash => .error clash.complaint)
    (firmly (pair (value (depthLimit - 1)) <* lineRest))

/-- A line that opens a table. -/
def header (d : Document) : Reader Document :=
  let line (isRow : Bool) (marks : Nat) : Reader (List String) := do
    exactly (List.replicate marks '[')
    let path ← key
    expecting ["`.`", if isRow then "`]]`" else "`]`"] (exactly (List.replicate marks ']'))
    lineRest
    return path
  let opening (isRow : Bool) : Reader Document :=
    passing true (fun path =>
        match openTable isRow path d.root with
        | .ok root => .ok ⟨root, path⟩
        | .error clash => .error clash.complaint)
      (line isRow (if isRow then 2 else 1))
  firmly (named "table header" (fun cs =>
    match cs with
    | '[' :: '[' :: _ => opening true cs
    | _ :: _ :: _ => opening false cs
    | _ => refuse cs))

/-- One line. -/
def line (d : Document) : Reader Document := fun cs =>
  match cs with
  | '#' :: _ => firmly (comment *> lineEnd *> pure d) cs
  | '[' :: _ => header d cs
  | '\n' :: _ | '\r' :: _ => (newline *> pure d) cs
  | [] => refuse cs
  | _ => definition d cs

/-- Lines up to the end of the file; `fuel` is the number of characters. -/
def linesWithin : (fuel : Nat) → Document → Reader Document
  | 0, d => pure d
  | fuel + 1, d => do
    match ← optional (line d) with
    | some d => blanks *> linesWithin fuel d
    | none => endOfFile *> pure d

def Item.toValue : Item → SettingValue
  | .value v => v
  | .table .. => .table
  | .row _ => .sequence

/-- The keys and values of a file's root. -/
def root : Reader (List (String × SettingValue)) := fun cs =>
  (do
    discard (optional (one '\uFEFF'))
    blanks
    let d ← linesWithin (cs.length + 1) ⟨[], []⟩
    return d.root.map fun (key, item) => (key, item.toValue) : Reader _) cs

/-- The keys and values of a settings file, or a report of what is wrong with it. -/
def read (content : Bytes) : Except String (List (String × SettingValue)) :=
  match Utf8.decode? content with
  | none => .error "stream did not contain valid UTF-8"
  | some text =>
    match root text.toList with
    | .error e => .error (report text.toList e)
    | .ok (entries, _) => .ok entries

end TableProfile.Toml
