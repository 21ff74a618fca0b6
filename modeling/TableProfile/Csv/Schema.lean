import TableProfile.Csv.CellType
import TableProfile.Csv.Scan

/-!
# Names and types of the columns

The header is the first line with text, after a byte order mark and any line endings. Its fields name
the columns; of equal names the second gets `_duplicated_0` appended, the third `_duplicated_1`, and so
on. The types are the joins of what the lines after the header suggest, of which only the first
`window` are looked at.

A name that comes out twice even so stays one column, at its first place with its last type.

Files that make up one table must agree in names and number of columns, and each column takes the common
type of all (`commonSpecs`).
-/
namespace TableProfile.Csv

/-- The number of lines after the header that types are inferred from. -/
def window : Nat := 10000

/-- A column of the table to be read. -/
structure ColumnSpec where
  name : String
  type : CellType
  deriving DecidableEq, Repr

/-- The bytes after any line endings. -/
def skipEndings (bytes : Bytes) : Bytes := bytes.dropWhile fun b => b == newline || b == carriage

/-- Drops a carriage return at the end. -/
def dropReturn (bytes : Bytes) : Bytes :=
  match bytes.reverse with
  | b :: rest => if b == carriage then rest.reverse else bytes
  | [] => []

/-- A line without its carriage return; a line that is only a carriage return keeps it. -/
def trimLine (line : Bytes) : Bytes := if 1 < line.length then dropReturn line else line

/-- The bytes between the quotes of a quoted field: its first and last byte dropped. -/
def Field.inner (f : Field) : Bytes :=
  if f.quoted && 2 ≤ f.raw.length then f.raw.tail.dropLast else f.raw

/-- The names, each with a mark that counts its earlier occurrences. -/
def distinctNames (earlier : List String) : List String → List String
  | [] => []
  | name :: rest =>
    let n := earlier.count name
    let marked := if n = 0 then name else name ++ "_duplicated_" ++ toString (n - 1)
    marked :: distinctNames (name :: earlier) rest

def headerNames (line : Bytes) : List String :=
  distinctNames [] ((firstFields (trimLine line)).map fun f => Utf8.decodeLossy f.inner)

/-- What a field suggests; an empty one suggests nothing. -/
def Field.suggests (f : Field) : Option CellType :=
  if f.raw.isEmpty then none
  else some (CellType.ofText (Utf8.decodeLossy f.inner).toList)

/-- The types seen so far, joined with what the fields of one more line suggest. -/
def joinLine : List (Option CellType) → List Field → List (Option CellType)
  | seen :: rest, f :: fields =>
    (match f.suggests with
      | none => seen
      | some t => CellType.joinSeen seen t) :: joinLine rest fields
  | seen, [] => seen
  | [], _ => []

/-- The types of `n` columns, from the lines after the header. -/
def columnTypes (n : Nat) (lines : List Bytes) : List CellType :=
  let seen := (lines.take window).foldl (fun seen line => joinLine seen (firstFields (trimLine line)))
    (List.replicate n none)
  seen.map (·.getD .text)

/-- Puts a column at the place of one of its name, or behind all others. -/
def addColumn (specs : List ColumnSpec) (c : ColumnSpec) : List ColumnSpec :=
  if specs.any (·.name == c.name) then
    specs.map fun s => if s.name == c.name then c else s
  else specs ++ [c]

/-- Names and types of the columns, `none` if there is no header. -/
def schema? (bytes : Bytes) : Option (List ColumnSpec) :=
  match lines (skipEndings (Utf8.withoutMark bytes)) with
  | [] => none
  | header :: rest =>
    let names := headerNames header
    let types := columnTypes names.length rest
    some ((List.zipWith ColumnSpec.mk names types).foldl addColumn [])

/-- Why files do not make up one table. -/
inductive SchemaFault where
  /-- One has more columns. -/
  | lengths
  /-- Two columns at one place differ in name. -/
  | names (first second : String)
  deriving DecidableEq, Repr

def SchemaFault.message : SchemaFault → String
  | .lengths => "schema lengths differ"
  | .names first second => "schema names differ: got " ++ first ++ ", expected " ++ second

/-- Columns of one name each and of the common types, for lists of one length. -/
def zipSpecs : List ColumnSpec → List ColumnSpec → Except SchemaFault (List ColumnSpec)
  | a :: as, b :: bs =>
    if a.name = b.name then (zipSpecs as bs).map (⟨a.name, a.type.common b.type⟩ :: ·)
    else .error (.names a.name b.name)
  | _, _ => .ok []

/-- The columns of a table whose rows come from two files. -/
def commonSpecs (as bs : List ColumnSpec) : Except SchemaFault (List ColumnSpec) :=
  if as.length = bs.length then zipSpecs as bs else .error .lengths

end TableProfile.Csv
