import TableProfile.Text.Utf8

/-!
# Cutting delimited text into lines and records

Two rules cut the same bytes, and they see quotes differently.

* A *line* (`lines`) ends at a line feed that has an even number of quotes before it since the line
  began, wherever in the line those quotes stand. Lines are what the header and the types are found in.
* A *record* (`records`) is a list of fields. Only a field that begins with a quote is quoted, and
  inside it commas and line feeds count only after an even number of quotes. Records are what the cells
  are read from.

On text without quotes both rules cut at every line feed.
-/
namespace TableProfile.Csv

def quote : UInt8 := 34

def comma : UInt8 := 44

def newline : UInt8 := 10

def carriage : UInt8 := 13

/-! ## Lines -/

/-- The lines cut so far, last first, and the line at hand, last byte first. -/
structure LineScan where
  lines : List Bytes
  line : Bytes
  inside : Bool

def LineScan.step (s : LineScan) (b : UInt8) : LineScan :=
  let inside := if b == quote then !s.inside else s.inside
  if b == newline && !inside then ⟨s.line.reverse :: s.lines, [], false⟩
  else ⟨s.lines, b :: s.line, inside⟩

def scanLines (bytes : Bytes) : LineScan := bytes.foldl LineScan.step ⟨[], [], false⟩

/-- The lines that a line feed ends, without it, and what stands behind the last of them. -/
def endedLines (bytes : Bytes) : List Bytes × Bytes :=
  let s := scanLines bytes
  (s.lines.reverse, s.line.reverse)

/-- All lines of a text, which is read with a line feed at its end, added if there is none. Where a quote
is open at the end, that line feed belongs to the last line. -/
def lines (bytes : Bytes) : List Bytes :=
  let closed := if bytes.isEmpty || bytes.getLast? == some newline then bytes else bytes ++ [newline]
  let (ended, rest) := endedLines closed
  if rest.isEmpty then ended else ended ++ [rest]

/-- Drops the first line with its line feed; text without one is all dropped. -/
def dropLine (inside : Bool) : Bytes → Bytes
  | [] => []
  | b :: rest =>
    let inside := if b == quote then !inside else inside
    if b == newline && !inside then rest else dropLine inside rest

/-! ## Records -/

/-- A field as it stands in the data; it is quoted if it begins with a quote. -/
structure Field where
  raw : Bytes
  quoted : Bool
  deriving DecidableEq, Repr

/-- The fields of a record, and whether a line feed ended it. -/
structure Record where
  fields : List Field
  ended : Bool
  deriving DecidableEq, Repr

/-- The records and fields cut so far, last first, and the field at hand, last byte first. -/
structure RecordScan where
  records : List Record
  fields : List Field
  raw : Bytes
  quoted : Bool
  inside : Bool

namespace RecordScan

def start : RecordScan := ⟨[], [], [], false, false⟩

def field (s : RecordScan) : Field := ⟨s.raw.reverse, s.quoted⟩

def step (s : RecordScan) (b : UInt8) : RecordScan :=
  let quoted := if s.raw.isEmpty then b == quote else s.quoted
  let inside := if quoted && b == quote then !s.inside else s.inside
  if inside then { s with raw := b :: s.raw, quoted, inside }
  else if b == comma then ⟨s.records, s.field :: s.fields, [], false, false⟩
  else if b == newline then ⟨⟨(s.field :: s.fields).reverse, true⟩ :: s.records, [], [], false, false⟩
  else { s with raw := b :: s.raw, quoted, inside }

/-- The records, once the data ends: a record begun is a record. -/
def finish (s : RecordScan) : List Record :=
  if s.raw.isEmpty && s.fields.isEmpty then s.records.reverse
  else (⟨(s.field :: s.fields).reverse, false⟩ :: s.records).reverse

end RecordScan

def records (bytes : Bytes) : List Record := (bytes.foldl RecordScan.step .start).finish

/-- The fields of the first record. -/
def firstFields (bytes : Bytes) : List Field :=
  match records bytes with
  | [] => []
  | r :: _ => r.fields

end TableProfile.Csv
