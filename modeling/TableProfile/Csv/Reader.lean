import TableProfile.Csv.Fault
import TableProfile.Table.Column

/-!
# Reading a table

The header is found and the types are inferred first (`schema?`); then everything behind the header line
is read as records, one row each, in row order and inside a row from left to right. The first field that
does not fit its column ends the reading.

* Missing fields at the end of a record are missing cells, surplus fields are an error. A comma at the
  very end of the data opens no field.
* Where the table has one column, an empty line is a row; so the header is then looked for at the very
  beginning, and after leading line endings the header line is read once more as a row.
* The data is read in blocks of whole lines. A block with malformed text is refused before its rows if
  any column is text. The table stays in the pieces that the blocks gave.
-/
namespace TableProfile.Csv

/-- The size of a block in bytes, until a line needs more. -/
def blockSize : Nat := 64

/-- Doubles a block size until `need` bytes fit; `fuel` bounds the doublings. -/
def grow (need : Nat) : (fuel : Nat) → (size : Nat) → Nat
  | 0, size => size
  | fuel + 1, size => if need ≤ size then size else grow need fuel (2 * size)

/-- Lines gathered into blocks: the blocks done, last first, the block at hand with its lines last
first and its length, and the size that blocks are held to. -/
structure Blocks where
  done : List (List Bytes)
  lines : List Bytes
  length : Nat
  size : Nat

def Blocks.add (b : Blocks) (line : Bytes) : Blocks :=
  let need := line.length + 1
  if b.lines.isEmpty then ⟨b.done, [line], need, grow need need b.size⟩
  else if b.length + need ≤ b.size then ⟨b.done, line :: b.lines, b.length + need, b.size⟩
  else ⟨b.lines.reverse :: b.done, [line], need, grow need need b.size⟩

/-- The bytes of lines that a line feed ends. -/
def joinLines (lines : List Bytes) : Bytes := lines.flatMap fun line => line ++ [newline]

/-- The blocks of the data: lines gathered greedily, and what stands behind the last line feed. -/
def blocks (size : Nat) (bytes : Bytes) : List Bytes :=
  let (ended, rest) := endedLines bytes
  let b := ended.foldl Blocks.add ⟨[], [], 0, size⟩
  let full := (if b.lines.isEmpty then b.done else b.lines.reverse :: b.done).reverse.map joinLines
  if rest.isEmpty then full else full ++ [rest]

/-- Reads the fields of one record into the columns from number `number` on. A comma at the end of the
data leaves an empty field that is not one too many. -/
def readRow (ended : Bool) : (number : Nat) → List ColumnSpec → List Field → Except Fault (List Value)
  | _, [], [] => .ok []
  | _, [], f :: fields =>
    if !ended && f.raw.isEmpty && fields.isEmpty then .ok [] else .error .surplusField
  | number, _ :: specs, [] => (readRow ended (number + 1) specs []).map (.missing :: ·)
  | number, c :: specs, f :: fields =>
    let field : Field := ⟨dropReturn f.raw, f.quoted⟩
    match c.type.read field with
    | .error cause => .error (.badCell (Utf8.decodeLossy field.raw) c.type c.name number cause)
    | .ok v => (readRow ended (number + 1) specs fields).map (v :: ·)

/-- Reads records behind the rows done so far, last first. -/
def readRows (specs : List ColumnSpec) : List (List Value) → List Record → Except Fault (List (List Value))
  | done, [] => .ok done
  | done, r :: records =>
    match readRow r.ended 1 specs r.fields with
    | .error e => .error e
    | .ok row => readRows specs (row :: done) records

/-- The rows of a block. -/
def readBlock (specs : List ColumnSpec) (block : Bytes) : Except Fault (List (List Value)) :=
  if specs.any (·.type == .text) && !Utf8.isValid block then .error .invalidUtf8
  else (readRows specs [] (records block)).map List.reverse

/-- The data behind the header line. -/
def body (specs : List ColumnSpec) (bytes : Bytes) : Bytes :=
  let text := Utf8.withoutMark bytes
  dropLine false (if 1 < specs.length then skipEndings text else text)

/-- The cells of one column; `column` holds the values of the rows at its place. -/
def cellsOf (type : CellType) (column : List Value) : Cells :=
  match type with
  | .int => .int .i64 (column.map fun
    | .int n => some n
    | _ => none)
  | .float => .float .f64 (column.map fun
    | .float x => some x
    | _ => none)
  | .bool => .bool (column.map fun
    | .bool b => some b
    | _ => none)
  | .text => .str (column.map fun
    | .text s => some s
    | _ => none)

/-- The columns of rows. -/
def columnsOf (specs : List ColumnSpec) (rows : List (List Value)) : List Column :=
  specs.mapIdx fun i c => ⟨c.name, cellsOf c.type (rows.map fun row => row[i]?.getD .missing)⟩

/-- The first bytes of compressed files. -/
def isCompressed : Bytes → Bool
  | 0x1F :: 0x8B :: _ :: _ :: _ => true
  | 0x78 :: 0x01 :: _ :: _ :: _ => true
  | 0x78 :: 0x9C :: _ :: _ :: _ => true
  | 0x78 :: 0xDA :: _ :: _ :: _ => true
  | 0x28 :: 0xB5 :: 0x2F :: 0xFD :: _ => true
  | _ => false

/-- What is read from the data: columns of equal height, and how many rows each block gave. -/
structure Table where
  columns : List Column
  pieces : List Nat
  deriving DecidableEq, Repr

/-- The rows of each block of a file with known columns. -/
def readBlocks (specs : List ColumnSpec) (bytes : Bytes) : Except Fault (List (List (List Value))) :=
  (blocks blockSize (body specs bytes)).mapM (readBlock specs)

/-- Reads files with known columns as one table, the rows of a file behind those of the file before. -/
def readAs (specs : List ColumnSpec) (files : List Bytes) : Except Fault Table :=
  (files.mapM (readBlocks specs)).map fun files =>
    let blocks := files.flatten
    ⟨columnsOf specs blocks.flatten, blocks.map List.length⟩

/-- Reads a table. -/
def read (bytes : Bytes) : Except Fault Table :=
  if isCompressed bytes then .error .compressed
  else
    match schema? bytes with
    | none => .error .noData
    | some specs => readAs specs [bytes]

end TableProfile.Csv
