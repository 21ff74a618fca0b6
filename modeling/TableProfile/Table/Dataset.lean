import TableProfile.Table.Column

/-!
# Datasets

A dataset is a named table: columns of equal height under distinct names (`Dataset.WellFormed`), and
the path of the file it was read from, if there is one. `fileSummary` is what a report says about the
table before any statistics.
-/
namespace TableProfile

structure Dataset where
  name : String
  path : Option String
  columns : List Column
  /-- The heights of the pieces that the columns are held in. -/
  pieces : List Nat
  deriving DecidableEq, Repr

/-- Name and type of one column. -/
structure ColumnType where
  name : String
  kind : ColumnKind
  dtype : String
  deriving DecidableEq, Repr

/-- What is known of a table before its statistics. -/
structure FileSummary where
  fileName : String
  filePath : Option String
  rows : Nat
  columns : Nat
  columnNames : List String
  types : List ColumnType
  memoryBytes : Nat
  deriving DecidableEq, Repr

namespace Dataset

/-- The height of a table is that of its first column. -/
def rowCount (d : Dataset) : Nat :=
  match d.columns with
  | [] => 0
  | c :: _ => c.cells.height

def columnNames (d : Dataset) : List String := d.columns.map Column.name

def columnTypes (d : Dataset) : List ColumnType :=
  d.columns.map fun c => ⟨c.name, c.kind, c.dtype.label⟩

def memoryBytes (d : Dataset) : Nat := total (d.columns.map fun c => c.cells.memoryBytes d.pieces)

/-- Columns of one height under distinct names, in pieces that make up that height. -/
structure WellFormed (d : Dataset) : Prop where
  height : ∀ c ∈ d.columns, c.cells.height = d.rowCount
  pieces : total d.pieces = d.rowCount
  names : d.columnNames.Nodup

def fileSummary (d : Dataset) : FileSummary where
  fileName := d.name
  filePath := d.path
  rows := d.rowCount
  columns := d.columns.length
  columnNames := d.columnNames
  types := d.columnTypes
  memoryBytes := d.memoryBytes

end Dataset

end TableProfile
