import TableProfile.Profile.Correlation
import TableProfile.Profile.Frequency
import TableProfile.Table.Load

/-!
# The profile of a table

`summarize` profiles every column of a dataset in column order and correlates the numeric ones; it fails
only where a column has no text. `Analysis` adds what is known of the table before its statistics.
-/
namespace TableProfile

inductive ColumnProfile where
  | numeric (profile : NumericProfile)
  | category (profile : CategoryProfile)
  deriving DecidableEq, Repr

def ColumnProfile.numeric? : ColumnProfile → Option NumericProfile
  | .numeric p => some p
  | .category _ => none

def ColumnProfile.category? : ColumnProfile → Option CategoryProfile
  | .numeric _ => none
  | .category p => some p

structure Summary where
  rows : Nat
  numericColumns : List String
  columns : List ColumnProfile
  correlations : CorrelationTable
  deriving DecidableEq, Repr

namespace Summary

/-- The profiles of the numeric columns, in column order. -/
def numeric (s : Summary) : List NumericProfile := s.columns.filterMap ColumnProfile.numeric?

/-- The profiles of the other columns, in column order. -/
def categories (s : Summary) : List CategoryProfile := s.columns.filterMap ColumnProfile.category?

end Summary

/-- A numeric column of a table as doubles. -/
def Column.toNumeric? (c : Column) : Option NumericColumn :=
  c.cells.numbers.map fun cells => ⟨c.name, cells⟩

/-- The profile of one column. -/
def Column.profile (c : Column) : Except ProfileError ColumnProfile :=
  match c.cells.numbers with
  | some cells => .ok (.numeric (describe c.name cells))
  | none => c.cells.texts.map fun cells => .category (frequencies c.name cells)

/-- The profiles of columns, in order; the first failure ends it. -/
def profileAll : List Column → Except ProfileError (List ColumnProfile)
  | [] => .ok []
  | c :: rest =>
    match c.profile with
    | .error e => .error e
    | .ok p => (profileAll rest).map (p :: ·)

/-- The profile of a table. -/
def summarize (d : Dataset) : Except ProfileError Summary :=
  (profileAll d.columns).map fun columns =>
    let numeric := d.columns.filterMap Column.toNumeric?
    ⟨d.rowCount, numeric.map (·.name), columns, CorrelationTable.ofColumns numeric⟩

/-- A table's file data and statistics. -/
structure Analysis where
  file : FileSummary
  summary : Summary
  deriving DecidableEq, Repr

/-- Why a file has no analysis. -/
inductive AnalysisError where
  | load (cause : LoadError)
  | profile (cause : ProfileError)
  deriving DecidableEq, Repr

def AnalysisError.message : AnalysisError → String
  | .load cause => cause.message
  | .profile cause => cause.message

def analyzeDataset (d : Dataset) : Except ProfileError Analysis :=
  (summarize d).map fun s => ⟨d.fileSummary, s⟩

/-- The analysis of a dataset that may not have loaded. -/
def analyzeLoaded (loaded : Except LoadError Dataset) : Except AnalysisError Analysis :=
  match loaded with
  | .error e => .error (.load e)
  | .ok d =>
    match analyzeDataset d with
    | .error e => .error (.profile e)
    | .ok a => .ok a

/-- The analysis of content under a file name. -/
def analyzeBytes (name : String) (bytes : Bytes) : Except AnalysisError Analysis :=
  analyzeLoaded (loadBytes name bytes)

end TableProfile
