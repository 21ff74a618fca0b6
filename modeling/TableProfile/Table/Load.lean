import TableProfile.Csv.Reader
import TableProfile.Table.Dataset
import TableProfile.Text.Line

/-!
# Loading a dataset from content

Content is loaded under a file name, whose extension must be `csv` in any case. Empty content is
refused before it is read.
-/
namespace TableProfile

/-- Why a dataset cannot be loaded. -/
inductive LoadError where
  | notFound (path : String)
  | notCsv (name : String)
  | empty (name : String)
  | malformed (fault : Csv.Fault)
  /-- A file holds no table. -/
  | noTable
  /-- A path stands for no file. -/
  | noSource
  /-- A path is no proper pattern. -/
  | noPattern
  /-- The files of a directory differ in extension. -/
  | mixedExtensions (first second : String)
  /-- The files of one path do not have the same columns. -/
  | unlike (fault : Csv.SchemaFault)
  deriving DecidableEq, Repr

/-- What is said of a fault met before the rows are read. -/
def LoadError.inScan (cause : String) : String := "Error reading CSV file: " ++ cause ++ ": 'csv scan'"

def LoadError.message : LoadError → String
  | .notFound path => "File does not exist: " ++ path
  | .notCsv name => "File is not a CSV: " ++ name
  | .empty name => "File is empty: " ++ name
  | .malformed fault => "Error reading CSV file: " ++ fault.message
  | .noTable => inScan Csv.Fault.noData.message
  | .noSource => inScan "expected at least 1 source"
  | .noPattern => "Error reading CSV file: invalid glob pattern given"
  | .mixedExtensions first second =>
    let margin := " \\\n                "
    "Error reading CSV file: directory contained paths with different file extensions:" ++ margin
      ++ "first path: " ++ first ++ ", second path: " ++ second
      ++ ". Please use a glob pattern to explicitly specify" ++ margin
      ++ "which files to read (e.g. \"dir/**/*\", \"dir/**/*.parquet\")"
  | .unlike fault => inScan fault.message

namespace FileName

/-- The components of a path: what stands between slashes, without empty ones and, except at the
beginning, without single points. -/
def components (path : String) : List String :=
  let parts := (Split.splitAt '/' path).filter (· != "")
  match parts with
  | [] => []
  | first :: rest =>
    let rest := rest.filter (· != ".")
    if first == "." && path.toList.head? == some '/' then rest else first :: rest

/-- The last component, if it names an entry. -/
def last? (path : String) : Option String :=
  match (components path).getLast? with
  | none => none
  | some name => if name == ".." || name == "." then none else some name

/-- What stands behind the last point of a name that does not begin with its only point. -/
def extension? (name : String) : Option String :=
  if name == ".." then none
  else
    match (Split.splitAt '.' name).reverse with
    | ext :: before => if before.isEmpty || before == [""] then none else some ext
    | [] => none

/-- Whether the last component of a path ends in `.csv`, in any case. -/
def isCsv (path : String) : Bool :=
  match (last? path).bind extension? with
  | some ext => ext.toList.map Char.toLower == "csv".toList
  | none => false

end FileName

/-- Loads content under a file name. -/
def loadBytes (name : String) (bytes : Bytes) : Except LoadError Dataset :=
  if !FileName.isCsv name then .error (.notCsv name)
  else if bytes.isEmpty then .error (.empty name)
  else
    match Csv.read bytes with
    | .error fault => .error (.malformed fault)
    | .ok table => .ok ⟨name, none, table.columns, table.pieces⟩

end TableProfile
