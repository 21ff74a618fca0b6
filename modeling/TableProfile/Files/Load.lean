import TableProfile.Files.Pattern
import TableProfile.Profile.Summary

/-!
# Loading a dataset from a file

The file must be there, be named like a table, and hold something, in this order. A path that is a
pattern or a directory is read from all its files that hold something, as one table: the columns that all
of them have in common are found first, and then the rows of each file are read with them.

`analyzeFiles` analyses each of several files by itself.
-/
namespace TableProfile

/-- The name under which a path is reported: its last component, or all of it if that names no entry. -/
def FileName.ofPath (path : String) : String := (FileName.last? path).getD path

/-- The columns of a file. A file of a single byte has none. -/
def columnsOfFile (bytes : Bytes) : Except LoadError (List Csv.ColumnSpec) :=
  if Csv.isCompressed bytes then .error (.malformed .compressed)
  else if bytes.length < 2 then .error .noTable
  else
    match Csv.schema? bytes with
    | none => .error .noTable
    | some specs => .ok specs

/-- The columns that two files have in common, if both have columns. -/
def inCommon (first second : Except LoadError (List Csv.ColumnSpec)) :
    Except LoadError (List Csv.ColumnSpec) :=
  match first, second with
  | .error e, _ => .error e
  | _, .error e => .error e
  | .ok as, .ok bs =>
    match Csv.commonSpecs as bs with
    | .error fault => .error (.unlike fault)
    | .ok specs => .ok specs

/-- The columns that files have in common, found by halves: of two disagreements in different halves the
earlier half's is told. -/
def commonColumns (files : List Bytes) : Except LoadError (List Csv.ColumnSpec) :=
  if _h : 2 ≤ files.length then
    let half := files.length / 2
    inCommon (commonColumns (files.take half)) (commonColumns (files.drop half))
  else
    match files with
    | [] => .error .noSource
    | bytes :: _ => columnsOfFile bytes
termination_by files.length
decreasing_by
  · rw [List.length_take]; omega
  · rw [List.length_drop]; omega

/-- The columns of a table that is read from files: those of the first file, which all others share. -/
def columnsOfFiles : List Bytes → Except LoadError (List Csv.ColumnSpec)
  | [] => .error .noSource
  | [bytes] => columnsOfFile bytes
  | bytes :: rest => inCommon (columnsOfFile bytes) (commonColumns rest)

/-- Reads files as one table. -/
def readFiles (files : List Bytes) : Except LoadError Csv.Table :=
  match columnsOfFiles files with
  | .error e => .error e
  | .ok specs =>
    match Csv.readAs specs files with
    | .error fault => .error (.malformed fault)
    | .ok table => .ok table

/-- The text of a path below a directory whose path text is `path`. -/
def pathTextBelow (path : String) (rest : Path) : String :=
  let start := if path.endsWith "/" then path else path ++ "/"
  start ++ String.intercalate "/" rest

/-- What stands behind the last point of a file's name. -/
def extensionOf (p : Path) : String := ((p.getLast?).bind FileName.extension?).getD ""

/-- The first file and the first one of another extension. -/
def mixedExtensions? : List Path → Option (Path × Path)
  | [] => none
  | first :: rest => (rest.find? fun p => extensionOf p != extensionOf first).map (first, ·)

/-- The files that a path is read from; `place` is where it leads. A directory is read from all files
below it, even where its name looks like a pattern; only then may the files differ in extension. -/
def sources (t : FileTree) (here : Path) (path : String) (place : Path) : Except LoadError (List Bytes) :=
  if t.isDirectory place then
    let found := t.filesBelow place
    match if Pattern.isPattern path then none else mixedExtensions? found with
    | some (first, second) =>
      let text (p : Path) : String := pathTextBelow path (p.drop place.length)
      .error (.mixedExtensions (text first) (text second))
    | none => .ok (found.filterMap t.content?)
  else if Pattern.isPattern path then
    match Pattern.files? t here path with
    | none => .error .noPattern
    | some found => .ok (found.filterMap t.content?)
  else .ok (t.content? place).toList

/-- Loads the file at a path, as seen from a directory. -/
def loadFile (t : FileTree) (here : Path) (path : String) : Except LoadError Dataset :=
  match t.walk? here path with
  | none => .error (.notFound path)
  | some place =>
    let name := FileName.ofPath path
    if !FileName.isCsv name then .error (.notCsv name)
    else if t.node? place == some (.file []) then .error (.empty name)
    else
      match sources t here path place with
      | .error e => .error e
      | .ok contents => (readFiles contents).map fun table =>
        ⟨name, some place.text, table.columns, table.pieces⟩

/-- The analysis of a file. -/
def analyzeFile (t : FileTree) (here : Path) (path : String) : Except AnalysisError Analysis :=
  analyzeLoaded (loadFile t here path)

/-- What became of one file. -/
structure Outcome where
  fileName : String
  result : Except AnalysisError Analysis

/-- Analyses files, each by itself. -/
def analyzeFiles (t : FileTree) (here : Path) (paths : List String) : List Outcome :=
  paths.map fun path => ⟨FileName.ofPath path, analyzeFile t here path⟩

end TableProfile
