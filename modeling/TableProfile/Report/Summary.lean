import TableProfile.Files.Load
import TableProfile.Number.Fixed

/-!
# Text reports

The report of one table is a list of lines. What it shows of each column, and of the correlations, is
first put into blocks of texts (`NumericBlock`, `CategoryBlock`, `CorrelationBlock`), and the blocks are
then laid out. A text inside a block may itself contain line breaks.

The report of several files has one block a file: the report of its table, or one line with the reason
why there is none.
-/
namespace TableProfile.Report

/-- A line of 80 equal characters. -/
def rule (c : Char) : String := String.ofList (List.replicate 80 c)

/-- Lines as one text. -/
def joinLines (lines : List String) : String := String.intercalate "\n" lines

/-- A figure with four decimals. -/
def figure (x : Float) : String := Number.fixed 4 x

/-- A figure that may be absent. -/
def value : Option Float → String
  | some x => figure x
  | none => "n/a"

def count (n : Nat) : String := Number.grouped n

/-- A percentage with two decimals. -/
def percent (x : Float) : String := Number.fixed 2 x ++ "%"

/-! ## Blocks -/

/-- The texts of the figures of a numeric column. -/
structure Figures where
  mean : String
  median : String
  deviation : String
  least : String
  greatest : String
  deriving DecidableEq, Repr

/-- What is shown of a numeric column. -/
structure NumericBlock where
  column : String
  figures : Option Figures
  count : String
  nullCount : String
  nullPercent : String
  deriving DecidableEq, Repr

/-- Figures are shown for a column that has a mean. -/
def numericBlock (p : NumericProfile) : NumericBlock where
  column := p.column
  figures :=
    if p.mean.isSome then
      some ⟨value p.mean, value p.median, value p.deviation, value p.least, value p.greatest⟩
    else none
  count := count p.count
  nullCount := count p.nullCount
  nullPercent := percent p.nullPercentage

/-- What is shown of a column that is not numeric. -/
structure CategoryBlock where
  column : String
  distinct : String
  nullCount : String
  nullPercent : String
  /-- Frequent values, each with its count. -/
  values : List (String × String)
  deriving DecidableEq, Repr

def categoryBlock (p : CategoryProfile) : CategoryBlock where
  column := p.column
  distinct := count p.distinct
  nullCount := count p.nullCount
  nullPercent := percent p.nullPercentage
  values := p.mostFrequent.map fun v => (v.value, count v.count)

/-- A column with the columns it is correlated with. -/
structure CorrelationBlock where
  column : String
  partners : List (String × String)
  deriving DecidableEq, Repr

/-- The partners of a column among all columns, in column order. -/
def partners (t : CorrelationTable) (column : String) : List (String × String) :=
  (t.columns.filter (· != column)).filterMap fun other =>
    (t.get? column other).map fun r => (other, figure r)

/-- The columns that have a partner. -/
def correlationBlocks (t : CorrelationTable) : List CorrelationBlock :=
  (t.columns.map fun c => (⟨c, partners t c⟩ : CorrelationBlock)).filter (!·.partners.isEmpty)

/-! ## Lines -/

def NumericBlock.lines (b : NumericBlock) : List String :=
  ["  Column: " ++ b.column]
    ++ (match b.figures with
      | some f =>
        ["    Mean: " ++ f.mean,
          "    Median: " ++ f.median,
          "    Std Dev: " ++ f.deviation,
          "    Min: " ++ f.least,
          "    Max: " ++ f.greatest]
      | none => [])
    ++ ["    Count (non-null): " ++ b.count,
      "    Null Count: " ++ b.nullCount ++ " (" ++ b.nullPercent ++ ")",
      ""]

def CategoryBlock.lines (b : CategoryBlock) : List String :=
  ["  Column: " ++ b.column,
    "    Unique Values: " ++ b.distinct,
    "    Null Count: " ++ b.nullCount ++ " (" ++ b.nullPercent ++ ")"]
    ++ (if b.values.isEmpty then []
      else
        ["    Most Frequent: "
          ++ String.intercalate ", " (b.values.map fun (v, n) => v ++ " (" ++ n ++ ")")])
    ++ [""]

def CorrelationBlock.lines (b : CorrelationBlock) : List String :=
  ("  " ++ b.column ++ ":") :: b.partners.map fun (other, r) => "    ↔ " ++ other ++ ": " ++ r

def fileLines (f : FileSummary) : List String :=
  ["FILE SUMMARY", rule '-', "File Name: " ++ f.fileName]
    ++ (match f.filePath with
      | some path => ["File Path: " ++ path]
      | none => [])
    ++ ["Number of Rows: " ++ count f.rows,
      "Number of Columns: " ++ toString f.columns,
      "Memory Usage: " ++ count f.memoryBytes ++ " bytes",
      ""]

def typeLines (f : FileSummary) : List String :=
  ["COLUMN INFORMATION", rule '-']
    ++ f.types.map (fun t => "  • " ++ t.name ++ ": " ++ t.kind.label ++ " (" ++ t.dtype ++ ")")
    ++ [""]

def numericLines (s : Summary) : List String :=
  ["STATISTICAL SUMMARY", rule '-']
    ++ (if s.numericColumns.isEmpty then ["No numerical columns found in this dataset.", ""]
      else
        ["Numerical Columns: " ++ String.intercalate ", " s.numericColumns, ""]
          ++ (s.numeric.map numericBlock).flatMap NumericBlock.lines)

/-- The line that stands for a table without any defined correlation. -/
def noCorrelations : String := "  No defined correlations (zero variance or too few rows)."

def correlationLines (s : Summary) : List String :=
  if s.numericColumns.length ≤ 1 then []
  else
    ["CORRELATIONS (Numerical Columns)", rule '-']
      ++ (correlationBlocks s.correlations).flatMap CorrelationBlock.lines
      ++ (if s.correlations.pairs.isEmpty then [noCorrelations] else [])
      ++ [""]

def categoryLines (s : Summary) : List String :=
  if s.categories.isEmpty then []
  else
    ["NON-NUMERICAL COLUMNS SUMMARY", rule '-']
      ++ (s.categories.map categoryBlock).flatMap CategoryBlock.lines

/-- The lines of the report of one table. -/
def summaryLines (a : Analysis) : List String :=
  [rule '=', "CSV FILE ANALYSIS SUMMARY", rule '=', ""]
    ++ fileLines a.file
    ++ typeLines a.file
    ++ numericLines a.summary
    ++ correlationLines a.summary
    ++ categoryLines a.summary
    ++ [rule '=']

/-- The report of one table. -/
def summary (a : Analysis) : String := joinLines (summaryLines a)

/-! ## Several files -/

/-- The line that stands for a file that could not be analysed. -/
def failure (fileName : String) (e : AnalysisError) : String :=
  "Error analyzing " ++ fileName ++ ": " ++ e.message

/-- What is reported of one file. -/
def outcome (o : Outcome) : String :=
  match o.result with
  | .ok a => summary a
  | .error e => failure o.fileName e

def batchLines (outcomes : List Outcome) : List String :=
  [rule '=', "MULTIPLE CSV FILES ANALYSIS", rule '=', ""]
    ++ outcomes.flatMap fun o => [outcome o, ""]

/-- The report of several files. -/
def batch (outcomes : List Outcome) : String := joinLines (batchLines outcomes)

end TableProfile.Report
