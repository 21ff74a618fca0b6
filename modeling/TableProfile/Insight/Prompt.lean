import TableProfile.Report.Summary

/-!
# The prompt that asks for insights

A prompt is a system message, always the same, and a user message that holds summary figures of one
table: names, types, statistics, correlations and the most frequent values, but no rows. Like the report,
it is put into blocks of texts before it is laid out.
-/
namespace TableProfile

/-- A system message and a user message. -/
structure Prompt where
  system : String
  user : String
  deriving DecidableEq, Repr

namespace Prompt

def systemMessage : String :=
  "You are a data analyst expert. Analyze CSV data and provide clear, insightful explanations. "
    ++ "Focus on practical insights that help users understand their data."

/-- What the reply should contain, and under which headings. -/
def instructions : String :=
  String.intercalate "\n"
    ["Please provide a comprehensive analysis in the following format:",
      "",
      "1. HIGH-LEVEL SUMMARY:",
      "   - What the dataset appears to represent",
      "   - What the key variables might mean",
      "   - Any notable observations at first glance",
      "",
      "2. KEY TRENDS:",
      "   - Major patterns in the data (increasing/decreasing trends, distributions)",
      "   - Notable correlations and what they might indicate",
      "   - Any seasonal or cyclical patterns if applicable",
      "",
      "3. ANOMALIES OR DATA ISSUES:",
      "   - Unexpected missing values",
      "   - Outlier values that stand out",
      "   - Strange categories or values",
      "   - Possible data entry errors",
      "",
      "4. NATURAL-LANGUAGE EXPLANATION FOR BEGINNERS:",
      "   - Explain the key findings in simple, accessible language",
      "   - Use analogies or examples where helpful",
      "   - Focus on what the data means in practical terms",
      "",
      "Be specific, insightful, and practical. Use the actual numbers and statistics from the data."]

/-! ## Blocks -/

/-- What the prompt says of a numeric column. -/
structure NumericEntry where
  column : String
  figures : Option Report.Figures
  nullCount : String
  nullPercent : String
  deriving DecidableEq, Repr

/-- Figures are given for a column that has all of mean, median, least and greatest. -/
def numericEntry (p : NumericProfile) : NumericEntry where
  column := p.column
  figures :=
    match p.mean, p.median, p.least, p.greatest with
    | some mean, some median, some least, some greatest =>
      some ⟨Number.fixed 4 mean, Number.fixed 4 median, Report.value p.deviation,
        Number.fixed 4 least, Number.fixed 4 greatest⟩
    | _, _, _, _ => none
  nullCount := Number.grouped p.nullCount
  nullPercent := Number.fixed 2 p.nullPercentage ++ "%"

/-- What the prompt says of a column that is not numeric. -/
structure CategoryEntry where
  column : String
  distinct : String
  nullCount : String
  nullPercent : String
  values : List String
  deriving DecidableEq, Repr

def categoryEntry (p : CategoryProfile) : CategoryEntry where
  column := p.column
  distinct := Number.grouped p.distinct
  nullCount := Number.grouped p.nullCount
  nullPercent := Number.fixed 2 p.nullPercentage ++ "%"
  values := p.mostFrequent.map ValueCount.value

/-- What the prompt says of a pair of columns. -/
structure CorrelationEntry where
  left : String
  right : String
  coefficient : String
  deriving DecidableEq, Repr

def correlationEntry (p : CorrelationPair) : CorrelationEntry :=
  ⟨p.left, p.right, Number.fixed 4 p.coefficient⟩

/-! ## Lines -/

def NumericEntry.lines (e : NumericEntry) : List String :=
  ["", e.column ++ ":"]
    ++ (match e.figures with
      | some f =>
        ["  - Mean: " ++ f.mean,
          "  - Median: " ++ f.median,
          "  - Std Dev: " ++ f.deviation,
          "  - Min: " ++ f.least,
          "  - Max: " ++ f.greatest]
      | none => [])
    ++ ["  - Null Count: " ++ e.nullCount ++ " (" ++ e.nullPercent ++ ")"]

def CategoryEntry.lines (e : CategoryEntry) : List String :=
  ["",
    e.column ++ ":",
    "  - Unique Values: " ++ e.distinct,
    "  - Null Count: " ++ e.nullCount ++ " (" ++ e.nullPercent ++ ")"]
    ++ (if e.values.isEmpty then []
      else ["  - Most Frequent: " ++ String.intercalate ", " e.values])

def CorrelationEntry.line (e : CorrelationEntry) : String :=
  "  - " ++ e.left ++ " <-> " ++ e.right ++ ": " ++ e.coefficient

def overviewLines (f : FileSummary) : List String :=
  ["Analyze the following CSV dataset and provide comprehensive insights.",
    "",
    "DATASET OVERVIEW:",
    "- File Name: " ++ f.fileName,
    "- Number of Rows: " ++ Number.grouped f.rows,
    "- Number of Columns: " ++ toString f.columns,
    "- Column Names: " ++ String.intercalate ", " f.columnNames,
    "",
    "DATA TYPES:"]
    ++ f.types.map fun t => "- " ++ t.name ++ ": " ++ t.kind.label ++ " (" ++ t.dtype ++ ")"

/-- The entries of correlations, if there are any, under their heading. -/
def correlationLines (s : Summary) : List String :=
  if s.correlations.pairs.isEmpty then []
  else
    ["", "CORRELATIONS:"]
      ++ (s.correlations.pairs.map correlationEntry).map CorrelationEntry.line

def numericLines (s : Summary) : List String :=
  if s.numericColumns.isEmpty then []
  else
    ["", "NUMERICAL COLUMNS:"]
      ++ (s.numeric.map numericEntry).flatMap NumericEntry.lines
      ++ correlationLines s

def categoryLines (s : Summary) : List String :=
  if s.categories.isEmpty then []
  else
    ["", "NON-NUMERICAL COLUMNS:"]
      ++ (s.categories.map categoryEntry).flatMap CategoryEntry.lines

/-- The lines of the user message. -/
def userLines (a : Analysis) : List String :=
  overviewLines a.file
    ++ ["", "STATISTICAL SUMMARY:"]
    ++ numericLines a.summary
    ++ categoryLines a.summary
    ++ ["", instructions]

/-- The user message for a table. -/
def userMessage (a : Analysis) : String := String.intercalate "\n" (userLines a)

/-- The prompt for a table. -/
def ofAnalysis (a : Analysis) : Prompt := ⟨systemMessage, userMessage a⟩

end Prompt

end TableProfile
