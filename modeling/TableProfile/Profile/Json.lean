import TableProfile.Json.Value
import TableProfile.Profile.Summary

/-!
# Analyses as JSON
-/
namespace TableProfile

namespace Json

def number? : Option Float → Json := ofOption .float

end Json

def ColumnType.toJson (t : ColumnType) : Json :=
  .ofFields [("name", .str t.name), ("kind", .str t.kind.label), ("dtype", .str t.dtype)]

def FileSummary.toJson (f : FileSummary) : Json :=
  .ofFields
    [("file_name", .str f.fileName),
      ("file_path", .ofOption .str f.filePath),
      ("number_of_rows", .nat f.rows),
      ("number_of_columns", .nat f.columns),
      ("column_names", .strings f.columnNames),
      ("data_types", .arr (f.types.map ColumnType.toJson)),
      ("memory_usage_bytes", .nat f.memoryBytes)]

/-- The fields of a numeric profile. -/
def NumericProfile.fields (p : NumericProfile) : List (String × Json) :=
  [("column", .str p.column),
    ("mean", .number? p.mean),
    ("median", .number? p.median),
    ("std", .number? p.deviation),
    ("min", .number? p.least),
    ("max", .number? p.greatest),
    ("count", .nat p.count),
    ("null_count", .nat p.nullCount),
    ("null_percentage", .float p.nullPercentage)]

def ValueCount.toJson (v : ValueCount) : Json :=
  .ofFields [("value", .str v.value), ("count", .nat v.count)]

/-- The fields of the profile of a column that is not numeric. -/
def CategoryProfile.fields (p : CategoryProfile) : List (String × Json) :=
  [("column", .str p.column),
    ("unique_count", .nat p.distinct),
    ("null_count", .nat p.nullCount),
    ("null_percentage", .float p.nullPercentage),
    ("most_frequent", .arr (p.mostFrequent.map ValueCount.toJson))]

def ColumnProfile.toJson : ColumnProfile → Json
  | .numeric p => .ofFields (("kind", .str "numeric") :: p.fields)
  | .category p => .ofFields (("kind", .str "categorical") :: p.fields)

def CorrelationPair.toJson (p : CorrelationPair) : Json :=
  .ofFields
    [("left", .str p.left), ("right", .str p.right), ("coefficient", .float p.coefficient)]

def CorrelationTable.toJson (t : CorrelationTable) : Json :=
  .ofFields [("columns", .strings t.columns), ("pairs", .arr (t.pairs.map CorrelationPair.toJson))]

def Summary.toJson (s : Summary) : Json :=
  .ofFields
    [("row_count", .nat s.rows),
      ("numerical_columns", .strings s.numericColumns),
      ("columns", .arr (s.columns.map ColumnProfile.toJson)),
      ("correlations", s.correlations.toJson)]

def Analysis.toJson (a : Analysis) : Json :=
  .ofFields
    [("file_summary", a.file.toJson), ("statistical_summary", a.summary.toJson)]

end TableProfile
