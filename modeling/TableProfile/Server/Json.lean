import TableProfile.Insight.Json
import TableProfile.Profile.Json
import TableProfile.Server.Process

/-!
# Answers of the upload server as JSON
-/
namespace TableProfile

namespace ProcessedFile

/-- The fields that a wish for insights adds to a file with an analysis. -/
def insightFields : Option (Except InsightError Insights) → List (String × Json)
  | none => [("ai_insights", .null)]
  | some (.ok i) => [("ai_insights", i.toJsonWithText)]
  | some (.error e) => [("ai_insights", .null), ("ai_insights_error", .str e.message)]

/-- The fields that say what became of a file, insights apart. -/
def resultFields (f : ProcessedFile) : List (String × Json) :=
  match f.analysis with
  | .error e => [("filename", .str f.fileName), ("error", .str e.message)]
  | .ok a =>
    [("filename", .str f.fileName), ("file_summary", a.file.toJson),
      ("statistical_summary", a.summary.toJson), ("formatted_summary", .str (Report.summary a))]

def fields (f : ProcessedFile) : List (String × Json) :=
  match f.analysis with
  | .error _ => f.resultFields
  | .ok _ => f.resultFields ++ insightFields f.insights

def toJson (f : ProcessedFile) : Json := .ofFields f.fields

end ProcessedFile

/-- The answer for processed files. -/
def resultsJson (files : List ProcessedFile) : Json :=
  .ofFields
    [("success", .bool true), ("files_processed", .nat files.length),
      ("results", .arr (files.map ProcessedFile.toJson))]

end TableProfile
