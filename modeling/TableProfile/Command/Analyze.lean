import TableProfile.Command.Reader
import TableProfile.Insight.Generate
import TableProfile.Insight.Json
import TableProfile.Profile.Json
import TableProfile.Report.Summary

/-!
# The analysis command

Files are analysed each by itself. If insights are wanted, they are asked for, in order, for each file
that has an analysis. What is printed is text, the insights behind the report, or JSON with one result a
file. Whether all files could be loaded does not depend on the insights.
-/
namespace TableProfile.Command

/-- What came of an analysis: what is printed, whether all files have an analysis, and what was sent. -/
structure Analyzed where
  output : String
  complete : Bool
  sent : List Prompt

/-- The insights for outcomes, each at the place of its file, and the prompts sent. -/
def insightsOf (s : Option Service) (wanted : Bool) (outcomes : List Outcome) :
    List (Option (Except InsightError Insights)) × List Prompt :=
  askEach s [] (outcomes.map fun o => if wanted then analysis? o.result else none)

/-! ## Text -/

/-- The report of one file by itself, of several as a batch. -/
def reportText : List Outcome → String
  | [o] => Report.outcome o
  | outcomes => Report.batch outcomes

/-- What is printed of the insights for a file. -/
def insightLines (fileName : String) : Except InsightError Insights → List String
  | .ok i => ["", "AI Insights for: " ++ fileName, Report.insights i]
  | .error e =>
    ["", "AI Insights for: " ++ fileName, "Error generating AI insights: " ++ e.message,
      "Continuing without AI analysis..."]

def textLines (outcomes : List Outcome) (answers : List (Option (Except InsightError Insights))) :
    List String :=
  reportText outcomes :: (outcomes.zip answers).flatMap fun (o, answer) =>
    (answer.map (insightLines o.fileName)).getD []

/-! ## JSON -/

/-- What insights add to the result of a file. -/
def insightFields : Option (Except InsightError Insights) → List (String × Json)
  | none => []
  | some (.ok i) => [("ai_insights", .str (Report.insights i))]
  | some (.error e) => [("ai_insights_error", .str e.message)]

/-- The result of a file, insights apart. -/
def resultFields (o : Outcome) : List (String × Json) :=
  match o.result with
  | .ok a =>
    [("filename", .str o.fileName), ("file_summary", a.file.toJson),
      ("statistical_summary", a.summary.toJson)]
  | .error e => [("filename", .str o.fileName), ("error", .str e.message)]

def resultsJson (outcomes : List Outcome) (answers : List (Option (Except InsightError Insights))) :
    Json :=
  .ofFields
    [("files_processed", .nat outcomes.length),
      ("results", .arr ((outcomes.zip answers).map fun (o, answer) =>
        .ofFields (resultFields o ++ insightFields answer)))]

/-! ## The command -/

def isLoaded (o : Outcome) : Bool := (analysis? o.result).isSome

/-- Analyses the files that options name, as seen from a directory. -/
def analyze (t : FileTree) (here : Path) (s : Option Service) (o : Options) : Analyzed :=
  let outcomes := analyzeFiles t here o.files
  let (answers, sent) := insightsOf s o.insights outcomes
  let lines := if o.json then [(resultsJson outcomes answers).pretty] else textLines outcomes answers
  ⟨String.join (lines.map (· ++ "\n")), outcomes.all isLoaded, sent⟩

end TableProfile.Command
