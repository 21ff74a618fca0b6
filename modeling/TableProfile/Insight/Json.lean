import TableProfile.Insight.Section
import TableProfile.Json.Value
import TableProfile.Report.Summary

/-!
# Insights as a report and as JSON

The report has the sections that hold a text, each under its title. As JSON insights are an object of
their four texts.
-/
namespace TableProfile

namespace Report

/-- A section with its title. -/
def sectionLines (s : Section) (text : String) : List String := [s.title, rule '-', text, ""]

def insightLines (i : Insights) : List String :=
  [rule '=', "AI-GENERATED INSIGHTS", rule '=', ""]
    ++ i.sections.flatMap (fun (s, text) => sectionLines s text)
    ++ [rule '=']

/-- The report of insights: the sections that hold a text. -/
def insights (i : Insights) : String := joinLines (insightLines i)

end Report

namespace Insights

def fields (i : Insights) : List (String × Json) :=
  [("high_level_summary", .str i.summary), ("key_trends", .str i.trends),
    ("anomalies", .str i.anomalies), ("beginner_explanation", .str i.beginners)]

def toJson (i : Insights) : Json := .ofFields i.fields

/-- Insights with the text report of them. -/
def toJsonWithText (i : Insights) : Json :=
  .ofFields (i.fields ++ [("formatted", .str (Report.insights i))])

end Insights

end TableProfile
