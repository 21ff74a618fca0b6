import TableProfile.Insight.Generate
import TableProfile.Report.Summary
import TableProfile.Server.Markup

/-!
# The pages of the upload form

One page asks for files, the other shows what became of each of them: a section per file, with its name,
the report of its table or the reason why there is none, and the insights if they were asked for.
-/
namespace TableProfile

/-- An uploaded file after its analysis. Insights are `none` if they were not asked for or the analysis
failed. -/
structure ProcessedFile where
  fileName : String
  analysis : Except AnalysisError Analysis
  insights : Option (Except InsightError Insights)

namespace Page

open Markup (Piece)

def style : String :=
  "body\x7bfont-family:sans-serif;max-width:960px;margin:2rem auto;padding:0 1rem\x7d"
    ++ "pre\x7bbackground:#f6f8fa;padding:1rem;overflow-x:auto\x7d"
    ++ ".error\x7bcolor:#b00020\x7d"
    ++ "h3\x7bmargin-bottom:.25rem\x7d"

/-- A whole page around its body. -/
def whole (title : String) (body : List Piece) : List Piece :=
  [.markup "<!DOCTYPE html>\n<html lang=\"en\">\n<head>\n<meta charset=\"utf-8\">\n<title>",
    .text title,
    .markup ("</title>\n<style>" ++ style ++ "</style>\n</head>\n<body>\n")]
    ++ body
    ++ [.markup "\n</body>\n</html>\n"]

/-- The page that asks for files. -/
def upload (insightsEnabled : Bool) : List Piece :=
  let note := if insightsEnabled then "" else " <small>(no API key configured)</small>"
  whole "CSV Insight"
    [.markup
      ("<h1>CSV Insight</h1>\n"
        ++ "<form action=\"/analyze\" method=\"post\" enctype=\"multipart/form-data\">\n"
        ++ "<p><input type=\"file\" name=\"files\" accept=\".csv\" multiple required></p>\n"
        ++ "<p><label><input type=\"checkbox\" name=\"include_ai_insights\" value=\"true\"> "
        ++ "Include AI insights</label>" ++ note ++ "</p>\n"
        ++ "<p><button type=\"submit\">Analyze</button></p>\n"
        ++ "</form>")]

/-- A text between an opening and a closing. -/
def enclosed (opening content closing : String) : List Piece :=
  [.markup opening, .text content, .markup closing]

/-- The first block of a section. -/
def analysisPieces : Except AnalysisError Analysis → List Piece
  | .error e => enclosed "<p class=\"error\">" e.message "</p>\n"
  | .ok a => enclosed "<pre>" (Report.summary a) "</pre>\n"

/-- The title and the text of a section of insights. -/
def insightPieces (s : Section) (text : String) : List Piece :=
  enclosed "<h3>" s.title "</h3>\n" ++ enclosed "<pre>" text "</pre>\n"

/-- The part of a section that shows insights. -/
def insightsPieces : Option (Except InsightError Insights) → List Piece
  | none => []
  | some (.error e) => enclosed "<p class=\"error\">AI insights unavailable: " e.message "</p>\n"
  | some (.ok i) =>
    .markup "<h2>AI-Generated Insights</h2>\n" :: i.sections.flatMap fun (s, text) => insightPieces s text

def filePieces (f : ProcessedFile) : List Piece :=
  enclosed "<section>\n<h2>" f.fileName "</h2>\n"
    ++ analysisPieces f.analysis
    ++ insightsPieces f.insights
    ++ [.markup "</section>\n"]

/-- The page that shows what became of files. -/
def results (files : List ProcessedFile) : List Piece :=
  whole "CSV Insight - Results"
    (.markup "<h1>Analysis Results</h1>\n<p><a href=\"/\">Analyze more files</a></p>\n"
      :: files.flatMap filePieces)

end Page

end TableProfile
