import Mathlib.Data.List.Forall2
import TableProfile.Proofs.MarkupReading
import TableProfile.Server.Page

/-!
# The tags of the page of results

The page of results is written from spans (`resultsSpans`): those of a fixed opening and closing, and between
them those of each file. The texts of the spans come from uploads, from their faults and from the service
that is asked for insights; the tags depend on nothing but what there is to show (`SameShape`). As spans are
read back as they were written, no text can add a tag to the page, take one away or change one.

* `written_results`: the page is the spans as they are written.
* `tags_results`: pages of files of the same shape have the same tags, and their ampersands begin entities.
-/
namespace TableProfile

open Markup (Span Piece)

namespace Page

/-! ## Spans of the page -/

/-- A text between two tags, which begin a line. -/
def enclosedSpans (opening content closing : String) : List Span :=
  [⟨"\n", opening⟩, ⟨content, closing⟩]

def analysisSpans : Except AnalysisError Analysis → List Span
  | .error e => enclosedSpans "<p class=\"error\">" e.message "</p>"
  | .ok a => enclosedSpans "<pre>" (Report.summary a) "</pre>"

def insightSpans (s : Section) (text : String) : List Span :=
  enclosedSpans "<h3>" s.title "</h3>" ++ enclosedSpans "<pre>" text "</pre>"

def insightsSpans : Option (Except InsightError Insights) → List Span
  | none => []
  | some (.error e) =>
    enclosedSpans "<p class=\"error\">" ("AI insights unavailable: " ++ e.message) "</p>"
  | some (.ok i) =>
    enclosedSpans "<h2>" "AI-Generated Insights" "</h2>"
      ++ i.sections.flatMap fun (s, text) => insightSpans s text

/-- What stands between the tags of a section. -/
def contentSpans (f : ProcessedFile) : List Span :=
  enclosedSpans "<h2>" f.fileName "</h2>" ++ analysisSpans f.analysis ++ insightsSpans f.insights

def fileSpans (f : ProcessedFile) : List Span :=
  ⟨"\n", "<section>"⟩ :: contentSpans f ++ [⟨"\n", "</section>"⟩]

def openingSpans : List Span :=
  [⟨"", "<!DOCTYPE html>"⟩, ⟨"\n", "<html lang=\"en\">"⟩, ⟨"\n", "<head>"⟩,
    ⟨"\n", "<meta charset=\"utf-8\">"⟩, ⟨"\n", "<title>"⟩, ⟨"CSV Insight - Results", "</title>"⟩,
    ⟨"\n", "<style>"⟩, ⟨style, "</style>"⟩, ⟨"\n", "</head>"⟩, ⟨"\n", "<body>"⟩, ⟨"\n", "<h1>"⟩,
    ⟨"Analysis Results", "</h1>"⟩, ⟨"\n", "<p>"⟩, ⟨"", "<a href=\"/\">"⟩,
    ⟨"Analyze more files", "</a>"⟩, ⟨"", "</p>"⟩]

def closingSpans : List Span := [⟨"\n\n", "</body>"⟩, ⟨"\n", "</html>"⟩]

def resultsSpans (files : List ProcessedFile) : List Span :=
  openingSpans ++ files.flatMap fileSpans ++ closingSpans

/-! ## The page as it is written -/

/-- The characters of pieces. -/
def written (pieces : List Piece) : List Char := (Markup.render pieces).toList

theorem written_eq (pieces : List Piece) :
    written pieces = pieces.flatMap fun p => p.render.toList := by
  simp [written, Markup.render, List.flatMap_map]

theorem written_append (ps qs : List Piece) : written (ps ++ qs) = written ps ++ written qs := by
  simp [written_eq]

/-- The pieces are written as the spans, but that pieces end lines where spans begin them. -/
def Lays (pieces : List Piece) (spans : List Span) : Prop :=
  '\n' :: written pieces = spans.flatMap Span.write ++ ['\n']

theorem Lays.nil : Lays [] [] := rfl

theorem Lays.append {ps qs : List Piece} {ss ts : List Span} (hp : Lays ps ss) (hq : Lays qs ts) :
    Lays (ps ++ qs) (ss ++ ts) := by
  unfold Lays at *
  rw [written_append, ← List.cons_append, hp, List.append_assoc, List.singleton_append, hq,
    List.flatMap_append, List.append_assoc]

theorem Lays.flatMap {α : Type} {f : α → List Piece} {g : α → List Span}
    (h : ∀ x, Lays (f x) (g x)) (xs : List α) : Lays (xs.flatMap f) (xs.flatMap g) := by
  induction xs with
  | nil => exact .nil
  | cons x xs ih =>
    rw [List.flatMap_cons, List.flatMap_cons]
    exact (h x).append ih

/-- A text that begins with a fixed part, in which no character has to be escaped. -/
theorem Lays.enclosed {before opening start : String} (hbefore : before = opening ++ start)
    (hstart : Markup.escapeChars start.toList = start.toList) (content closing : String) :
    Lays (Page.enclosed before content (closing ++ "\n"))
      (enclosedSpans opening (start ++ content) closing) := by
  have htext : Markup.escapeChars (start.toList ++ content.toList) =
      start.toList ++ Markup.escapeChars content.toList := by
    rw [Markup.escapeChars, List.flatMap_append]
    exact congrArg (· ++ _) hstart
  have hbreak : Markup.escapeChars ['\n'] = ['\n'] := rfl
  simp [Lays, written_eq, Page.enclosed, enclosedSpans, Piece.render, Markup.escape, Span.write, htext,
    hbreak, hbefore]

theorem Lays.between (opening content closing : String) :
    Lays (Page.enclosed opening content (closing ++ "\n")) (enclosedSpans opening content closing) := by
  have h := Lays.enclosed (String.append_empty (s := opening)).symm rfl content closing
  rwa [String.empty_append] at h

theorem lays_analysis (r : Except AnalysisError Analysis) : Lays (analysisPieces r) (analysisSpans r) := by
  cases r with
  | error e => exact Lays.between "<p class=\"error\">" e.message "</p>"
  | ok a => exact Lays.between "<pre>" (Report.summary a) "</pre>"

theorem lays_insight (s : Section) (text : String) : Lays (insightPieces s text) (insightSpans s text) :=
  (Lays.between "<h3>" s.title "</h3>").append (Lays.between "<pre>" text "</pre>")

theorem lays_insights (i : Option (Except InsightError Insights)) :
    Lays (insightsPieces i) (insightsSpans i) := by
  rcases i with _ | (e | i)
  · exact .nil
  · have hstart : Markup.escapeChars "AI insights unavailable: ".toList =
        "AI insights unavailable: ".toList := by decide
    have hbefore : "<p class=\"error\">AI insights unavailable: " =
        "<p class=\"error\">" ++ "AI insights unavailable: " := by decide
    exact Lays.enclosed hbefore hstart e.message "</p>"
  · have hheading : Lays [.markup "<h2>AI-Generated Insights</h2>\n"]
        (enclosedSpans "<h2>" "AI-Generated Insights" "</h2>") := by
      unfold Lays
      decide +kernel
    exact hheading.append (.flatMap (fun (s, text) => lays_insight s text) i.sections)

theorem Lays.line (tag : String) : Lays [.markup (tag ++ "\n")] [⟨"\n", tag⟩] := by
  have hbreak : Markup.escapeChars ['\n'] = ['\n'] := rfl
  simp [Lays, written_eq, Piece.render, Span.write, hbreak]

theorem lays_file (f : ProcessedFile) : Lays (filePieces f) (fileSpans f) := by
  have hname : Lays (enclosed "<section>\n<h2>" f.fileName "</h2>\n")
      ([⟨"\n", "<section>"⟩] ++ enclosedSpans "<h2>" f.fileName "</h2>") := by
    have hsame : written (enclosed "<section>\n<h2>" f.fileName "</h2>\n") =
        written ([.markup ("<section>" ++ "\n")] ++ enclosed "<h2>" f.fileName ("</h2>" ++ "\n")) := by
      simp [written_eq, enclosed, Piece.render]
    unfold Lays
    rw [hsame]
    exact (Lays.line "<section>").append (Lays.between "<h2>" f.fileName "</h2>")
  have hfile := ((hname.append (lays_analysis f.analysis)).append (lays_insights f.insights)).append
    (Lays.line "</section>")
  simpa [fileSpans, contentSpans, filePieces] using hfile

theorem escape_style : Markup.escapeChars style.toList = style.toList := by
  unfold style
  simp only [String.toList_append, Markup.escapeChars, List.flatMap_append]
  decide +kernel

/-- What stands on the page before the sections. -/
def openingPieces : List Piece :=
  [.markup "<!DOCTYPE html>\n<html lang=\"en\">\n<head>\n<meta charset=\"utf-8\">\n<title>",
    .text "CSV Insight - Results",
    .markup ("</title>\n<style>" ++ style ++ "</style>\n</head>\n<body>\n"),
    .markup "<h1>Analysis Results</h1>\n<p><a href=\"/\">Analyze more files</a></p>\n"]

theorem written_opening : written openingPieces = openingSpans.flatMap Span.write ++ ['\n'] := by
  -- The texts between the tags are cut as texts, since taking characters of long texts is slow.
  have hhead : "<!DOCTYPE html>\n<html lang=\"en\">\n<head>\n<meta charset=\"utf-8\">\n<title>" =
      "<!DOCTYPE html>" ++ "\n" ++ "<html lang=\"en\">" ++ "\n" ++ "<head>" ++ "\n"
        ++ "<meta charset=\"utf-8\">" ++ "\n" ++ "<title>" := by simp
  have htitle : "</title>\n<style>" = "</title>" ++ "\n" ++ "<style>" := by simp
  have hbody : "</style>\n</head>\n<body>\n" =
      "</style>" ++ "\n" ++ "</head>" ++ "\n" ++ "<body>" ++ "\n" := by simp
  have hheading : "<h1>Analysis Results</h1>\n<p><a href=\"/\">Analyze more files</a></p>\n" =
      "<h1>" ++ "Analysis Results" ++ "</h1>" ++ "\n" ++ "<p>" ++ "<a href=\"/\">"
        ++ "Analyze more files" ++ "</a>" ++ "</p>" ++ "\n" := by simp
  have hplain : ∀ text ∈ ["", "\n", "CSV Insight - Results", "Analysis Results", "Analyze more files"],
      Markup.escapeChars text.toList = text.toList := by decide +kernel
  simp only [List.forall_mem_cons] at hplain
  obtain ⟨hnone, hbreak, hname, hresults, hmore, -⟩ := hplain
  simp only [written_eq, openingPieces, openingSpans, Piece.render, Markup.escape, Span.write, hhead,
    htitle, hbody, hheading, hnone, hbreak, hname, hresults, hmore, escape_style, List.flatMap_cons,
    List.flatMap_nil, String.toList_append, String.toList_ofList, List.append_assoc]
  simp

/-- The page of results is written as its spans and a line break. -/
theorem written_results (files : List ProcessedFile) :
    written (results files) = (resultsSpans files).flatMap Span.write ++ ['\n'] := by
  have hclosing : '\n' :: written [.markup "\n</body>\n</html>\n"] =
      closingSpans.flatMap Span.write ++ ['\n'] := by decide +kernel
  have hfiles := Lays.flatMap lays_file files
  unfold Lays at hfiles
  have hresults : results files =
      openingPieces ++ files.flatMap filePieces ++ [.markup "\n</body>\n</html>\n"] := by
    simp [results, whole, openingPieces]
  rw [hresults, written_append, written_append, written_opening, resultsSpans, List.flatMap_append,
    List.flatMap_append, List.append_assoc _ ['\n'], List.singleton_append, hfiles,
    List.append_assoc, List.append_assoc, List.singleton_append, hclosing]
  simp

/-! ## Tags of the page -/

/-- The tags that may stand between those of a section. -/
def contentTags : List String :=
  ["<h2>", "</h2>", "<h3>", "</h3>", "<pre>", "</pre>", "<p class=\"error\">", "</p>"]

theorem tag_mem_of_analysis (r : Except AnalysisError Analysis) :
    ∀ s ∈ analysisSpans r, s.tag ∈ contentTags := by
  cases r <;> simp [analysisSpans, enclosedSpans, contentTags]

theorem tag_mem_of_insights (i : Option (Except InsightError Insights)) :
    ∀ s ∈ insightsSpans i, s.tag ∈ contentTags := by
  rcases i with _ | (e | i)
  · simp [insightsSpans]
  · simp [insightsSpans, enclosedSpans, contentTags]
  · intro s hs
    rw [insightsSpans, List.mem_append, List.mem_flatMap] at hs
    rcases hs with hs | ⟨⟨t, text⟩, -, hs⟩
    · revert s
      simp [enclosedSpans, contentTags]
    · revert s
      simp [insightSpans, enclosedSpans, contentTags]

theorem tag_mem_of_content (f : ProcessedFile) : ∀ s ∈ contentSpans f, s.tag ∈ contentTags := by
  intro s hs
  simp only [contentSpans, List.mem_append] at hs
  rcases hs with (hs | hs) | hs
  · revert s
    simp [enclosedSpans, contentTags]
  · exact tag_mem_of_analysis _ s hs
  · exact tag_mem_of_insights _ s hs

/-- A tag in which no ampersand stands. -/
def IsClean (tag : String) : Prop := Markup.isTag tag.toList = true ∧ '&' ∉ tag.toList

instance (tag : String) : Decidable (IsClean tag) := inferInstanceAs (Decidable (_ ∧ _))

theorem clean_file (f : ProcessedFile) : ∀ s ∈ fileSpans f, IsClean s.tag := by
  have hsection : IsClean "<section>" ∧ IsClean "</section>" ∧ ∀ tag ∈ contentTags, IsClean tag := by
    decide +kernel
  intro s hs
  simp only [fileSpans, List.mem_append, List.mem_cons, List.not_mem_nil, or_false] at hs
  rcases hs with (rfl | hs) | rfl
  · exact hsection.1
  · exact hsection.2.2 _ (tag_mem_of_content f s hs)
  · exact hsection.2.1

theorem clean_results {files : List ProcessedFile} : ∀ s ∈ resultsSpans files, IsClean s.tag := by
  have hframe : ∀ s ∈ openingSpans ++ closingSpans, IsClean s.tag := by decide +kernel
  intro s hs
  simp only [resultsSpans, List.mem_append, List.mem_flatMap] at hs
  rcases hs with (hs | ⟨f, -, hs⟩) | hs
  · exact hframe s (List.mem_append_left _ hs)
  · exact clean_file f s hs
  · exact hframe s (List.mem_append_right _ hs)

/-- The page of results is read back as the spans that it is written from. -/
theorem spans_results (files : List ProcessedFile) :
    Markup.spans (Markup.render (results files)) = resultsSpans files := by
  have hwritten := written_results files
  unfold written at hwritten
  rw [Markup.spans, hwritten]
  exact Markup.spans_write (fun s hs => (clean_results s hs).1) (by decide)

/-! ## Files of one shape -/

/-- Insights are absent, failed or given in both; if they are given, the same sections have a text. -/
inductive SameInsights : Option (Except InsightError Insights) → Option (Except InsightError Insights) → Prop
  | absent : SameInsights none none
  | failed (e e' : InsightError) : SameInsights (some (.error e)) (some (.error e'))
  | given (i i' : Insights) (texts : ∀ s, i.get s = "" ↔ i'.get s = "") :
    SameInsights (some (.ok i)) (some (.ok i'))

/-- Files of which there are the same things to show. -/
structure SameShape (f g : ProcessedFile) : Prop where
  analysis : f.analysis.isOk = g.analysis.isOk
  insights : SameInsights f.insights g.insights

theorem tags_sections (i : Insights) :
    (i.sections.flatMap fun (s, text) => insightSpans s text).map Span.tag =
      (Section.all.filter fun s => i.get s != "").flatMap fun _ =>
        ["<h3>", "</h3>", "<pre>", "</pre>"] := by
  rw [Insights.sections, List.filter_map, List.map_flatMap, List.flatMap_map]
  rfl

theorem tags_insights {i j : Option (Except InsightError Insights)} (h : SameInsights i j) :
    (insightsSpans i).map Span.tag = (insightsSpans j).map Span.tag := by
  cases h with
  | absent => rfl
  | failed e e' => simp [insightsSpans, enclosedSpans]
  | given i i' texts =>
    have hsame : ∀ s ∈ Section.all, (i.get s != "") = (i'.get s != "") := by
      intro s _
      simp [bne, texts s]
    rw [insightsSpans, insightsSpans, List.map_append, List.map_append, tags_sections, tags_sections,
      List.filter_congr hsame]

theorem tags_file {f g : ProcessedFile} (h : SameShape f g) :
    (fileSpans f).map Span.tag = (fileSpans g).map Span.tag := by
  have hanalysis : (analysisSpans f.analysis).map Span.tag = (analysisSpans g.analysis).map Span.tag := by
    have hok := h.analysis
    cases hf : f.analysis <;> cases hg : g.analysis <;> rw [hf, hg] at hok
    · simp [analysisSpans, enclosedSpans]
    · cases hok
    · cases hok
    · simp [analysisSpans, enclosedSpans]
  simp [fileSpans, contentSpans, enclosedSpans, hanalysis, tags_insights h.insights]

/-- **No text becomes markup.** The pages of results for files of which there are the same things to show have
the same tags in the same order, whatever the files' names, faults, reports and insights say; and every
ampersand of a page begins one of the five entities. -/
theorem tags_results {files files' : List ProcessedFile} (h : List.Forall₂ SameShape files files') :
    Markup.tags (Markup.render (results files)) = Markup.tags (Markup.render (results files')) ∧
      Markup.Entities (Markup.render (results files)).toList := by
  constructor
  · have hfiles : (files.flatMap fileSpans).map Span.tag = (files'.flatMap fileSpans).map Span.tag := by
      induction h with
      | nil => rfl
      | cons hfile _ ih =>
        rw [List.flatMap_cons, List.flatMap_cons, List.map_append, List.map_append, tags_file hfile, ih]
    rw [Markup.tags, Markup.tags, spans_results, spans_results, resultsSpans, resultsSpans]
    simp [hfiles]
  · have hwritten := written_results files
    unfold written at hwritten
    have hspans : Markup.Entities ((resultsSpans files).flatMap Span.write) :=
      .flatMap fun s hs => Markup.entities_write (clean_results s hs).2
    rw [hwritten]
    exact hspans.append (.of_not_mem (by decide))

/-- A file that is refused and one with insights, and two whose texts are full of markup. -/
theorem tags_results_hostile :
    let analysis (name : String) : Analysis := ⟨⟨name, none, 0, 0, [], [], 0⟩, ⟨0, [], [], ⟨[], []⟩⟩⟩
    let honest : List ProcessedFile :=
      [⟨"t.txt", .error (.load (.notCsv "t.txt")), none⟩,
        ⟨"t.csv", .ok (analysis "t.csv"), some (.ok ⟨"up", "", "", ""⟩)⟩]
    let hostile : List ProcessedFile :=
      [⟨"<script>", .error (.load (.empty "&lt;</p>")), none⟩,
        ⟨"</h2>", .ok (analysis "</pre><pre>"), some (.ok ⟨"'><img src=\"x\"", "", "", ""⟩)⟩]
    List.Forall₂ SameShape honest hostile ∧
      Markup.tags (Markup.render (results honest)) = Markup.tags (Markup.render (results hostile)) := by
  intro analysis honest hostile
  have hshape : List.Forall₂ SameShape honest hostile := by
    refine .cons ⟨rfl, .absent⟩ (.cons ⟨rfl, .given _ _ fun s => ?_⟩ .nil)
    cases s <;> decide
  exact ⟨hshape, (tags_results hshape).1⟩

end Page

end TableProfile
