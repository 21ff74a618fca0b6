import TableProfile.Proofs.Isolation
import TableProfile.Proofs.PageTags

/-!
# One upload, shown in two ways

An upload is answered as JSON under one address and as a page under another. Both answers are made from the
same processed files, each by a case analysis of its own. Here the page is read back and compared with the
JSON: it is cut into the sections that it shows (`Page.sections`), and each section says what the result at
its place in the JSON says (`Page.TellsSame`), character by character.

* `sections_results`: the sections of a page are those of its files, in order.
* `status_answerUpload`: the status of an answer does not depend on how it shows its results.
* `answers_tell_same`: the two answers to an upload.
-/
namespace TableProfile

open Markup (Span)

/-- The key under which the text of a section stands in the JSON of insights. -/
def Section.key : Section → String
  | summary => "high_level_summary"
  | trends => "key_trends"
  | anomalies => "anomalies"
  | beginners => "beginner_explanation"

/-- A key of an object has the last of the values that it is given among the fields, or null. -/
theorem Json.field_ofFields (key : String) (fields : List (String × Json)) :
    (ofFields fields).field key = ((fields.reverse.find? (·.1 == key)).map (·.2)).getD .null :=
  congrArg (·.getD Json.null) (get?_ofFields key fields)

/-- The text of a section is found under its key. -/
theorem Insights.field_toJsonWithText (i : Insights) (s : Section) :
    i.toJsonWithText.field s.key = .str (i.get s) := by
  rw [toJsonWithText, Json.field_ofFields]
  cases s <;> rfl

namespace Page

/-! ## Sections of a page -/

/-- Cuts spans into sections. A section is what follows its opening tag, up to and with its closing tag; the
spans of the section begun, if there is one, are given last first. -/
def sectionsFrom : (begun : Option (List Span)) → List Span → List (List Span)
  | _, [] => []
  | none, s :: rest =>
    if s.tag = "<section>" then sectionsFrom (some []) rest else sectionsFrom none rest
  | some begun, s :: rest =>
    if s.tag = "</section>" then (s :: begun).reverse :: sectionsFrom none rest
    else sectionsFrom (some (s :: begun)) rest

/-- The sections of a page. -/
def sections (page : String) : List (List Span) := sectionsFrom none (Markup.spans page)

theorem sectionsFrom_outside {ss : List Span} (h : ∀ s ∈ ss, s.tag ≠ "<section>") (rest : List Span) :
    sectionsFrom none (ss ++ rest) = sectionsFrom none rest := by
  induction ss with
  | nil => rfl
  | cons s ss ih =>
    rw [List.cons_append, sectionsFrom, if_neg (h s List.mem_cons_self),
      ih fun t ht => h t (List.mem_cons_of_mem _ ht)]

theorem sectionsFrom_inside {ss : List Span} (h : ∀ s ∈ ss, s.tag ≠ "</section>") (begun rest : List Span) :
    sectionsFrom (some begun) (ss ++ rest) = sectionsFrom (some (ss.reverse ++ begun)) rest := by
  induction ss generalizing begun with
  | nil => rfl
  | cons s ss ih =>
    rw [List.cons_append, sectionsFrom, if_neg (h s List.mem_cons_self),
      ih fun t ht => h t (List.mem_cons_of_mem _ ht)]
    simp

/-- The section of a file, behind its opening tag. -/
def sectionSpans (f : ProcessedFile) : List Span := contentSpans f ++ [⟨"\n", "</section>"⟩]

/-- The spans of a file are one section, since no tag of its content opens or closes one. -/
theorem sectionsFrom_file (f : ProcessedFile) (rest : List Span) :
    sectionsFrom none (fileSpans f ++ rest) = sectionSpans f :: sectionsFrom none rest := by
  have hcontent : ∀ s ∈ contentSpans f, s.tag ≠ "</section>" := by
    intro s hs heq
    have hclosing : "</section>" ∉ contentTags := by decide
    exact hclosing (heq ▸ tag_mem_of_content f s hs)
  rw [fileSpans, List.cons_append, List.cons_append, sectionsFrom, if_pos rfl, List.append_assoc,
    sectionsFrom_inside hcontent, List.append_nil, List.singleton_append, sectionsFrom, if_pos rfl]
  simp [sectionSpans]

/-- The sections of the page of results are those of the files, in order. -/
theorem sections_results (files : List ProcessedFile) :
    sections (Markup.render (results files)) = files.map sectionSpans := by
  have hopening : ∀ s ∈ openingSpans, s.tag ≠ "<section>" := by decide
  have hclosing : sectionsFrom none closingSpans = [] := by decide
  have hfiles : sectionsFrom none (files.flatMap fileSpans ++ closingSpans) = files.map sectionSpans := by
    induction files with
    | nil => exact hclosing
    | cons f rest ih =>
      rw [List.flatMap_cons, List.append_assoc, sectionsFrom_file, ih, List.map_cons]
  rw [sections, spans_results, resultsSpans, List.append_assoc, sectionsFrom_outside hopening, hfiles]

/-! ## What a section says -/

/-- The first block shows the report of a result, or its error. -/
inductive ShowsAnalysis (result : Json) : List Span → Prop
  | failed (e : String) (error : result.field "error" = .str e)
    (noReport : result.field "formatted_summary" = .null) :
    ShowsAnalysis result (enclosedSpans "<p class=\"error\">" e "</p>")
  | analyzed (report : String) (formatted : result.field "formatted_summary" = .str report)
    (noError : result.field "error" = .null) :
    ShowsAnalysis result (enclosedSpans "<pre>" report "</pre>")

/-- Nothing is shown if a result has no insights and no error in their place; if there is such an error, it is
shown; and of the texts of insights those that are not empty are shown in order, each under its title. -/
inductive ShowsInsights (result : Json) : List Span → Prop
  | absent (noInsights : result.field "ai_insights" = .null)
    (noError : result.field "ai_insights_error" = .null) : ShowsInsights result []
  | failed (e : String) (error : result.field "ai_insights_error" = .str e)
    (noInsights : result.field "ai_insights" = .null) :
    ShowsInsights result
      (enclosedSpans "<p class=\"error\">" ("AI insights unavailable: " ++ e) "</p>")
  | given (text : Section → String)
    (texts : ∀ s, (result.field "ai_insights").field s.key = .str (text s))
    (noError : result.field "ai_insights_error" = .null) :
    ShowsInsights result
      (enclosedSpans "<h2>" "AI-Generated Insights" "</h2>" ++
        (Section.all.filter (text · != "")).flatMap fun s => insightSpans s (text s))

/-- A section of the page says what a result says: under the name of the file stand its analysis and its
insights, and nothing else. -/
def TellsSame (shown : List Span) (result : Json) : Prop :=
  ∃ name analysis insights,
    shown = enclosedSpans "<h2>" name "</h2>" ++ analysis ++ insights ++ [⟨"\n", "</section>"⟩] ∧
      result.field "filename" = .str name ∧ ShowsAnalysis result analysis ∧ ShowsInsights result insights

/-- A file with an analysis, whatever its insights. -/
theorem tellsSame_analyzed (name : String) (a : Analysis) (i : Option (Except InsightError Insights)) :
    TellsSame (sectionSpans ⟨name, .ok a, i⟩) (ProcessedFile.mk name (.ok a) i).toJson := by
  have hfield (key : String) := Json.field_ofFields key (ProcessedFile.mk name (.ok a) i).fields
  -- Which fields there are depends on the insights alone.
  refine ⟨name, _, insightsSpans i, rfl, ?_, .analyzed (Report.summary a) ?_ ?_, ?_⟩
  · rcases i with _ | (e | i) <;> exact hfield _
  · rcases i with _ | (e | i) <;> exact hfield _
  · rcases i with _ | (e | i) <;> exact hfield _
  · rcases i with _ | (e | i)
    · exact .absent (hfield _) (hfield _)
    · exact .failed e.message (hfield _) (hfield _)
    · have hinsights : (ProcessedFile.mk name (.ok a) (some (.ok i))).toJson.field "ai_insights" =
          i.toJsonWithText := hfield _
      have hshown : insightsSpans (some (.ok i)) = enclosedSpans "<h2>" "AI-Generated Insights" "</h2>" ++
          (Section.all.filter (i.get · != "")).flatMap fun s => insightSpans s (i.get s) := by
        rw [insightsSpans, Insights.sections, List.filter_map, List.flatMap_map]
        rfl
      rw [hshown]
      refine .given i.get (fun s => ?_) (hfield _)
      rw [hinsights, Insights.field_toJsonWithText]

/-- A file without an analysis, which has no insights either. -/
theorem tellsSame_failed (name : String) (e : AnalysisError) :
    TellsSame (sectionSpans ⟨name, .error e, none⟩) (ProcessedFile.mk name (.error e) none).toJson := by
  have hfield (key : String) := Json.field_ofFields key (ProcessedFile.mk name (.error e) none).fields
  exact ⟨name, _, _, rfl, hfield _, .failed e.message (hfield _) (hfield _), .absent (hfield _) (hfield _)⟩

theorem tellsSame_processed (file : UploadedFile) (s : Option Service) (wish : Bool) :
    TellsSame (sectionSpans (file.processed s wish)) (file.processed s wish).toJson := by
  unfold UploadedFile.processed
  cases analyzeBytes file.fileName file.content with
  | ok a => exact tellsSame_analyzed _ a _
  | error e =>
    cases wish with
    | false => exact tellsSame_failed _ e
    | true => exact tellsSame_failed _ e

end Page

/-! ## Answers -/

namespace Server

/-- The status of an answer to an upload does not depend on how it shows its results. -/
theorem status_answerUpload (s : Server) (page : Bool) (sent : List Prompt) (u : Upload) :
    (s.answerUpload page sent u).1.status =
      match Form.read s.maxUpload u with
      | .error e => e.status
      | .ok f => if f.files.isEmpty then 400 else 200 := by
  unfold answerUpload
  cases Form.read s.maxUpload u with
  | error e => rfl
  | ok f =>
    cases hfiles : f.files.isEmpty with
    | true => cases page <;> simp [answerForm, hfiles, noFiles, Response.page, Response.json]
    | false => cases page <;> simp [answerForm, hfiles, Response.page, Response.json]

/-- A fault of an upload is answered with a status of its own. -/
theorem FormFault.status_ne (e : FormFault) : e.status ≠ 200 := by
  rcases e with limit | cause
  · simp [FormFault.status]
  · cases cause <;> simp [FormFault.status, MultipartFault.status]

/-- A form that has files is answered with a page that shows each of them. -/
theorem answerForm_page (s : Server) (sent : List Prompt) {f : Form} (h : f.files.isEmpty = false) :
    (s.answerForm true sent f).1 = .page 200 (Page.results (f.process s.service sent).1) := by
  simp only [answerForm, h, Bool.false_eq_true, if_false, if_true]

/-- Two requests to analyse one body: as JSON and as a page. -/
structure Twins (r p : Request) : Prop where
  json : route? r.method r.target = some .analyzeJson
  page : route? p.method p.target = some .analyzePage
  contentType : p.contentType = r.contentType
  body : p.body = r.body

/-- **Both answers to an upload tell the same.** They have the same status: that of an upload that is too
large, of a malformed one, of one without files, or of success. On success the page has one section for each
result of the JSON, in the same order, and each says what the result says. -/
theorem answers_tell_same {s : Server} (hservice : ∀ service ∈ s.service, Service.Stateless service)
    {r p : Request} (h : Twins r p) (sent sent' : List Prompt) :
    let u := Multipart.read r.contentType r.body
    let json := (s.answer sent r).1
    let page := (s.answer sent' p).1
    page.status = json.status ∧
      (json.status =
        if s.maxUpload < u.size then 413
        else match u.fault with
          | some cause => cause.status
          | none => if u.parts.filterMap Part.file? = [] then 400 else 200) ∧
      (json.status = 200 → ∃ results, json = .ofResults results ∧
        List.Forall₂ Page.TellsSame (Page.sections page.body) results) := by
  intro u json page
  have hjson : json = (s.answerUpload false sent u).1 := by
    simp only [json, answer, h.json, u]
  have hpage : page = (s.answerUpload true sent' u).1 := by
    simp only [page, answer, h.page, h.contentType, h.body, u]
  have hstatus : json.status = _ := (congrArg _ hjson).trans (status_answerUpload s false sent u)
  refine ⟨?_, ?_, fun hsuccess => ?_⟩
  · rw [hstatus, hpage, status_answerUpload]
  · rw [hstatus, Form.read_eq, Form.foldl_add_empty, Form.ofParts]
    by_cases hlarge : s.maxUpload < u.size
    · simp [hlarge, FormFault.status]
    · cases u.fault <;> simp [hlarge, FormFault.status]
  · rw [hstatus] at hsuccess
    cases hform : Form.read s.maxUpload u with
    | error e =>
      rw [hform] at hsuccess
      exact absurd hsuccess (FormFault.status_ne e)
    | ok f =>
      have hfiles : f.files.isEmpty = false := by
        rw [hform] at hsuccess
        simpa using hsuccess
      have huploads : s.Uploads r f := ⟨h.json, hform⟩
      -- Both answers show one list of processed files, each in its own way.
      have hshown : page = .page 200 (Page.results (f.process s.service sent').1) := by
        rw [hpage, answerUpload, hform]
        exact answerForm_page s sent' hfiles
      have hbody : page.body = Markup.render (Page.results
          (f.files.map fun file => file.processed s.service f.wantsInsights)) := by
        rw [hshown, Form.process_eq hservice, Response.page]
      refine ⟨_, answer_uploads hservice huploads (List.isEmpty_eq_false_iff.mp hfiles) sent, ?_⟩
      rw [hbody, Page.sections_results, List.map_map, List.forall₂_map_left_iff,
        List.forall₂_map_right_iff, List.forall₂_same]
      exact fun file _ => Page.tellsSame_processed file s.service f.wantsInsights

/-- One table with insights, asked for in both ways. -/
theorem answers_tell_same_wish :
    let s : Server := ⟨some fun _ _ => .ok "KEY TRENDS\nup & down", 7⟩
    let r := Request.ofFourBytes Request.wish
    let p := { r with target := "/analyze" }
    (s.answer [] p).1.status = 200 ∧ ∃ results, (s.answer [] r).1 = .ofResults results ∧
      List.Forall₂ Page.TellsSame (Page.sections (s.answer [] p).1.body) results := by
  intro s r p
  have hservice : ∀ service ∈ s.service, Service.Stateless service := by
    rintro _ ⟨⟩ _ _
    rfl
  have hpage : route? "POST" "/analyze" = some .analyzePage := by decide +kernel
  have htwins : Twins r p := ⟨route_ofFourBytes _, hpage, rfl, rfl⟩
  obtain ⟨hsame, hstatus, hresults⟩ := answers_tell_same hservice htwins [] []
  have hread : Multipart.read r.contentType r.body = _ := read_ofFourBytes_wish
  have hok : (s.answer [] r).1.status = 200 := by
    rw [hstatus, hread]
    decide +kernel
  exact ⟨hsame.trans hok, hresults hok⟩

end Server

end TableProfile
