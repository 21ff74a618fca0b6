import TableProfile.Proofs.Independence
import TableProfile.Proofs.UploadReading

/-!
# Files of one upload

The files of an upload do not influence each other, whoever is asked for insights, as long as the answer
to a prompt is a function of the prompt (`Service.Stateless`). Each file is then processed by itself
(`process_eq`), so its result is the one of an upload that holds no other file.

* `askEach_stateless`: the insights of a table do not depend on the tables before it.
* `exists_alone`: a file of an upload fits into an upload of its own with the same wish.
* `resultOf_processed`: what the result of a file says (`ResultOf`).
* `answer_isolated`: the results of an upload.
-/
namespace TableProfile

/-! ## Services without memory -/

/-- A service whose answers do not depend on the prompts that it was sent before. -/
def Service.Stateless (s : Service) : Prop := ∀ sent p, s sent p = s [] p

theorem ask_stateless {s : Option Service} (hs : ∀ service ∈ s, Service.Stateless service)
    (sent : List Prompt) (a : Analysis) : (ask s sent a).1 = (ask s [] a).1 := by
  cases s with
  | none => rfl
  | some service => rw [ask, ask, insightsFor, insightsFor, hs service rfl sent]

/-- The insights of a table do not depend on the tables before it. -/
theorem askEach_stateless {s : Option Service} (hs : ∀ service ∈ s, Service.Stateless service)
    (sent : List Prompt) (tables : List (Option Analysis)) :
    (askEach s sent tables).1 = tables.map fun table => table.map fun a => (ask s [] a).1 := by
  induction tables generalizing sent with
  | nil => rfl
  | cons table rest ih =>
    cases table with
    | none =>
      rw [askEach, List.map_cons, ← ih sent]
      rfl
    | some a =>
      rw [askEach, List.map_cons, ← ih (ask s sent a).2, Option.map_some, ← ask_stateless hs sent]

/-! ## Processing -/

/-- What becomes of a file by itself. -/
def UploadedFile.processed (file : UploadedFile) (s : Option Service) (wish : Bool) : ProcessedFile :=
  let result := analyzeBytes file.fileName file.content
  ⟨file.fileName, result, (if wish then analysis? result else none).map fun a => (ask s [] a).1⟩

namespace Form

/-- Each file is processed by itself. -/
theorem process_eq {s : Option Service} (hs : ∀ service ∈ s, Service.Stateless service)
    (sent : List Prompt) (f : Form) :
    (f.process s sent).1 = f.files.map fun file => file.processed s f.wantsInsights := by
  simp only [process, tables, analyses]
  rw [askEach_stateless hs, List.map_map, List.map_map]
  generalize f.files = files
  induction files with
  | nil => rfl
  | cons file rest ih =>
    simp only [List.map_cons, List.zip_cons_cons, ih]
    rfl

/-! ## A file alone -/

theorem le_totalSize {parts : List Part} {p : Part} (h : p ∈ parts) :
    p.content.length ≤ Part.totalSize parts := by
  induction parts with
  | nil => cases h
  | cons q rest ih =>
    rw [Part.totalSize_cons]
    rcases List.mem_cons.mp h with rfl | h
    · exact Nat.le_add_right _ _
    · exact Nat.le_add_left_of_le (ih h)

theorem totalSize_filter (q : Part → Bool) (parts : List Part) :
    Part.totalSize (parts.filter q) + Part.totalSize (parts.filter (!q ·)) = Part.totalSize parts := by
  induction parts with
  | nil => rfl
  | cons p rest ih =>
    cases h : q p with
    | true =>
      rw [List.filter_cons_of_pos h, List.filter_cons_of_neg (by simp [h]), Part.totalSize_cons,
        Part.totalSize_cons, ← ih, Nat.add_assoc]
    | false =>
      rw [List.filter_cons_of_neg (by simp [h]), List.filter_cons_of_pos (by simp [h]),
        Part.totalSize_cons, Part.totalSize_cons, ← ih, Nat.add_left_comm]

theorem filter_isWish_toList (wish : Option Part) (h : ∀ w ∈ wish, w.isWish = true) :
    wish.toList.filter Part.isWish = wish.toList ∧ wish.toList.filterMap Part.file? = [] := by
  cases wish with
  | none => exact ⟨rfl, rfl⟩
  | some w =>
    have hw := h w rfl
    exact ⟨by simp [hw], by simp [Part.file?_of_isWish hw]⟩

/-- A file of an upload fits into an upload of its own with the same wish. -/
theorem exists_alone {limit : Nat} {u : Upload} {f : Form} (h : Form.read limit u = .ok f)
    {file : UploadedFile} (hfile : file ∈ f.files) :
    ∃ v : Upload, v.size ≤ u.size ∧ Form.read limit v = .ok ⟨[file], f.wantsInsights⟩ := by
  obtain ⟨hlimit, -, rfl⟩ := (read_ok_iff limit u f).mp h
  obtain ⟨p, hp, hpfile⟩ := List.mem_filterMap.mp hfile
  have hpwish : p.isWish ≠ true := fun hw => by
    rw [Part.file?_of_isWish hw] at hpfile
    cases hpfile
  -- What the upload wishes for is said by its last wish: that part and the file make an upload.
  obtain ⟨wish, hwish⟩ : ∃ wish, (u.parts.filter Part.isWish).getLast? = wish := ⟨_, rfl⟩
  have hmem : ∀ w ∈ wish, w ∈ u.parts.filter Part.isWish := fun w hw =>
    List.mem_of_getLast? (hwish.trans hw)
  obtain ⟨hwishes, hnoFile⟩ := filter_isWish_toList wish fun w hw =>
    (List.mem_filter.mp (hmem w hw)).2
  have hsize : Upload.size ⟨p :: wish.toList, none⟩ ≤ u.size := by
    have hfirst : p.content.length ≤ Part.totalSize (u.parts.filter (!Part.isWish ·)) :=
      le_totalSize (List.mem_filter.mpr ⟨hp, by simpa using hpwish⟩)
    have hlast : Part.totalSize wish.toList ≤ Part.totalSize (u.parts.filter Part.isWish) := by
      cases wish with
      | none => exact Nat.zero_le _
      | some w => exact le_totalSize (hmem w rfl)
    have hsum := totalSize_filter Part.isWish u.parts
    rw [Part.content] at hfirst
    rw [Upload.size, Upload.size, Part.totalSize_cons]
    omega
  refine ⟨⟨p :: wish.toList, none⟩, hsize,
    (read_ok_iff limit _ _).mpr ⟨hsize.trans hlimit, rfl, ?_⟩⟩
  rw [ofParts, ofParts, List.filterMap_cons_some hpfile, hnoFile, List.filter_cons_of_neg hpwish,
    hwishes, hwish]
  cases wish with
  | none => rw [Option.toList_none, List.getLast?_nil]
  | some w => rw [Option.toList_some, List.getLast?_singleton]

end Form

/-! ## Results -/

/-- A result that holds an analysis. Insights are null unless they are wanted; if they are, they are null
exactly if there is an error in their place. -/
structure SaysAnalysis (fileName : String) (a : Analysis) (wish : Bool) (result : Json) : Prop where
  fileName : result.get? "filename" = some (.str fileName)
  noError : result.get? "error" = none
  file : result.get? "file_summary" = some a.file.toJson
  summary : result.get? "statistical_summary" = some a.summary.toJson
  report : result.get? "formatted_summary" = some (.str (Report.summary a))
  unwanted : wish = false →
    result.get? "ai_insights" = some .null ∧ result.get? "ai_insights_error" = none
  wanted : wish = true → ∃ insights, result.get? "ai_insights" = some insights ∧
    (insights ≠ .null ↔ result.get? "ai_insights_error" = none)

/-- What the result of a file says: just why it has no analysis, or its analysis. -/
inductive ResultOf (file : UploadedFile) (wish : Bool) (result : Json) : Prop where
  | failed (e : AnalysisError) (fault : analyzeBytes file.fileName file.content = .error e)
    (justError : result = .ofFields [("filename", .str file.fileName), ("error", .str e.message)])
  | analyzed (a : Analysis) (analysis : analyzeBytes file.fileName file.content = .ok a)
    (saysAnalysis : SaysAnalysis file.fileName a wish result)

theorem saysAnalysis_toJson (fileName : String) (a : Analysis)
    (insights : Option (Except InsightError Insights)) :
    SaysAnalysis fileName a insights.isSome (ProcessedFile.mk fileName (.ok a) insights).toJson := by
  have hget (key : String) := Json.get?_ofFields key (ProcessedFile.mk fileName (.ok a) insights).fields
  rcases insights with _ | (e | i)
  · exact ⟨hget _, hget _, hget _, hget _, hget _, fun _ => ⟨hget _, hget _⟩, nofun⟩
  · refine ⟨hget _, hget _, hget _, hget _, hget _, nofun, fun _ => ⟨.null, hget _, ?_⟩⟩
    have herror : (ProcessedFile.mk fileName (.ok a) (some (.error e))).toJson.get? "ai_insights_error" =
        some (.str e.message) := hget _
    simp [herror]
  · exact ⟨hget _, hget _, hget _, hget _, hget _, nofun,
      fun _ => ⟨i.toJsonWithText, hget _, fun _ => hget _, fun _ => nofun⟩⟩

/-- Insights are those of the file, or an error in their place, exactly if they are wanted. -/
theorem resultOf_processed (file : UploadedFile) (s : Option Service) (wish : Bool) :
    ResultOf file wish (file.processed s wish).toJson := by
  cases h : analyzeBytes file.fileName file.content with
  | error e =>
    refine .failed e h ?_
    rw [UploadedFile.processed, h]
    rfl
  | ok a =>
    refine .analyzed a h ?_
    rw [UploadedFile.processed, h]
    cases wish with
    | false => exact saysAnalysis_toJson file.fileName a none
    | true => exact saysAnalysis_toJson file.fileName a (some (ask s [] a).1)

namespace Server

/-- The answer that has the given results. -/
def Response.ofResults (results : List Json) : Response :=
  .json 200 (.ofFields
    [("success", .bool true), ("files_processed", .nat results.length), ("results", .arr results)])

/-- A request to analyse the files of a form as JSON, small enough to be read. -/
structure Uploads (s : Server) (r : Request) (f : Form) : Prop where
  route : route? r.method r.target = some .analyzeJson
  form : Form.read s.maxUpload (Multipart.read r.contentType r.body) = .ok f

variable {s : Server} {r : Request} {f : Form}

/-- The answer has one result for each file, each by itself. -/
theorem answer_uploads (hservice : ∀ service ∈ s.service, Service.Stateless service)
    (hr : s.Uploads r f) (hfiles : f.files ≠ []) (sent : List Prompt) :
    (s.answer sent r).1 =
      .ofResults (f.files.map fun file => (file.processed s.service f.wantsInsights).toJson) := by
  have hfiles' : f.files.isEmpty = false := List.isEmpty_eq_false_iff.mpr hfiles
  have hanswer : (s.answer sent r).1 = (s.answerForm false sent f).1 := by
    simp only [answer, hr.route, answerUpload, hr.form]
  rw [hanswer, answerForm_json s sent hfiles', Form.process_eq hservice, resultsJson,
    Response.ofResults, List.map_map, List.length_map, List.length_map]
  rfl

/-- **Files of one upload are isolated.** If the answers to prompts are functions of the prompts, an
upload of files is answered with one result for each of them, in order. A result is about its own file,
and it is the only result of an upload of that file alone with the same wish, which is no larger. -/
theorem answer_isolated (hservice : ∀ service ∈ s.service, Service.Stateless service)
    (hr : s.Uploads r f) (hfiles : f.files ≠ []) (sent : List Prompt) :
    ∃ results, (s.answer sent r).1 = .ofResults results ∧ results.length = f.files.length ∧
      ∀ (i : Nat) (file : UploadedFile), f.files[i]? = some file →
        ∃ result, results[i]? = some result ∧ ResultOf file f.wantsInsights result ∧
          (∃ u : Upload, u.size ≤ (Multipart.read r.contentType r.body).size ∧
            Form.read s.maxUpload u = .ok ⟨[file], f.wantsInsights⟩) ∧
          ∀ sent' r', s.Uploads r' ⟨[file], f.wantsInsights⟩ →
            (s.answer sent' r').1 = .ofResults [result] := by
  refine ⟨_, answer_uploads hservice hr hfiles sent, List.length_map _, fun i file hfile => ?_⟩
  refine ⟨(file.processed s.service f.wantsInsights).toJson, ?_, resultOf_processed _ _ _,
    Form.exists_alone hr.form (List.mem_of_getElem? hfile), fun sent' r' hr' => ?_⟩
  · rw [List.getElem?_map, hfile, Option.map_some]
  · exact answer_uploads hservice hr' (List.cons_ne_nil _ _) sent'

/-- A part with a file that is no table. -/
def Request.textFile : String :=
  "--b\r\nContent-Disposition: form-data; name=\"files\"; filename=\"t.txt\"\r\n\r\n-\r\n"

/-- Two files and a wish hold seven bytes. -/
theorem uploads_textFile (service : Option Service) :
    Uploads ⟨service, 7⟩ (.ofFourBytes (Request.textFile ++ Request.wish))
      ⟨[⟨"t.csv", [97, 10, 49, 10]⟩, ⟨"t.txt", [45]⟩], true⟩ := by
  refine ⟨route_ofFourBytes _, ?_⟩
  show Form.read 7 _ = _
  decide +kernel

theorem uploads_wish (service : Option Service) :
    Uploads ⟨service, 7⟩ (.ofFourBytes Request.wish) ⟨[⟨"t.csv", [97, 10, 49, 10]⟩], true⟩ := by
  refine ⟨route_ofFourBytes _, ?_⟩
  rw [read_ofFourBytes_wish]
  show Form.read 7 _ = _
  decide

theorem answer_isolated_textFile :
    let s : Server := ⟨some fun _ _ => .ok "KEY TRENDS\nup", 7⟩
    ∃ first, (s.answer [] (.ofFourBytes Request.wish)).1 = .ofResults [first] ∧
      ResultOf ⟨"t.csv", [97, 10, 49, 10]⟩ true first ∧
      (s.answer [] (.ofFourBytes (Request.textFile ++ Request.wish))).1 = .ofResults [first,
        .ofFields [("filename", .str "t.txt"), ("error", .str "File is not a CSV: t.txt")]] := by
  intro s
  have hservice : ∀ service ∈ s.service, Service.Stateless service := by
    rintro _ ⟨⟩ _ _
    rfl
  obtain ⟨results, hanswer, hlen, hresults⟩ :=
    answer_isolated hservice (uploads_textFile _) (List.cons_ne_nil _ _) []
  obtain ⟨first, hfirst, hsays, -, halone⟩ := hresults 0 _ rfl
  obtain ⟨second, hsecond, hsays', -, -⟩ := hresults 1 _ rfl
  obtain ⟨_, _, rfl⟩ := List.length_eq_two.mp hlen
  cases hfirst
  cases hsecond
  refine ⟨first, halone [] _ (uploads_wish _), hsays, ?_⟩
  rw [hanswer]
  have hfault : analyzeBytes "t.txt" [45] = .error (.load (.notCsv "t.txt")) := by decide +kernel
  cases hsays' with
  | failed e h justError =>
    cases hfault.symm.trans h
    rw [justError]
    rfl
  | analyzed a h => cases hfault.symm.trans h

end Server

end TableProfile
