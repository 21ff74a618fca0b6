import TableProfile.Command.Run
import TableProfile.Proofs.FormReading
import TableProfile.Proofs.JsonFields
import TableProfile.Server.Handler

/-!
# Statistics without regard to insights

Two runs over the same files are compared: with and without insights, with any keys and services, which
may answer anything or nothing. What the runs say of the files, insights apart, is the same.

* The upload server: `Response.AgreeApart`, the same status and, once the insight fields are deleted from
  every result, the same JSON.
* The command line: the same exit code, the same JSON in the same sense, and as text the run without
  insights prints the beginning of what the other run prints.

The proofs separate what is said of a file (`ProcessedFile.resultFields`, `Command.resultFields`) from
what insights add to it. Insights stand in a list beside the files, one place for each of them
(`askEach_length`), so joining the two lists loses no file and moves none.
-/
namespace TableProfile

/-- The keys that insights add to the result of a file. -/
def insightKeys : List String := ["ai_insights", "ai_insights_error"]

/-- An answer about files without the insight fields of its results. -/
def Json.withoutInsights (v : Json) : Json :=
  v.mapField "results" (Json.mapItems (Json.without insightKeys))

/-! ## Results as JSON -/

theorem ProcessedFile.toJson_without (f : ProcessedFile) :
    f.toJson.without insightKeys = .ofFields f.resultFields := by
  obtain ⟨fileName, analysis, insights⟩ := f
  rw [toJson, Json.without_ofFields]
  cases analysis with
  | error e => rfl
  | ok a =>
    rcases insights with _ | (e | i) <;> rfl

theorem Command.result_without (o : Outcome) (answer : Option (Except InsightError Insights)) :
    (Json.ofFields (resultFields o ++ insightFields answer)).without insightKeys =
      .ofFields (resultFields o) := by
  obtain ⟨fileName, result⟩ := o
  rw [Json.without_ofFields]
  rcases answer with _ | (e | i) <;> cases result <;> rfl

/-- The answer of the upload server without insights: one result for each file. -/
theorem resultsJson_withoutInsights (files : List ProcessedFile) :
    (resultsJson files).withoutInsights =
      .ofFields
        [("success", .bool true), ("files_processed", .nat files.length),
          ("results", .arr (files.map fun f => .ofFields f.resultFields))] := by
  have h : (files.map ProcessedFile.toJson).map (Json.without insightKeys) =
      files.map fun f => Json.ofFields f.resultFields := by
    rw [List.map_map]
    exact List.map_congr_left fun f _ => f.toJson_without
  rw [← h, Json.withoutInsights, resultsJson, Json.mapField_ofFields]
  rfl

/-- The output of the analysis command without insights: one result for each file. -/
theorem Command.resultsJson_withoutInsights (outcomes : List Outcome)
    (answers : List (Option (Except InsightError Insights)))
    (h : answers.length = outcomes.length) :
    (resultsJson outcomes answers).withoutInsights =
      .ofFields
        [("files_processed", .nat outcomes.length),
          ("results", .arr (outcomes.map fun o => .ofFields (resultFields o)))] := by
  have hitems : ((outcomes.zip answers).map fun p =>
        Json.ofFields (resultFields p.1 ++ insightFields p.2)).map (Json.without insightKeys) =
      outcomes.map fun o => Json.ofFields (resultFields o) := by
    rw [List.map_map]
    calc (outcomes.zip answers).map _
        = (outcomes.zip answers).map ((fun o => Json.ofFields (resultFields o)) ∘ Prod.fst) :=
          List.map_congr_left fun p _ => result_without p.1 p.2
      _ = outcomes.map fun o => Json.ofFields (resultFields o) := by
          rw [← List.map_map, List.map_fst_zip (by omega)]
  rw [← hitems, Json.withoutInsights, resultsJson, Json.mapField_ofFields]
  rfl

/-! ## The upload server -/

/-- Two answers that are the same, or differ only in the insight fields of their JSON. -/
def Server.Response.AgreeApart (a b : Response) : Prop :=
  a = b ∨ ∃ status v w, a = .json status v ∧ b = .json status w ∧
    v.withoutInsights = w.withoutInsights

/-- Two uploads that differ only in whether they ask for insights. -/
structure Upload.SameButWish (u v : Upload) : Prop where
  parts : u.parts.filter (!·.isWish) = v.parts.filter (!·.isWish)
  fault : u.fault = v.fault

theorem Part.file?_of_isWish {p : Part} (h : p.isWish = true) : p.file? = none := by
  simp only [isWish, beq_iff_eq] at h
  simp [file?, h]

theorem Part.filterMap_file? (parts : List Part) :
    (parts.filter (!·.isWish)).filterMap file? = parts.filterMap file? := by
  induction parts with
  | nil => rfl
  | cons p rest ih =>
    cases h : p.isWish with
    | true => simp [h, ih, file?_of_isWish h]
    | false => simp [h, List.filterMap_cons, ih]

namespace Form

/-- Processing keeps each file with its own analysis, whoever is asked for insights. -/
theorem process_apart (s : Option Service) (sent : List Prompt) (f : Form) :
    (f.process s sent).1.map (fun p => (p.fileName, p.analysis)) =
      f.files.map fun file => (file.fileName, analyzeBytes file.fileName file.content) := by
  have hlen : (askEach s sent f.tables).1.length = f.files.length := by
    simp [askEach_length, tables, analyses]
  calc (f.process s sent).1.map (fun p => (p.fileName, p.analysis))
      = (((f.files.zip f.analyses).zip (askEach s sent f.tables).1).map Prod.fst).map
          fun q => (q.1.fileName, q.2) := by simp [process, Function.comp_def]
    _ = (f.files.zip f.analyses).map fun q => (q.1.fileName, q.2) := by
        rw [List.map_fst_zip (by simp [hlen, analyses])]
    _ = f.files.map fun file => (file.fileName, analyzeBytes file.fileName file.content) := by
        have hzip : f.files.zip f.analyses =
            f.files.map fun file => (file, analyzeBytes file.fileName file.content) := by
          rw [← List.zip_map', List.map_id']
          rfl
        rw [hzip, List.map_map]
        rfl

end Form

/-- What is said of files, insights apart, is determined by their names and analyses. -/
theorem resultsJson_congr {files files' : List ProcessedFile}
    (h : files.map (fun p => (p.fileName, p.analysis)) =
      files'.map fun p => (p.fileName, p.analysis)) :
    (resultsJson files).withoutInsights = (resultsJson files').withoutInsights := by
  have hlen : files.length = files'.length := by simpa using congrArg List.length h
  have hfields : files.map (fun f => Json.ofFields f.resultFields) =
      files'.map fun f => Json.ofFields f.resultFields := by
    have := congrArg
      (List.map fun q => Json.ofFields (ProcessedFile.resultFields ⟨q.1, q.2, none⟩)) h
    rw [List.map_map, List.map_map] at this
    exact this
  rw [resultsJson_withoutInsights, resultsJson_withoutInsights, hlen, hfields]

namespace Server

/-- A form that has files is answered with one result for each of them. -/
theorem answerForm_json (s : Server) (sent : List Prompt) {f : Form} (h : f.files.isEmpty = false) :
    (s.answerForm false sent f).1 = .json 200 (resultsJson (f.process s.service sent).1) := by
  simp only [answerForm, h, Bool.false_eq_true, if_false]

theorem answerForm_apart (s s' : Server) (sent sent' : List Prompt) {f f' : Form}
    (h : f.files = f'.files) :
    (s.answerForm false sent f).1.AgreeApart (s'.answerForm false sent' f').1 := by
  cases hf : f.files.isEmpty with
  | true =>
    refine Or.inl ?_
    simp only [answerForm, ← h, hf, if_true, noFiles, Bool.false_eq_true, if_false]
  | false =>
    have hf' : f'.files.isEmpty = false := by rw [← h, hf]
    refine Or.inr ⟨200, _, _, answerForm_json s sent hf, answerForm_json s' sent' hf', ?_⟩
    refine resultsJson_congr ?_
    rw [Form.process_apart, Form.process_apart, h]

/-- Uploads of the same files are answered alike, unless the bytes of the wish make one too large. -/
theorem answerUpload_apart (limit : Nat) (s s' : Option Service) (sent sent' : List Prompt)
    {u u' : Upload} (h : u.SameButWish u') (hfit : u.size ≤ limit ↔ u'.size ≤ limit) :
    (answerUpload ⟨s, limit⟩ false sent u).1.AgreeApart
      (answerUpload ⟨s', limit⟩ false sent' u').1 := by
  unfold answerUpload
  simp only [Form.read_eq]
  by_cases hu : limit < u.size
  · have hu' : limit < u'.size := by omega
    rw [if_pos hu, if_pos hu']
    exact Or.inl rfl
  · have hu' : ¬ limit < u'.size := by omega
    rw [if_neg hu, if_neg hu', ← h.fault]
    cases u.fault with
    | some cause => exact Or.inl rfl
    | none =>
      refine answerForm_apart _ _ _ _ ?_
      rw [Form.foldl_add_files, Form.foldl_add_files, ← Part.filterMap_file? u.parts, h.parts,
        Part.filterMap_file?]

/-- Two requests to analyse the same upload as JSON, but for the wish for insights. -/
structure SameUpload (limit : Nat) (r r' : Request) : Prop where
  route : route? r.method r.target = some .analyzeJson
  route' : route? r'.method r'.target = some .analyzeJson
  parts : (Multipart.read r.contentType r.body).SameButWish (Multipart.read r'.contentType r'.body)
  /-- The bytes of the wish count too, so they must not be what makes one upload too large. -/
  fit : (Multipart.read r.contentType r.body).size ≤ limit ↔
    (Multipart.read r'.contentType r'.body).size ≤ limit

theorem answer_apart {limit : Nat} {r r' : Request} (h : SameUpload limit r r')
    (s s' : Option Service) (sent sent' : List Prompt) :
    (answer ⟨s, limit⟩ sent r).1.AgreeApart (answer ⟨s', limit⟩ sent' r').1 := by
  simp only [answer, h.route, h.route']
  exact answerUpload_apart limit s s' sent sent' h.parts h.fit

end Server

/-! ## The command line -/

namespace Command

theorem insightsOf_length (s : Option Service) (wanted : Bool) (outcomes : List Outcome) :
    (insightsOf s wanted outcomes).1.length = outcomes.length := by
  rw [insightsOf, askEach_length, List.length_map]

/-- Places without a table are left without insights. -/
theorem askEach_none (s : Option Service) (outcomes : List Outcome) (sent : List Prompt) :
    (askEach s sent (outcomes.map fun _ => none)).1 = outcomes.map fun _ => none := by
  induction outcomes generalizing sent with
  | nil => rfl
  | cons o rest ih => simp only [List.map_cons, askEach, ih]

/-- The report is the first line, whatever insights follow it. -/
theorem textLines_unwanted (s : Option Service) (outcomes : List Outcome) :
    textLines outcomes (insightsOf s false outcomes).1 = [reportText outcomes] := by
  have h : (insightsOf s false outcomes).1 = outcomes.map fun _ => none :=
    askEach_none s outcomes []
  rw [textLines, h, List.cons_inj_right, List.flatMap_eq_nil_iff]
  intro p hp
  obtain ⟨o, answer⟩ := p
  obtain ⟨_, _, rfl⟩ := List.mem_map.mp (List.of_mem_zip hp).2
  rfl

theorem analyzeFiles_congr {t t' : FileTree} {here here' : Path} {files : List String}
    (h : ∀ path ∈ files, loadFile t here path = loadFile t' here' path) :
    analyzeFiles t here files = analyzeFiles t' here' files := by
  refine List.map_congr_left fun path hpath => ?_
  rw [analyzeFile, analyzeFile, h path hpath]

theorem analyze_complete (t : FileTree) (here : Path) (s : Option Service) (o : Options) :
    (analyze t here s o).complete = (analyzeFiles t here o.files).all isLoaded := rfl

/-- What is printed as JSON. -/
theorem analyze_json (t : FileTree) (here : Path) (s : Option Service) {o : Options}
    (h : o.json = true) :
    (analyze t here s o).output =
      (resultsJson (analyzeFiles t here o.files)
        (insightsOf s o.insights (analyzeFiles t here o.files)).1).pretty ++ "\n" := by
  simp only [analyze, h, if_true, List.map_cons, List.map_nil, String.join_cons, String.join_nil,
    String.append_empty]

/-- What is printed as text: the report, and behind it what there is of insights. -/
theorem analyze_text (t : FileTree) (here : Path) (s : Option Service) {o : Options}
    (h : o.json = false) :
    ∃ rest, (analyze t here s o).output =
      reportText (analyzeFiles t here o.files) ++ "\n" ++ rest := by
  simp only [analyze, h, Bool.false_eq_true, if_false, textLines, List.map_cons, String.join_cons]
  exact ⟨_, rfl⟩

theorem analyze_text_unwanted (t : FileTree) (here : Path) (s : Option Service) {o : Options}
    (h : o.json = false) (hwish : o.insights = false) :
    (analyze t here s o).output = reportText (analyzeFiles t here o.files) ++ "\n" := by
  simp only [analyze, h, hwish, Bool.false_eq_true, if_false, textLines_unwanted, List.map_cons,
    List.map_nil, String.join_cons, String.join_nil, String.append_empty]

/-- Two runs that analyse the same files and show them in the same way. -/
structure SameAnalysis (w w' : Surroundings) (words words' : List String) (o o' : Options) : Prop where
  words : read words = .ok (.analyze o)
  words' : read words' = .ok (.analyze o')
  settings : ∃ s, w.settings = .ok s
  settings' : ∃ s, w'.settings = .ok s
  files : o.files = o'.files
  json : o.json = o'.json
  loaded : ∀ path ∈ o.files, loadFile w.tree w.here path = loadFile w'.tree w'.here path

/-- Two runs under options that end alike and print alike, insights apart. -/
structure Run.AgreeApart (o : Options) (a b : Run) : Prop where
  ending : a.ending = b.ending
  json : o.json = true → ∃ v w : Json, a.output = v.pretty ++ "\n" ∧ b.output = w.pretty ++ "\n" ∧
    v.withoutInsights = w.withoutInsights
  /-- Without insights only the report is printed. -/
  text : o.json = false → o.insights = false → a.output.toList <+: b.output.toList

theorem runAnalysis_apart {w w' : Surroundings} {o o' : Options} (settings settings' : Settings)
    (hfiles : o.files = o'.files) (hjson : o.json = o'.json)
    (hloaded : ∀ path ∈ o.files, loadFile w.tree w.here path = loadFile w'.tree w'.here path) :
    (runAnalysis w settings o).AgreeApart o (runAnalysis w' settings' o') := by
  have hout : analyzeFiles w.tree w.here o.files = analyzeFiles w'.tree w'.here o'.files := by
    rw [← hfiles]
    exact analyzeFiles_congr hloaded
  refine ⟨?_, fun h => ?_, fun h hwish => ?_⟩
  · simp only [runAnalysis]
    rw [analyze_complete, analyze_complete, hout]
  · have h' : o'.json = true := by rw [← hjson, h]
    refine ⟨_, _, analyze_json _ _ _ h, analyze_json _ _ _ h', ?_⟩
    rw [resultsJson_withoutInsights _ _ (insightsOf_length _ _ _),
      resultsJson_withoutInsights _ _ (insightsOf_length _ _ _), hout]
  · have h' : o'.json = false := by rw [← hjson, h]
    obtain ⟨rest, hrest⟩ := analyze_text w'.tree w'.here
      ((Completion.Client.ofSettings settings').toOption.map fun c => c.service w'.api) h'
    refine ⟨rest.toList, ?_⟩
    simp only [runAnalysis]
    rw [analyze_text_unwanted _ _ _ h hwish, hrest, hout]
    simp only [String.toList_append]

theorem run_apart {w w' : Surroundings} {words words' : List String} {o o' : Options}
    (h : SameAnalysis w w' words words' o o') : (run w words).AgreeApart o (run w' words') := by
  obtain ⟨settings, hs⟩ := h.settings
  obtain ⟨settings', hs'⟩ := h.settings'
  simp only [run, h.words, h.words', hs, hs', Request.run]
  exact runAnalysis_apart settings settings' h.files h.json h.loaded

end Command

/-! ## Both together -/

/-- **Insights change nothing else.** Uploads that differ in their wish for insights are answered with
the same status and the same JSON apart from insights, and so end and print two runs of the analysis
command, whoever is asked for insights and whatever is answered. -/
theorem statistics_apart_from_insights :
    (∀ (limit : Nat) (s s' : Option Service) (sent sent' : List Prompt) (r r' : Server.Request),
      Server.SameUpload limit r r' →
        (Server.answer ⟨s, limit⟩ sent r).1.AgreeApart (Server.answer ⟨s', limit⟩ sent' r').1) ∧
    (∀ (w w' : Command.Surroundings) (words words' : List String) (o o' : Command.Options),
      Command.SameAnalysis w w' words words' o o' →
        (Command.run w words).AgreeApart o (Command.run w' words')) := by
  refine ⟨fun limit s s' sent sent' r r' h => ?_, fun w w' words words' o o' h => ?_⟩
  · exact Server.answer_apart h s s' sent sent'
  · exact Command.run_apart h

/-- A request that uploads a file of four bytes and, behind it, what else is given. -/
def Server.Request.ofFourBytes (more : String) : Request where
  method := "POST"
  target := "/analyze-csv"
  contentType := some (Utf8.encode "multipart/form-data; boundary=b")
  body := Utf8.encode ("--b\r\nContent-Disposition: form-data; name=\"files\"; filename=\"t.csv\""
    ++ "\r\n\r\na\n1\n\r\n" ++ more ++ "--b--\r\n")

/-- A part that asks for insights. -/
def Server.Request.wish : String :=
  "--b\r\nContent-Disposition: form-data; name=\"include_ai_insights\"\r\n\r\non\r\n"

/-- The upload of a file of four bytes, with and without a wish for insights. -/
theorem read_ofFourBytes :
    Multipart.read (Server.Request.ofFourBytes "").contentType (Server.Request.ofFourBytes "").body =
      ⟨[⟨some "files", some "t.csv", [[97, 10, 49, 10]]⟩], none⟩ := by
  decide +kernel

theorem read_ofFourBytes_wish :
    Multipart.read (Server.Request.ofFourBytes Server.Request.wish).contentType
        (Server.Request.ofFourBytes Server.Request.wish).body =
      ⟨[⟨some "files", some "t.csv", [[97, 10, 49, 10]]⟩,
        ⟨some "include_ai_insights", none, [[111, 110]]⟩], none⟩ := by
  decide +kernel

theorem sameButWish_ofFourBytes :
    (Multipart.read (Server.Request.ofFourBytes "").contentType
        (Server.Request.ofFourBytes "").body).SameButWish
      (Multipart.read (Server.Request.ofFourBytes Server.Request.wish).contentType
        (Server.Request.ofFourBytes Server.Request.wish).body) := by
  rw [read_ofFourBytes, read_ofFourBytes_wish]
  exact ⟨rfl, rfl⟩

theorem route_ofFourBytes (more : String) :
    Server.route? (Server.Request.ofFourBytes more).method (Server.Request.ofFourBytes more).target =
      some .analyzeJson := by
  have h : Server.route? "POST" "/analyze-csv" = some .analyzeJson := by decide +kernel
  exact h

/-- A directory with one table, some environment variables, and an API that answers nothing. -/
def Command.Surroundings.ofVariables (environment : Settings.Environment) : Surroundings :=
  ⟨⟨[(["t.csv"], Utf8.encode "a\n1\n")], []⟩, [], environment, fun _ _ => none⟩

theorem statistics_apart_from_insights_table :
    (Server.answer ⟨none, 6⟩ [] (.ofFourBytes "")).1.AgreeApart
        (Server.answer ⟨some fun _ _ => .error .missingKey, 6⟩ []
          (.ofFourBytes Server.Request.wish)).1 ∧
      (Command.run (.ofVariables []) ["analyze", "t.csv"]).AgreeApart ⟨["t.csv"], false, false⟩
        (Command.run (.ofVariables [("OPENAI_API_KEY", "key")]) ["analyze", "t.csv", "--ai"]) := by
  refine ⟨statistics_apart_from_insights.1 6 _ _ [] [] _ _ ⟨route_ofFourBytes _, route_ofFourBytes _,
    sameButWish_ofFourBytes, ?_⟩, statistics_apart_from_insights.2 _ _ _ _ _ ⟨["t.csv"], true, false⟩
      ⟨?_, ?_, ⟨.standard, ?_⟩, ⟨{ Settings.standard with apiKey := some "key" }, ?_⟩, rfl, rfl,
        fun _ _ => rfl⟩⟩
  · rw [read_ofFourBytes, read_ofFourBytes_wish]
    decide
  all_goals decide +kernel

/-- Without the condition on sizes a wish can be what makes an upload too large; and a key that reads as
a number is no key, so that the settings do not load. -/
theorem wish_counts :
    (Multipart.read (Server.Request.ofFourBytes "").contentType
        (Server.Request.ofFourBytes "").body).SameButWish
      (Multipart.read (Server.Request.ofFourBytes Server.Request.wish).contentType
        (Server.Request.ofFourBytes Server.Request.wish).body) ∧
      (Server.answer ⟨none, 4⟩ [] (.ofFourBytes "")).1.status = 200 ∧
      (Server.answer ⟨none, 4⟩ [] (.ofFourBytes Server.Request.wish)).1.status = 413 ∧
      (Command.run (.ofVariables []) ["analyze", "t.csv"]).ending = .exit 0 ∧
      (Command.run (.ofVariables [("OPENAI_API_KEY", "1")]) ["analyze", "t.csv"]).ending = .exit 1 := by
  refine ⟨sameButWish_ofFourBytes, ?_, ?_, ?_, ?_⟩
  · simp only [Server.answer, route_ofFourBytes, read_ofFourBytes]
    decide +kernel
  · simp only [Server.answer, route_ofFourBytes, read_ofFourBytes_wish]
    decide +kernel
  all_goals decide +kernel

end TableProfile
