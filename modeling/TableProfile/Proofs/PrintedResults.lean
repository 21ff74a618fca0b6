import TableProfile.Proofs.Independence
import TableProfile.Proofs.JsonReading
import TableProfile.Server.Handler

/-!
# Results read back from what is printed

What the command prints as JSON and what the server answers are objects put together from the fields of
analyses. Their keys are put in order and they are at most eight levels deep, so if the counts in them fit
64 bits (`Analysis.Counted`), they are read back from their texts, up to the figures that are not finite.

* `fits_summary`, `fits_fileSummary`: the parts of an analysis.
* `Command.read_output`: the results of the command.
* `Server.read_body`: the results of an upload.
-/
namespace TableProfile

/-! ## Values put together -/

namespace Json

/-- The object of fields fits if their values do. -/
theorem fits_ofFields {depth : ℕ} {fields : List (String × Json)} (h : ∀ f ∈ fields, Fits depth f.2) :
    Fits (depth + 1) (ofFields fields) := by
  refine .obj (ordered_foldl List.Pairwise.nil) fun f hf => ?_
  exact (mem_foldl hf).elim (h f) fun hnil => absurd hnil List.not_mem_nil

theorem fits_nat {depth n : ℕ} (h : n < 2 ^ 64) : Fits depth (.nat n) := .int (by omega) (by omega)

theorem fits_ofOption {α : Type} {depth : ℕ} {f : α → Json} (h : ∀ a, Fits depth (f a)) (o : Option α) :
    Fits depth (ofOption f o) := by
  cases o with
  | none => exact .null
  | some a => exact h a

theorem fits_map {α : Type} {depth : ℕ} {f : α → Json} {xs : List α} (h : ∀ a ∈ xs, Fits depth (f a)) :
    Fits (depth + 1) (.arr (xs.map f)) := by
  refine .arr fun v hv => ?_
  obtain ⟨a, ha, rfl⟩ := List.mem_map.mp hv
  exact h a ha

theorem fits_strings (depth : ℕ) (xs : List String) : Fits (depth + 1) (strings xs) :=
  fits_map fun s _ => .str s

end Json

open Json

/-! ## Analyses -/

/-- The counts of a column fit 64 bits. -/
def ColumnProfile.Counted : ColumnProfile → Prop
  | .numeric p => p.count < 2 ^ 64 ∧ p.nullCount < 2 ^ 64
  | .category p =>
    p.distinct < 2 ^ 64 ∧ p.nullCount < 2 ^ 64 ∧ ∀ v ∈ p.mostFrequent, v.count < 2 ^ 64

/-- The counts of an analysis fit 64 bits. -/
structure Analysis.Counted (a : Analysis) : Prop where
  rows : a.file.rows < 2 ^ 64
  columns : a.file.columns < 2 ^ 64
  memoryBytes : a.file.memoryBytes < 2 ^ 64
  profiledRows : a.summary.rows < 2 ^ 64
  profiles : ∀ p ∈ a.summary.columns, p.Counted

theorem fits_fileSummary (depth : ℕ) {a : Analysis} (h : a.Counted) : Fits (depth + 3) a.file.toJson := by
  have htype (t : ColumnType) : Fits (depth + 1) t.toJson := fits_ofFields (by simp [Fits.str])
  refine fits_ofFields ?_
  simp [Fits.str, fits_ofOption Fits.str, fits_nat h.rows, fits_nat h.columns, fits_nat h.memoryBytes,
    fits_strings, fits_map fun t _ => htype t]

theorem fits_column (depth : ℕ) {p : ColumnProfile} (h : p.Counted) : Fits (depth + 3) p.toJson := by
  cases p with
  | numeric p =>
    obtain ⟨hcount, hnull⟩ := h
    refine fits_ofFields ?_
    simp [NumericProfile.fields, Fits.str, Fits.float, number?, fits_ofOption Fits.float, fits_nat hcount,
      fits_nat hnull]
  | category p =>
    obtain ⟨hdistinct, hnull, hvalues⟩ := h
    have hvalue : ∀ v ∈ p.mostFrequent, Fits (depth + 1) v.toJson := fun v hv =>
      fits_ofFields (by simp [Fits.str, fits_nat (hvalues v hv)])
    refine fits_ofFields ?_
    simp [CategoryProfile.fields, Fits.str, Fits.float, fits_nat hdistinct, fits_nat hnull, fits_map hvalue]

theorem fits_correlations (depth : ℕ) (t : CorrelationTable) : Fits (depth + 3) t.toJson := by
  have hpair (p : CorrelationPair) : Fits (depth + 1) p.toJson :=
    fits_ofFields (by simp [Fits.str, Fits.float])
  refine fits_ofFields ?_
  simp [fits_strings, fits_map fun p _ => hpair p]

theorem fits_summary (depth : ℕ) {a : Analysis} (h : a.Counted) : Fits (depth + 5) a.summary.toJson := by
  have hcolumns : Fits (depth + 4) (.arr (a.summary.columns.map ColumnProfile.toJson)) :=
    fits_map fun p hp => fits_column depth (h.profiles p hp)
  refine fits_ofFields ?_
  simp [fits_nat h.profiledRows, fits_strings, hcolumns, fits_correlations (depth + 1)]

/-! ## Results -/

namespace Command

theorem fits_insightFields (depth : ℕ) (answer : Option (Except InsightError Insights)) :
    ∀ f ∈ insightFields answer, Fits depth f.2 := by
  rcases answer with _ | (_ | _) <;> simp [insightFields, Fits.str]

theorem fits_resultFields (depth : ℕ) {o : Outcome} (h : ∀ a, o.result = .ok a → a.Counted) :
    ∀ f ∈ resultFields o, Fits (depth + 5) f.2 := by
  unfold resultFields
  cases hresult : o.result with
  | error e => simp [Fits.str]
  | ok a => simp [Fits.str, fits_fileSummary (depth + 2) (h a hresult), fits_summary depth (h a hresult)]

theorem fits_resultsJson (depth : ℕ) {outcomes : List Outcome} (hlength : outcomes.length < 2 ^ 64)
    (h : ∀ o ∈ outcomes, ∀ a, o.result = .ok a → a.Counted)
    (answers : List (Option (Except InsightError Insights))) :
    Fits (depth + 8) (resultsJson outcomes answers) := by
  have hresults : Fits (depth + 7) (.arr ((outcomes.zip answers).map fun pair =>
      .ofFields (resultFields pair.1 ++ insightFields pair.2))) := by
    refine fits_map fun pair hpair => fits_ofFields fun f hf => ?_
    rcases List.mem_append.mp hf with hf | hf
    · exact fits_resultFields depth (h _ (List.of_mem_zip hpair).1) f hf
    · exact fits_insightFields _ _ f hf
  exact fits_ofFields (by simp [fits_nat hlength, hresults])

/-- What the command prints is read back as its results. -/
theorem read_output (t : FileTree) (here : Path) (s : Option Service) (paths : List String) (wish : Bool)
    (hlength : paths.length < 2 ^ 64)
    (hcounted : ∀ path ∈ paths, ∀ a, analyzeFile t here path = .ok a → a.Counted) :
    read? (analyze t here s ⟨paths, wish, true⟩).output =
      some (resultsJson (analyzeFiles t here paths)
        (insightsOf s wish (analyzeFiles t here paths)).1).asPrinted := by
  have houtcomes : ∀ o ∈ analyzeFiles t here paths, ∀ a, o.result = .ok a → a.Counted := by
    intro o ho
    obtain ⟨path, hpath, rfl⟩ := List.mem_map.mp ho
    exact hcounted path hpath
  rw [analyze_json t here s rfl]
  exact (read_pretty (fits_resultsJson 119 (by rwa [analyzeFiles, List.length_map]) houtcomes _)).2

end Command

namespace Server

theorem fits_insightFields (depth : ℕ) (answer : Option (Except InsightError Insights)) :
    ∀ f ∈ ProcessedFile.insightFields answer, Fits (depth + 1) f.2 := by
  rcases answer with _ | (e | i)
  · simp [ProcessedFile.insightFields, Fits.null]
  · simp [ProcessedFile.insightFields, Fits.null, Fits.str]
  · have hinsights : Fits (depth + 1) i.toJsonWithText :=
      fits_ofFields (by simp [Insights.fields, Fits.str])
    simpa [ProcessedFile.insightFields] using hinsights

theorem fits_resultFields (depth : ℕ) {f : ProcessedFile} (h : ∀ a, f.analysis = .ok a → a.Counted) :
    ∀ g ∈ f.resultFields, Fits (depth + 5) g.2 := by
  unfold ProcessedFile.resultFields
  cases hanalysis : f.analysis with
  | error e => simp [Fits.str]
  | ok a => simp [Fits.str, fits_fileSummary (depth + 2) (h a hanalysis), fits_summary depth (h a hanalysis)]

theorem fits_toJson (depth : ℕ) {f : ProcessedFile} (h : ∀ a, f.analysis = .ok a → a.Counted) :
    Fits (depth + 6) f.toJson := by
  refine fits_ofFields fun g hg => ?_
  unfold ProcessedFile.fields at hg
  split at hg
  · exact fits_resultFields depth h g hg
  · rcases List.mem_append.mp hg with hg | hg
    · exact fits_resultFields depth h g hg
    · exact fits_insightFields (depth + 4) _ g hg

/-- What became of a file of a form begins with its analysis. -/
theorem exists_of_mem_process {s : Option Service} {sent : List Prompt} {f : Form} {p : ProcessedFile}
    (h : p ∈ (f.process s sent).1) :
    ∃ file ∈ f.files, p.analysis = analyzeBytes file.fileName file.content := by
  obtain ⟨⟨⟨file, result⟩, answer⟩, hmem, rfl⟩ := List.mem_map.mp h
  obtain ⟨file, hfile, rfl⟩ := List.mem_map.mp (List.of_mem_zip (List.of_mem_zip hmem).1).2
  exact ⟨file, hfile, rfl⟩

theorem length_process_le (s : Option Service) (sent : List Prompt) (f : Form) :
    (f.process s sent).1.length ≤ f.files.length := by
  simp only [Form.process, List.length_map, List.length_zip]
  omega

/-- What the server answers to a form is read back as the results of its files. -/
theorem read_body (s : Server) (sent : List Prompt) {f : Form} (hfiles : f.files ≠ [])
    (hlength : f.files.length < 2 ^ 64)
    (hcounted : ∀ file ∈ f.files, ∀ a, analyzeBytes file.fileName file.content = .ok a → a.Counted) :
    read? (s.answerForm false sent f).1.body =
      some (resultsJson (f.process s.service sent).1).asPrinted := by
  have hanswer : (s.answerForm false sent f).1 = .json 200 (resultsJson (f.process s.service sent).1) := by
    rw [answerForm, if_neg (by simpa using hfiles)]
    rfl
  have hresults : Fits 126 (.arr ((f.process s.service sent).1.map ProcessedFile.toJson)) := by
    refine fits_map fun p hp => ?_
    obtain ⟨file, hfile, hanalysis⟩ := exists_of_mem_process hp
    exact fits_toJson 119 fun a ha => hcounted file hfile a (hanalysis ▸ ha)
  rw [hanswer]
  refine read_compact (?_ : Fits (126 + 1) _)
  refine fits_ofFields ?_
  simp [Fits.bool, fits_nat ((length_process_le _ _ _).trans_lt hlength), hresults]

end Server

end TableProfile
