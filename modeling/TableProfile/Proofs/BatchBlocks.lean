import TableProfile.Proofs.FileContents
import TableProfile.Proofs.TextPieces
import TableProfile.Report.Summary

/-!
# The blocks of a batch report

Cut into lines, the report of several files is its head, and then for each file the lines of its block and an
empty line. The block of an analysed file is the report of its table. That of a failed file is meant to be one
line, and it is one where the cause is told in one line (`LoadError.Brief`): the faults that are met in the
rows, and files of a directory that differ in extension, are told in several.

* `splitAt_joinLines`: joined texts fall into the lines of each.
* `loadFile_error_cases`: what a file's error tells besides its fault is the path.
* `oneLine_message_iff`: when an error is told in one line.
* `batch_blocks`: the lines of the report of files that are analysed from their paths.
-/
namespace TableProfile

/-! ## Texts of one line -/

/-- No line break stands in a text. -/
def OneLine (s : String) : Prop := '\n' ∉ s.toList

instance (s : String) : Decidable (OneLine s) := inferInstanceAs (Decidable ('\n' ∉ s.toList))

@[simp] theorem oneLine_append (s s' : String) : OneLine (s ++ s') ↔ OneLine s ∧ OneLine s' := by
  simp [OneLine, not_or]

theorem splitAt_of_oneLine {s : String} (h : OneLine s) : Split.splitAt '\n' s = [s] :=
  (Split.splitAt_eq_singleton_iff s).mpr h

/-- Joined texts fall into the lines of each. -/
theorem Report.splitAt_joinLines {texts : List String} (h : texts ≠ []) :
    Split.splitAt '\n' (joinLines texts) = texts.flatMap (Split.splitAt '\n') := by
  induction texts with
  | nil => exact absurd rfl h
  | cons text rest ih =>
    cases rest with
    | nil => simp [joinLines, String.intercalate_singleton]
    | cons next more =>
      have hjoin : joinLines (text :: next :: more) =
          text ++ String.singleton '\n' ++ joinLines (next :: more) := String.intercalate_cons_cons
      rw [hjoin, Split.splitAt_append, ih (List.cons_ne_nil _ _), ← List.flatMap_cons]

/-! ## The lines of the report -/

namespace Report

/-- The lines of what is reported of one file. -/
def block (o : Outcome) : List String := Split.splitAt '\n' (outcome o)

/-- The lines before the first block. -/
def batchHead : List String := [rule '=', "MULTIPLE CSV FILES ANALYSIS", rule '=', ""]

theorem oneLine_rule : OneLine (rule '=') := by simp [OneLine, rule]

theorem splitAt_batch (outcomes : List Outcome) :
    Split.splitAt '\n' (batch outcomes) = batchHead ++ outcomes.flatMap fun o => block o ++ [""] := by
  have hhead : batchHead.flatMap (Split.splitAt '\n') = batchHead := by
    have htitle : OneLine "MULTIPLE CSV FILES ANALYSIS" := by decide +kernel
    have hempty : OneLine "" := by decide +kernel
    simp [batchHead, splitAt_of_oneLine oneLine_rule, splitAt_of_oneLine htitle,
      splitAt_of_oneLine hempty]
  have hblock (o : Outcome) : [outcome o, ""].flatMap (Split.splitAt '\n') = block o ++ [""] := by
    have hempty : Split.splitAt '\n' "" = [""] := splitAt_of_oneLine (by decide)
    simp [block, hempty]
  have hlines : batchLines outcomes = batchHead ++ outcomes.flatMap fun o => [outcome o, ""] := rfl
  rw [batch, splitAt_joinLines (by simp [hlines, batchHead]), hlines, List.flatMap_append, hhead,
    List.flatMap_assoc]
  simp only [hblock]

end Report

/-! ## What an error tells -/

/-- The name under which a path is reported is a piece of the path. -/
theorem oneLine_ofPath {path : String} (h : OneLine path) : OneLine (FileName.ofPath path) := by
  have hpieces : ∀ name ∈ Split.splitAt '/' path, OneLine name := by
    intro name hname hbreak
    obtain ⟨piece, hpiece, rfl⟩ := List.mem_map.mp hname
    rw [String.toList_ofList] at hbreak
    exact h ((Line.infix_of_mem_pieces hpiece).subset hbreak)
  have hcomponents : ∀ name ∈ FileName.components path, OneLine name := by
    intro name hname
    refine hpieces name ?_
    unfold FileName.components at hname
    dsimp only at hname
    split at hname
    · cases hname
    · rename_i first rest hparts
      have hmem : name ∈ first :: rest := by
        split at hname
        · exact List.mem_cons_of_mem _ (List.mem_filter.mp hname).1
        · rcases List.mem_cons.mp hname with rfl | hname
          · exact List.mem_cons_self
          · exact List.mem_cons_of_mem _ (List.mem_filter.mp hname).1
      rw [← hparts] at hmem
      exact (List.mem_filter.mp hmem).1
  unfold FileName.ofPath FileName.last?
  cases hlast : (FileName.components path).getLast? with
  | none => exact h
  | some name =>
    dsimp only
    split
    · exact h
    · exact hcomponents name (List.mem_of_getLast? hlast)

/-- What a file's error tells besides its fault is the path. -/
theorem loadFile_error_cases {t : FileTree} {here : Path} {path : String} {e : LoadError}
    (h : loadFile t here path = .error e) :
    e = .notFound path ∨ e = .notCsv (FileName.ofPath path) ∨ e = .empty (FileName.ofPath path) ∨
      e.kind = .malformed := by
  unfold loadFile at h
  split at h
  · cases h
    exact .inl rfl
  · dsimp only at h
    split at h
    · cases h
      exact .inr (.inl rfl)
    · split at h
      · cases h
        exact .inr (.inr (.inl rfl))
      · split at h
        · rename_i hsources
          cases h
          exact .inr (.inr (.inr (kind_of_sources hsources)))
        · rename_i contents _
          cases hread : readFiles contents with
          | error e' =>
            rw [hread] at h
            cases h
            exact .inr (.inr (.inr (kind_of_readFiles hread)))
          | ok table =>
            rw [hread] at h
            cases h

/-- Errors that are told in one line, if names of columns are of one line: a fault that is met in the rows comes
with advice, and files of different extensions are listed on lines of their own. -/
def LoadError.Brief : LoadError → Prop
  | .malformed .surplusField | .malformed (.badCell _ _ _ _ _) | .mixedExtensions _ _ => False
  | .unlike (.names first second) => OneLine first ∧ OneLine second
  | _ => True

def AnalysisError.Brief : AnalysisError → Prop
  | .load cause => cause.Brief
  | .profile _ => True

theorem Csv.Fault.oneLine_message_iff (fault : Csv.Fault) :
    OneLine fault.message ↔ (LoadError.malformed fault).Brief := by
  cases fault with
  | badCell field type column number cause =>
    have hmargin : ¬ OneLine ")\n\n" := by decide +kernel
    unfold message
    simp [LoadError.Brief, hmargin]
  | surplusField => exact iff_of_false (by decide +kernel) id
  | noData | compressed | invalidUtf8 => exact iff_of_true (by decide +kernel) trivial

theorem LoadError.oneLine_inScan (cause : String) : OneLine (inScan cause) ↔ OneLine cause := by
  have hbefore : OneLine "Error reading CSV file: " := by decide +kernel
  have hbehind : OneLine ": 'csv scan'" := by decide +kernel
  unfold inScan
  rw [oneLine_append, oneLine_append, and_iff_right hbefore, and_iff_left hbehind]

theorem LoadError.oneLine_message_of_malformed {e : LoadError} (h : e.kind = .malformed) :
    OneLine e.message ↔ e.Brief := by
  have hbefore : OneLine "Error reading CSV file: " := by decide +kernel
  cases e with
  | notFound path | notCsv name | empty name => cases h
  | malformed fault =>
    unfold message
    rw [oneLine_append, fault.oneLine_message_iff, and_iff_right hbefore]
  | noTable | noSource => exact iff_of_true ((oneLine_inScan _).mpr (by decide +kernel)) trivial
  | noPattern => exact iff_of_true (by decide +kernel) trivial
  | mixedExtensions first second =>
    have hmargin : ¬ OneLine " \\\n                " := by decide +kernel
    unfold message
    simp [Brief, hmargin]
  | unlike fault =>
    unfold message
    rw [oneLine_inScan]
    cases fault with
    | lengths => exact iff_of_true (by decide +kernel) trivial
    | names first second =>
      have hgot : OneLine "schema names differ: got " := by decide +kernel
      have hexpected : OneLine ", expected " := by decide +kernel
      unfold Csv.SchemaFault.message
      simp [Brief, hgot, hexpected]

/-- When the error of a file is told in one line. -/
theorem oneLine_message_iff {t : FileTree} {here : Path} {path : String} {e : AnalysisError}
    (hpath : OneLine path) (h : analyzeFile t here path = .error e) : OneLine e.message ↔ e.Brief := by
  cases e with
  | profile cause =>
    cases cause
    exact iff_of_true (by decide +kernel) trivial
  | load cause =>
    have hload : loadFile t here path = .error cause := by
      unfold analyzeFile analyzeLoaded at h
      split at h
      · rename_i hload
        cases h
        exact hload
      · split at h <;> cases h
    show OneLine cause.message ↔ cause.Brief
    have hname := oneLine_ofPath hpath
    rcases loadFile_error_cases hload with rfl | rfl | rfl | hkind
    · have hbefore : OneLine "File does not exist: " := by decide +kernel
      exact iff_of_true ((oneLine_append _ _).mpr ⟨hbefore, hpath⟩) trivial
    · have hbefore : OneLine "File is not a CSV: " := by decide +kernel
      exact iff_of_true ((oneLine_append _ _).mpr ⟨hbefore, hname⟩) trivial
    · have hbefore : OneLine "File is empty: " := by decide +kernel
      exact iff_of_true ((oneLine_append _ _).mpr ⟨hbefore, hname⟩) trivial
    · exact LoadError.oneLine_message_of_malformed hkind

/-! ## Blocks of files -/

/-- **The blocks of a batch.** The report of files whose paths are of one line is the head, and then for each
path in order its block and an empty line. The block of a file with an analysis is its report. The block of any
other is one line, its name and its error, exactly if the error is one that is told in one line. -/
theorem batch_blocks {t : FileTree} {here : Path} {paths : List String}
    (h : ∀ path ∈ paths, OneLine path) :
    let outcomes := analyzeFiles t here paths
    Split.splitAt '\n' (Report.batch outcomes) =
        Report.batchHead ++ (outcomes.flatMap fun o => Report.block o ++ [""]) ∧
      outcomes.map (·.fileName) = paths.map FileName.ofPath ∧
      ∀ o ∈ outcomes,
        (∀ a, o.result = .ok a → Report.outcome o = Report.summary a) ∧
          ∀ e, o.result = .error e →
            (Report.block o = ["Error analyzing " ++ o.fileName ++ ": " ++ e.message] ↔ e.Brief) := by
  intro outcomes
  refine ⟨Report.splitAt_batch outcomes, by simp [outcomes, analyzeFiles], fun o ho => ⟨?_, ?_⟩⟩
  · intro a ha
    rw [Report.outcome, ha]
  · intro e he
    obtain ⟨path, hpath, rfl⟩ := List.mem_map.mp ho
    have hname : OneLine (FileName.ofPath path) := oneLine_ofPath (h path hpath)
    have houtcome : Report.outcome ⟨FileName.ofPath path, analyzeFile t here path⟩ =
        "Error analyzing " ++ FileName.ofPath path ++ ": " ++ e.message := by
      rw [Report.outcome, he]
      rfl
    have hbefore : OneLine "Error analyzing " := by decide +kernel
    have hbetween : OneLine ": " := by decide +kernel
    rw [Report.block, houtcome, Split.splitAt_eq_singleton_iff]
    show OneLine _ ↔ _
    rw [oneLine_append, oneLine_append, oneLine_append, and_iff_right hbefore, and_iff_right hname,
      and_iff_right hbetween, oneLine_message_iff (h path hpath) he]

/-- A table, a path that leads nowhere and a table with a field too many. -/
theorem batch_blocks_three :
    let t : FileTree := ⟨[(["a.csv"], Utf8.encode "a\n1\n"), (["b.csv"], Utf8.encode "a\n1,2\n")], []⟩
    let outcomes := analyzeFiles t [] ["a.csv", "c.csv", "b.csv"]
    (∀ path ∈ ["a.csv", "c.csv", "b.csv"], OneLine path) ∧
      Split.splitAt '\n' (Report.batch outcomes) =
        Report.batchHead ++ (outcomes.flatMap fun o => Report.block o ++ [""]) ∧
      Report.block ⟨"c.csv", .error (.load (.notFound "c.csv"))⟩ =
        ["Error analyzing " ++ "c.csv" ++ ": " ++ "File does not exist: c.csv"] := by
  intro t outcomes
  have hpaths : ∀ path ∈ ["a.csv", "c.csv", "b.csv"], OneLine path := by decide +kernel
  have h := @batch_blocks t [] _ hpaths
  have hmissing : (⟨"c.csv", .error (.load (.notFound "c.csv"))⟩ : Outcome) ∈ outcomes := by
    have hname : FileName.ofPath "c.csv" = "c.csv" := by decide +kernel
    have hload : loadFile t [] "c.csv" = .error (.notFound "c.csv") := by decide +kernel
    refine List.mem_map.mpr ⟨"c.csv", by simp, ?_⟩
    rw [hname, analyzeFile, hload]
    rfl
  exact ⟨hpaths, h.1, ((h.2.2 _ hmissing).2 _ rfl).mpr trivial⟩

/-- A row with a field too many is told in three lines. -/
theorem surplusField_told_in_lines :
    let t : FileTree := ⟨[(["t.csv"], Utf8.encode "a\n1,2\n")], []⟩
    OneLine "t.csv" ∧
      ∃ o, analyzeFiles t [] ["t.csv"] = [o] ∧ o.fileName = "t.csv" ∧
        o.result = .error (.load (.malformed .surplusField)) ∧
        Report.block o =
          ["Error analyzing t.csv: Error reading CSV file: found more fields than defined in 'Schema'", "",
            "Consider setting 'truncate_ragged_lines=true'."] := by
  intro t
  have hname : FileName.ofPath "t.csv" = "t.csv" := by decide +kernel
  have hload : loadFile t [] "t.csv" = .error (.malformed .surplusField) := by decide +kernel
  have hresult : analyzeFile t [] "t.csv" = .error (.load (.malformed .surplusField)) := by
    rw [analyzeFile, hload]
    rfl
  refine ⟨by decide +kernel, ⟨"t.csv", .error (.load (.malformed .surplusField))⟩, ?_, rfl, rfl,
    by decide +kernel⟩
  rw [analyzeFiles, List.map_singleton, hname, hresult]

end TableProfile
