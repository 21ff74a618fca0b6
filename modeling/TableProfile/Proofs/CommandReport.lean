import Mathlib.Data.List.Forall2
import TableProfile.Proofs.Isolation
import TableProfile.Proofs.LoadedTables

/-!
# The report of the command line

As JSON the analysis command prints one entry for each path it was given, in order, also where a path is
given twice or two files have the same name. Outcomes and insights are two lists that are joined place by
place; both have a place for every path (`insightsOf_length`), so what comes of one path moves no other
entry.

* `EntryOf`: what an entry says of the file at a path, which depends on this path alone.
* `entryOf_entry`: the entry of a path, if the answer to a prompt is a function of the prompt.
* `all_isLoaded_iff`: a run is complete exactly if no entry has an error, whatever became of insights.
* `read_wordsFor`: the command lines that ask for such a report.
* `report_in_place`: the report, and how a run ends.
-/
namespace TableProfile

/-! ## Answers -/

/-- What is answered to a prompt by itself: the insights in a service's reply or its error, and without
a service that there is no key. -/
def answerTo (s : Option Service) (p : Prompt) : Except InsightError Insights :=
  match s with
  | none => .error .missingKey
  | some service => (service [] p).map Reply.read

theorem ask_eq_answerTo (s : Option Service) (a : Analysis) :
    (ask s [] a).1 = answerTo s (Prompt.ofAnalysis a) := by
  cases s <;> rfl

/-- An API whose answers do not depend on the requests before. -/
def Completion.Api.Stateless (api : Completion.Api) : Prop := ∀ earlier r, api earlier r = api [] r

theorem Completion.Client.service_stateless (c : Completion.Client) {api : Completion.Api}
    (h : api.Stateless) : (c.service api).Stateless := by
  intro sent p
  unfold service
  cases c.request p with
  | error e => rfl
  | ok r => simp only [h (sent.filterMap c.request?) r, List.filterMap_nil]

namespace Command

/-! ## Entries -/

/-- An entry that holds an analysis under the name of its path, and if insights are wanted just one of
them and the error in their place. -/
structure HoldsAnalysis (path : String) (a : Analysis) (wish : Bool)
    (answer : Except InsightError Insights) (entry : Json) : Prop where
  fileName : entry.get? "filename" = some (.str (FileName.ofPath path))
  noError : entry.get? "error" = none
  file : entry.get? "file_summary" = some a.file.toJson
  sameName : a.file.toJson.get? "file_name" = some (.str (FileName.ofPath path))
  summary : entry.get? "statistical_summary" = some a.summary.toJson
  unwanted : wish = false →
    entry.get? "ai_insights" = none ∧ entry.get? "ai_insights_error" = none
  answered : ∀ i, wish = true → answer = .ok i →
    entry.get? "ai_insights" = some (.str (Report.insights i)) ∧
      entry.get? "ai_insights_error" = none
  refused : ∀ e, wish = true → answer = .error e →
    entry.get? "ai_insights" = none ∧ entry.get? "ai_insights_error" = some (.str e.message)

/-- What an entry says of the file at a path: just its name and why it has no analysis, or its analysis
and what is answered to the prompt of this analysis. -/
inductive EntryOf (t : FileTree) (here : Path) (s : Option Service) (wish : Bool) (path : String)
    (entry : Json) : Prop where
  | failed (e : AnalysisError) (fault : analyzeFile t here path = .error e)
      (justError : entry =
        .ofFields [("filename", .str (FileName.ofPath path)), ("error", .str e.message)])
  | analyzed (a : Analysis) (analysis : analyzeFile t here path = .ok a)
      (holdsAnalysis : HoldsAnalysis path a wish (answerTo s (Prompt.ofAnalysis a)) entry)

/-- Every entry bears the name of its path. -/
theorem EntryOf.get?_filename {t : FileTree} {here : Path} {s : Option Service} {wish : Bool}
    {path : String} {e : Json} (h : EntryOf t here s wish path e) :
    e.get? "filename" = some (.str (FileName.ofPath path)) := by
  cases h with
  | failed fault _ justError => rw [justError, Json.get?_ofFields]; rfl
  | analyzed a _ holdsAnalysis => exact holdsAnalysis.fileName

/-- The report that has the given entries. -/
def reportOf (entries : List Json) : String :=
  (Json.ofFields [("files_processed", .nat entries.length), ("results", .arr entries)]).pretty ++ "\n"

section
variable (t : FileTree) (here : Path)

/-- An entry has no error exactly if the file at a path has an analysis. -/
def TellsFault (path : String) (e : Json) : Prop :=
  e.get? "error" = none ↔ ∃ a, analyzeFile t here path = .ok a

/-- The entry of a path, given what came of insights for it. -/
def entry (path : String) (answer : Option (Except InsightError Insights)) : Json :=
  .ofFields (resultFields ⟨FileName.ofPath path, analyzeFile t here path⟩ ++ insightFields answer)

/-- What came of insights does not make an entry one with an error. -/
theorem tellsFault_entry (path : String) (answer : Option (Except InsightError Insights)) :
    TellsFault t here path (entry t here path answer) := by
  rw [TellsFault, entry, Json.get?_ofFields]
  cases analyzeFile t here path with
  | error e => rcases answer with _ | (_ | _) <;> simp [resultFields, insightFields]
  | ok a => rcases answer with _ | (_ | _) <;> simp [resultFields, insightFields]

/-- The entries of the report on paths. -/
def entriesOf (s : Option Service) (paths : List String) (wish : Bool) : List Json :=
  List.zipWith (entry t here) paths (insightsOf s wish (analyzeFiles t here paths)).1

/-- Outcomes and answers are joined place by place. -/
theorem output_eq (s : Option Service) (paths : List String) (wish : Bool) :
    (analyze t here s ⟨paths, wish, true⟩).output = reportOf (entriesOf t here s paths wish) := by
  rw [analyze_json t here s rfl, resultsJson, reportOf, entriesOf, List.length_zipWith,
    insightsOf_length, analyzeFiles, List.length_map, Nat.min_self, List.zip_map_left, List.map_map,
    List.zip, List.map_zipWith]
  rfl

theorem forall₂_tellsFault (s : Option Service) (paths : List String) (wish : Bool) :
    List.Forall₂ (TellsFault t here) paths (entriesOf t here s paths wish) := by
  have hlen : (insightsOf s wish (analyzeFiles t here paths)).1.length = paths.length := by
    rw [insightsOf_length, analyzeFiles, List.length_map]
  unfold entriesOf
  -- Of the answers only their number matters here, so a service may have answered anything.
  generalize (insightsOf s wish (analyzeFiles t here paths)).1 = answers at hlen
  induction paths generalizing answers with
  | nil => exact .nil
  | cons path rest ih =>
    cases answers with
    | nil => cases hlen
    | cons answer answers =>
      exact .cons (tellsFault_entry t here path answer) (ih _ (Nat.succ.inj hlen))

variable {t here}

/-- All files have an analysis exactly if no entry has an error. -/
theorem all_isLoaded_iff {paths : List String} {entries : List Json}
    (h : List.Forall₂ (TellsFault t here) paths entries) :
    (analyzeFiles t here paths).all isLoaded = true ↔ ∀ e ∈ entries, e.get? "error" = none := by
  induction h with
  | nil => simp [analyzeFiles]
  | @cons path e paths entries hpath _ ih =>
    have hloaded : isLoaded ⟨FileName.ofPath path, analyzeFile t here path⟩ = true ↔
        e.get? "error" = none := by
      refine Iff.trans ?_ (Iff.symm hpath)
      rw [isLoaded]
      cases analyzeFile t here path <;> simp [analysis?]
    rw [List.forall_mem_cons, ← ih, ← hloaded, analyzeFiles, List.map_cons, List.all_cons,
      Bool.and_eq_true, analyzeFiles]

theorem complete_iff (s : Option Service) (paths : List String) (wish : Bool) :
    (analyze t here s ⟨paths, wish, true⟩).complete = true ↔
      ∀ e ∈ entriesOf t here s paths wish, e.get? "error" = none := by
  rw [analyze_complete]
  exact all_isLoaded_iff (forall₂_tellsFault t here s paths wish)

/-! ## Entries of files by themselves -/

/-- What an entry of the report holds of insights, given what came of the file. -/
def answerFor (s : Option Service) (wish : Bool) (result : Except AnalysisError Analysis) :
    Option (Except InsightError Insights) :=
  (if wish then analysis? result else none).map fun a => answerTo s (Prompt.ofAnalysis a)

theorem holdsAnalysis_entry (wish : Bool) (answer : Except InsightError Insights) {path : String}
    {a : Analysis} (h : analyzeFile t here path = .ok a) :
    HoldsAnalysis path a wish answer (entry t here path (if wish then some answer else none)) := by
  have hname : a.file.toJson.get? "file_name" = some (.str (FileName.ofPath path)) := by
    rw [← analyzeFile_fileName h]
    exact Json.get?_ofFields _ _
  have hget (key : String) (insights : Option (Except InsightError Insights)) :
      (entry t here path insights).get? key =
        ((resultFields ⟨FileName.ofPath path, .ok a⟩ ++ insightFields insights).reverse.find?
          (·.1 == key)).map (·.2) := by
    rw [entry, h, Json.get?_ofFields]
  cases wish with
  | false =>
    exact ⟨hget _ none, hget _ none, hget _ none, hname, hget _ none,
      fun _ => ⟨hget _ none, hget _ none⟩, nofun, nofun⟩
  | true =>
    cases answer with
    | error e =>
      refine ⟨hget _ _, hget _ _, hget _ _, hname, hget _ _, nofun, nofun, ?_⟩
      rintro _ - ⟨⟩
      exact ⟨hget _ _, hget _ _⟩
    | ok i =>
      refine ⟨hget _ _, hget _ _, hget _ _, hname, hget _ _, nofun, ?_, nofun⟩
      rintro _ - ⟨⟩
      exact ⟨hget _ _, hget _ _⟩

theorem entryOf_entry (s : Option Service) (wish : Bool) (path : String) :
    EntryOf t here s wish path (entry t here path (answerFor s wish (analyzeFile t here path))) := by
  cases h : analyzeFile t here path with
  | error e =>
    refine .failed e h ?_
    have hnone : answerFor s wish (.error e) = none := by cases wish <;> rfl
    rw [hnone, entry, h]
    rfl
  | ok a =>
    have hanswer : answerFor s wish (.ok a) =
        if wish then some (answerTo s (Prompt.ofAnalysis a)) else none := by cases wish <;> rfl
    rw [hanswer]
    exact .analyzed a h (holdsAnalysis_entry wish _ h)

/-- If the answers to prompts are functions of the prompts, each path has an entry by itself. -/
theorem entriesOf_stateless {s : Option Service} (hs : ∀ service ∈ s, Service.Stateless service)
    (paths : List String) (wish : Bool) :
    entriesOf t here s paths wish =
      paths.map fun path => entry t here path (answerFor s wish (analyzeFile t here path)) := by
  rw [entriesOf, insightsOf, askEach_stateless hs, analyzeFiles, List.map_map, List.map_map]
  refine List.ext_getElem (by simp) fun i _ _ => ?_
  simp only [List.getElem_zipWith, List.getElem_map, ask_eq_answerTo]
  rfl

theorem forall₂_entryOf {s : Option Service} (hs : ∀ service ∈ s, Service.Stateless service)
    (paths : List String) (wish : Bool) :
    List.Forall₂ (fun path e => EntryOf t here s wish path e ∧
      (analyze t here s ⟨[path], wish, true⟩).output = reportOf [e])
      paths (entriesOf t here s paths wish) := by
  rw [entriesOf_stateless hs, List.forall₂_map_right_iff, List.forall₂_same]
  refine fun path _ => ⟨entryOf_entry s wish path, ?_⟩
  rw [output_eq, entriesOf_stateless hs]
  rfl

end

/-! ## Command lines -/

/-- The words of an analysis of paths as JSON; the two dashes make every word behind them a path. -/
def wordsFor (paths : List String) (wish : Bool) : List String :=
  "analyze" :: ((if wish then ["--ai", "--json"] else ["--json"]) ++ "--" :: paths)

/-- What has been read when only paths can follow, with the paths that are waiting to take effect. -/
def Progress.atPaths (wish : Bool) (pending : Option (Argument × List String)) : Progress where
  files := []
  insights := wish
  json := true
  host := none
  port := none
  used := if wish then [.ai, .json] else [.json]
  grouped := true
  pending := pending
  awaiting := false
  trailing := true

theorem readCommand_flags (wish : Bool) (paths : List String) :
    readCommand .analyze .start ((if wish then ["--ai", "--json"] else ["--json"]) ++ "--" :: paths) =
      readCommand .analyze (.atPaths wish none) paths := by
  cases wish <;> rfl

/-- Behind two dashes every word is a path. -/
theorem readCommand_atPaths (wish : Bool) (waiting paths : List String) :
    readCommand .analyze (.atPaths wish (some (.files, waiting))) paths =
      orStop (Progress.settle .analyze (.atPaths wish (some (.files, waiting ++ paths)))) := by
  induction paths generalizing waiting with
  | nil => rw [readCommand, List.append_nil]
  | cons path rest ih =>
    have hword : readWord .analyze (.atPaths wish (some (.files, waiting))) path rest =
        .ok (.atPaths wish (some (.files, waiting ++ [path]))) := rfl
    rw [List.append_cons, ← ih, readCommand, hword]

/-- Paths take effect together, in their order. -/
theorem settle_atPaths (wish : Bool) {paths : List String} (h : "" ∉ paths) :
    (orStop (Progress.settle .analyze (.atPaths wish (some (.files, paths))))).bind (request .analyze) =
      .ok (.analyze ⟨paths, wish, true⟩) := by
  have htakes : Argument.takesValue .files = false := rfl
  cases wish <;>
    simp only [Progress.settle, Progress.give, Progress.atPaths, Progress.put, Progress.mark, htakes,
      Bool.false_and, Bool.false_eq_true, if_false, List.contains_iff_mem, h, orStop, Except.bind] <;>
    rfl

theorem read_analyze (words : List String) :
    read ("analyze" :: words) = (readCommand .analyze .start words).bind (request .analyze) := by
  have hread : read ("analyze" :: words) = (readCommand .analyze .start words).bind fun p =>
      (request .analyze p).bind fun r => (orStop (Progress.settle .program .start)).bind fun _ => .ok r :=
    rfl
  rw [hread]
  refine congrArg _ (funext fun p => ?_)
  cases request .analyze p <;> rfl

/-- Any list of paths that are not empty texts can be asked for. -/
theorem read_wordsFor {paths : List String} (hne : paths ≠ []) (hpaths : "" ∉ paths) (wish : Bool) :
    read (wordsFor paths wish) = .ok (.analyze ⟨paths, wish, true⟩) := by
  obtain ⟨path, rest, rfl⟩ := List.exists_cons_of_ne_nil hne
  rw [wordsFor, read_analyze, readCommand_flags]
  exact (congrArg (Except.bind · _) (readCommand_atPaths wish [path] rest)).trans
    (settle_atPaths wish hpaths)

/-! ## Runs -/

/-- Who is asked for insights under settings. -/
def Surroundings.service (w : Surroundings) (settings : Settings) : Option Service :=
  (Completion.Client.ofSettings settings).toOption.map fun c => c.service w.api

theorem Surroundings.service_stateless {w : Surroundings} (h : w.api.Stateless)
    (settings : Settings) : ∀ service ∈ w.service settings, Service.Stateless service := by
  intro service hservice
  obtain ⟨c, -, rfl⟩ := Option.map_eq_some_iff.mp hservice
  exact c.service_stateless h

theorem run_analyze {w : Surroundings} {words : List String} {o : Options} {settings : Settings}
    (hwords : read words = .ok (.analyze o)) (hsettings : w.settings = .ok settings) :
    run w words = runAnalysis w settings o := by
  simp only [run, hwords, hsettings, Request.run]

/-- An analysis ends well exactly if it is complete, and otherwise with a failure. -/
theorem runAnalysis_exit (w : Surroundings) (settings : Settings) (o : Options) :
    ((runAnalysis w settings o).ending = .exit 0 ↔
      (analyze w.tree w.here (w.service settings) o).complete = true) ∧
    ((runAnalysis w settings o).ending = .exit 0 ∨ (runAnalysis w settings o).ending = .exit 1) := by
  have hending : (runAnalysis w settings o).ending =
      .exit (if (analyze w.tree w.here (w.service settings) o).complete then 0 else 1) := rfl
  rw [hending]
  cases (analyze w.tree w.here (w.service settings) o).complete <;> simp

/-- **Every file is reported in its own place.** The report on paths has an entry for each of them, in
order. If the answers to prompts are functions of the prompts, an entry is what is reported of its path
alone. A run ends well exactly if no entry has an error, whatever the API answers and may remember; and
there is a run on any paths. -/
theorem report_in_place :
    (∀ (t : FileTree) (here : Path) (s : Option Service) (paths : List String) (wish : Bool),
      (∀ service ∈ s, Service.Stateless service) →
        ∃ entries, (analyze t here s ⟨paths, wish, true⟩).output = reportOf entries ∧
          List.Forall₂ (fun path e => EntryOf t here s wish path e ∧
            (analyze t here s ⟨[path], wish, true⟩).output = reportOf [e]) paths entries ∧
          ((analyze t here s ⟨paths, wish, true⟩).complete = true ↔
            ∀ e ∈ entries, e.get? "error" = none)) ∧
    (∀ (w : Surroundings) (words paths : List String) (wish : Bool) (settings : Settings),
      read words = .ok (.analyze ⟨paths, wish, true⟩) → w.settings = .ok settings →
        ∃ entries, (run w words).output = reportOf entries ∧
          List.Forall₂ (TellsFault w.tree w.here) paths entries ∧
          (w.api.Stateless →
            List.Forall₂ (EntryOf w.tree w.here (w.service settings) wish) paths entries) ∧
          ((run w words).ending = .exit 0 ↔ ∀ e ∈ entries, e.get? "error" = none) ∧
          ((run w words).ending = .exit 0 ∨ (run w words).ending = .exit 1)) ∧
    ∀ (paths : List String) (wish : Bool), paths ≠ [] → "" ∉ paths →
      read (wordsFor paths wish) = .ok (.analyze ⟨paths, wish, true⟩) := by
  refine ⟨fun t here s paths wish hs => ?_,
    fun w words paths wish settings hwords hsettings => ?_,
    fun paths wish hne hpaths => read_wordsFor hne hpaths wish⟩
  · exact ⟨_, output_eq t here s paths wish, forall₂_entryOf hs paths wish, complete_iff s paths wish⟩
  · rw [run_analyze hwords hsettings]
    exact ⟨_, output_eq w.tree w.here (w.service settings) paths wish, forall₂_tellsFault _ _ _ _ _,
      fun hapi => (forall₂_entryOf (w.service_stateless hapi settings) paths wish).imp
        fun _ _ h => h.1, (runAnalysis_exit w settings _).1.trans (complete_iff _ _ _),
      (runAnalysis_exit w settings _).2⟩

/-- Two directories with files of the same name, and no key. -/
def Surroundings.ofSameNames : Surroundings where
  tree :=
    ⟨[(["a", "data.csv"], Utf8.encode "x\n1\n"), (["b", "data.csv"], Utf8.encode "x\n1\n2\n")], []⟩
  here := []
  environment := []
  api := fun _ _ => none

theorem report_in_place_sameNames :
    let w : Surroundings := .ofSameNames
    let s : Service := fun _ _ => .ok "KEY TRENDS\nup"
    let paths := ["a/data.csv", "gone.csv", "b/data.csv"]
    (∃ e, (analyze w.tree [] (some s) ⟨["a/data.csv"], true, true⟩).output = reportOf [e] ∧
        e.get? "error" = none) ∧
      ∃ first last, (run w (wordsFor paths true)).output = reportOf [first,
          .ofFields [("filename", .str "gone.csv"), ("error", .str "File does not exist: gone.csv")],
          last] ∧
        first.get? "filename" = some (.str "data.csv") ∧
        last.get? "filename" = some (.str "data.csv") ∧
        (run w (wordsFor paths true)).ending = .exit 1 := by
  intro w s paths
  have hservice : ∀ service ∈ some s, Service.Stateless service := by
    rintro _ ⟨⟩ _ _
    rfl
  have hsettings : w.settings = .ok .standard := by decide +kernel
  have halone : (analyze w.tree [] (some s) ⟨["a/data.csv"], true, true⟩).complete = true := by
    decide +kernel
  have hgone : analyzeFile w.tree [] "gone.csv" = .error (.load (.notFound "gone.csv")) := by
    decide +kernel
  refine ⟨?_, ?_⟩
  · obtain ⟨entries, houtput, hentries, hcomplete⟩ :=
      report_in_place.1 w.tree [] _ ["a/data.csv"] true hservice
    obtain ⟨e, _, -, hnil, rfl⟩ := List.forall₂_cons_left_iff.mp hentries
    cases hnil
    exact ⟨e, houtput, hcomplete.mp halone e List.mem_cons_self⟩
  · have hwords := report_in_place.2.2 paths true (List.cons_ne_nil _ _) (by decide)
    obtain ⟨entries, houtput, -, hentries, hending, hexit⟩ :=
      report_in_place.2.1 w _ _ true .standard hwords hsettings
    obtain ⟨first, _, hfirst, htwo, rfl⟩ := List.forall₂_cons_left_iff.mp (hentries fun _ _ => rfl)
    obtain ⟨second, _, hsecond, hone, rfl⟩ := List.forall₂_cons_left_iff.mp htwo
    obtain ⟨last, _, hlast, hnil, rfl⟩ := List.forall₂_cons_left_iff.mp hone
    cases hnil
    cases hsecond with
    | analyzed a h => cases hgone.symm.trans h
    | failed fault h justError =>
      cases hgone.symm.trans h
      subst justError
      refine ⟨first, last, houtput, hfirst.get?_filename, hlast.get?_filename,
        hexit.resolve_left fun hzero => ?_⟩
      have hnone := hending.mp hzero _ (List.mem_cons_of_mem _ List.mem_cons_self)
      rw [Json.get?_ofFields] at hnone
      cases hnone

end Command

end TableProfile
