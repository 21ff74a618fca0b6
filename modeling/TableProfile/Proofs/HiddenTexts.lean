import Mathlib.Data.Set.Function
import Mathlib.Logic.Equiv.Basic
import TableProfile.Insight.Generate
import TableProfile.Proofs.ColumnProfiles
import TableProfile.Proofs.Tally

/-!
# Texts that no profile lists

A profile of texts lists the most frequent ones and is otherwise made of counts and of the rows where
texts occur first. So it does not change when the other texts of the column are replaced, as long as
different ones stay different: the tally is the same but for the texts in its entries (`tally_map`), and
the entries are ranked by numbers alone (`ranked_map`). A summary, and with it a prompt, is made of
profiles, correlations, names and types; only the size of a table tells such texts apart.

* `summarize_mapTexts`: the summary and the prompt of a table with replaced texts.
-/
namespace TableProfile

namespace Frequency

/-! ## The tally -/

/-- An entry for another text. -/
def Entry.rename (f : String → String) (e : Entry) : Entry := { e with value := f e.value }

theorem bump_map {f : String → String} {texts : Set String} (hf : texts.InjOn f) {v : String}
    (hv : v ∈ texts) (row : Nat) {entries : List Entry}
    (hentries : ∀ w ∈ entries.map Entry.value, w ∈ texts) :
    bump row (f v) (entries.map (Entry.rename f)) = (bump row v entries).map (Entry.rename f) := by
  induction entries with
  | nil => rfl
  | cons e rest ih =>
    obtain ⟨he, hrest⟩ := List.forall_mem_cons.mp hentries
    have hsame : (e.rename f).value = f v ↔ e.value = v := hf.eq_iff he hv
    rw [List.map_cons, bump, bump]
    by_cases h : e.value = v
    · rw [if_pos (hsame.mpr h), if_pos h]
      rfl
    · rw [if_neg (mt hsame.mp h), if_neg h, ih hrest]
      rfl

theorem bump_values_subset {texts : Set String} {v : String} (hv : v ∈ texts) (row : Nat)
    {entries : List Entry} (hentries : ∀ w ∈ entries.map Entry.value, w ∈ texts) :
    ∀ w ∈ (bump row v entries).map Entry.value, w ∈ texts := by
  intro w hw
  rw [bump_values] at hw
  split at hw
  · exact hentries w hw
  · rcases List.mem_append.mp hw with hw | hw
    · exact hentries w hw
    · rw [List.mem_singleton.mp hw]
      exact hv

theorem tallyFrom_map {f : String → String} {texts : Set String} (hf : texts.InjOn f)
    {cells : List (Option String)} (hcells : ∀ v, some v ∈ cells → v ∈ texts) (row : Nat)
    {entries : List Entry} (hentries : ∀ w ∈ entries.map Entry.value, w ∈ texts) :
    tallyFrom row (entries.map (Entry.rename f)) (cells.map (·.map f)) =
      (tallyFrom row entries cells).map (Entry.rename f) := by
  induction cells generalizing row entries with
  | nil => rfl
  | cons cell rest ih =>
    have hrest : ∀ v, some v ∈ rest → v ∈ texts := fun v h => hcells v (List.mem_cons_of_mem _ h)
    cases cell with
    | none => exact ih hrest (row + 1) hentries
    | some v =>
      have hv : v ∈ texts := hcells v List.mem_cons_self
      rw [List.map_cons, Option.map_some, tallyFrom, tallyFrom, bump_map hf hv row hentries]
      exact ih hrest (row + 1) (bump_values_subset hv row hentries)

/-- Texts that stay different are tallied alike. -/
theorem tally_map {f : String → String} {cells : List (Option String)}
    (hf : Set.InjOn f {v | some v ∈ cells}) :
    tally (cells.map (·.map f)) = (tally cells).map (Entry.rename f) := by
  have hnone : ∀ w ∈ ([] : List Entry).map Entry.value, some w ∈ cells :=
    fun w hw => absurd hw List.not_mem_nil
  exact tallyFrom_map hf (fun _ hv => hv) 0 hnone

/-- The rank of an entry does not depend on its text. -/
theorem ranked_map (f : String → String) (entries : List Entry) :
    ranked (entries.map (Entry.rename f)) = (ranked entries).map (Entry.rename f) :=
  (List.map_mergeSort (f := Entry.rename f) (s := before) fun _ _ _ _ => rfl).symm

end Frequency

/-- The listed values of a column of texts. -/
theorem frequencies_map {f : String → String} {column : String} {cells : List (Option String)}
    (hf : Set.InjOn f {v | some v ∈ cells})
    (hlisted : ∀ v ∈ (frequencies column cells).mostFrequent, f v.value = v.value) :
    frequencies column (cells.map (·.map f)) = frequencies column cells := by
  have htally := Frequency.tally_map hf
  have hnulls : (cells.map (·.map f)).countP Option.isNone = cells.countP Option.isNone := by
    rw [List.countP_map]
    exact List.countP_congr fun cell _ => by cases cell <;> rfl
  have hvalues : (((Frequency.ranked (Frequency.tally (cells.map (·.map f)))).take topValues).map
      fun e => (⟨e.value, e.count⟩ : ValueCount)) = (frequencies column cells).mostFrequent := by
    rw [htally, Frequency.ranked_map, ← List.map_take, List.map_map]
    refine List.map_congr_left fun e he => ?_
    have hvalue : f e.value = e.value := hlisted ⟨e.value, e.count⟩ (List.mem_map_of_mem he)
    exact congrArg (fun v => (⟨v, e.count⟩ : ValueCount)) hvalue
  rw [frequencies, hvalues, hnulls, htally, List.length_map, List.length_map]
  rfl

/-! ## Columns -/

/-- A column of texts with every text replaced by its image; any other column as it is. -/
def Cells.mapTexts (f : String → String) : Cells → Cells
  | .str cells => .str (cells.map (·.map f))
  | c => c

def Column.mapTexts (f : String → String) (c : Column) : Column :=
  { c with cells := c.cells.mapTexts f }

/-- A replacement that keeps the texts of a column apart and leaves those that its profile lists. -/
structure Column.Hides (c : Column) (cells : List (Option String)) (f : String → String) : Prop where
  texts : c.cells = .str cells
  apart : Set.InjOn f {v | some v ∈ cells}
  listed : ∀ v ∈ (frequencies c.name cells).mostFrequent, f v.value = v.value

/-- Two columns that a summary and the names and types of a table do not tell apart. -/
structure Column.Alike (c c' : Column) : Prop where
  name : c'.name = c.name
  dtype : c'.dtype = c.dtype
  height : c'.cells.height = c.cells.height
  numeric : c'.toNumeric? = c.toNumeric?
  profile : c'.profile = c.profile

theorem Column.Alike.refl (c : Column) : c.Alike c := ⟨rfl, rfl, rfl, rfl, rfl⟩

theorem Column.Hides.alike {c : Column} {cells : List (Option String)} {f : String → String}
    (h : c.Hides cells f) : c.Alike (c.mapTexts f) := by
  obtain ⟨name, held⟩ := c
  obtain ⟨rfl, hapart, hlisted⟩ := h
  refine ⟨rfl, rfl, List.length_map _, rfl, ?_⟩
  have hfrequencies := frequencies_map hapart hlisted
  show Except.ok (ColumnProfile.category (frequencies name (cells.map (·.map f)))) =
    Except.ok (ColumnProfile.category (frequencies name cells))
  rw [hfrequencies]

/-! ## Tables -/

/-- A table with every text of one of its columns replaced by its image. -/
def Dataset.mapTexts (d : Dataset) (i : Nat) (f : String → String) : Dataset :=
  { d with columns := d.columns.modify i (Column.mapTexts f) }

theorem forall₂_modify {columns : List Column} {change : Column → Column} {i : Nat} {c : Column}
    (hc : columns[i]? = some c) (h : c.Alike (change c)) :
    List.Forall₂ Column.Alike columns (columns.modify i change) := by
  induction columns generalizing i with
  | nil => cases hc
  | cons first rest ih =>
    cases i with
    | zero =>
      cases hc
      exact .cons h (List.forall₂_same.mpr fun c _ => Column.Alike.refl c)
    | succ i => exact .cons (Column.Alike.refl first) (ih hc)

section
variable {columns columns' : List Column}

theorem profileAll_alike (h : List.Forall₂ Column.Alike columns columns') :
    profileAll columns' = profileAll columns := by
  induction h with
  | nil => rfl
  | cons hc _ ih => rw [profileAll, profileAll, hc.profile, ih]

theorem filterMap_toNumeric?_alike (h : List.Forall₂ Column.Alike columns columns') :
    columns'.filterMap Column.toNumeric? = columns.filterMap Column.toNumeric? := by
  induction h with
  | nil => rfl
  | cons hc _ ih => rw [List.filterMap_cons, List.filterMap_cons, hc.numeric, ih]

theorem map_alike {α : Type} {view : Column → α} (hview : ∀ c c', c.Alike c' → view c' = view c)
    (h : List.Forall₂ Column.Alike columns columns') : columns'.map view = columns.map view := by
  induction h with
  | nil => rfl
  | cons hc _ ih => rw [List.map_cons, List.map_cons, hview _ _ hc, ih]

end

section
variable {d d' : Dataset}

theorem Dataset.rowCount_alike (h : List.Forall₂ Column.Alike d.columns d'.columns) :
    d'.rowCount = d.rowCount := by
  rw [rowCount, rowCount]
  generalize d.columns = columns at h
  generalize d'.columns = columns' at h
  cases h with
  | nil => rfl
  | cons hc _ => exact hc.height

theorem summarize_alike (h : List.Forall₂ Column.Alike d.columns d'.columns) :
    summarize d' = summarize d := by
  rw [summarize, summarize, profileAll_alike h, filterMap_toNumeric?_alike h,
    Dataset.rowCount_alike h]

/-- What is known of a table before its statistics, its size apart. -/
theorem Dataset.fileSummary_alike (hname : d'.name = d.name) (hpath : d'.path = d.path)
    (h : List.Forall₂ Column.Alike d.columns d'.columns) :
    d'.fileSummary = { d.fileSummary with memoryBytes := d'.memoryBytes } := by
  have hnames : d'.columnNames = d.columnNames := map_alike (fun _ _ hc => hc.name) h
  have htypes : d'.columnTypes = d.columnTypes := by
    refine map_alike (fun c c' hc => ?_) h
    rw [Column.kind, Column.kind, hc.name, hc.dtype]
  rw [fileSummary, hname, hpath, hnames, htypes, rowCount_alike h, ← h.length_eq]
  rfl

end

/-- **Texts that no profile lists do not leave the table.** When the texts of a column that its profile
does not list are replaced by others, kept apart, the table has the same summary, and its analysis, which
differs at most in the size of the table, the same prompt; so what a service is sent and answers is the
same. -/
theorem summarize_mapTexts {d : Dataset} {i : Nat} {c : Column} {cells : List (Option String)}
    {f : String → String} (hc : d.columns[i]? = some c) (h : c.Hides cells f) :
    summarize (d.mapTexts i f) = summarize d ∧
      ∀ a, analyzeDataset d = .ok a → ∃ a', analyzeDataset (d.mapTexts i f) = .ok a' ∧
        a'.summary = a.summary ∧
        a'.file = { a.file with memoryBytes := (d.mapTexts i f).memoryBytes } ∧
        Prompt.ofAnalysis a' = Prompt.ofAnalysis a ∧
        ∀ (s : Option Service) (sent : List Prompt), ask s sent a' = ask s sent a := by
  have halike : List.Forall₂ Column.Alike d.columns (d.mapTexts i f).columns :=
    forall₂_modify hc h.alike
  have hsummary : summarize (d.mapTexts i f) = summarize d := summarize_alike halike
  refine ⟨hsummary, fun a ha => ?_⟩
  rw [analyzeDataset] at ha
  cases hs : summarize d with
  | error e =>
    rw [hs] at ha
    cases ha
  | ok s =>
    rw [hs] at ha
    cases ha
    have hfile : (d.mapTexts i f).fileSummary =
        { d.fileSummary with memoryBytes := (d.mapTexts i f).memoryBytes } :=
      Dataset.fileSummary_alike rfl rfl halike
    have hprompt : Prompt.ofAnalysis ⟨(d.mapTexts i f).fileSummary, s⟩ =
        Prompt.ofAnalysis ⟨d.fileSummary, s⟩ := by
      rw [hfile]
      rfl
    refine ⟨⟨(d.mapTexts i f).fileSummary, s⟩, ?_, rfl, hfile, hprompt, fun service sent => ?_⟩
    · rw [analyzeDataset, hsummary, hs]
      rfl
    · cases service with
      | none => rfl
      | some service => rw [ask, ask, insightsFor, insightsFor, hprompt]

theorem summarize_mapTexts_sixth :
    let cells := ["a", "b", "c", "d", "e", "f", "a", "b", "c", "d", "e"].map some
    let d : Dataset := ⟨"t.csv", none, [⟨"n", .int .i64 (cells.map fun _ => some 1)⟩,
      ⟨"t", .str cells⟩], [11]⟩
    let f := Equiv.swap "f" "sixth"
    d.mapTexts 1 f ≠ d ∧ summarize (d.mapTexts 1 f) = summarize d ∧
      ∃ a a', analyzeDataset d = .ok a ∧ analyzeDataset (d.mapTexts 1 f) = .ok a' ∧
        Prompt.ofAnalysis a' = Prompt.ofAnalysis a ∧ a'.file.memoryBytes ≠ a.file.memoryBytes := by
  intro cells d f
  have hlisted : (frequencies "t" cells).mostFrequent =
      [⟨"a", 2⟩, ⟨"b", 2⟩, ⟨"c", 2⟩, ⟨"d", 2⟩, ⟨"e", 2⟩] := by
    have hranked : Frequency.ranked (Frequency.tally cells) = Frequency.tally cells :=
      List.mergeSort_of_pairwise (by decide)
    rw [frequencies, hranked]
    rfl
  have hhides : Column.Hides ⟨"t", .str cells⟩ cells f := by
    refine ⟨rfl, f.injective.injOn, ?_⟩
    rw [hlisted]
    decide
  have hc : d.columns[1]? = some ⟨"t", .str cells⟩ := rfl
  obtain ⟨hsummary, hanalysis⟩ := summarize_mapTexts hc hhides
  obtain ⟨s, hs⟩ : ∃ s, summarize d = .ok s := ⟨_, rfl⟩
  have ha : analyzeDataset d = .ok ⟨d.fileSummary, s⟩ := by
    rw [analyzeDataset, hs]
    rfl
  obtain ⟨a', ha', -, hfile, hprompt, -⟩ := hanalysis _ ha
  have hmemory : (d.mapTexts 1 f).memoryBytes ≠ d.memoryBytes := by decide +kernel
  refine ⟨by decide +kernel, hsummary, _, a', ha, ha', hprompt, ?_⟩
  rw [hfile]
  exact hmemory

end TableProfile
