import TableProfile.Proofs.ColumnProfiles
import TableProfile.Proofs.Doubles
import TableProfile.Proofs.Tally

/-!
# What a summary accounts for

Every cell of a table is accounted for in the profile of its column: as a number that enters the figures,
as an occurrence of one of the distinct texts, or as missing. The views that profiles are taken from keep
one entry for each row (`Cells.length_numbers`, `Cells.length_texts`), and so the parts add up to the
height of the table.

* `summarize_accounts`: the profiles, the numeric columns and the file data of an analysis.
-/
namespace TableProfile

namespace Cells

/-- The number of cells that hold a number which is neither undefined nor infinite. -/
def finiteCount : Cells → Nat
  | int _ cs => cs.countP Option.isSome
  | float _ cs => cs.countP fun cell => cell.any fun x => !x.isNaN && !x.isInf
  | _ => 0

/-! ## The views of a column -/

theorem length_numbers {c : Cells} {cells : List (Option Float)} (h : c.numbers = some cells) :
    cells.length = c.height := by
  cases c with
  | int type cs =>
    cases h
    exact List.length_map _
  | float type cs =>
    cases h
    exact List.length_map _
  | _ => cases h

theorem isSome_bind_finite? (cell : Option Float) :
    (cell.bind finite?).isSome = cell.any fun x => !x.isNaN && !x.isInf := by
  cases cell with
  | none => rfl
  | some x =>
    simp only [Option.bind_some, finite?, Option.any_some, ← Double.isFinite_eq]
    cases x.isFinite <;> rfl

/-- What the numeric view leaves out is what is not a finite number. -/
theorem countP_numbers {c : Cells} {cells : List (Option Float)} (h : c.numbers = some cells) :
    cells.countP Option.isSome = c.finiteCount := by
  cases c with
  | int type cs =>
    cases h
    rw [List.countP_map, finiteCount]
    exact List.countP_congr fun cell _ => by simp
  | float type cs =>
    cases h
    rw [List.countP_map, finiteCount]
    exact List.countP_congr fun cell _ => by
      rw [Function.comp_apply, isSome_bind_finite?]
  | _ => cases h

theorem length_texts {c : Cells} {cells : List (Option String)} (h : c.texts = .ok cells) :
    cells.length = c.height := by
  cases c with
  | str cs | cat cs =>
    cases h
    rfl
  | null n =>
    cases h
    exact List.length_replicate
  | bool cs | date cs | time cs =>
    cases h
    exact List.length_map _
  | _ => cases h

/-- A cell has no text exactly if it is missing. -/
theorem countP_texts {c : Cells} {cells : List (Option String)} (h : c.texts = .ok cells) :
    cells.countP Option.isNone = c.nullCount := by
  cases c with
  | str cs | cat cs =>
    cases h
    rfl
  | null n =>
    cases h
    simp [nullCount, List.countP_replicate]
  | bool cs | date cs | time cs =>
    cases h
    rw [List.countP_map, nullCount, missing]
    exact List.countP_congr fun cell _ => by simp
  | _ => cases h

end Cells

/-! ## Profiles -/

/-- What the profile of a numeric column accounts for in a table of some height. -/
structure NumericProfile.Accounts (rows : Nat) (c : Column) (p : NumericProfile) : Prop where
  kind : c.kind = .integer ∨ c.kind = .float
  column : p.column = c.name
  count : p.count = c.cells.finiteCount
  total : p.count + p.nullCount = rows

/-- What the profile of any other column accounts for: `cells` are its texts, and `values` the distinct
ones among them. -/
structure CategoryProfile.Accounts (rows : Nat) (c : Column) (p : CategoryProfile)
    (cells : List (Option String)) (values : List String) : Prop where
  kind : ¬ (c.kind = .integer ∨ c.kind = .float)
  column : p.column = c.name
  nulls : p.nullCount = c.cells.nullCount
  texts : c.cells.texts = .ok cells
  nodup : values.Nodup
  mem : ∀ v, v ∈ values ↔ some v ∈ cells
  distinct : p.distinct = values.length
  occurrences : total (values.map fun v => cells.count (some v)) = rows - p.nullCount
  bound : p.nullCount ≤ rows

def ColumnProfile.Accounts (rows : Nat) (c : Column) : ColumnProfile → Prop
  | .numeric p => p.Accounts rows c
  | .category p => ∃ cells values, p.Accounts rows c cells values

theorem present_length (cells : List (Option Float)) :
    (present cells).length = cells.countP Option.isSome := by
  rw [present, List.length_filterMap_eq_countP]
  rfl

theorem describe_accounts {rows : Nat} {c : Column} {cells : List (Option Float)}
    (hrows : c.cells.height = rows) (h : c.cells.numbers = some cells) :
    (describe c.name cells).Accounts rows c := by
  have hlength := Cells.length_numbers h
  have hcount : (describe c.name cells).count = cells.countP Option.isSome := present_length cells
  have hnulls : (describe c.name cells).nullCount = cells.length - cells.countP Option.isSome := by
    rw [← present_length]
    rfl
  have hle : cells.countP Option.isSome ≤ cells.length := List.countP_le_length
  refine ⟨?_, rfl, ?_, ?_⟩
  · rw [← Column.isNumeric_iff, ← Column.isSome_numbers, h]
    rfl
  · rw [hcount, Cells.countP_numbers h]
  · omega

theorem frequencies_accounts {rows : Nat} {c : Column} {cells : List (Option String)}
    (hrows : c.cells.height = rows) (hnumbers : c.cells.numbers = none)
    (h : c.cells.texts = .ok cells) :
    (frequencies c.name cells).Accounts rows c cells
      ((Frequency.tally cells).map Frequency.Entry.value) := by
  have htally := Frequency.tallied_tally cells
  have hlength := Cells.length_texts h
  have hnulls : (frequencies c.name cells).nullCount = cells.countP Option.isNone := rfl
  have hparts : cells.length = cells.countP Option.isSome + cells.countP Option.isNone := by
    rw [List.length_eq_countP_add_countP Option.isSome]
    exact congrArg _ (List.countP_congr fun cell _ => by simp)
  have hsum : total (((Frequency.tally cells).map Frequency.Entry.value).map
      fun v => cells.count (some v)) = cells.countP Option.isSome := by
    rw [← htally.sum, List.map_map]
    exact congrArg total (List.map_congr_left fun e he => (htally.count e he).symm)
  refine ⟨?_, rfl, ?_, h, htally.nodup, htally.mem, ?_, ?_, ?_⟩
  · rw [← Column.isNumeric_iff, ← Column.isSome_numbers, hnumbers]
    decide
  · rw [hnulls, Cells.countP_texts h]
  · rw [List.length_map]
    rfl
  · omega
  · omega

theorem profile_accounts {rows : Nat} {c : Column} {p : ColumnProfile}
    (hrows : c.cells.height = rows) (h : c.profile = .ok p) : p.Accounts rows c := by
  rcases Column.profile_cases h with ⟨cells, hnumbers, rfl⟩ | ⟨cells, hnumbers, htexts, rfl⟩
  · exact describe_accounts hrows hnumbers
  · exact ⟨cells, _, frequencies_accounts hrows hnumbers htexts⟩

/-! ## Summaries -/

/-- The types of a table's columns stand where their profiles stand. -/
theorem types_profiles {columns : List Column} {profiles : List ColumnProfile}
    (h : List.Forall₂ (fun c p => c.profile = .ok p) columns profiles) :
    List.Forall₂ (fun t p => t.name = p.column ∧ (t.kind.isNumeric ↔ p.numeric?.isSome))
      (columns.map fun c => (⟨c.name, c.kind, c.dtype.label⟩ : ColumnType)) profiles := by
  rw [List.forall₂_map_left_iff]
  refine h.imp fun c p hp => ⟨(Column.profile_column hp).symm, ?_⟩
  rw [← Column.isSome_numbers]
  rcases Column.profile_cases hp with ⟨cells, hnumbers, rfl⟩ | ⟨cells, hnumbers, -, rfl⟩
  · rw [hnumbers]
    exact Iff.rfl
  · rw [hnumbers]
    exact Iff.rfl

theorem columnNames_profiles {columns : List Column} {profiles : List ColumnProfile}
    (h : List.Forall₂ (fun c p => c.profile = .ok p) columns profiles) :
    columns.map Column.name = profiles.map ColumnProfile.column := by
  induction h with
  | nil => rfl
  | cons hp _ ih => rw [List.map_cons, List.map_cons, Column.profile_column hp, ih]

/-- **A summary accounts for every cell.** Each column of a table of columns of one height has a profile
at its place, whose parts add up to that height; the numeric columns are the same ones wherever they are
listed; and the file data of the analysis list the columns in the order of the profiles. -/
theorem summarize_accounts {d : Dataset} {s : Summary}
    (hheight : ∀ c ∈ d.columns, c.cells.height = d.rowCount) (hs : summarize d = .ok s) :
    s.rows = d.rowCount ∧ List.Forall₂ (ColumnProfile.Accounts s.rows) d.columns s.columns ∧
      s.numeric.map (·.column) = s.numericColumns ∧ s.correlations.columns = s.numericColumns ∧
      ∃ a, analyzeDataset d = .ok a ∧ a.summary = s ∧ a.file.rows = s.rows ∧
        a.file.columnNames = s.columns.map ColumnProfile.column ∧
        a.file.types.map (fun t => (t.name, t.kind)) = d.columns.map (fun c => (c.name, c.kind)) ∧
        List.Forall₂ (fun t p => t.name = p.column ∧ (t.kind.isNumeric ↔ p.numeric?.isSome))
          a.file.types s.columns := by
  obtain ⟨hprofiles, hrows, hnames, hcorrelations⟩ := (summarize_ok_iff d s).mp hs
  have hnumeric : s.numeric.map (·.column) = s.numericColumns := by
    rw [hnames]
    exact numeric_columns hprofiles
  refine ⟨hrows, ?_, hnumeric, ?_, ⟨d.fileSummary, s⟩, ?_, rfl, hrows.symm, ?_, ?_, ?_⟩
  · refine List.forall₂_iff_zip.mpr ⟨hprofiles.length_eq, fun {c p} hmem => ?_⟩
    have hc : c.cells.height = s.rows := by
      rw [hrows]
      exact hheight c (List.of_mem_zip hmem).1
    exact profile_accounts hc (List.forall₂_zip hprofiles hmem)
  · rw [hcorrelations, hnames]
    rfl
  · rw [analyzeDataset, hs]
    rfl
  · exact columnNames_profiles hprofiles
  · exact List.map_map
  · exact types_profiles hprofiles

theorem summarize_accounts_table :
    let d : Dataset :=
      ⟨"t.csv", none, [⟨"n", .int .i64 [some 1, none]⟩, ⟨"t", .str [some "x", some "x"]⟩], [2]⟩
    ∃ s, summarize d = .ok s ∧ s.rows = 2 ∧
      List.Forall₂ (ColumnProfile.Accounts s.rows) d.columns s.columns := by
  intro d
  have hs : summarize d = .ok
      ⟨2, ["n"], [.numeric (describe "n" [some (Number.ofInt 1), none]),
        .category (frequencies "t" [some "x", some "x"])],
        .ofColumns [⟨"n", [some (Number.ofInt 1), none]⟩]⟩ := rfl
  have hheight : ∀ c ∈ d.columns, c.cells.height = d.rowCount := by decide
  exact ⟨_, hs, rfl, (summarize_accounts hheight hs).2.1⟩

end TableProfile
