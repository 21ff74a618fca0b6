import Mathlib.Data.List.Forall2
import TableProfile.Profile.Summary

/-!
# The profiles of columns

`summarize` gives one profile for each column, in column order (`summarize_columns`), and each profile is
taken from its own column alone (`Column.profile_cases`): a numeric column is described, any other one is
counted. The names and the correlations of numeric columns are taken from the columns once more; that
they are the columns with a numeric profile is `numeric_columns`.
-/
namespace TableProfile

/-- The name of the column that a profile is of. -/
def ColumnProfile.column : ColumnProfile → String
  | .numeric p => p.column
  | .category p => p.column

namespace Column

theorem isSome_numbers (c : Column) : c.cells.numbers.isSome = c.kind.isNumeric := by
  obtain ⟨name, cells⟩ := c
  cases cells <;> rfl

theorem isNumeric_iff (k : ColumnKind) : k.isNumeric = true ↔ k = .integer ∨ k = .float := by
  cases k <;> decide

/-- The profile of a column is the description of its numbers or the count of its texts. -/
theorem profile_cases {c : Column} {p : ColumnProfile} (h : c.profile = .ok p) :
    (∃ cells, c.cells.numbers = some cells ∧ p = .numeric (describe c.name cells)) ∨
      (∃ cells, c.cells.numbers = none ∧ c.cells.texts = .ok cells ∧
        p = .category (frequencies c.name cells)) := by
  unfold profile at h
  cases hnumbers : c.cells.numbers with
  | some cells =>
    rw [hnumbers] at h
    cases h
    exact Or.inl ⟨cells, rfl, rfl⟩
  | none =>
    rw [hnumbers] at h
    cases htexts : c.cells.texts with
    | error e =>
      rw [htexts] at h
      cases h
    | ok cells =>
      rw [htexts] at h
      cases h
      exact Or.inr ⟨cells, rfl, rfl, rfl⟩

theorem profile_column {c : Column} {p : ColumnProfile} (h : c.profile = .ok p) :
    p.column = c.name := by
  rcases profile_cases h with ⟨cells, -, rfl⟩ | ⟨cells, -, -, rfl⟩
  · rfl
  · rfl

/-- A column has a numeric profile if and only if it takes part in correlations. -/
theorem profile_numeric? {c : Column} {p : ColumnProfile} (h : c.profile = .ok p) :
    p.numeric?.map (·.column) = c.toNumeric?.map (·.name) := by
  rcases profile_cases h with ⟨cells, hnumbers, rfl⟩ | ⟨cells, hnumbers, -, rfl⟩
  · rw [toNumeric?, hnumbers]
    rfl
  · rw [toNumeric?, hnumbers]
    rfl

end Column

/-! ## All columns -/

theorem profileAll_ok_iff (columns : List Column) (profiles : List ColumnProfile) :
    profileAll columns = .ok profiles ↔
      List.Forall₂ (fun c p => c.profile = .ok p) columns profiles := by
  induction columns generalizing profiles with
  | nil =>
    rw [profileAll, List.forall₂_nil_left_iff, Except.ok.injEq]
    exact eq_comm
  | cons c rest ih =>
    rw [profileAll, List.forall₂_cons_left_iff]
    cases hc : c.profile with
    | error e => simp
    | ok p =>
      constructor
      · intro h
        cases hrest : profileAll rest with
        | error e =>
          rw [hrest] at h
          cases h
        | ok more =>
          rw [hrest] at h
          cases h
          exact ⟨p, more, rfl, (ih more).mp hrest, rfl⟩
      · rintro ⟨q, more, hq, hmore, rfl⟩
        cases hq
        rw [(ih more).mpr hmore]
        rfl

/-- The columns that take part in correlations. -/
def Dataset.numericColumns (d : Dataset) : List NumericColumn := d.columns.filterMap Column.toNumeric?

theorem summarize_ok_iff (d : Dataset) (s : Summary) :
    summarize d = .ok s ↔
      List.Forall₂ (fun c p => c.profile = .ok p) d.columns s.columns ∧ s.rows = d.rowCount ∧
        s.numericColumns = d.numericColumns.map (·.name) ∧
        s.correlations = CorrelationTable.ofColumns d.numericColumns := by
  rw [← profileAll_ok_iff, summarize]
  constructor
  · intro h
    cases hall : profileAll d.columns with
    | error e =>
      rw [hall] at h
      cases h
    | ok profiles =>
      rw [hall] at h
      cases h
      exact ⟨rfl, rfl, rfl, rfl⟩
  · rintro ⟨hall, hrows, hnames, hcorrelations⟩
    obtain ⟨rows, names, columns, correlations⟩ := s
    simp only at hall hrows hnames hcorrelations
    rw [hall, hrows, hnames, hcorrelations]
    rfl

/-- The columns with a numeric profile are those that take part in correlations. -/
theorem numeric_columns {columns : List Column} {profiles : List ColumnProfile}
    (h : List.Forall₂ (fun c p => c.profile = .ok p) columns profiles) :
    (profiles.filterMap ColumnProfile.numeric?).map (·.column) =
      (columns.filterMap Column.toNumeric?).map (·.name) := by
  induction h with
  | nil => rfl
  | @cons c p columns profiles hp _ ih =>
    have hhead := Column.profile_numeric? hp
    rw [List.filterMap_cons, List.filterMap_cons]
    cases hnumeric : p.numeric? with
    | none =>
      rw [hnumeric] at hhead
      rw [Option.map_eq_none_iff.mp hhead.symm]
      exact ih
    | some q =>
      rw [hnumeric] at hhead
      obtain ⟨n, hn, hname⟩ := Option.map_eq_some_iff.mp hhead.symm
      rw [hn, List.map_cons, List.map_cons, ih, hname]

end TableProfile
