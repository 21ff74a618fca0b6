import TableProfile.Proofs.ColumnProfiles
import TableProfile.Proofs.Correlations

/-!
# Summaries of some of the columns

A table with some of its columns, in any order, has the same things to say of them: a profile is taken
from its column alone, and a correlation from its two columns alone, in either order. Names keep columns
apart (`numeric_names_nodup`), so a look-up by names finds the same two columns in both tables.

* `summarize_select`: the summary of chosen columns.
-/
namespace TableProfile

/-- A table with other columns in place of its own. -/
def Dataset.select (d : Dataset) (chosen : List Column) : Dataset := { d with columns := chosen }

/-- Some columns of a table, each once and in any order. -/
structure Dataset.Selects (d : Dataset) (chosen : List Column) : Prop where
  ne_nil : chosen ≠ []
  nodup : chosen.Nodup
  subset : chosen ⊆ d.columns

/-! ## Profiles -/

/-- Columns have profiles if each of them has one. -/
theorem exists_profiles {columns : List Column} (h : ∀ c ∈ columns, ∃ p, c.profile = .ok p) :
    ∃ profiles, List.Forall₂ (fun c p => c.profile = .ok p) columns profiles := by
  induction columns with
  | nil => exact ⟨[], .nil⟩
  | cons c rest ih =>
    obtain ⟨p, hp⟩ := h c List.mem_cons_self
    obtain ⟨more, hmore⟩ := ih fun c hc => h c (List.mem_cons_of_mem _ hc)
    exact ⟨p :: more, .cons hp hmore⟩

/-- The profile at the place of a column. -/
theorem profile_at {columns : List Column} {profiles : List ColumnProfile}
    (h : List.Forall₂ (fun c p => c.profile = .ok p) columns profiles) {i : Nat} {c : Column}
    (hc : columns[i]? = some c) : ∃ p, profiles[i]? = some p ∧ c.profile = .ok p := by
  induction h generalizing i with
  | nil => cases hc
  | @cons first p columns profiles hp _ ih =>
    cases i with
    | zero =>
      cases hc
      exact ⟨p, rfl, hp⟩
    | succ i => exact ih hc

/-- The profile at the place of a numeric column. -/
theorem numeric_profile_at {d : Dataset} {s : Summary} (h : summarize d = .ok s) {i : Nat} {c : Column}
    (hc : d.columns[i]? = some c) {cells : List (Option Float)} (hcells : c.cells.numbers = some cells) :
    s.columns[i]? = some (.numeric (describe c.name cells)) := by
  obtain ⟨p, hp, hok⟩ := profile_at ((summarize_ok_iff d s).mp h).1 hc
  rw [Column.profile, hcells, Except.ok.injEq] at hok
  rw [hp, hok]

/-- Every column of a table that has a summary has a profile. -/
theorem profile_of_mem {columns : List Column} {profiles : List ColumnProfile}
    (h : List.Forall₂ (fun c p => c.profile = .ok p) columns profiles) {c : Column}
    (hc : c ∈ columns) : ∃ p, c.profile = .ok p := by
  obtain ⟨i, hi⟩ := List.mem_iff_getElem?.mp hc
  obtain ⟨p, -, hp⟩ := profile_at h hi
  exact ⟨p, hp⟩

/-! ## Names -/

theorem toNumeric?_eq_none {c : Column} (h : c.kind.isNumeric = false) : c.toNumeric? = none := by
  rw [← Column.isSome_numbers, Option.isSome_eq_false_iff, Option.isNone_iff_eq_none] at h
  rw [Column.toNumeric?, h]
  rfl

theorem toNumeric?_name {c : Column} (h : c.kind.isNumeric = true) :
    ∃ n, c.toNumeric? = some n ∧ n.name = c.name := by
  rw [← Column.isSome_numbers] at h
  obtain ⟨cells, hcells⟩ := Option.isSome_iff_exists.mp h
  exact ⟨⟨c.name, cells⟩, by rw [Column.toNumeric?, hcells]; rfl, rfl⟩

/-- The columns that take part in correlations are those of a numeric kind, in order. -/
theorem numeric_names (columns : List Column) :
    (columns.filterMap Column.toNumeric?).map (·.name) =
      (columns.filter (·.kind.isNumeric)).map Column.name := by
  induction columns with
  | nil => rfl
  | cons c rest ih =>
    cases h : c.kind.isNumeric with
    | false =>
      rw [List.filterMap_cons_none (toNumeric?_eq_none h), List.filter_cons_of_neg (by simp [h]), ih]
    | true =>
      obtain ⟨n, hn, hname⟩ := toNumeric?_name h
      rw [List.filterMap_cons_some hn, List.filter_cons_of_pos (by exact h), List.map_cons,
        List.map_cons, ih, hname]

theorem numeric_names_nodup {columns : List Column} (h : (columns.map Column.name).Nodup) :
    ((columns.filterMap Column.toNumeric?).map (·.name)).Nodup := by
  rw [numeric_names]
  exact h.sublist (List.filter_sublist.map Column.name)

theorem Dataset.Selects.names_nodup {d : Dataset} {chosen : List Column} (h : d.Selects chosen)
    (hd : d.columnNames.Nodup) : (chosen.map Column.name).Nodup :=
  h.nodup.map_on fun _ hc _ hc' heq =>
    List.inj_on_of_nodup_map hd (h.subset hc) (h.subset hc') heq

/-! ## The summary -/

theorem rowCount_select {d : Dataset} {chosen : List Column} (hd : d.WellFormed)
    (h : d.Selects chosen) : (d.select chosen).rowCount = d.rowCount := by
  cases chosen with
  | nil => exact absurd rfl h.ne_nil
  | cons c rest => exact hd.height c (h.subset List.mem_cons_self)

/-- Two names of chosen columns look up the same correlation in both tables. -/
theorem get?_select {d : Dataset} {chosen : List Column} (hd : d.WellFormed) (h : d.Selects chosen)
    {a b : String} (ha : a ∈ (d.select chosen).numericColumns.map (·.name))
    (hb : b ∈ (d.select chosen).numericColumns.map (·.name)) :
    (CorrelationTable.ofColumns (d.select chosen).numericColumns).get? a b =
      (CorrelationTable.ofColumns d.numericColumns).get? a b := by
  have hall : (d.numericColumns.map (·.name)).Nodup := numeric_names_nodup hd.names
  have hchosen : ((d.select chosen).numericColumns.map (·.name)).Nodup :=
    numeric_names_nodup (h.names_nodup hd.names)
  have hsubset : (d.select chosen).numericColumns ⊆ d.numericColumns := by
    intro n hn
    obtain ⟨c, hc, hcn⟩ := List.mem_filterMap.mp hn
    exact List.mem_filterMap.mpr ⟨c, h.subset hc, hcn⟩
  obtain ⟨x, hx, rfl⟩ := List.mem_map.mp ha
  obtain ⟨y, hy, rfl⟩ := List.mem_map.mp hb
  by_cases hxy : x = y
  · subst hxy
    rw [CorrelationTable.get?_self hchosen, CorrelationTable.get?_self hall]
  · rw [CorrelationTable.get?_ofColumns hchosen hx hy hxy,
      CorrelationTable.get?_ofColumns hall (hsubset hx) (hsubset hy) hxy]

/-- **Columns do not influence each other.** Some columns of a table, in any order, have a summary, with
the profiles that they have in the whole table, the numeric ones listed in their new order, and the
correlations that any two of them have in the whole table. -/
theorem summarize_select {d : Dataset} {s : Summary} {chosen : List Column} (hd : d.WellFormed)
    (hs : summarize d = .ok s) (h : d.Selects chosen) :
    ∃ t, summarize (d.select chosen) = .ok t ∧ t.rows = s.rows ∧
      t.columns.length = chosen.length ∧
      (∀ (i j : Nat) (c : Column), chosen[i]? = some c → d.columns[j]? = some c →
        ∃ p, t.columns[i]? = some p ∧ s.columns[j]? = some p) ∧
      t.numericColumns = (chosen.filter (·.kind.isNumeric)).map Column.name ∧
      ∀ a ∈ t.numericColumns, ∀ b ∈ t.numericColumns,
        t.correlations.get? a b = s.correlations.get? a b := by
  obtain ⟨hall, hrows, -, hcorrelations⟩ := (summarize_ok_iff d s).mp hs
  obtain ⟨profiles, hchosen⟩ := exists_profiles fun c hc => profile_of_mem hall (h.subset hc)
  refine ⟨⟨(d.select chosen).rowCount, (d.select chosen).numericColumns.map (·.name), profiles,
    .ofColumns (d.select chosen).numericColumns⟩, ?_, ?_, ?_, ?_, ?_, ?_⟩
  · exact (summarize_ok_iff _ _).mpr ⟨hchosen, rfl, rfl, rfl⟩
  · rw [hrows]
    exact rowCount_select hd h
  · exact hchosen.length_eq.symm
  · intro i j c hi hj
    obtain ⟨p, hp, hcp⟩ := profile_at hchosen hi
    obtain ⟨q, hq, hcq⟩ := profile_at hall hj
    rw [hcp, Except.ok.injEq] at hcq
    subst hcq
    exact ⟨p, hp, hq⟩
  · exact numeric_names chosen
  · intro a ha b hb
    rw [hcorrelations]
    exact get?_select hd h ha hb

theorem summarize_select_swapped :
    let n : Column := ⟨"n", .int .i64 [some 1, none, some 3]⟩
    let m : Column := ⟨"m", .int .u8 [some 2, some 5, some 4]⟩
    let d : Dataset := ⟨"t.csv", none, [n, ⟨"t", .bool [some true, none, none]⟩, m], [3]⟩
    ∃ s t, summarize d = .ok s ∧ summarize (d.select [m, n]) = .ok t ∧
      t.numericColumns = ["m", "n"] ∧
      t.correlations.get? "m" "n" = s.correlations.get? "m" "n" := by
  intro n m d
  have hd : d.WellFormed := ⟨by decide, rfl, by decide⟩
  have hselects : d.Selects [m, n] := ⟨by simp, by decide +kernel, by simp [d]⟩
  obtain ⟨s, hs⟩ : ∃ s, summarize d = .ok s := ⟨_, rfl⟩
  obtain ⟨t, ht, -, -, -, hnumeric, hget⟩ := summarize_select hd hs hselects
  have hnames : t.numericColumns = ["m", "n"] := by
    rw [hnumeric]
    decide
  refine ⟨s, t, hs, ht, hnames, hget "m" ?_ "n" ?_⟩
  · rw [hnames]
    decide
  · rw [hnames]
    decide

end TableProfile
