import TableProfile.Proofs.Accounting
import TableProfile.Proofs.DoubleEquality
import TableProfile.Proofs.FrequencyRanking
import TableProfile.Proofs.OrderStatistics

/-!
# The order of the rows

A table with its rows in another order has the same cells in each column, so what a profile takes from the
cells as a collection is the same: how many there are, how many of them are missing, and how often each
value occurs. Numbers in ascending order are the same ones place by place, but for the sign of a zero
(`SameNumber`), and so are the least, the middle and the greatest of them. The values of a ranking are in
descending order of their counts, so the counts that a profile lists are the five greatest. Which values it
lists with the least of these counts depends on the rows; what occurs more often than the sixth most
frequent value is always listed.

* `pick_perm`: rows in another order have the same cells.
* `Sorts.sameNumber`: numbers in ascending order, place by place.
* `Ranking.counts_eq`: the counts of a ranking are those of the distinct values in descending order.
* `summarize_arrange`: what the profiles of a table and of its rearranged rows have in common.
-/
namespace TableProfile

open Double

/-! ## Rearranged rows -/

/-- The cells at the given rows. -/
def pick {α : Type} (rows : List ℕ) (cells : List α) : List α := rows.filterMap (cells[·]?)

section
variable {α β : Type} {rows : List ℕ} {cells : List α}

theorem pick_range (cells : List α) : pick (List.range cells.length) cells = cells := by
  induction cells with
  | nil => rfl
  | cons cell rest ih =>
    rw [pick, List.length_cons, List.range_succ_eq_map, List.filterMap_cons, List.filterMap_map]
    exact congrArg (cell :: ·) ih

/-- Rows in another order have the same cells. -/
theorem pick_perm (h : rows.Perm (List.range cells.length)) : (pick rows cells).Perm cells := by
  have hperm : (pick rows cells).Perm (pick (List.range cells.length) cells) := h.filterMap _
  rwa [pick_range] at hperm

theorem pick_map (f : α → β) (rows : List ℕ) (cells : List α) :
    pick rows (cells.map f) = (pick rows cells).map f := by
  rw [pick, pick, List.map_filterMap]
  exact List.filterMap_congr fun i _ => List.getElem?_map

theorem pick_replicate (a : α) (n : ℕ) (rows : List ℕ) :
    pick rows (List.replicate n a) = List.replicate (pick rows (List.replicate n a)).length a := by
  refine List.eq_replicate_of_mem fun b hb => ?_
  obtain ⟨i, -, hi⟩ := List.mem_filterMap.mp hb
  exact List.eq_of_mem_replicate (List.mem_of_getElem? hi)

end

/-- The cells of a column at the given rows. -/
def Cells.arrange (rows : List ℕ) : Cells → Cells
  | .int t cells => .int t (pick rows cells)
  | .float t cells => .float t (pick rows cells)
  | .bool cells => .bool (pick rows cells)
  | .str cells => .str (pick rows cells)
  | .cat cells => .cat (pick rows cells)
  | .date cells => .date (pick rows cells)
  | .time cells => .time (pick rows cells)
  | .null n => .null (pick rows (List.replicate n ())).length
  | .list cells => .list (pick rows cells)

def Column.arrange (rows : List ℕ) (c : Column) : Column := { c with cells := c.cells.arrange rows }

/-- A table of the given rows, in every column alike. -/
def Dataset.arrange (rows : List ℕ) (d : Dataset) : Dataset :=
  { d with columns := d.columns.map (Column.arrange rows) }

namespace Cells

theorem numbers_arrange (rows : List ℕ) (c : Cells) :
    (c.arrange rows).numbers = c.numbers.map (pick rows) := by
  cases c with
  | int t cells => exact congrArg some (pick_map _ _ _).symm
  | float t cells => exact congrArg some (pick_map _ _ _).symm
  | bool _ | str _ | cat _ | date _ | time _ | null _ | list _ => rfl

theorem texts_arrange (rows : List ℕ) (c : Cells) :
    (c.arrange rows).texts = c.texts.map (pick rows) := by
  cases c with
  | bool cells => exact congrArg Except.ok (pick_map _ _ _).symm
  | date cells => exact congrArg Except.ok (pick_map _ _ _).symm
  | time cells => exact congrArg Except.ok (pick_map _ _ _).symm
  | null n =>
    have hlength : (pick rows (List.replicate n ())).length =
        (pick rows (List.replicate n (none : Option String))).length := by
      rw [← List.map_replicate (f := fun _ : Unit => (none : Option String)), pick_map, List.length_map]
    show Except.ok (List.replicate _ none) = Except.ok (pick rows (List.replicate n none))
    rw [hlength, ← pick_replicate]
  | str _ | cat _ | list _ | int _ _ | float _ _ => rfl

theorem height_arrange {rows : List ℕ} {c : Cells} (h : rows.Perm (List.range c.height)) :
    (c.arrange rows).height = c.height := by
  cases c with
  | int _ cells | float _ cells => exact (@pick_perm _ rows cells h).length_eq
  | bool cells | date cells | time cells | list cells => exact (@pick_perm _ rows cells h).length_eq
  | str cells | cat cells => exact (@pick_perm _ rows cells h).length_eq
  | null n =>
    have hlength : (List.replicate n ()).length = n := List.length_replicate
    exact (pick_perm (by rwa [hlength])).length_eq.trans hlength

end Cells

theorem Column.kind_arrange (rows : List ℕ) (c : Column) : (c.arrange rows).kind = c.kind := by
  obtain ⟨name, cells⟩ := c
  cases cells <;> rfl

/-- A table of rearranged rows is well formed. -/
theorem Dataset.WellFormed.arrange {d : Dataset} (h : d.WellFormed) {rows : List ℕ}
    (hrows : rows.Perm (List.range d.rowCount)) : (d.arrange rows).WellFormed := by
  have hheight (c : Column) (hc : c ∈ d.columns) : (c.arrange rows).cells.height = d.rowCount :=
    (Cells.height_arrange (by rwa [h.height c hc])).trans (h.height c hc)
  have hrowCount : (d.arrange rows).rowCount = d.rowCount := by
    cases hcolumns : d.columns with
    | nil =>
      rw [rowCount, rowCount, Dataset.arrange, hcolumns]
      rfl
    | cons c rest =>
      rw [← hheight c (hcolumns ▸ List.mem_cons_self), rowCount, Dataset.arrange, hcolumns]
      rfl
  refine ⟨fun c hc => ?_, h.pieces.trans hrowCount.symm, ?_⟩
  · obtain ⟨original, horiginal, rfl⟩ := List.mem_map.mp hc
    rw [hrowCount, hheight original horiginal]
  · have hnames : (d.arrange rows).columnNames = d.columnNames := by
      rw [columnNames, columnNames, Dataset.arrange, List.map_map]
      rfl
    rw [hnames]
    exact h.names

/-! ## Numbers in order -/

/-- Two figures that are equal as numbers, or both absent. -/
def SameFigure (x y : Option Float) : Prop := Option.Rel (fun a b => (a == b) = true) x y

theorem sameFigure_of_sameNumber {x y : Option Float} (h : Option.Rel SameNumber x y) :
    SameFigure x y := by
  cases h with
  | none => exact .none
  | some hsame => exact .some hsame.beq

section
variable {xs ys given given' : List Float}

/-- Ascending numbers of the same values are the same numbers place by place. -/
theorem Sorts.sameNumber (h : Sorts xs given) (h' : Sorts ys given') (hperm : given.Perm given')
    (i : ℕ) : Option.Rel SameNumber xs[i]? ys[i]? := by
  have hvalues : xs.map value = ys.map value := by
    have hxs : (xs.map value).Pairwise (· ≤ ·) := List.pairwise_map.mpr h.ascends
    have hys : (ys.map value).Pairwise (· ≤ ·) := List.pairwise_map.mpr h'.ascends
    have hsame : (xs.map value).Perm (ys.map value) :=
      (h.perm.trans (hperm.trans h'.perm.symm)).map value
    exact hsame.eq_of_pairwise (fun _ _ _ _ => le_antisymm) hxs hys
  have hplace : xs[i]?.map value = ys[i]?.map value := by
    rw [← List.getElem?_map, hvalues, List.getElem?_map]
  cases hx : xs[i]? with
  | none =>
    rw [hx] at hplace
    rw [Option.map_eq_none_iff.mp hplace.symm]
    exact .none
  | some x =>
    rw [hx] at hplace
    obtain ⟨y, hy, hvalue⟩ := Option.map_eq_some_iff.mp hplace.symm
    rw [hy]
    refine .some ⟨?_, ?_, hvalue.symm⟩
    · exact h.finite x (h.perm.mem_iff.mp (List.mem_of_getElem? hx))
    · exact h'.finite y (h'.perm.mem_iff.mp (List.mem_of_getElem? hy))

/-- The middle of numbers that are the same place by place. -/
theorem medianOf_sameFigure (hlength : xs.length = ys.length)
    (h : ∀ i : ℕ, Option.Rel SameNumber xs[i]? ys[i]?) :
    SameFigure (Numeric.medianOf xs) (Numeric.medianOf ys) := by
  rw [Numeric.medianOf, Numeric.medianOf, hlength]
  split
  · exact sameFigure_of_sameNumber (h _)
  · have hlow := h (ys.length / 2 - 1)
    have hhigh := h (ys.length / 2)
    generalize xs[ys.length / 2 - 1]? = a, ys[ys.length / 2 - 1]? = b at hlow ⊢
    generalize xs[ys.length / 2]? = c, ys[ys.length / 2]? = d at hhigh ⊢
    cases hlow with
    | none => exact .none
    | some hlow =>
      cases hhigh with
      | none => exact .none
      | some hhigh => exact .some (hlow.half_add hhigh)

end

/-- What two numeric profiles have in common that are of the same values. -/
structure NumericProfile.Agrees (p q : NumericProfile) : Prop where
  column : q.column = p.column
  count : q.count = p.count
  nullCount : q.nullCount = p.nullCount
  nullPercentage : q.nullPercentage = p.nullPercentage
  least : SameFigure p.least q.least
  median : SameFigure p.median q.median
  greatest : SameFigure p.greatest q.greatest

/-- The profiles of the same numbers in another order. -/
theorem describe_agrees (column : String) {cells cells' : List (Option Float)} (h : cells'.Perm cells)
    (hfinite : ∀ x ∈ present cells, x.isFinite = true) :
    (describe column cells).Agrees (describe column cells') := by
  have hpresent : (present cells').Perm (present cells) := h.filterMap id
  have hfinite' : ∀ x ∈ present cells', x.isFinite = true := fun x hx =>
    hfinite x (hpresent.mem_iff.mp hx)
  have hsorts := sorts_sorted hfinite
  have hsorts' := sorts_sorted hfinite'
  have hsame := hsorts.sameNumber hsorts' hpresent.symm
  have hcount := hpresent.length_eq
  have hlength : (Numeric.sorted (present cells)).length = (Numeric.sorted (present cells')).length := by
    rw [hsorts.perm.length_eq, hsorts'.perm.length_eq, hcount]
  have hnulls : cells'.length - (present cells').length = cells.length - (present cells).length := by
    rw [h.length_eq, hcount]
  refine ⟨rfl, hcount, hnulls, ?_, ?_, medianOf_sameFigure hlength hsame, ?_⟩
  · show nullPercentage _ _ = nullPercentage _ _
    rw [hnulls, h.length_eq]
  · show SameFigure (Numeric.sorted _).head? (Numeric.sorted _).head?
    rw [List.head?_eq_getElem?, List.head?_eq_getElem?]
    exact sameFigure_of_sameNumber (hsame 0)
  · show SameFigure (Numeric.sorted _).getLast? (Numeric.sorted _).getLast?
    rw [List.getLast?_eq_getElem?, List.getLast?_eq_getElem?, hlength]
    exact sameFigure_of_sameNumber (hsame _)

/-! ## Counts in order -/

/-- How often each distinct value of a column occurs, the greatest count first. -/
def countsOf (cells : List (Option String)) : List ℕ :=
  (cells.reduceOption.dedup.map fun v => cells.count (some v)).mergeSort fun m n => decide (n ≤ m)

theorem countsOf_pairwise (cells : List (Option String)) : (countsOf cells).Pairwise (· ≥ ·) := by
  refine (List.pairwise_mergeSort ?_ ?_ _).imp of_decide_eq_true
  · intro a b c hab hbc
    rw [decide_eq_true_eq] at hab hbc ⊢
    omega
  · intro a b
    rw [Bool.or_eq_true, decide_eq_true_eq, decide_eq_true_eq]
    omega

theorem countsOf_perm_map (cells : List (Option String)) :
    (countsOf cells).Perm (cells.reduceOption.dedup.map fun v => cells.count (some v)) :=
  List.mergeSort_perm _ _

/-- Descending counts are determined by what they are. -/
theorem eq_of_descending {xs ys : List ℕ} (h : xs.Perm ys) (hxs : xs.Pairwise (· ≥ ·))
    (hys : ys.Pairwise (· ≥ ·)) : xs = ys :=
  h.eq_of_pairwise (fun _ _ _ _ hab hba => le_antisymm hba hab) hxs hys

/-- Cells in another order have the same counts. -/
theorem countsOf_perm {cells cells' : List (Option String)} (h : cells'.Perm cells) :
    countsOf cells' = countsOf cells := by
  have hcounts : (cells'.reduceOption.dedup.map fun v => cells'.count (some v)).Perm
      (cells.reduceOption.dedup.map fun v => cells.count (some v)) := by
    simp only [h.count_eq]
    exact (h.filterMap id).dedup.map _
  refine eq_of_descending ?_ (countsOf_pairwise cells') (countsOf_pairwise cells)
  exact (countsOf_perm_map cells').trans (hcounts.trans (countsOf_perm_map cells).symm)

namespace Ranking

variable {cells : List (Option String)} {values : List String}

/-- The counts of a ranking are those of the distinct values, the greatest first. -/
theorem counts_eq (h : Ranking cells values) :
    values.map (fun v => cells.count (some v)) = countsOf cells := by
  have hperm : values.Perm cells.reduceOption.dedup :=
    (List.perm_ext_iff_of_nodup h.nodup (List.nodup_dedup _)).mpr fun v => by
      rw [h.mem, List.mem_dedup, List.reduceOption_mem_iff]
  refine eq_of_descending ((hperm.map _).trans (countsOf_perm_map cells).symm) ?_ (countsOf_pairwise cells)
  refine List.pairwise_map.mpr (h.ordered.imp fun {v w} hvw => ?_)
  unfold Precedes at hvw
  omega

/-- A value that occurs more often than the one behind the first `n` is one of them. -/
theorem mem_take (h : Ranking cells values) {n : ℕ} {v : String} (hv : some v ∈ cells)
    (hcount : ∀ k, (countsOf cells)[n]? = some k → k < cells.count (some v)) : v ∈ values.take n := by
  obtain ⟨i, hi, rfl⟩ := List.mem_iff_getElem.mp ((h.mem v).mpr hv)
  have hplace : (countsOf cells)[i]? = some (cells.count (some values[i])) := by
    rw [← h.counts_eq, List.getElem?_map, List.getElem?_eq_getElem hi]
    rfl
  obtain ⟨hlength, hvalue⟩ := List.getElem?_eq_some_iff.mp hplace
  rcases lt_or_ge i n with hlt | hge
  · exact List.mem_take_iff_getElem.mpr ⟨i, by omega, rfl⟩
  · -- otherwise the count at place `n` would be at least that of the value
    have hn : n < (countsOf cells).length := by omega
    have hless := hcount _ (List.getElem?_eq_getElem hn)
    rw [← hvalue] at hless
    rcases hge.lt_or_eq with hlt | rfl
    · have hle := List.pairwise_iff_getElem.mp (countsOf_pairwise cells) n i hn hlength hlt
      omega
    · exact absurd hless (lt_irrefl _)

end Ranking

/-- What two profiles of a column that is not numeric have in common that are of the same cells. -/
structure CategoryProfile.Agrees (cells : List (Option String)) (p q : CategoryProfile) : Prop where
  column : q.column = p.column
  distinct : q.distinct = p.distinct
  nullCount : q.nullCount = p.nullCount
  nullPercentage : q.nullPercentage = p.nullPercentage
  counts : q.mostFrequent.map ValueCount.count = p.mostFrequent.map ValueCount.count
  /-- A value that occurs more often than the sixth most frequent one, if there is one, is in both. -/
  listed : ∀ v, some v ∈ cells → (∀ k, (countsOf cells)[5]? = some k → k < cells.count (some v)) →
    ⟨v, cells.count (some v)⟩ ∈ p.mostFrequent ∧ ⟨v, cells.count (some v)⟩ ∈ q.mostFrequent

/-- The counts that a profile lists are the five greatest. -/
theorem mostFrequent_counts (column : String) (cells : List (Option String)) :
    (frequencies column cells).mostFrequent.map ValueCount.count = (countsOf cells).take 5 := by
  have hranking := ranking_ranked cells
  rw [mostFrequent_eq hranking, List.map_map, List.map_take, ← hranking.counts_eq]
  rfl

theorem mem_mostFrequent (column : String) {cells : List (Option String)} {v : String}
    (hv : some v ∈ cells) (hcount : ∀ k, (countsOf cells)[5]? = some k → k < cells.count (some v)) :
    ⟨v, cells.count (some v)⟩ ∈ (frequencies column cells).mostFrequent := by
  have hranking := ranking_ranked cells
  rw [mostFrequent_eq hranking]
  exact List.mem_map_of_mem (hranking.mem_take hv hcount)

theorem distinct_eq (column : String) (cells : List (Option String)) :
    (frequencies column cells).distinct = (countsOf cells).length := by
  rw [← (ranking_ranked cells).counts_eq, List.length_map, List.length_map,
    (Frequency.ranked_perm _).length_eq]
  rfl

/-- The profiles of the same cells in another order. -/
theorem frequencies_agrees (column : String) {cells cells' : List (Option String)}
    (h : cells'.Perm cells) :
    (frequencies column cells).Agrees cells (frequencies column cells') := by
  have hcounts := countsOf_perm h
  have hnulls : cells'.countP Option.isNone = cells.countP Option.isNone := h.countP_eq _
  refine ⟨rfl, ?_, hnulls, ?_, ?_, fun v hv hcount => ⟨mem_mostFrequent column hv hcount, ?_⟩⟩
  · rw [distinct_eq, distinct_eq, hcounts]
  · show nullPercentage _ _ = nullPercentage _ _
    rw [hnulls, h.length_eq]
  · rw [mostFrequent_counts, mostFrequent_counts, hcounts]
  · rw [← h.count_eq]
    refine mem_mostFrequent column (h.mem_iff.mpr hv) ?_
    rwa [hcounts, h.count_eq]

/-! ## The profiles of a table -/

/-- What two profiles of a column have in common that are of the same cells. -/
inductive ColumnProfile.Agrees (c : Column) : ColumnProfile → ColumnProfile → Prop
  | numeric {p q : NumericProfile} (numeric : c.kind.isNumeric = true) (agrees : p.Agrees q) :
      Agrees c (.numeric p) (.numeric q)
  | category {cells : List (Option String)} {p q : CategoryProfile} (texts : c.cells.texts = .ok cells)
      (agrees : p.Agrees cells q) : Agrees c (.category p) (.category q)

/-- A column of rearranged rows has a profile that agrees with that of the column. -/
theorem profile_arrange {rows : List ℕ} {c : Column} {p : ColumnProfile}
    (hrows : rows.Perm (List.range c.cells.height)) (hheld : c.cells.Held) (hp : c.profile = .ok p) :
    ∃ q, (c.arrange rows).profile = .ok q ∧ p.Agrees c q := by
  rcases Column.profile_cases hp with ⟨cells, hcells, rfl⟩ | ⟨cells, hnumbers, htexts, rfl⟩
  · rw [← Cells.length_numbers hcells] at hrows
    have hpicked : (c.arrange rows).cells.numbers = some (pick rows cells) := by
      rw [Column.arrange, Cells.numbers_arrange, hcells]
      rfl
    refine ⟨.numeric (describe c.name (pick rows cells)), ?_, .numeric ?_ ?_⟩
    · rw [Column.profile, hpicked]
      rfl
    · rw [← Column.isSome_numbers, hcells]
      rfl
    · exact describe_agrees c.name (pick_perm hrows) (numbers_finite hheld hcells)
  · rw [← Cells.length_texts htexts] at hrows
    have hnone : (c.arrange rows).cells.numbers = none := by
      rw [Column.arrange, Cells.numbers_arrange, hnumbers]
      rfl
    have hpicked : (c.arrange rows).cells.texts = .ok (pick rows cells) := by
      rw [Column.arrange, Cells.texts_arrange, htexts]
      rfl
    refine ⟨.category (frequencies c.name (pick rows cells)), ?_, .category htexts ?_⟩
    · rw [Column.profile, hnone, hpicked]
      rfl
    · exact frequencies_agrees c.name (pick_perm hrows)

/-- **The order of the rows does not matter** but for means, deviations, correlations and the choice
between values that are equally frequent. A table whose rows are put in another order has a summary, with
the kinds of columns that it had; each column has as many values and missing cells, least, middle and
greatest value are equal as numbers, there are as many distinct values and the counts that are listed are
the same; and each value that occurs more often than the sixth most frequent one is listed in both.
That integers are of the type of their column holds of every dataset that is loaded (`loadFile_held`). -/
theorem summarize_arrange {d : Dataset} {s : Summary} (hd : d.WellFormed)
    (hheld : ∀ c ∈ d.columns, c.cells.Held) (hs : summarize d = .ok s) {rows : List ℕ}
    (hrows : rows.Perm (List.range d.rowCount)) :
    (d.arrange rows).WellFormed ∧
      ∃ t, summarize (d.arrange rows) = .ok t ∧ t.columns.length = s.columns.length ∧
      (d.arrange rows).columns.map Column.kind = d.columns.map Column.kind ∧
      ∀ (i : ℕ) (c : Column), d.columns[i]? = some c →
        ∃ p q, s.columns[i]? = some p ∧ t.columns[i]? = some q ∧ p.Agrees c q := by
  obtain ⟨hall, -, -, -⟩ := (summarize_ok_iff d s).mp hs
  have harranged (c : Column) (hc : c ∈ d.columns) {p : ColumnProfile} (hp : c.profile = .ok p) :
      ∃ q, (c.arrange rows).profile = .ok q ∧ p.Agrees c q :=
    profile_arrange (by rwa [hd.height c hc]) (hheld c hc) hp
  obtain ⟨profiles, hprofiles⟩ : ∃ profiles,
      List.Forall₂ (fun c p => c.profile = .ok p) (d.arrange rows).columns profiles := by
    refine exists_profiles fun c hc => ?_
    obtain ⟨original, horiginal, rfl⟩ := List.mem_map.mp hc
    obtain ⟨p, hp⟩ := profile_of_mem hall horiginal
    obtain ⟨q, hq, -⟩ := harranged original horiginal hp
    exact ⟨q, hq⟩
  refine ⟨hd.arrange hrows, ⟨(d.arrange rows).rowCount, (d.arrange rows).numericColumns.map (·.name), profiles,
    .ofColumns (d.arrange rows).numericColumns⟩, ?_, ?_, ?_, ?_⟩
  · exact (summarize_ok_iff _ _).mpr ⟨hprofiles, rfl, rfl, rfl⟩
  · exact hprofiles.length_eq.symm.trans ((List.length_map _).trans hall.length_eq)
  · rw [Dataset.arrange, List.map_map]
    exact List.map_congr_left fun c _ => Column.kind_arrange rows c
  · intro i c hc
    obtain ⟨p, hp, hprofile⟩ := profile_at hall hc
    obtain ⟨q, hq, hagrees⟩ := harranged c (List.mem_of_getElem? hc) hprofile
    have hc' : (d.arrange rows).columns[i]? = some (c.arrange rows) := by
      rw [Dataset.arrange, List.getElem?_map, hc]
      rfl
    obtain ⟨q', hq', hprofile'⟩ := profile_at hprofiles hc'
    obtain rfl : q = q' := Except.ok.inj (hq.symm.trans hprofile')
    exact ⟨p, q, hp, hq', hagrees⟩

/-- The rows from the last to the first: a zero of either sign, and a value that occurs twice. -/
theorem summarize_arrange_reversed :
    let d : Dataset := ⟨"t.csv", none,
      [⟨"x", .float .f64 [some (Number.ofInt 0), some (Number.encode true 0 (-1074)), none]⟩,
        ⟨"w", .str [some "b", some "a", some "a"]⟩], [3]⟩
    ∃ s t p q, summarize d = .ok s ∧ summarize (d.arrange [2, 1, 0]) = .ok t ∧
      s.columns[0]? = some (.numeric p) ∧ t.columns[0]? = some (.numeric q) ∧ p.Agrees q ∧
      ∃ r, t.columns[1]? = some (.category r) ∧ ⟨"a", 2⟩ ∈ r.mostFrequent := by
  intro d
  have hd : d.WellFormed := ⟨by decide, rfl, by decide⟩
  have hheld : ∀ c ∈ d.columns, c.cells.Held := by
    simp only [d, List.forall_mem_cons]
    exact ⟨trivial, trivial, nofun⟩
  obtain ⟨s, hs⟩ : ∃ s, summarize d = .ok s := ⟨_, rfl⟩
  have hrows : [2, 1, 0].Perm (List.range d.rowCount) := by decide
  obtain ⟨-, t, ht, -, -, hagrees⟩ := summarize_arrange hd hheld hs hrows
  obtain ⟨p, q, hp, hq, hfirst⟩ := hagrees 0 _ rfl
  obtain ⟨p', q', hp', hq', hsecond⟩ := hagrees 1 _ rfl
  cases hfirst with
  | category htexts _ => cases htexts
  | numeric _ hfirst =>
    cases hsecond with
    | numeric hnumeric _ => cases hnumeric
    | category htexts hsecond =>
      cases htexts
      have hlength : (countsOf [some "b", some "a", some "a"]).length = 2 :=
        (countsOf_perm_map _).length_eq.trans (by decide)
      have hlisted := (hsecond.listed "a" (by decide) fun k hk => by
        rw [List.getElem?_eq_none (by rw [hlength]; decide)] at hk
        cases hk).2
      exact ⟨s, t, _, _, hs, ht, hp, hq, hfirst, _, hq', hlisted⟩

end TableProfile
