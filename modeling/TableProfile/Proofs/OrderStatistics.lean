import Mathlib.Data.List.Perm.Subperm
import TableProfile.Proofs.MedianOrder

/-!
# Order statistics

The values of a numeric column are put in order by a comparison that takes what does not compare as equal
(`Numeric.order`). Only undefined numbers do not compare, and the values that reach the sort are finite,
so there the comparison is a total preorder of its own and never falls back.

In ascending order the value at place `i` has `i` values in front that are at most as large, and none
behind that is less. So it is the `i + 1`-th smallest, counted with multiplicity (`IsKth`), whatever the
order in which the values are given.

* `before_eq_order`: the sort asks for nothing but the comparison.
* `isKth_getElem`: what stands at a place of ascending values.
* `order_statistics`: the values that reach the sort compare, and what least, greatest and median are.
-/
namespace TableProfile

open Double

namespace Numeric

/-! ## Comparing -/

/-- How two doubles compare. An undefined number compares with nothing. -/
def compare? (x y : Float) : Option Ordering :=
  match decide (x ≤ y), decide (y ≤ x) with
  | true, true => some .eq
  | true, false => some .lt
  | false, true => some .gt
  | false, false => none

/-- The comparison of the sort: what does not compare counts as equal. -/
def order (x y : Float) : Ordering := (compare? x y).getD .eq

theorem compare?_eq (x y : Float) : compare? x y = x.toModel.unpack.compare y.toModel.unpack := by
  have hx := le_iff x y
  have hy := le_iff y x
  rw [compare_swap x.toModel.unpack] at hy
  rw [compare?]
  cases h : x.toModel.unpack.compare y.toModel.unpack with
  | none =>
    rw [h] at hx hy
    rw [decide_eq_false (mt hx.mp Bool.false_ne_true), decide_eq_false (mt hy.mp Bool.false_ne_true)]
  | some o =>
    rw [h] at hx hy
    cases o with
    | lt => rw [decide_eq_true (hx.mpr rfl), decide_eq_false (mt hy.mp Bool.false_ne_true)]
    | eq => rw [decide_eq_true (hx.mpr rfl), decide_eq_true (hy.mpr rfl)]
    | gt => rw [decide_eq_false (mt hx.mp Bool.false_ne_true), decide_eq_true (hy.mpr rfl)]

theorem compare?_swap (x y : Float) : compare? y x = (compare? x y).map Ordering.swap := by
  rw [compare?, compare?]
  cases decide (x ≤ y) <;> cases decide (y ≤ x) <;> rfl

theorem order_swap (x y : Float) : order y x = (order x y).swap := by
  rw [order, order, compare?_swap]
  cases compare? x y <;> rfl

/-- A value may stand before another unless the comparison puts it behind. -/
theorem before_eq_order (x y : Float) : before x y = (order x y).isLE := by
  have hlt : y < x ↔ x.toModel.unpack.compare y.toModel.unpack = some .gt := by
    rw [lt_iff, compare_swap x.toModel.unpack]
    cases x.toModel.unpack.compare y.toModel.unpack with
    | none => simp
    | some o => cases o <;> simp
  rw [before, order, compare?_eq]
  cases h : x.toModel.unpack.compare y.toModel.unpack with
  | none =>
    rw [h] at hlt
    rw [decide_eq_false (mt hlt.mp (Option.some_ne_none _).symm)]
    rfl
  | some o =>
    rw [h, Option.some.injEq] at hlt
    cases o with
    | lt | eq =>
      rw [decide_eq_false (mt hlt.mp Ordering.noConfusion)]
      rfl
    | gt =>
      rw [decide_eq_true (hlt.mpr rfl)]
      rfl

theorem isSome_compare? {x y : Float} (hx : x.isNaN = false) (hy : y.isNaN = false) :
    (compare? x y).isSome = true := by
  obtain ⟨o, ho⟩ := isSome_compare (a := x.toModel.unpack) (b := y.toModel.unpack) hx hy
  rw [compare?_eq, ho]
  rfl

theorem order_isLE {x y : Float} (hx : x.isFinite = true) (hy : y.isFinite = true) :
    (order x y).isLE = true ↔ value x ≤ value y := by
  rw [← before_eq_order, before_eq hx hy, decide_eq_true_eq]

/-- Values on which the comparison of the sort is a total preorder that never falls back. -/
structure Ordered (xs : List Float) : Prop where
  finite : ∀ x ∈ xs, x.isFinite = true
  compares : ∀ x ∈ xs, ∀ y ∈ xs, (compare? x y).isSome = true
  swaps : ∀ x ∈ xs, ∀ y ∈ xs, order y x = (order x y).swap
  total : ∀ x ∈ xs, ∀ y ∈ xs, (order x y).isLE = true ∨ (order y x).isLE = true
  trans : ∀ x ∈ xs, ∀ y ∈ xs, ∀ z ∈ xs, (order x y).isLE = true → (order y z).isLE = true →
    (order x z).isLE = true
  sorts : sorted xs = xs.mergeSort fun x y => (order x y).isLE

theorem ordered_of_finite {xs : List Float} (h : ∀ x ∈ xs, x.isFinite = true) : Ordered xs where
  finite := h
  compares x hx y hy := isSome_compare? (isNaN_of_isFinite (h x hx)) (isNaN_of_isFinite (h y hy))
  swaps x _ y _ := order_swap x y
  total x hx y hy := by
    rw [order_isLE (h x hx) (h y hy), order_isLE (h y hy) (h x hx)]
    exact le_total _ _
  trans x hx y hy z hz := by
    rw [order_isLE (h x hx) (h y hy), order_isLE (h y hy) (h z hz), order_isLE (h x hx) (h z hz)]
    exact le_trans
  sorts := by
    have horder : before = fun x y => (order x y).isLE := funext₂ before_eq_order
    rw [sorted, if_neg (by rw [not_any_isNaN h]; exact Bool.false_ne_true), horder]

end Numeric

/-! ## Places in the order of the values -/

/-- The `k`-th smallest of the values, counted from one with multiplicity: fewer than `k` values are
less, and `k` of them or more are at most as large. -/
structure IsKth (xs : List Float) (k : ℕ) (v : Float) : Prop where
  mem : v ∈ xs
  less : xs.countP (fun x => decide (x < v)) < k
  atMost : k ≤ xs.countP fun x => decide (x ≤ v)

section
variable {xs ys : List Float}

theorem IsKth.perm {k : ℕ} {v : Float} (h : IsKth xs k v) (hperm : xs.Perm ys) : IsKth ys k v where
  mem := hperm.mem_iff.mp h.mem
  less := by
    rw [← hperm.countP_eq]
    exact h.less
  atMost := by
    rw [← hperm.countP_eq]
    exact h.atMost

/-- The values that are not less than the `k`-th smallest are at least as large. -/
theorem IsKth.atLeast {k : ℕ} {v : Float} (h : IsKth xs k v) (hfinite : ∀ x ∈ xs, x.isFinite = true) :
    xs.length + 1 ≤ k + xs.countP fun x => decide (v ≤ x) := by
  have hsplit : xs.length = xs.countP (fun x => decide (x < v)) + xs.countP fun x => decide (v ≤ x) := by
    rw [List.length_eq_countP_add_countP fun x => decide (x < v)]
    refine congrArg _ (List.countP_congr fun x hx => ?_)
    rw [decide_eq_true_eq, decide_eq_true_eq, decide_eq_true_eq, lt_iff_value (hfinite x hx) (hfinite v h.mem),
      le_iff_value (hfinite v h.mem) (hfinite x hx), not_lt]
  have hless := h.less
  omega

/-- A value of ascending ones, by how many stand in front of it. -/
theorem isKth_of_ascends {front behind : List Float} {v : Float}
    (hascends : (front ++ v :: behind).Pairwise fun x y => value x ≤ value y)
    (hfinite : ∀ x ∈ front ++ v :: behind, x.isFinite = true) :
    IsKth (front ++ v :: behind) (front.length + 1) v := by
  have hv : v.isFinite = true := hfinite v (List.mem_append_right _ List.mem_cons_self)
  obtain ⟨-, hbehind, hfront⟩ := List.pairwise_append.mp hascends
  refine ⟨List.mem_append_right _ List.mem_cons_self, ?_, ?_⟩
  · -- what is less stands in front
    have hnone : (v :: behind).countP (fun x => decide (x < v)) = 0 := by
      refine List.countP_eq_zero.mpr fun x hx => ?_
      rw [decide_eq_true_eq, lt_iff_value (hfinite x (List.mem_append_right _ hx)) hv, not_lt]
      rcases List.mem_cons.mp hx with rfl | hx
      · exact le_rfl
      · exact List.rel_of_pairwise_cons hbehind hx
    have hsome : front.countP (fun x => decide (x < v)) ≤ front.length := List.countP_le_length
    rw [List.countP_append, hnone]
    omega
  · -- what stands in front is at most as large, and so is the value itself
    have hall : front.countP (fun x => decide (x ≤ v)) = front.length := by
      refine List.countP_eq_length.mpr fun x hx => ?_
      rw [decide_eq_true_eq, le_iff_value (hfinite x (List.mem_append_left _ hx)) hv]
      exact hfront x hx v List.mem_cons_self
    have hself : 0 < (v :: behind).countP fun x => decide (x ≤ v) :=
      List.countP_pos_iff.mpr ⟨v, List.mem_cons_self, by rw [decide_eq_true_eq, le_iff_value hv hv]⟩
    rw [List.countP_append, hall]
    omega

/-- The value at a place of ascending values. -/
theorem isKth_getElem (hascends : xs.Pairwise fun x y => value x ≤ value y)
    (hfinite : ∀ x ∈ xs, x.isFinite = true) {i : ℕ} (hi : i < xs.length) : IsKth xs (i + 1) xs[i] := by
  have hsplit : xs.take i ++ xs[i] :: xs.drop (i + 1) = xs := by
    rw [List.getElem_cons_drop, List.take_append_drop]
  have hkth : IsKth (xs.take i ++ xs[i] :: xs.drop (i + 1)) ((xs.take i).length + 1) xs[i] :=
    isKth_of_ascends (by rwa [hsplit]) (by rwa [hsplit])
  rwa [hsplit, List.length_take, Nat.min_eq_left hi.le] at hkth

end

/-! ## Sorted values -/

/-- Finite values in ascending order, the same ones as given. -/
structure Sorts (sorted given : List Float) : Prop where
  perm : sorted.Perm given
  ascends : sorted.Pairwise fun x y => value x ≤ value y
  finite : ∀ x ∈ given, x.isFinite = true

theorem sorts_sorted {xs : List Float} (h : ∀ x ∈ xs, x.isFinite = true) : Sorts (Numeric.sorted xs) xs :=
  ⟨sorted_perm h, sorted_ascends h, h⟩

namespace Sorts

variable {ys xs : List Float}

theorem isKth (h : Sorts ys xs) {i : ℕ} (hi : i < ys.length) : IsKth xs (i + 1) ys[i] :=
  (isKth_getElem h.ascends (fun x hx => h.finite x (h.perm.mem_iff.mp hx)) hi).perm h.perm

theorem getElem_le (h : Sorts ys xs) {i j : ℕ} (hij : i ≤ j) (hj : j < ys.length) : ys[i] ≤ ys[j] := by
  have hfinite (k : ℕ) (hk : k < ys.length) : ys[k].isFinite = true :=
    h.finite _ (h.perm.mem_iff.mp (List.getElem_mem hk))
  rw [le_iff_value (hfinite _ _) (hfinite _ _)]
  rcases hij.lt_or_eq with hlt | rfl
  · exact List.pairwise_iff_getElem.mp h.ascends i j (by omega) hj hlt
  · exact le_rfl

theorem exists_place (h : Sorts ys xs) {x : Float} (hx : x ∈ xs) :
    ∃ (i : ℕ) (hi : i < ys.length), ys[i] = x :=
  List.mem_iff_getElem.mp (h.perm.mem_iff.mpr hx)

theorem head (h : Sorts ys xs) (hne : xs ≠ []) : ∃ lo ∈ xs, ys.head? = some lo ∧ ∀ x ∈ xs, lo ≤ x := by
  have hpos : 0 < ys.length := by
    rw [h.perm.length_eq]
    exact List.length_pos_iff.mpr hne
  refine ⟨ys[0], (h.isKth hpos).mem, ?_, fun x hx => ?_⟩
  · rw [List.head?_eq_getElem?, List.getElem?_eq_getElem]
  · obtain ⟨i, hi, rfl⟩ := h.exists_place hx
    exact h.getElem_le (Nat.zero_le i) hi

theorem last (h : Sorts ys xs) (hne : xs ≠ []) : ∃ hi ∈ xs, ys.getLast? = some hi ∧ ∀ x ∈ xs, x ≤ hi := by
  have hpos : 0 < ys.length := by
    rw [h.perm.length_eq]
    exact List.length_pos_iff.mpr hne
  have hlast : ys.length - 1 < ys.length := by omega
  refine ⟨ys[ys.length - 1], (h.isKth hlast).mem, ?_, fun x hx => ?_⟩
  · rw [List.getLast?_eq_getElem?, List.getElem?_eq_getElem]
  · obtain ⟨i, hi, rfl⟩ := h.exists_place hx
    exact h.getElem_le (by omega) hlast

/-- Of an odd number of values the median is one that has half of them on either side. -/
theorem median_odd (h : Sorts ys xs) (hodd : xs.length % 2 = 1) :
    ∃ m ∈ xs, Numeric.medianOf ys = some m ∧
      (xs.length + 1) / 2 ≤ xs.countP (fun x => decide (x ≤ m)) ∧
      (xs.length + 1) / 2 ≤ xs.countP (fun x => decide (m ≤ x)) := by
  have hlength := h.perm.length_eq
  have hmiddle : ys.length / 2 < ys.length := by omega
  have hkth := h.isKth hmiddle
  have hatMost := hkth.atMost
  have hatLeast := hkth.atLeast h.finite
  refine ⟨ys[ys.length / 2], hkth.mem, ?_, by omega, by omega⟩
  rw [Numeric.medianOf, if_pos (by omega), List.getElem?_eq_getElem]

/-- Of an even number of values the median is the mean of the two middle ones. -/
theorem median_even (h : Sorts ys xs) (hne : xs ≠ []) (heven : xs.length % 2 = 0) :
    ∃ a b, [a, b].Subperm xs ∧ a ≤ b ∧ IsKth xs (xs.length / 2) a ∧ IsKth xs (xs.length / 2 + 1) b ∧
      Numeric.medianOf ys = some ((a + b) / Number.ofNat 2) := by
  have hlength := h.perm.length_eq
  have hpos : 0 < xs.length := List.length_pos_iff.mpr hne
  obtain ⟨k, hk⟩ : ∃ k, xs.length / 2 = k + 1 := ⟨xs.length / 2 - 1, by omega⟩
  have hfirst : k < ys.length := by omega
  have hsecond : k + 1 < ys.length := by omega
  rw [hk]
  refine ⟨ys[k], ys[k + 1], ?_, h.getElem_le (by omega) hsecond, h.isKth hfirst, h.isKth hsecond, ?_⟩
  · have hdrop : ys.drop k = ys[k] :: ys[k + 1] :: ys.drop (k + 2) := by
      rw [List.drop_eq_getElem_cons hfirst, List.drop_eq_getElem_cons hsecond]
    have hsublist : [ys[k], ys[k + 1]].Sublist (ys.drop k) := by
      rw [hdrop]
      exact ((List.nil_sublist _).cons_cons _).cons_cons _
    exact (hsublist.trans (List.drop_sublist k ys)).subperm.trans h.perm.subperm
  · rw [Numeric.medianOf, if_neg (by omega), hlength, hk, Nat.add_sub_cancel,
      List.getElem?_eq_getElem hfirst, List.getElem?_eq_getElem hsecond]

end Sorts

/-! ## The figures of a profile -/

/-- What least, greatest and median of a profile are among the values they are taken from. -/
structure NumericProfile.TellsOrder (p : NumericProfile) (xs : List Float) : Prop where
  /-- The places that are read in the sorted values are places of them. -/
  inRange : 0 < (Numeric.sorted xs).length ∧ xs.length - 1 < (Numeric.sorted xs).length ∧
    xs.length / 2 < (Numeric.sorted xs).length ∧ (xs.length % 2 = 0 → 1 ≤ xs.length / 2)
  least : ∃ lo ∈ xs, p.least = some lo ∧ ∀ x ∈ xs, lo ≤ x
  greatest : ∃ hi ∈ xs, p.greatest = some hi ∧ ∀ x ∈ xs, x ≤ hi
  odd : xs.length % 2 = 1 → ∃ m ∈ xs, p.median = some m ∧
    (xs.length + 1) / 2 ≤ xs.countP (fun x => decide (x ≤ m)) ∧
    (xs.length + 1) / 2 ≤ xs.countP (fun x => decide (m ≤ x))
  even : xs.length % 2 = 0 → ∃ a b, [a, b].Subperm xs ∧ a ≤ b ∧ IsKth xs (xs.length / 2) a ∧
    IsKth xs (xs.length / 2 + 1) b ∧ p.median = some ((a + b) / Number.ofNat 2)

theorem describe_tellsOrder (column : String) {cells : List (Option Float)} (hne : present cells ≠ [])
    (h : ∀ x ∈ present cells, x.isFinite = true) :
    (describe column cells).TellsOrder (present cells) where
  inRange := by
    have hpos : 0 < (present cells).length := List.length_pos_iff.mpr hne
    have hlength := (sorted_perm h).length_eq
    omega
  least := (sorts_sorted h).head hne
  greatest := (sorts_sorted h).last hne
  odd := (sorts_sorted h).median_odd
  even := (sorts_sorted h).median_even hne

/-- **Order statistics.** In a table that has a summary, the values of a numeric column that reach the
sort are finite and compare, so the comparison is a total preorder of them and never falls back. Integers
are of the type of their column, as in every table that is loaded (`loadFile_held`). And wherever the
present values are finite and there is one, the figures are places in their order: the least and the
greatest value bound all others, the median of an odd number of values has half of them on either side,
and of an even number it is the mean of the two in the middle. -/
theorem order_statistics :
    (∀ (d : Dataset) (s : Summary), summarize d = .ok s → ∀ (i : ℕ) (c : Column) (cells : List (Option Float)),
      d.columns[i]? = some c → c.cells.Held → c.cells.numbers = some cells →
        s.columns[i]? = some (.numeric (describe c.name cells)) ∧ Numeric.Ordered (present cells)) ∧
      ∀ (column : String) (cells : List (Option Float)), present cells ≠ [] →
        (∀ x ∈ present cells, x.isFinite = true) →
          (describe column cells).TellsOrder (present cells) := by
  refine ⟨fun d s hs i c cells hc hheld hcells => ⟨?_, ?_⟩, fun column cells => describe_tellsOrder column⟩
  · obtain ⟨p, hp, hok⟩ := profile_at ((summarize_ok_iff d s).mp hs).1 hc
    rw [Column.profile, hcells, Except.ok.injEq] at hok
    rw [hp, hok]
  · exact Numeric.ordered_of_finite (numbers_finite hheld hcells)

theorem order_statistics_four :
    let d : Dataset := ⟨"t.csv", none, [⟨"n", .int .i64 [some 5, none, some 1, some 2, some 5]⟩], [5]⟩
    let xs := [Number.ofInt 5, Number.ofInt 1, Number.ofInt 2, Number.ofInt 5]
    ∃ s p, summarize d = .ok s ∧ s.columns[0]? = some (.numeric p) ∧ Numeric.Ordered xs ∧
      (∃ lo ∈ xs, p.least = some lo ∧ ∀ x ∈ xs, lo ≤ x) ∧
      ∃ a b, [a, b].Subperm xs ∧ a ≤ b ∧ IsKth xs 2 a ∧ IsKth xs 3 b ∧
        p.median = some ((a + b) / Number.ofNat 2) := by
  intro d xs
  let cells := [some (Number.ofInt 5), none, some (Number.ofInt 1), some (Number.ofInt 2),
    some (Number.ofInt 5)]
  obtain ⟨s, hs⟩ : ∃ s, summarize d = .ok s := ⟨_, rfl⟩
  have hheld : (Cells.int .i64 [some 5, none, some 1, some 2, some 5]).Held := by
    show ∀ cell ∈ [some 5, none, some 1, some 2, some 5], cell.all IntType.i64.holds = true
    decide
  obtain ⟨hp, hordered⟩ := order_statistics.1 d s hs 0 _ cells rfl hheld rfl
  have htells := order_statistics.2 "n" cells (List.cons_ne_nil _ _) hordered.finite
  have hfour : (present cells).length = 4 := rfl
  have heven := htells.even (by rw [hfour])
  rw [hfour] at heven
  exact ⟨s, _, hs, hp, hordered, htells.least, heven⟩

end TableProfile
