import TableProfile.Proofs.DoubleLimits
import TableProfile.Proofs.LoadedTables
import TableProfile.Proofs.NumberRounding
import TableProfile.Proofs.Selection

/-!
# The order of least, middle and greatest value

The values of a numeric column are finite, and finite doubles are ordered as their numbers, so the sorted
values ascend. The median of an odd number of values is one of them. Of an even number it is half the sum
of the two middle ones: rounding does not move the sum past twice the one or the other, so half of it
lies between them, unless the sum is too large to be finite.

Results:
* `numbers_finite`: the numbers of a column are finite.
* `half_between`: half of a finite sum lies between its parts.
* `median_between_iff`: the median lies between the least and the greatest value exactly if the two
  middle values, where there are two, have a finite sum.
-/
namespace TableProfile

open Double

theorem natAbs_le_of_holds {t : IntType} {n : ℤ} (h : t.holds n = true) : n.natAbs ≤ 2 ^ 64 := by
  have hpow (k : ℕ) : Nat.pow 2 k = 2 ^ k := rfl
  cases t <;> simp only [IntType.holds, IntType.signed, IntType.bytes, hpow, if_true,
    Bool.false_eq_true, if_false, Bool.and_eq_true, decide_eq_true_eq] at h <;> omega

theorem ofInt_finite {t : IntType} {n : ℤ} (h : t.holds n = true) :
    (Number.ofInt n).isFinite = true := by
  have hn : |(n : ℝ)| ≤ 2 ^ (64 : ℤ) := by
    rw [← Int.cast_abs, ← Nat.cast_natAbs]
    exact_mod_cast natAbs_le_of_holds h
  exact ((Number.ofInt_roundsTo n).of_abs_le hn (representable_two_pow (by norm_num))
    (zpow_lt_zpow_right₀ one_lt_two (by norm_num))).1

/-- The numbers of a column are finite. -/
theorem numbers_finite {c : Cells} (h : c.Held) {cells : List (Option Float)}
    (hcells : c.numbers = some cells) : ∀ x ∈ present cells, x.isFinite = true := by
  intro x hx
  rw [present, List.mem_filterMap] at hx
  obtain ⟨cell, hcell, hid⟩ := hx
  obtain rfl : cell = some x := hid
  cases c with
  | int t numbers =>
    cases hcells
    obtain ⟨original, horiginal, hx⟩ := List.mem_map.mp hcell
    obtain ⟨n, rfl, rfl⟩ := Option.map_eq_some_iff.mp hx
    exact ofInt_finite (h (some n) horiginal)
  | float t numbers =>
    cases hcells
    obtain ⟨original, -, hx⟩ := List.mem_map.mp hcell
    obtain ⟨y, rfl, hy⟩ := Option.bind_eq_some_iff.mp hx
    rw [Cells.finite?] at hy
    split at hy
    · rename_i hfinite
      cases hy
      exact hfinite
    · cases hy
  | bool _ | str _ | cat _ | date _ | time _ | null _ | list _ => cases hcells

/-! ## Sorted values -/

theorem not_any_isNaN {xs : List Float} (h : ∀ x ∈ xs, x.isFinite = true) :
    xs.any Float.isNaN = false := by
  rw [List.any_eq_false]
  intro x hx
  rw [isNaN_of_isFinite (h x hx)]
  exact Bool.false_ne_true

theorem before_eq {x y : Float} (hx : x.isFinite = true) (hy : y.isFinite = true) :
    Numeric.before x y = decide (value x ≤ value y) := by
  rw [Numeric.before, ← decide_not, decide_eq_decide, lt_iff_value hy hx, not_lt]

theorem sorted_eq {xs : List Float} (h : ∀ x ∈ xs, x.isFinite = true) :
    Numeric.sorted xs = xs.mergeSort fun x y => decide (value x ≤ value y) := by
  rw [Numeric.sorted, if_neg (by rw [not_any_isNaN h]; exact Bool.false_ne_true)]
  have hmap := List.map_mergeSort (f := id) (l := xs) (r := Numeric.before)
    (s := fun x y => decide (value x ≤ value y)) fun x hx y hy => before_eq (h x hx) (h y hy)
  rwa [List.map_id, List.map_id] at hmap

theorem sorted_perm {xs : List Float} (h : ∀ x ∈ xs, x.isFinite = true) :
    (Numeric.sorted xs).Perm xs := by
  rw [sorted_eq h]
  exact List.mergeSort_perm _ _

/-- Sorted values ascend. -/
theorem sorted_ascends {xs : List Float} (h : ∀ x ∈ xs, x.isFinite = true) :
    (Numeric.sorted xs).Pairwise fun x y => value x ≤ value y := by
  rw [sorted_eq h]
  refine (List.pairwise_mergeSort ?_ ?_ xs).imp of_decide_eq_true
  · intro x y z hxy hyz
    exact decide_eq_true ((of_decide_eq_true hxy).trans (of_decide_eq_true hyz))
  · intro x y
    rw [Bool.or_eq_true, decide_eq_true_eq, decide_eq_true_eq]
    exact le_total _ _

/-! ## Half of a sum -/

theorem two_finite : (Number.ofNat 2).isFinite = true ∧ value (Number.ofNat 2) = 2 :=
  Number.ofNat_exact (by norm_num)

/-- Half of a finite sum lies between its parts. -/
theorem half_between {a b : Float} (ha : a.isFinite = true) (hb : b.isFinite = true)
    (hsum : (a + b).isFinite = true) (h : value a ≤ value b) :
    ((a + b) / Number.ofNat 2).isFinite = true ∧
      value a ≤ value ((a + b) / Number.ofNat 2) ∧ value ((a + b) / Number.ofNat 2) ≤ value b := by
  have hnearest := (add_roundsTo ha hb).nearest hsum
  have hlow : value a * 2 ^ (1 : ℤ) ≤ value (a + b) :=
    hnearest.ge ((representable_value ha).mul_two_pow zero_le_one) (by rw [zpow_one]; linarith)
  have hhigh : value (a + b) ≤ value b * 2 ^ (1 : ℤ) :=
    hnearest.le ((representable_value hb).mul_two_pow zero_le_one) (by rw [zpow_one]; linarith)
  rw [zpow_one] at hlow hhigh
  have hrounds := div_roundsTo hsum two_finite.1 (by rw [two_finite.2]; exact two_ne_zero)
  rw [two_finite.2] at hrounds
  have hlow' : value a ≤ value (a + b) / 2 := by linarith
  have hhigh' : value (a + b) / 2 ≤ value b := by linarith
  obtain ⟨hfinite, hhalf⟩ : ((a + b) / Number.ofNat 2).isFinite = true ∧
      Nearest (value (a + b) / 2) (value ((a + b) / Number.ofNat 2)) := by
    have hbound := abs_le_max_abs_abs hlow' hhigh'
    rcases max_choice |value a| |value b| with hmax | hmax <;> rw [hmax] at hbound
    · exact hrounds.of_abs_le hbound (representable_value ha).abs (abs_value_lt a)
    · exact hrounds.of_abs_le hbound (representable_value hb).abs (abs_value_lt b)
  exact ⟨hfinite, hhalf.ge (representable_value ha) hlow', hhalf.le (representable_value hb) hhigh'⟩

/-- Half of a sum that is too large is infinite, and does not lie between finite doubles. -/
theorem half_infinite {a b lo hi : Float} (ha : a.isFinite = true) (hb : b.isFinite = true)
    (hlo : lo.isFinite = true) (hhi : hi.isFinite = true) (hsum : (a + b).isFinite = false) :
    ¬ (lo ≤ (a + b) / Number.ofNat 2 ∧ (a + b) / Number.ofNat 2 ≤ hi) := by
  rintro ⟨hlow, hhigh⟩
  cases add_roundsTo ha hb with
  | finite hfinite _ =>
    rw [hsum] at hfinite
    cases hfinite
  | infinite s hunpack _ _ _ =>
    have hhalf := infinite_div hunpack two_finite.1 (by rw [two_finite.2]; exact two_pos)
    cases s with
    | positive => exact not_le_of_infinite hhalf hhi hhigh
    | negative => exact not_ge_of_infinite hhalf hlo hlow

/-! ## The median of sorted values -/

/-- The two middle values, if there are two, have a finite sum. -/
def MiddleSumFinite (sorted : List Float) : Prop :=
  ∀ a b, sorted.length % 2 = 0 → sorted[sorted.length / 2 - 1]? = some a →
    sorted[sorted.length / 2]? = some b → (a + b).isFinite = true

/-- Of ascending values the median lies between the first and the last one exactly if the sum of the
middle ones is finite. -/
theorem medianOf_between_iff {xs : List Float} (hne : xs ≠ []) (h : ∀ x ∈ xs, x.isFinite = true)
    (hascends : xs.Pairwise fun x y => value x ≤ value y) :
    ∃ lo m hi, xs.head? = some lo ∧ Numeric.medianOf xs = some m ∧ xs.getLast? = some hi ∧
      (lo ≤ m ∧ m ≤ hi ↔ MiddleSumFinite xs) := by
  have hpos : 0 < xs.length := List.length_pos_iff.mpr hne
  have hfinite (i : ℕ) (hi : i < xs.length) : xs[i].isFinite = true := h _ (List.getElem_mem hi)
  have hle (i j : ℕ) (hij : i ≤ j) (hj : j < xs.length) : value xs[i] ≤ value xs[j] := by
    rcases hij.lt_or_eq with hlt | rfl
    · exact List.pairwise_iff_getElem.mp hascends i j (by omega) hj hlt
    · exact le_rfl
  have hhead : xs.head? = some xs[0] := by rw [List.head?_eq_getElem?, List.getElem?_eq_getElem]
  have hlast : xs.getLast? = some (xs[xs.length - 1]) := by
    rw [List.getLast?_eq_getElem?, List.getElem?_eq_getElem]
  by_cases hodd : xs.length % 2 = 1
  · have hmedian : Numeric.medianOf xs = some (xs[xs.length / 2]) := by
      rw [Numeric.medianOf, if_pos hodd, List.getElem?_eq_getElem]
    refine ⟨_, _, _, hhead, hmedian, hlast, ⟨fun _ a b heven => by omega, fun _ => ?_⟩⟩
    rw [le_iff_value (hfinite _ _) (hfinite _ _), le_iff_value (hfinite _ _) (hfinite _ _)]
    exact ⟨hle _ _ (by omega) _, hle _ _ (by omega) _⟩
  · have hfirst : xs[xs.length / 2 - 1]? = some (xs[xs.length / 2 - 1]) :=
      List.getElem?_eq_getElem (by omega)
    have hsecond : xs[xs.length / 2]? = some (xs[xs.length / 2]) :=
      List.getElem?_eq_getElem (by omega)
    have hmedian : Numeric.medianOf xs =
        some ((xs[xs.length / 2 - 1] + xs[xs.length / 2]) / Number.ofNat 2) := by
      rw [Numeric.medianOf, if_neg hodd, hfirst, hsecond]
    refine ⟨_, _, _, hhead, hmedian, hlast, ?_⟩
    constructor
    · intro hbetween a b _ ha hb
      obtain rfl : xs[xs.length / 2 - 1] = a := Option.some.inj (hfirst.symm.trans ha)
      obtain rfl : xs[xs.length / 2] = b := Option.some.inj (hsecond.symm.trans hb)
      refine Bool.of_not_eq_false fun hsum => ?_
      exact half_infinite (hfinite _ _) (hfinite _ _) (hfinite _ _) (hfinite _ _) hsum hbetween
    · intro hmiddle
      have hsum := hmiddle _ _ (by omega) hfirst hsecond
      obtain ⟨hhalf, hlow, hhigh⟩ := half_between (hfinite _ _) (hfinite _ _) hsum
        (hle _ _ (by omega) (by omega))
      rw [le_iff_value (hfinite _ _) hhalf, le_iff_value hhalf (hfinite _ _)]
      exact ⟨(hle _ _ (by omega) _).trans hlow, hhigh.trans (hle _ _ (by omega) _)⟩

/-- **The median lies between the least and the greatest value** exactly if the two middle values, where
there are two, have a finite sum. Every numeric column of a table that has a value has the three figures,
in the profile at its own place. That integers are of the type of their column holds of every dataset
that is loaded (`loadFile_held`). -/
theorem median_between_iff {d : Dataset} {s : Summary} (h : summarize d = .ok s) {i : ℕ} {c : Column}
    (hc : d.columns[i]? = some c) (hheld : c.cells.Held) {cells : List (Option Float)}
    (hcells : c.cells.numbers = some cells) (hne : present cells ≠ []) :
    ∃ p, s.columns[i]? = some (.numeric p) ∧ p.column = c.name ∧
      ∃ least median greatest, p.least = some least ∧ p.median = some median ∧
        p.greatest = some greatest ∧ (least ≤ median ∧ median ≤ greatest ↔
          MiddleSumFinite (Numeric.sorted (present cells))) := by
  have hfinite := numbers_finite hheld hcells
  have hperm := sorted_perm hfinite
  have hprofile : s.columns[i]? = some (.numeric (describe c.name cells)) := by
    obtain ⟨p, hp, hok⟩ := profile_at ((summarize_ok_iff d s).mp h).1 hc
    rw [Column.profile, hcells, Except.ok.injEq] at hok
    rw [hp, hok]
  refine ⟨describe c.name cells, hprofile, rfl, medianOf_between_iff ?_ ?_ (sorted_ascends hfinite)⟩
  · intro hnil
    rw [hnil] at hperm
    exact hne hperm.nil_eq.symm
  · intro x hx
    exact hfinite x (hperm.mem_iff.mp hx)

theorem median_between_iff_three :
    let d : Dataset := ⟨"t.csv", none, [⟨"n", .int .i64 [some 5, none, some 1, some 2]⟩], [4]⟩
    ∃ s p least median greatest, summarize d = .ok s ∧ s.columns[0]? = some (.numeric p) ∧
      p.least = some least ∧ p.median = some median ∧ p.greatest = some greatest ∧
      least ≤ median ∧ median ≤ greatest := by
  intro d
  let c : Column := ⟨"n", .int .i64 [some 5, none, some 1, some 2]⟩
  let values := [Number.ofInt 5, Number.ofInt 1, Number.ofInt 2]
  obtain ⟨s, hs⟩ : ∃ s, summarize d = .ok s := ⟨_, rfl⟩
  have hheld : c.cells.Held := by
    show ∀ cell ∈ [some 5, none, some 1, some 2], cell.all IntType.i64.holds = true
    decide
  have hodd : MiddleSumFinite (Numeric.sorted values) := by
    have hlength : (Numeric.sorted values).length = 3 :=
      (sorted_perm (by decide +kernel)).length_eq
    intro a b heven
    rw [hlength] at heven
    cases heven
  obtain ⟨p, hp, -, least, median, greatest, hleast, hmedian, hgreatest, hiff⟩ :=
    median_between_iff hs (i := 0) (c := c) rfl hheld rfl (List.cons_ne_nil _ _)
  exact ⟨s, p, least, median, greatest, hs, hp, hleast, hmedian, hgreatest, hiff.mpr hodd⟩

/-- Two equal values whose sum is too large: the median is infinite, above the greatest value. -/
theorem median_above_greatest :
    let x := Number.nearest false (17 * Nat.pow 10 307) 1
    let d : Dataset := ⟨"t.csv", none, [⟨"a", .float .f64 [some x, some x]⟩], [2]⟩
    ∃ s p median, summarize d = .ok s ∧ s.columns[0]? = some (.numeric p) ∧
      p.median = some median ∧ p.greatest = some x ∧ ¬ median ≤ x := by
  intro x d
  have hpresent : present ([some x, some x].map (·.bind Cells.finite?)) = [x, x] := by decide +kernel
  have hsorted : Numeric.sorted [x, x] = [x, x] := by
    rw [Numeric.sorted, if_neg (by decide +kernel)]
    exact List.mergeSort_of_pairwise (by decide +kernel)
  have hmedian : Numeric.medianOf [x, x] = some (Number.infinity false) := by decide +kernel
  have hgreatest (y : Float) : [y, y].getLast? = some y := rfl
  refine ⟨_, describe "a" ([some x, some x].map (·.bind Cells.finite?)), Number.infinity false,
    rfl, rfl, ?_, ?_, by decide +kernel⟩
  · rw [describe, hpresent, hsorted, hmedian]
  · rw [describe, hpresent, hsorted]
    exact hgreatest x

end TableProfile
