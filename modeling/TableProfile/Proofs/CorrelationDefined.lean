import TableProfile.Proofs.CorrelationSums
import TableProfile.Proofs.DefinedPairs
import TableProfile.Proofs.Means
import TableProfile.Proofs.Selection

/-!
# When a correlation is defined

What can keep two columns that vary from having a correlation is a sum of squares that is rounded to zero
because the values are too close together, or a sum of products that is not finite because they are too
large. Of moderate values neither happens.

Results:
* `Moderate.spreads`, `Moderate.products_finite`: moderate values that vary have squares that are not
  zero, and finite sums of products.
* `moderate_ofInt`: integers that 53 bits hold are moderate.
* `pearson_defined_iff`: when a correlation is defined, and when a pair is missing from a table.
-/
namespace TableProfile

open Double

/-! ## Values that are neither too large nor too close together -/

/-- Finite values of at most `2^400`, different ones at least `2^(-536)` apart. -/
structure Moderate (values : List Float) : Prop where
  finite : ∀ v ∈ values, v.isFinite = true
  bounded : ∀ v ∈ values, |value v| ≤ 2 ^ (400 : ℤ)
  apart : ∀ v ∈ values, ∀ w ∈ values, value v ≠ value w → 2 ^ (-536 : ℤ) ≤ |value v - value w|

/-- The square of some deviation from the mean is not zero. -/
def Spreads (values : List Float) : Prop :=
  ∃ v ∈ values, ((v - Numeric.mean values) * (v - Numeric.mean values) == Number.ofNat 0) = false

namespace Moderate

variable {values : List Float}

theorem within (h : Moderate values) : ∀ v ∈ values, Within 400 v :=
  fun v hv => ⟨h.finite v hv, h.bounded v hv⟩

theorem mean_within (h : Moderate values) (hne : values ≠ []) : Within 454 (Numeric.mean values) :=
  Numeric.mean_within (by norm_num) (by norm_num) h.within hne

theorem deviation_within (h : Moderate values) {v : Float} (hv : v ∈ values) :
    Within 455 (v - Numeric.mean values) :=
  ((h.within v hv).mono (by norm_num)).sub (h.mean_within (List.ne_nil_of_mem hv)) (by norm_num)
    (by norm_num)

/-- Of values that differ at all, one is not rounded to the mean. -/
theorem spreads (h : Moderate values) (hvary : isConstant values = false) : Spreads values := by
  cases values with
  | nil => cases hvary
  | cons x rest =>
    obtain ⟨w, hw, hne⟩ := List.all_eq_false.mp hvary
    have hw' : w ∈ x :: rest := List.mem_cons_of_mem x hw
    have hx' : x ∈ x :: rest := List.mem_cons_self
    have hvalues : value w ≠ value x := fun heq =>
      hne ((beq_iff_value (h.finite w hw') (h.finite x hx')).mpr heq)
    have hmean := (h.mean_within (List.cons_ne_nil x rest)).finite
    have hapart := h.apart w hw' x hx' hvalues
    have htriangle := abs_sub_le (value w) (value (Numeric.mean (x :: rest))) (value x)
    rw [abs_sub_comm (value (Numeric.mean (x :: rest))) (value x)] at htriangle
    have hhalf : (2 : ℝ) ^ (-536 : ℤ) = 2 ^ (-537 : ℤ) + 2 ^ (-537 : ℤ) := by
      rw [← two_mul, ← zpow_one_add₀ two_ne_zero]
      norm_num
    -- Two values so far apart cannot both be near the mean.
    obtain ⟨v, hv, hfar⟩ : ∃ v ∈ x :: rest,
        2 ^ (-537 : ℤ) ≤ |value v - value (Numeric.mean (x :: rest))| := by
      rcases le_total (2 ^ (-537 : ℤ)) |value w - value (Numeric.mean (x :: rest))| with hle | hle
      · exact ⟨w, hw', hle⟩
      · exact ⟨x, hx', by linarith⟩
    have hfinite := (h.deviation_within hv).finite
    have hdeviation := ((sub_roundsTo (h.finite v hv) hmean).nearest hfinite).le_abs
      (representable_two_pow (by norm_num)) hfar
    refine ⟨v, hv, (mul_self_atLeast hfinite (representable_two_pow le_rfl) ?_).ne_zero
      (zpow_pos two_pos (-1074))⟩
    calc (2 : ℝ) ^ (-1074 : ℤ) = 2 ^ (-537 : ℤ) * 2 ^ (-537 : ℤ) := by
          rw [← zpow_add₀ two_ne_zero]
          norm_num
      _ ≤ |value (v - Numeric.mean (x :: rest))| * |value (v - Numeric.mean (x :: rest))| :=
          mul_self_le_mul_self (zpow_pos two_pos _).le hdeviation
      _ = _ := abs_mul_abs_self _

/-- The sum of the products of the deviations of moderate columns is finite. -/
theorem products_finite {rows : List (Float × Float)} (hx : Moderate (rows.map (·.1)))
    (hy : Moderate (rows.map (·.2))) : (products (deviations rows)).isFinite = true := by
  have hterm : ∀ p ∈ (deviations rows).map (fun d => d.1 * d.2), Within 910 p := by
    intro p hp
    obtain ⟨d, hd, rfl⟩ := List.mem_map.mp hp
    obtain ⟨row, hrow, rfl⟩ := List.mem_map.mp hd
    exact (hx.deviation_within (List.mem_map_of_mem hrow)).mul
      (hy.deviation_within (List.mem_map_of_mem hrow)) (by norm_num) (by norm_num)
  exact (foldl_add_within (by norm_num) (by norm_num) hterm (Within.of_zero zero_finite)).finite

end Moderate

/-- Integers that 53 bits hold are moderate. -/
theorem moderate_ofInt {numbers : List ℤ} (h : ∀ n ∈ numbers, |n| ≤ 2 ^ 53) :
    Moderate (numbers.map Number.ofInt) := by
  have hexact : ∀ v ∈ numbers.map Number.ofInt,
      ∃ n : ℤ, |n| ≤ 2 ^ 53 ∧ v.isFinite = true ∧ value v = n := by
    intro v hv
    obtain ⟨n, hn, rfl⟩ := List.mem_map.mp hv
    exact ⟨n, h n hn, Number.ofInt_exact (h n hn)⟩
  refine ⟨fun v hv => ?_, fun v hv => ?_, fun v hv w hw hne => ?_⟩
  · obtain ⟨n, -, hfinite, -⟩ := hexact v hv
    exact hfinite
  · obtain ⟨n, hn, -, hvalue⟩ := hexact v hv
    rw [hvalue]
    calc |(n : ℝ)| ≤ 2 ^ (53 : ℤ) := by exact_mod_cast hn
      _ ≤ 2 ^ (400 : ℤ) := zpow_le_zpow_right₀ one_le_two (by norm_num)
  · obtain ⟨n, -, -, hvalue⟩ := hexact v hv
    obtain ⟨m, -, -, hvalue'⟩ := hexact w hw
    rw [hvalue, hvalue'] at hne ⊢
    have hone : (1 : ℝ) ≤ |(n : ℝ) - m| := by
      exact_mod_cast Int.one_le_abs (sub_ne_zero.mpr fun heq => hne (by rw [heq]))
    calc (2 : ℝ) ^ (-536 : ℤ) ≤ 2 ^ (0 : ℤ) := zpow_le_zpow_right₀ one_le_two (by norm_num)
      _ = 1 := zpow_zero 2
      _ ≤ |(n : ℝ) - m| := hone

/-! ## Correlations -/

/-- Two rows or more, in which neither column is constant. -/
structure Varies (rows : List (Float × Float)) : Prop where
  count : 2 ≤ rows.length
  left : isConstant (rows.map (·.1)) = false
  right : isConstant (rows.map (·.2)) = false

/-- The arithmetic stays in the range of doubles: some square of each column is not rounded to zero, and
the sum of the products of the deviations is finite. -/
structure InRange (rows : List (Float × Float)) : Prop where
  left : Spreads (rows.map (·.1))
  right : Spreads (rows.map (·.2))
  products : (crossSums rows).xy.isFinite = true

theorem spreads_iff (values : List Float) : Spreads values ↔
    ∃ d ∈ values.map (· - Numeric.mean values), (d * d == Number.ofNat 0) = false := by
  constructor
  · rintro ⟨v, hv, hne⟩
    exact ⟨_, List.mem_map_of_mem hv, hne⟩
  · rintro ⟨d, hd, hne⟩
    obtain ⟨v, hv, rfl⟩ := List.mem_map.mp hd
    exact ⟨v, hv, hne⟩

theorem crossSums_isSome_iff (rows : List (Float × Float)) :
    (crossSums rows).coefficient.isSome = true ↔ InRange rows := by
  have hleft : (deviations rows).map (·.1) =
      (rows.map (·.1)).map (· - Numeric.mean (rows.map (·.1))) := by
    rw [deviations, List.map_map, List.map_map]
    rfl
  have hright : (deviations rows).map (·.2) =
      (rows.map (·.2)).map (· - Numeric.mean (rows.map (·.2))) := by
    rw [deviations, List.map_map, List.map_map]
    rfl
  have hproducts : (crossSums rows).xy = products (deviations rows) := by rw [crossSums_eq]
  rw [crossSums_eq, coefficient_isSome_iff, hleft, hright, ← spreads_iff, ← spreads_iff, ← hproducts]
  exact ⟨fun ⟨hx, hy, hxy⟩ => ⟨hx, hy, hxy⟩, fun ⟨hx, hy, hxy⟩ => ⟨hx, hy, hxy⟩⟩

theorem pearson_isSome_iff (x y : List (Option Float)) :
    (pearson x y).isSome = true ↔ Varies (completeRows x y) ∧ InRange (completeRows x y) := by
  rw [pearson, ← crossSums_isSome_iff]
  by_cases hrows : (completeRows x y).length < 2
  · rw [if_pos hrows]
    exact iff_of_false Bool.false_ne_true fun h => absurd h.1.count (by omega)
  · rw [if_neg hrows]
    by_cases hconstant : (isConstant ((completeRows x y).map (·.1)) ||
        isConstant ((completeRows x y).map (·.2))) = true
    · rw [if_pos hconstant]
      refine iff_of_false Bool.false_ne_true fun h => ?_
      rw [h.1.left, h.1.right] at hconstant
      cases hconstant
    · rw [if_neg hconstant]
      obtain ⟨hleft, hright⟩ := Bool.or_eq_false_iff.mp (Bool.of_not_eq_true hconstant)
      exact ⟨fun h => ⟨⟨by omega, hleft, hright⟩, h⟩, fun h => h.2⟩

/-- Moderate columns have a correlation where both vary. -/
theorem Moderate.isSome_pearson_iff {x y : List (Option Float)}
    (hx : Moderate ((completeRows x y).map (·.1))) (hy : Moderate ((completeRows x y).map (·.2))) :
    (pearson x y).isSome = true ↔ Varies (completeRows x y) := by
  rw [pearson_isSome_iff, and_iff_left_iff_imp]
  intro hvaries
  refine ⟨hx.spreads hvaries.left, hy.spreads hvaries.right, ?_⟩
  rw [crossSums_eq]
  exact Moderate.products_finite hx hy

/-- Two columns under different names look up their correlation. -/
theorem get?_summarize {d : Dataset} {s : Summary} (hs : summarize d = .ok s)
    (hnames : d.columnNames.Nodup) {c e : Column} (hc : c ∈ d.columns) (he : e ∈ d.columns)
    (hne : c.name ≠ e.name) {x y : List (Option Float)} (hx : c.cells.numbers = some x)
    (hy : e.cells.numbers = some y) : s.correlations.get? c.name e.name = pearson x y := by
  obtain ⟨-, -, -, hcorrelations⟩ := (summarize_ok_iff d s).mp hs
  have hmem {c : Column} (hc : c ∈ d.columns) {x : List (Option Float)}
      (hx : c.cells.numbers = some x) : (⟨c.name, x⟩ : NumericColumn) ∈ d.numericColumns :=
    List.mem_filterMap.mpr ⟨c, hc, by rw [Column.toNumeric?, hx]; rfl⟩
  rw [hcorrelations]
  exact CorrelationTable.get?_ofColumns (numeric_names_nodup hnames) (hmem hc hx) (hmem he hy)
    fun heq => hne (congrArg NumericColumn.name heq)

/-- **When a correlation is defined.** Two columns have one exactly if there are two rows or more where
both have a value, neither column is constant there, and the arithmetic stays in the range of doubles.
Of moderate values it always does. A pair of columns of a table is missing from its correlations for no
other reasons. -/
theorem pearson_defined_iff (x y : List (Option Float)) :
    ((pearson x y).isSome = true ↔ Varies (completeRows x y) ∧ InRange (completeRows x y)) ∧
      (Moderate ((completeRows x y).map (·.1)) → Moderate ((completeRows x y).map (·.2)) →
        ((pearson x y).isSome = true ↔ Varies (completeRows x y))) ∧
      ∀ (d : Dataset) (s : Summary) (c e : Column), summarize d = .ok s → d.columnNames.Nodup →
        c ∈ d.columns → e ∈ d.columns → c.name ≠ e.name → c.cells.numbers = some x →
        e.cells.numbers = some y → (s.correlations.get? c.name e.name = none ↔
          ¬ (Varies (completeRows x y) ∧ InRange (completeRows x y))) := by
  refine ⟨pearson_isSome_iff x y, Moderate.isSome_pearson_iff,
    fun d s c e hs hnames hc he hne hcx hey => ?_⟩
  rw [get?_summarize hs hnames hc he hne hcx hey, ← pearson_isSome_iff, Bool.not_eq_true,
    Option.isSome_eq_false_iff, Option.isNone_iff_eq_none]

theorem pearson_defined_iff_three :
    let c : Column := ⟨"x", .int .i64 [some 1, none, some 5, some 2]⟩
    let e : Column := ⟨"y", .int .i64 [some 3, some 7, some (-4), some 0]⟩
    let x := [some (Number.ofInt 1), none, some (Number.ofInt 5), some (Number.ofInt 2)]
    let y := [some (Number.ofInt 3), some (Number.ofInt 7), some (Number.ofInt (-4)),
      some (Number.ofInt 0)]
    Moderate ((completeRows x y).map (·.1)) ∧ Moderate ((completeRows x y).map (·.2)) ∧
      (pearson x y).isSome = true ∧
      ∃ s, summarize ⟨"t.csv", none, [c, e], [4]⟩ = .ok s ∧ s.correlations.get? "x" "y" ≠ none := by
  intro c e x y
  have hx : Moderate ((completeRows x y).map (·.1)) := @moderate_ofInt [1, 5, 2] (by decide)
  have hy : Moderate ((completeRows x y).map (·.2)) := @moderate_ofInt [3, -4, 0] (by decide)
  have hvaries : Varies (completeRows x y) :=
    ⟨by decide, by decide +kernel, by decide +kernel⟩
  obtain ⟨hdefined, hmoderate, hmissing⟩ := pearson_defined_iff x y
  have hsome := (hmoderate hx hy).mpr hvaries
  obtain ⟨s, hs⟩ : ∃ s, summarize ⟨"t.csv", none, [c, e], [4]⟩ = .ok s := ⟨_, rfl⟩
  refine ⟨hx, hy, hsome, s, hs, fun hnone => ?_⟩
  exact (hmissing _ s c e hs (by decide) List.mem_cons_self
    (List.mem_cons_of_mem _ List.mem_cons_self) (by decide) rfl rfl).mp hnone (hdefined.mp hsome)

/-- Two columns that vary, the first by so little that its squares are rounded to zero. -/
theorem pearson_of_tiny_values :
    let x := [some (Number.nearest false 1 (Nat.pow 10 200)),
      some (Number.nearest false 2 (Nat.pow 10 200))]
    let y := [some (Number.ofInt 1), some (Number.ofInt 2)]
    Varies (completeRows x y) ∧ pearson x y = none :=
  ⟨⟨by decide, by decide +kernel, by decide +kernel⟩, by decide +kernel⟩

end TableProfile
