import TableProfile.Profile.Numeric
import TableProfile.Proofs.DoubleSums

/-!
# Sums and means of values

A sum begins with a zero and is bounded by its terms. A mean is the sum by the number of values, which is
one or more, so it is finite exactly if the sum is.

Results:
* `sum_within`, `mean_within`: sum and mean of bounded values.
* `mean_isFinite_iff`: a mean is finite exactly if the sum is.
-/
namespace TableProfile.Numeric

open Double

/-- What a sum begins with is zero. -/
theorem begin_zero :
    (Number.encode true 0 (-1074)).isFinite = true ∧ value (Number.encode true 0 (-1074)) = 0 := by
  have hnearest : Nearest 0 (((0 : ℕ) : ℝ) * 2 ^ (-1074 : ℤ)) := by
    rw [Nat.cast_zero, zero_mul]
    exact nearest_self representable_zero
  have hrounds := Number.encode_roundsTo true hnearest (by norm_num) le_rfl (Or.inr rfl)
  rw [signed_zero] at hrounds
  exact hrounds.zero

variable {values : List Float} {t : ℤ}

theorem sum_within (ht : -1074 ≤ t) (hmax : t + 55 < 1024) (h : ∀ v ∈ values, Within t v) :
    Within (t + 54) (sum values) :=
  foldl_add_within ht hmax h (Within.of_zero begin_zero)

theorem length_atLeast (hne : values ≠ []) : AtLeast 1 (Number.ofNat values.length) := by
  have hone : (1 : ℝ) ≤ values.length := by exact_mod_cast List.length_pos_iff.mpr hne
  exact (Number.ofNat_roundsTo values.length).atLeast representable_one hone (zero_le_one.trans hone)

theorem mean_within (ht : -1074 ≤ t) (hmax : t + 55 < 1024) (h : ∀ v ∈ values, Within t v)
    (hne : values ≠ []) : Within (t + 54) (mean values) :=
  (sum_within ht hmax h).div (length_atLeast hne) (by omega) (by omega)

/-- A finite double by one or more is finite. -/
theorem isFinite_div_iff {x z : Float} (hz : AtLeast 1 z) :
    (x / z).isFinite = true ↔ x.isFinite = true := by
  refine ⟨isFinite_of_div, fun hx => ?_⟩
  exact (hz.div one_pos hx (representable_value hx).abs (abs_value_lt x) (mul_one _).ge).1

theorem mean_isFinite_iff (hne : values ≠ []) :
    (mean values).isFinite = true ↔ (sum values).isFinite = true :=
  isFinite_div_iff (length_atLeast hne)

end TableProfile.Numeric
