import Mathlib.Tactic.Positivity
import TableProfile.Number.Read
import TableProfile.Proofs.NumberRounding

/-!
# The doubles of decimal numerals

A numeral stands for digits times a power of ten, and its double is nearest to that number. A numeral with an
exponent far out of range is not computed: the power of ten that its digits lie at is estimated from their
binary length, from above to find that it is nearest to zero, and from below to find that it is too large.

* `isTiny_le`, `isHuge_le`: what the estimates say.
* `toDouble_roundsTo`: the double of a numeral is nearest to it.
-/
namespace TableProfile.Number

/-! ## Powers of two and ten -/

/-- A bound between two powers gives bounds between all. -/
theorem two_pow_lt_ten_pow {m n : ℕ} (hm : 0 < m) (h : 2 ^ m ≤ 10 ^ n) (k : ℕ) :
    2 ^ k < 10 ^ (k * n / m + 1) := by
  refine lt_of_pow_lt_pow_left₀ m (Nat.zero_le _) ?_
  calc (2 ^ k) ^ m = (2 ^ m) ^ k := by rw [← pow_mul, ← pow_mul, Nat.mul_comm]
    _ ≤ (10 ^ n) ^ k := Nat.pow_le_pow_left h k
    _ = 10 ^ (k * n) := by rw [← pow_mul, Nat.mul_comm]
    _ < 10 ^ ((k * n / m + 1) * m) := by
      refine Nat.pow_lt_pow_right (by norm_num) ?_
      rw [Nat.mul_comm (k * n / m + 1)]
      exact Nat.lt_mul_div_succ (k * n) hm
    _ = (10 ^ (k * n / m + 1)) ^ m := pow_mul _ _ _

theorem ten_pow_le_two_pow {m n : ℕ} (hm : 0 < m) (h : 10 ^ n ≤ 2 ^ m) (k : ℕ) :
    10 ^ (k * n / m) ≤ 2 ^ k := by
  refine le_of_pow_le_pow_left₀ hm.ne' (Nat.zero_le _) ?_
  calc (10 ^ (k * n / m)) ^ m = 10 ^ (k * n / m * m) := (pow_mul _ _ _).symm
    _ ≤ 10 ^ (k * n) := Nat.pow_le_pow_right (by norm_num) (Nat.div_mul_le_self _ _)
    _ = (10 ^ n) ^ k := by rw [← pow_mul, Nat.mul_comm]
    _ ≤ (2 ^ m) ^ k := Nat.pow_le_pow_left h k
    _ = (2 ^ k) ^ m := by rw [← pow_mul, ← pow_mul, Nat.mul_comm]

/-! ## Estimates -/

theorem isTiny_le {digits : ℕ} {exponent : ℤ} (h : isTiny digits exponent = true) :
    (digits : ℝ) * 10 ^ exponent ≤ 2 ^ (-1075 : ℤ) := by
  rcases Nat.eq_zero_or_pos digits with rfl | hpos
  · rw [Nat.cast_zero, zero_mul]
    positivity
  · have hexponent : (digits.log2 : ℤ) * 30103 / 100000 + exponent < -350 := by
      simpa [isTiny, hpos.ne'] using h
    have hlog : digits < 2 ^ (digits.log2 + 1) := Nat.lt_log2_self
    have hten : 2 ^ digits.log2 < 10 ^ (digits.log2 * 30103 / 100000 + 1) :=
      two_pow_lt_ten_pow (by norm_num) (by decide +kernel) digits.log2
    generalize hk : digits.log2 * 30103 / 100000 = k at hten
    have hk' : exponent ≤ -351 - k := by omega
    have hdigits : (digits : ℝ) ≤ 2 * 10 ^ (k + 1) := by
      have hnat : digits ≤ 2 * 10 ^ (k + 1) := by
        rw [pow_succ] at hlog
        omega
      exact_mod_cast hnat
    calc (digits : ℝ) * 10 ^ exponent ≤ 2 * 10 ^ (k + 1) * 10 ^ (-351 - k : ℤ) := by
          refine mul_le_mul hdigits ?_ (by positivity) (by positivity)
          exact zpow_le_zpow_right₀ (by norm_num) hk'
      _ = 2 * 10 ^ (-350 : ℤ) := by
          rw [mul_assoc, ← zpow_natCast, ← zpow_add₀ (by norm_num)]
          congr 2
          push_cast
          ring
      _ ≤ 2 ^ (-1075 : ℤ) := by
        have hpowers : (2 : ℝ) * 2 ^ 1075 ≤ 10 ^ 350 := by
          have hnat : 2 * 2 ^ 1075 ≤ 10 ^ 350 := by decide +kernel
          exact_mod_cast hnat
        rw [zpow_neg, zpow_neg, ← div_eq_mul_inv, div_le_iff₀ (by positivity), inv_mul_eq_div,
          le_div_iff₀ (by positivity)]
        exact hpowers

theorem isHuge_le {digits : ℕ} {exponent : ℤ} (hpos : 0 < digits) (h : isHuge digits exponent = true) :
    (2 : ℝ) ^ (1024 : ℤ) ≤ digits * 10 ^ exponent := by
  have hexponent : 320 < (digits.log2 : ℤ) * 3 / 10 + exponent := by simpa [isHuge] using h
  have hlog : 2 ^ digits.log2 ≤ digits := Nat.log2_self_le hpos.ne'
  have hten : 10 ^ (digits.log2 * 3 / 10) ≤ 2 ^ digits.log2 :=
    ten_pow_le_two_pow (by norm_num) (by norm_num) digits.log2
  generalize hk : digits.log2 * 3 / 10 = k at hten
  have hk' : (321 - k : ℤ) ≤ exponent := by omega
  have hdigits : (10 : ℝ) ^ k ≤ digits := by exact_mod_cast hten.trans hlog
  have hpowers : (2 : ℝ) ^ 1024 ≤ 10 ^ 321 := by
    have hnat : 2 ^ 1024 ≤ 10 ^ 321 := by decide +kernel
    exact_mod_cast hnat
  calc (2 : ℝ) ^ (1024 : ℤ) ≤ 10 ^ (321 : ℤ) := hpowers
    _ = 10 ^ k * 10 ^ (321 - k : ℤ) := by
        rw [← zpow_natCast, ← zpow_add₀ (by norm_num)]
        congr 1
        ring
    _ ≤ digits * 10 ^ exponent := by
        refine mul_le_mul hdigits ?_ (by positivity) (by positivity)
        exact zpow_le_zpow_right₀ (by norm_num) hk'

/-! ## Numerals -/

open Double

theorem quotientOf_value (digits : ℕ) (exponent : ℤ) : 0 < (quotientOf digits exponent).2 ∧
    ((quotientOf digits exponent).1 : ℝ) / (quotientOf digits exponent).2 = digits * 10 ^ exponent := by
  unfold quotientOf
  split
  · rename_i hneg
    obtain ⟨k, rfl⟩ : ∃ k : ℕ, exponent = -(k : ℤ) := ⟨(-exponent).toNat, by omega⟩
    refine ⟨Nat.pow_pos (by norm_num), ?_⟩
    show (digits : ℝ) / ((10 ^ (- -(k : ℤ)).toNat : ℕ) : ℝ) = _
    rw [neg_neg, Int.toNat_natCast, zpow_neg, zpow_natCast, div_eq_mul_inv]
    push_cast
    rfl
  · rename_i hneg
    obtain ⟨k, rfl⟩ : ∃ k : ℕ, exponent = k := ⟨exponent.toNat, by omega⟩
    refine ⟨Nat.one_pos, ?_⟩
    show ((digits * 10 ^ (k : ℤ).toNat : ℕ) : ℝ) / ((1 : ℕ) : ℝ) = _
    rw [Int.toNat_natCast, zpow_natCast]
    push_cast
    rw [div_one]

/-- A number that is too large is rounded to infinity. -/
theorem infinity_roundsTo (negative : Bool) {num den : ℕ} (hden : 0 < den)
    (h : (2 : ℝ) ^ (1024 : ℤ) ≤ num / den) :
    RoundsTo (signed (signOf negative) (num / den)) (infinity negative) := by
  have hunpack : (infinity negative).toModel.unpack = .infinity (signOf negative) := by
    rw [infinity, encode_eq]
    exact unpack_ofMagnitude_infinite negative (by decide)
  have hlarge : Representable ((2 : ℝ) ^ (1024 : ℤ)) := representable_two_pow (by norm_num)
  -- The nearest number is the one that exact division finds.
  cases nearest_roundsTo false num hden with
  | finite _ hnearest =>
    have hge := hnearest.ge hlarge h
    exact absurd (lt_of_le_of_lt (hge.trans (le_abs_self _)) (abs_value_lt _)) (lt_irrefl _)
  | infinite s _ r hnearest hr =>
    cases s with
    | positive => exact .infinite _ hunpack r (by rwa [signed_signed]) hr
    | negative =>
      have hnonpos : signed .negative (signed (signOf false) ((num : ℝ) / den)) ≤ 0 := by
        show -((num : ℝ) / den) ≤ 0
        exact neg_nonpos.mpr (by positivity)
      have hle := hnearest.le representable_zero hnonpos
      have hpos : (0 : ℝ) < 2 ^ (1024 : ℤ) := by positivity
      exact absurd (hpos.trans_le (hr.trans hle)) (lt_irrefl _)

/-- A number nearer to zero than to any other is rounded to zero. -/
theorem zero_roundsTo (negative : Bool) {x : ℝ} (hx : 0 ≤ x) (h : x ≤ 2 ^ (-1075 : ℤ)) :
    RoundsTo (signed (signOf negative) x) (encode negative 0 (-1074)) := by
  have hscale : x / 2 ^ (-1074 : ℤ) * 2 ^ (-1074 : ℤ) = x := div_mul_cancel₀ x (by positivity)
  have hhalf : |((0 : ℤ) : ℝ) - x / 2 ^ (-1074 : ℤ)| ≤ 1 / 2 := by
    rw [Int.cast_zero, zero_sub, abs_neg, abs_of_nonneg (by positivity), div_le_iff₀ (by positivity)]
    calc x ≤ 2 ^ (-1075 : ℤ) := h
      _ = 1 / 2 * 2 ^ (-1074 : ℤ) := by
        rw [show (-1075 : ℤ) = -1 + -1074 by norm_num, zpow_add₀ two_ne_zero]
        norm_num
  have hnearest := nearest_of_scaled (t := -1074) hhalf (by norm_num) le_rfl (.inr rfl)
  rw [hscale] at hnearest
  refine encode_roundsTo negative ?_ (by norm_num) le_rfl (.inr rfl)
  simpa using hnearest

/-- The double that a numeral is read as: nearest to its number, infinite or undefined as its name says. -/
def IsDoubleOf : Numeral → Float → Prop
  | .decimal negative digits exponent, x => RoundsTo (signed (signOf negative) (digits * 10 ^ exponent)) x
  | .infinite negative, x => x = infinity negative
  | .notANumber _, x => x = undefined

/-- **Rounding numerals.** The double of a numeral is nearest to it. -/
theorem toDouble_roundsTo (numeral : Numeral) : IsDoubleOf numeral numeral.toDouble := by
  cases numeral with
  | infinite negative => rfl
  | notANumber negative => rfl
  | decimal negative digits exponent =>
    obtain ⟨hden, hvalue⟩ := quotientOf_value digits exponent
    show RoundsTo _ (Numeral.toDouble _)
    unfold Numeral.toDouble
    dsimp only
    split
    · rename_i htiny
      exact zero_roundsTo negative (by positivity) (isTiny_le htiny)
    · rename_i htiny
      have hpos : 0 < digits := by
        refine Nat.pos_of_ne_zero fun hzero => htiny ?_
        simp [isTiny, hzero]
      rw [← hvalue]
      split
      · rename_i hhuge
        exact infinity_roundsTo negative hden (hvalue ▸ isHuge_le hpos hhuge)
      · exact nearest_roundsTo negative _ hden

end TableProfile.Number
