import Mathlib.Algebra.Order.Field.Power
import Mathlib.Data.Real.Basic
import Mathlib.Tactic.FieldSimp
import Mathlib.Tactic.Linarith
import Mathlib.Tactic.Positivity
import Mathlib.Tactic.Ring

/-!
# Rounding to the grid of doubles

The numbers that doubles stand for lie on a grid: a mantissa of at most 53 bits whose last bit is worth
at least `2^(-1074)` (`Representable`). The grid has no greatest number here; that too large numbers
become infinite is said elsewhere. The arithmetic of doubles cuts an exact result down to a mantissa and
two bits that say what was cut off (`Cut`), and rounds by these two bits. What comes of it is a number of
the grid that none is nearer to the exact result than (`Nearest`).

Two facts about nearest numbers carry everything that is derived from them.
* `Nearest.le`, `Nearest.ge`: rounding does not move a number past one of the grid.
* `Nearest.dist_le`: no number of the grid is nearer.

Results:
* `nearest_of_scaled`: at a full mantissa, or at the least exponent, a nearest integer is a nearest
  number of the grid.
* `roundWithAccuracy_rounds`, `normalize_rounds`: rounding gives a nearest number, in normal form.
-/
namespace TableProfile.Double

open Float.Model (Format UnpackedFloat totalExponent)
open Float.Model.UnpackedFloat

/-! ## The grid -/

/-- A number with a mantissa of at most 53 bits whose last bit is worth at least `2^(-1074)`. -/
def Representable (x : ℝ) : Prop := ∃ m e : ℤ, |m| ≤ 2 ^ 53 ∧ -1074 ≤ e ∧ x = m * 2 ^ e

theorem representable_zero : Representable 0 := ⟨0, 0, by norm_num, by norm_num, by norm_num⟩

theorem representable_one : Representable 1 := ⟨1, 0, by norm_num, by norm_num, by norm_num⟩

theorem representable_two : Representable 2 := ⟨2, 0, by norm_num, by norm_num, by norm_num⟩

theorem representable_two_pow {e : ℤ} (h : -1074 ≤ e) : Representable (2 ^ e) :=
  ⟨1, e, by norm_num, h, by norm_num⟩

/-- An integer of at most 53 bits is on the grid. -/
theorem representable_int {n : ℤ} (h : |n| ≤ 2 ^ 53) : Representable n :=
  ⟨n, 0, h, by norm_num, by rw [zpow_zero, mul_one]⟩

theorem Representable.neg {x : ℝ} (h : Representable x) : Representable (-x) := by
  obtain ⟨m, e, hm, he, rfl⟩ := h
  exact ⟨-m, e, by rwa [abs_neg], he, by push_cast; ring⟩

theorem Representable.abs {x : ℝ} (h : Representable x) : Representable |x| := by
  rcases abs_choice x with habs | habs
  · rwa [habs]
  · rw [habs]
    exact h.neg

/-- The grid goes on without end: a power of two times a number of it is on it too. -/
theorem Representable.mul_two_pow {x : ℝ} (h : Representable x) {k : ℤ} (hk : 0 ≤ k) :
    Representable (x * 2 ^ k) := by
  obtain ⟨m, e, hm, he, rfl⟩ := h
  refine ⟨m, e + k, hm, by omega, ?_⟩
  rw [zpow_add₀ two_ne_zero, mul_assoc]

/-- `r` is on the grid, and no number of the grid is nearer to `x`. -/
structure Nearest (x r : ℝ) : Prop where
  representable : Representable r
  dist_le : ∀ g, Representable g → |r - x| ≤ |g - x|

namespace Nearest

variable {x r g : ℝ}

theorem le (h : Nearest x r) (hg : Representable g) (hx : x ≤ g) : r ≤ g := by
  by_contra hr
  have hdist := h.dist_le g hg
  rw [abs_of_nonneg (by linarith), abs_of_nonneg (by linarith)] at hdist
  linarith

theorem ge (h : Nearest x r) (hg : Representable g) (hx : g ≤ x) : g ≤ r := by
  by_contra hr
  have hdist := h.dist_le g hg
  rw [abs_of_nonpos (by linarith), abs_of_nonpos (by linarith)] at hdist
  linarith

theorem eq_self (h : Nearest x r) (hx : Representable x) : r = x :=
  le_antisymm (h.le hx le_rfl) (h.ge hx le_rfl)

/-- Of different numbers the greater one is not rounded to the lesser result. -/
theorem mono {y t : ℝ} (hx : Nearest x r) (hy : Nearest y t) (h : x < y) : r ≤ t := by
  by_contra hlt
  have hleft : (r - x) ^ 2 ≤ (t - x) ^ 2 := sq_le_sq.mpr (hx.dist_le t hy.representable)
  have hright : (t - y) ^ 2 ≤ (r - y) ^ 2 := sq_le_sq.mpr (hy.dist_le r hx.representable)
  have hpos : 0 < (r - t) * (y - x) := mul_pos (by linarith) (by linarith)
  linarith

theorem neg (h : Nearest x r) : Nearest (-x) (-r) := by
  refine ⟨h.representable.neg, fun g hg => ?_⟩
  have hdist := h.dist_le (-g) hg.neg
  rwa [← abs_neg, ← abs_neg (g - -x), show -(-r - -x) = r - x by ring,
    show -(g - -x) = -g - x by ring]

theorem abs_le_of_abs_le (h : Nearest x r) (hg : Representable g) (hx : |x| ≤ g) : |r| ≤ g := by
  obtain ⟨hlow, hhigh⟩ := abs_le.mp hx
  exact abs_le.mpr ⟨h.ge hg.neg hlow, h.le hg hhigh⟩

theorem le_abs (h : Nearest x r) (hg : Representable g) (hx : g ≤ |x|) : g ≤ |r| := by
  rcases abs_choice x with habs | habs
  · rw [habs] at hx
    exact (h.ge hg hx).trans (le_abs_self r)
  · rw [habs] at hx
    exact (h.neg.ge hg hx).trans (neg_le_abs r)

end Nearest

theorem nearest_self {x : ℝ} (h : Representable x) : Nearest x x :=
  ⟨h, fun g _ => by rw [sub_self, abs_zero]; exact abs_nonneg _⟩

/-- An integer no farther from a number than half is as near to it as any integer. -/
theorem dist_le_of_half {n : ℤ} {y : ℝ} (h : |n - y| ≤ 1 / 2) (j : ℤ) : |n - y| ≤ |j - y| := by
  by_cases hj : j = n
  · rw [hj]
  · have hone : (1 : ℝ) ≤ |(j : ℝ) - n| := by
      exact_mod_cast Int.one_le_abs (sub_ne_zero.mpr hj)
    have htriangle := abs_sub_le (j : ℝ) y n
    rw [abs_sub_comm y] at htriangle
    linarith

/-- At a full mantissa, or at the least exponent, a nearest integer is a nearest number of the grid. -/
theorem nearest_of_scaled {y : ℝ} {n t : ℤ} (herror : |n - y| ≤ 1 / 2) (hn : |n| ≤ 2 ^ 53)
    (ht : -1074 ≤ t) (hfull : 2 ^ 52 ≤ y ∨ t = -1074) : Nearest (y * 2 ^ t) (n * 2 ^ t) := by
  have hpos : (0 : ℝ) < 2 ^ t := zpow_pos two_pos t
  have hscale (z : ℝ) : |z * 2 ^ t - y * 2 ^ t| = |z - y| * 2 ^ t := by
    rw [← sub_mul, abs_mul, abs_of_pos hpos]
  refine ⟨⟨n, t, hn, ht, rfl⟩, fun g hg => ?_⟩
  obtain ⟨m, e, hm, he, rfl⟩ := hg
  rw [hscale]
  by_cases hte : t ≤ e
  · -- A number of the same or a coarser scale is an integer of this one.
    obtain ⟨k, hk⟩ : ∃ k : ℕ, e = t + k := ⟨(e - t).toNat, by omega⟩
    have hinteger : (m : ℝ) * 2 ^ e = ((m * 2 ^ k : ℤ) : ℝ) * 2 ^ t := by
      rw [hk, zpow_add₀ two_ne_zero, zpow_natCast]
      push_cast
      ring
    rw [hinteger, hscale]
    exact mul_le_mul_of_nonneg_right (dist_le_of_half herror _) hpos.le
  · -- A number of a finer scale lies below the full mantissa, which is an integer below `y`.
    have hfull : 2 ^ 52 ≤ y := hfull.resolve_right (by omega)
    have hbelow : (m : ℝ) * 2 ^ e ≤ 2 ^ 52 * 2 ^ t := by
      have hm' : (m : ℝ) ≤ 2 ^ 53 := by exact_mod_cast (le_abs_self m).trans hm
      calc (m : ℝ) * 2 ^ e ≤ 2 ^ 53 * 2 ^ (t - 1) := by
            refine mul_le_mul hm' (zpow_le_zpow_right₀ one_le_two (by omega)) ?_ (by norm_num)
            exact (zpow_pos two_pos e).le
        _ = 2 ^ 52 * 2 ^ t := by
            rw [zpow_sub₀ two_ne_zero]
            ring
    have hdist := dist_le_of_half herror (2 ^ 52)
    rw [abs_of_nonpos (by push_cast; linarith) (a := ((2 ^ 52 : ℤ) : ℝ) - y)] at hdist
    push_cast at hdist
    have hmul := mul_le_mul_of_nonneg_right hdist hpos.le
    rw [abs_of_nonpos (by nlinarith) (a := (m : ℝ) * 2 ^ e - y * 2 ^ t)]
    linarith

/-! ## Mantissas with what was cut off -/

/-- What a mantissa and its two bits say of the number that they were cut from. -/
def Cut : ExtendedMantissa → ℝ → Prop
  | ⟨m, false, false⟩, y => y = m
  | ⟨m, false, true⟩, y => m < y ∧ y < m + 1 / 2
  | ⟨m, true, false⟩, y => y = m + 1 / 2
  | ⟨m, true, true⟩, y => m + 1 / 2 < y ∧ y < m + 1

namespace Cut

variable {em : ExtendedMantissa} {y : ℝ}

theorem floor (h : Cut em y) : em.mantissa ≤ y ∧ y < em.mantissa + 1 := by
  obtain ⟨m, half, rest⟩ := em
  cases half <;> cases rest <;> simp only [Cut] at h ⊢ <;> constructor <;> linarith

theorem shiftRightOne_even (q : ℕ) (half rest : Bool) :
    ExtendedMantissa.shiftRightOne ⟨2 * q, half, rest⟩ = ⟨q, false, half || rest⟩ := by
  simp [ExtendedMantissa.shiftRightOne]

theorem shiftRightOne_odd (q : ℕ) (half rest : Bool) :
    ExtendedMantissa.shiftRightOne ⟨2 * q + 1, half, rest⟩ = ⟨q, true, half || rest⟩ := by
  simp [ExtendedMantissa.shiftRightOne]
  omega

/-- Shifting by one bit halves the number; the bit that falls out says in which half it lies. -/
theorem shiftRightOne (h : Cut em y) : Cut em.shiftRightOne (y / 2) := by
  obtain ⟨m, half, rest⟩ := em
  rcases Nat.even_or_odd' m with ⟨q, rfl | rfl⟩
  · rw [shiftRightOne_even]
    cases half <;> cases rest <;> simp only [Cut, Bool.or_self, Bool.or_true, Bool.or_false] at h ⊢ <;>
      push_cast at h <;> first | linarith | constructor <;> linarith
  · rw [shiftRightOne_odd]
    cases half <;> cases rest <;> simp only [Cut, Bool.or_self, Bool.or_true, Bool.or_false] at h ⊢ <;>
      push_cast at h <;> first | linarith | constructor <;> linarith

theorem shiftRight (h : Cut em y) (k : ℕ) : Cut (em >>> k) (y / 2 ^ k) := by
  show Cut (k.repeat ExtendedMantissa.shiftRightOne em) _
  induction k with
  | zero => simpa [Nat.repeat] using h
  | succ k ih =>
    rw [pow_succ, ← div_div]
    exact ih.shiftRightOne

/-- Rounding by the two bits is rounding to a nearest integer. -/
theorem roundedMantissa (h : Cut em y) : |(em.roundedMantissa : ℝ) - y| ≤ 1 / 2 := by
  obtain ⟨m, half, rest⟩ := em
  rw [abs_le]
  cases half with
  | false =>
    cases rest <;> simp only [Cut, ExtendedMantissa.roundedMantissa, ExtendedMantissa.accuracy,
      Accuracy.roundToNearestEven] at h ⊢ <;> constructor <;> linarith
  | true =>
    cases rest with
    | false =>
      -- A number in the middle goes to the even neighbour.
      have hbit : ((m + m % 2 : ℕ) : ℝ) = m ∨ ((m + m % 2 : ℕ) : ℝ) = m + 1 := by
        rcases Nat.mod_two_eq_zero_or_one m with hbit | hbit
        · exact Or.inl (by rw [hbit, add_zero])
        · exact Or.inr (by rw [hbit]; push_cast; rfl)
      simp only [Cut, ExtendedMantissa.roundedMantissa, ExtendedMantissa.accuracy,
        Accuracy.roundToNearestEven] at h ⊢
      rcases hbit with hbit | hbit <;> rw [hbit] <;> constructor <;> linarith
    | true =>
      simp only [Cut, ExtendedMantissa.roundedMantissa, ExtendedMantissa.accuracy,
        Accuracy.roundToNearestEven] at h ⊢
      push_cast
      constructor <;> linarith

end Cut

theorem le_roundedMantissa (em : ExtendedMantissa) : em.mantissa ≤ em.roundedMantissa := by
  obtain ⟨m, half, rest⟩ := em
  cases half <;> cases rest <;>
    simp only [ExtendedMantissa.roundedMantissa, ExtendedMantissa.accuracy,
      Accuracy.roundToNearestEven] <;> omega

theorem roundedMantissa_le (em : ExtendedMantissa) : em.roundedMantissa ≤ em.mantissa + 1 := by
  obtain ⟨m, half, rest⟩ := em
  cases half <;> cases rest <;>
    simp only [ExtendedMantissa.roundedMantissa, ExtendedMantissa.accuracy,
      Accuracy.roundToNearestEven] <;> omega

/-! ## Unpacked doubles -/

/-- A number with a sign. -/
def signed : Sign → ℝ → ℝ
  | .positive, x => x
  | .negative, x => -x

/-- The number that an unpacked double stands for, if it is finite. -/
noncomputable def unpackedValue : UnpackedFloat → ℝ
  | .finite s m e _ => signed s (m * 2 ^ e)
  | .zero _ | .infinity _ | .notANumber => 0

@[simp] theorem unpackedValue_zero (s : Sign) : unpackedValue (.zero s) = 0 := rfl

@[simp] theorem unpackedValue_finite (s : Sign) (m : ℕ) (e : ℤ) (hm : 0 < m) :
    unpackedValue (.finite s m e hm) = signed s (m * 2 ^ e) := rfl

/-- A finite number in normal form: its mantissa is full, or its exponent is the least one. -/
def Canonical : UnpackedFloat → Prop
  | .finite _ m e _ => m < 2 ^ 53 ∧ -1074 ≤ e ∧ (2 ^ 52 ≤ m ∨ e = -1074)
  | .zero _ => True
  | .infinity _ | .notANumber => False

/-- An unpacked double in normal form that is nearest to a number. -/
structure Rounds (x : ℝ) (u : UnpackedFloat) : Prop where
  canonical : Canonical u
  nearest : Nearest x (unpackedValue u)

theorem targetExponent_eq (m : ℕ) (e : ℤ) :
    Format.binary64.targetExponent (totalExponent m e) = max (m.log2 + e - 52) (-1074) := by
  have hdigits : Format.binary64.mantissaBits = 53 := rfl
  have hleast : Format.binary64.minExponent = -1074 := rfl
  rw [Format.targetExponent, totalExponent, hdigits, hleast]
  omega

theorem shiftRight_zero (em : ExtendedMantissa) : em >>> 0 = em := rfl

/-- A mantissa of at most 53 bits is left as it is; one more, and it loses its last bit, a zero. -/
theorem carry {r : ℕ} {t : ℤ} (hr : r ≤ 2 ^ 53) (ht : -1074 ≤ t) (hfull : 2 ^ 52 ≤ r ∨ t = -1074) :
    ∃ m e, shiftToTargetExponent Format.binary64 r t .exact = (⟨m, false, false⟩, e) ∧
      (m : ℝ) * 2 ^ e = r * 2 ^ t ∧ m < 2 ^ 53 ∧ -1074 ≤ e ∧ (2 ^ 52 ≤ m ∨ e = -1074) := by
  simp only [shiftToTargetExponent, shiftToExponent, targetExponent_eq,
    ExtendedMantissa.ofMantissaAndAccuracy]
  rcases hr.lt_or_eq with hlt | rfl
  · have hlog : r.log2 ≤ 52 := by
      by_cases hzero : r = 0
      · rw [hzero]; decide
      · exact Nat.le_of_lt_succ ((Nat.log2_lt hzero).mpr hlt)
    have hshift : (max ((r.log2 : ℤ) + t - 52) (-1074) - t).toNat = 0 := by omega
    rw [hshift, shiftRight_zero]
    exact ⟨r, t, by simp, rfl, hlt, ht, hfull⟩
  · have hshift : (max (((2 ^ 53 : ℕ).log2 : ℤ) + t - 52) (-1074) - t).toNat = 1 := by
      rw [Nat.log2_two_pow]
      omega
    rw [hshift]
    refine ⟨2 ^ 52, t + 1, rfl, ?_, by norm_num, by omega, Or.inl le_rfl⟩
    rw [zpow_add₀ two_ne_zero]
    push_cast
    ring

theorem mantissa_ofMantissaAndAccuracy (m : ℕ) (acc : Accuracy) :
    (ExtendedMantissa.ofMantissaAndAccuracy m acc).mantissa = m := by
  rcases acc with _ | (_ | _ | _) <;> rfl

/-- A mantissa long enough is cut down to at most 53 bits, and to no fewer unless the exponent is the
least one. -/
theorem exists_cut {m : ℕ} {e : ℤ} {acc : Accuracy} {y : ℝ}
    (hcut : Cut (ExtendedMantissa.ofMantissaAndAccuracy m acc) y) (hbits : 52 ≤ m.log2 ∨ e ≤ -1074) :
    ∃ em t y', shiftToTargetExponent Format.binary64 m e acc = (em, t) ∧ Cut em y' ∧
      y' * 2 ^ t = y * 2 ^ e ∧ y' < 2 ^ 53 ∧ -1074 ≤ t ∧ (2 ^ 52 ≤ y' ∨ t = -1074) := by
  obtain ⟨t, ht⟩ : ∃ t, max ((m.log2 : ℤ) + e - 52) (-1074) = t := ⟨_, rfl⟩
  obtain ⟨k, hk⟩ : ∃ k : ℕ, t = e + k := ⟨(t - e).toNat, by omega⟩
  obtain ⟨hlow, hhigh⟩ := hcut.floor
  rw [mantissa_ofMantissaAndAccuracy] at hlow hhigh
  have hpos : (0 : ℝ) < 2 ^ k := by positivity
  refine ⟨_, t, y / 2 ^ k, ?_, hcut.shiftRight k, ?_, ?_, by omega, ?_⟩
  · rw [shiftToTargetExponent, shiftToExponent, targetExponent_eq, ht]
    have hshift : (t - e).toNat = k := by omega
    rw [hshift, ← hk]
  · rw [hk, zpow_add₀ two_ne_zero, zpow_natCast]
    field_simp
  · rw [div_lt_iff₀ hpos]
    have hm : m + 1 ≤ 2 ^ 53 * 2 ^ k := by
      rw [← pow_add]
      exact Nat.lt_log2_self.trans_le (Nat.pow_le_pow_right two_pos (by omega))
    have hm' : (m : ℝ) + 1 ≤ 2 ^ 53 * 2 ^ k := by exact_mod_cast hm
    linarith
  · by_cases hleast : t = -1074
    · exact Or.inr hleast
    · have hlog : m.log2 = 52 + k := by omega
      have hm : 2 ^ 52 * 2 ^ k ≤ m := by
        rw [← pow_add, ← hlog]
        refine Nat.log2_self_le fun hzero => ?_
        rw [hzero, Nat.log2_zero] at hlog
        omega
      have hm' : (2 : ℝ) ^ 52 * 2 ^ k ≤ m := by exact_mod_cast hm
      rw [le_div_iff₀ hpos]
      exact Or.inl (hm'.trans hlow)

theorem signed_zero (s : Sign) : signed s 0 = 0 := by cases s <;> simp [signed]

theorem Nearest.signed {x r : ℝ} (h : Nearest x r) (s : Sign) : Nearest (signed s x) (signed s r) := by
  cases s with
  | positive => exact h
  | negative => exact h.neg

/-- Rounding gives a nearest number, in normal form. -/
theorem roundWithAccuracy_rounds (s : Sign) {m : ℕ} {e : ℤ} {acc : Accuracy} {y : ℝ}
    (hcut : Cut (ExtendedMantissa.ofMantissaAndAccuracy m acc) y) (hbits : 52 ≤ m.log2 ∨ e ≤ -1074) :
    Rounds (signed s (y * 2 ^ e)) (roundWithAccuracy Format.binary64 s m e acc) := by
  obtain ⟨em, t, y', hfirst, hcut', hvalue, hlt, ht, hfull⟩ := exists_cut hcut hbits
  obtain ⟨hlow, hhigh⟩ := hcut'.floor
  have hle : em.roundedMantissa ≤ 2 ^ 53 := by
    have hmantissa : em.mantissa < 2 ^ 53 := by exact_mod_cast hlow.trans_lt hlt
    exact (roundedMantissa_le em).trans hmantissa
  have hfull' : 2 ^ 52 ≤ em.roundedMantissa ∨ t = -1074 := hfull.imp_left fun h => by
    have hmantissa : 2 ^ 52 < em.mantissa + 1 := by exact_mod_cast h.trans_lt hhigh
    exact (Nat.le_of_lt_succ hmantissa).trans (le_roundedMantissa em)
  have hnearest : Nearest (y * 2 ^ e) (em.roundedMantissa * 2 ^ t) := by
    rw [← hvalue, ← Int.cast_natCast]
    refine nearest_of_scaled ?_ ?_ ht hfull
    · rw [Int.cast_natCast]
      exact hcut'.roundedMantissa
    · rw [Nat.abs_cast]
      exact_mod_cast hle
  obtain ⟨m', e', hsecond, hvalue', hm', he', hfull''⟩ := carry hle ht hfull'
  rw [roundWithAccuracy, hfirst]
  dsimp only
  rw [hsecond]
  dsimp only
  rw [← hvalue'] at hnearest
  by_cases hzero : m' = 0
  · rw [dif_pos hzero]
    rw [hzero, Nat.cast_zero, zero_mul] at hnearest
    refine ⟨trivial, ?_⟩
    have h := hnearest.signed s
    rwa [signed_zero] at h
  · rw [dif_neg hzero]
    exact ⟨⟨hm', he', hfull''⟩, hnearest.signed s⟩

/-- A mantissa and exponent with a smaller exponent, of the same value. -/
theorem decreaseExponent_value (m : ℕ) (e t : ℤ) :
    ((decreaseExponent m e t).1 : ℝ) * 2 ^ (decreaseExponent m e t).2 = m * 2 ^ e := by
  simp only [decreaseExponent, Nat.shiftLeft_eq]
  rw [zpow_sub₀ two_ne_zero, zpow_natCast]
  push_cast
  field_simp

theorem log2_shiftLeft {m : ℕ} (hm : m ≠ 0) (k : ℕ) : (m <<< k).log2 = m.log2 + k := by
  have hne : m <<< k ≠ 0 := by
    rw [Nat.shiftLeft_eq]
    positivity
  rw [Nat.log2_eq_iff hne, Nat.shiftLeft_eq, pow_add, Nat.add_right_comm, pow_add]
  exact ⟨Nat.mul_le_mul_right _ (Nat.log2_self_le hm),
    Nat.mul_lt_mul_of_pos_right Nat.lt_log2_self (by positivity)⟩

theorem round_rounds (s : Sign) {m : ℕ} (hm : m ≠ 0) (e : ℤ) :
    Rounds (signed s (m * 2 ^ e)) (UnpackedFloat.round Format.binary64 s m e) := by
  rw [UnpackedFloat.round, ← decreaseExponent_value m e _]
  refine roundWithAccuracy_rounds s rfl ?_
  rw [targetExponent_eq, decreaseExponent, log2_shiftLeft hm]
  omega

/-- Normalizing rounds an integer at a scale; zero stays zero. -/
theorem normalize_rounds (n e : ℤ) (s : Sign) :
    Rounds (n * 2 ^ e) (UnpackedFloat.normalize Format.binary64 n e s) := by
  rw [UnpackedFloat.normalize]
  rcases lt_trichotomy n 0 with hn | rfl | hn
  · have hcast : (((-n).toNat : ℕ) : ℝ) = -n := by exact_mod_cast Int.toNat_of_nonneg (by omega)
    rw [Int.compare_eq_lt.mpr hn]
    have h := round_rounds .negative (m := (-n).toNat) (by omega) e
    rwa [hcast, signed, neg_mul, neg_neg] at h
  · rw [Int.cast_zero, zero_mul]
    exact ⟨trivial, nearest_self representable_zero⟩
  · have hcast : ((n.toNat : ℕ) : ℝ) = n := by exact_mod_cast Int.toNat_of_nonneg (by omega)
    rw [Int.compare_eq_gt.mpr hn]
    have h := round_rounds .positive (m := n.toNat) (by omega) e
    rwa [hcast] at h

end TableProfile.Double
