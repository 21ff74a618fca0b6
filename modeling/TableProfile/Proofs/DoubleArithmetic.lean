import Mathlib.Analysis.Real.Sqrt
import TableProfile.Proofs.DoubleValues

/-!
# Arithmetic of finite doubles

Each operation computes a mantissa with what it cuts off, and rounds it. Sums, differences and products
are exact before they are rounded. A quotient and a root are cut down to enough bits that what remains
decides how to round.

Results:
* `add_roundsTo`, `sub_roundsTo`, `mul_roundsTo`, `div_roundsTo`, `sqrt_roundsTo`: the result of an
  operation on finite doubles comes from the exact result.
-/
namespace TableProfile.Double

open Float.Model (Format UnpackedFloat totalExponent)
open Float.Model.UnpackedFloat

theorem Canonical.rounds {u : UnpackedFloat} (h : Canonical u) : Rounds (unpackedValue u) u :=
  ⟨h, nearest_self h.representable⟩

theorem rounds_zero (s : Sign) : Rounds 0 (.zero s) := Canonical.rounds (u := .zero s) trivial

/-! ## Sums and differences -/

theorem apply_value (s : Sign) (m : ℕ) (e t : ℤ) (h : t ≤ e) :
    (s.apply ((decreaseExponent m e t).1 : ℤ) : ℝ) * 2 ^ t = signed s (m * 2 ^ e) := by
  have hexponent : (decreaseExponent m e t).2 = t := by
    simp only [decreaseExponent]
    omega
  have hvalue := decreaseExponent_value m e t
  rw [hexponent] at hvalue
  cases s with
  | positive => exact hvalue
  | negative =>
    rw [Sign.apply, signed, ← hvalue]
    push_cast
    ring

theorem add_rounds {a b : UnpackedFloat} (ha : Canonical a) (hb : Canonical b) :
    Rounds (unpackedValue a + unpackedValue b) (add Format.binary64 a b) := by
  cases a with
  | notANumber | infinity _ => cases ha
  | zero s =>
    cases b with
    | notANumber | infinity _ => cases hb
    | zero t =>
      rw [unpackedValue_zero, unpackedValue_zero, add_zero]
      cases s <;> cases t <;> exact rounds_zero _
    | finite t n f hn =>
      rw [unpackedValue_zero, zero_add]
      exact hb.rounds
  | finite s m e hm =>
    cases b with
    | notANumber | infinity _ => cases hb
    | zero t =>
      rw [unpackedValue_zero, add_zero]
      exact ha.rounds
    | finite t n f hn =>
      have h := normalize_rounds (s.apply (decreaseExponent m e (min e f)).1 +
        t.apply (decreaseExponent n f (min e f)).1) (min e f) .positive
      rw [Int.cast_add, add_mul, apply_value s m e _ (min_le_left e f),
        apply_value t n f _ (min_le_right e f)] at h
      exact h

theorem unpackedValue_neg (u : UnpackedFloat) : unpackedValue u.neg = -unpackedValue u := by
  cases u with
  | notANumber | infinity _ | zero _ => exact neg_zero.symm
  | finite s m e hm =>
    cases s with
    | positive => rfl
    | negative => exact (neg_neg _).symm

theorem Canonical.neg {u : UnpackedFloat} (h : Canonical u) : Canonical u.neg := by
  cases u with
  | notANumber | infinity _ => cases h
  | zero _ => trivial
  | finite s m e hm => exact h

theorem neg_apply (s : Sign) (n : ℤ) : (-s).apply n = -s.apply n := by
  cases s with
  | positive => rfl
  | negative => exact (neg_neg n).symm

/-- A difference is the sum with the negated number. -/
theorem sub_eq_add {a b : UnpackedFloat} (ha : Canonical a) (hb : Canonical b) :
    sub Format.binary64 a b = add Format.binary64 a b.neg := by
  cases a with
  | notANumber | infinity _ => cases ha
  | zero s =>
    cases b with
    | notANumber | infinity _ => cases hb
    | zero t | finite t _ _ _ => rfl
  | finite s m e hm =>
    cases b with
    | notANumber | infinity _ => cases hb
    | zero t => rfl
    | finite t n f hn =>
      have hsum (i j : ℤ) : s.apply i - t.apply j = s.apply i + (-t).apply j := by
        rw [neg_apply, Int.sub_eq_add_neg]
      exact congrArg (fun sum => UnpackedFloat.normalize Format.binary64 sum (min e f) .positive)
        (hsum _ _)

theorem sub_rounds {a b : UnpackedFloat} (ha : Canonical a) (hb : Canonical b) :
    Rounds (unpackedValue a - unpackedValue b) (sub Format.binary64 a b) := by
  have h := add_rounds ha hb.neg
  rwa [unpackedValue_neg, ← sub_eq_add_neg, ← sub_eq_add ha hb] at h

/-! ## Products and quotients -/

theorem signed_mul (s t : Sign) (x y : ℝ) : signed (s * t) (x * y) = signed s x * signed t y := by
  cases s with
  | positive =>
    cases t with
    | positive => rfl
    | negative => exact (mul_neg x y).symm
  | negative =>
    cases t with
    | positive => exact (neg_mul x y).symm
    | negative => exact (neg_mul_neg x y).symm

theorem signed_div (s t : Sign) (x y : ℝ) : signed (s / t) (x / y) = signed s x / signed t y := by
  cases s with
  | positive =>
    cases t with
    | positive => rfl
    | negative => exact (div_neg x).symm
  | negative =>
    cases t with
    | positive => exact (neg_div y x).symm
    | negative => exact (neg_div_neg_eq x y).symm

/-- One full factor makes a long product; where both have the least exponent, the product has a smaller
one. -/
theorem product_bits {s t : Sign} {m n : ℕ} {e f : ℤ} {hm : 0 < m} {hn : 0 < n}
    (ha : Canonical (.finite s m e hm)) (hb : Canonical (.finite t n f hn)) :
    52 ≤ (m * n).log2 ∨ e + f ≤ -1074 := by
  have hne : m * n ≠ 0 := (Nat.mul_pos hm hn).ne'
  rw [Nat.le_log2 hne]
  obtain ⟨-, -, hmfull | rfl⟩ := ha
  · exact Or.inl (hmfull.trans (Nat.le_mul_of_pos_right m hn))
  · obtain ⟨-, -, hnfull | rfl⟩ := hb
    · exact Or.inl (hnfull.trans (Nat.le_mul_of_pos_left n hm))
    · exact Or.inr (by norm_num)

theorem mul_rounds {a b : UnpackedFloat} (ha : Canonical a) (hb : Canonical b) :
    Rounds (unpackedValue a * unpackedValue b) (mul Format.binary64 a b) := by
  cases a with
  | notANumber | infinity _ => cases ha
  | zero s =>
    rw [unpackedValue_zero, zero_mul]
    cases b with
    | notANumber | infinity _ => cases hb
    | zero t | finite t _ _ _ => exact rounds_zero _
  | finite s m e hm =>
    cases b with
    | notANumber | infinity _ => cases hb
    | zero t =>
      rw [unpackedValue_zero, mul_zero]
      exact rounds_zero _
    | finite t n f hn =>
      have hcut : Cut (.ofMantissaAndAccuracy (m * n) .exact) ((m * n : ℕ) : ℝ) := rfl
      have h := roundWithAccuracy_rounds (s * t) hcut (product_bits ha hb)
      have hvalue : ((m * n : ℕ) : ℝ) * 2 ^ (e + f) = m * 2 ^ e * (n * 2 ^ f) := by
        rw [zpow_add₀ two_ne_zero]
        push_cast
        ring
      rw [hvalue, signed_mul] at h
      exact h

/-- The quotient of natural numbers, cut down to a natural number. -/
theorem cut_quotient (m : ℕ) {n : ℕ} (hn : 0 < n) :
    Cut (.ofMantissaAndAccuracy (m / n) (accuracyOfFraction (m % n) n)) (m / n) := by
  have hpos : (0 : ℝ) < n := by exact_mod_cast hn
  have hsplit : (m : ℝ) / n = (m / n : ℕ) + ((m % n : ℕ) : ℝ) / n := by
    field_simp
    exact_mod_cast (Nat.div_add_mod m n).symm
  have hlt : ((m % n : ℕ) : ℝ) / n < 1 := by
    rw [div_lt_one hpos]
    exact_mod_cast Nat.mod_lt m hn
  rw [hsplit, accuracyOfFraction]
  split
  · rename_i hzero
    show _ = _
    rw [hzero, Nat.cast_zero, zero_div, add_zero]
  · rename_i hzero
    have hrest : (0 : ℝ) < ((m % n : ℕ) : ℝ) / n := by
      have : (0 : ℝ) < ((m % n : ℕ) : ℝ) := by exact_mod_cast Nat.pos_of_ne_zero hzero
      positivity
    rcases lt_trichotomy (m % n * 2) n with hhalf | hhalf | hhalf
    · rw [Nat.compare_eq_lt.mpr (by omega)]
      have hless : ((m % n : ℕ) : ℝ) / n < 1 / 2 := by
        rw [div_lt_div_iff₀ hpos two_pos, one_mul]
        exact_mod_cast hhalf
      exact ⟨by linarith, by linarith⟩
    · rw [Nat.compare_eq_eq.mpr (by omega)]
      have hequal : ((m % n : ℕ) : ℝ) / n = 1 / 2 := by
        rw [div_eq_div_iff hpos.ne' two_ne_zero, one_mul]
        exact_mod_cast hhalf
      rw [hequal]
      rfl
    · rw [Nat.compare_eq_gt.mpr (by omega)]
      have hmore : 1 / 2 < ((m % n : ℕ) : ℝ) / n := by
        rw [div_lt_div_iff₀ two_pos hpos, one_mul]
        exact_mod_cast hhalf
      exact ⟨by linarith, by linarith⟩

theorem quotient_bits {m n k : ℕ} (hm : 0 < m) (hn : 0 < n) (hk : 53 + n.log2 ≤ m.log2 + k) :
    52 ≤ (m <<< k / n).log2 := by
  have hle : 2 ^ 52 ≤ m <<< k / n := by
    rw [Nat.le_div_iff_mul_le hn]
    calc 2 ^ 52 * n ≤ 2 ^ 52 * 2 ^ (n.log2 + 1) := Nat.mul_le_mul_left _ Nat.lt_log2_self.le
      _ = 2 ^ (53 + n.log2) := by rw [← pow_add]; congr 1; omega
      _ ≤ 2 ^ (m.log2 + k) := Nat.pow_le_pow_right two_pos hk
      _ = 2 ^ m.log2 * 2 ^ k := pow_add _ _ _
      _ ≤ m * 2 ^ k := Nat.mul_le_mul_right _ (Nat.log2_self_le hm.ne')
      _ = m <<< k := (Nat.shiftLeft_eq m k).symm
  have hne : m <<< k / n ≠ 0 := by
    have : 0 < 2 ^ 52 := by positivity
    omega
  exact (Nat.le_log2 hne).mpr hle

theorem targetExponent_binary64 (n : ℤ) : Format.binary64.targetExponent n = max (n - 53) (-1074) :=
  rfl

theorem div_rounds {a b : UnpackedFloat} (ha : Canonical a) (hb : Canonical b)
    (hne : unpackedValue b ≠ 0) :
    Rounds (unpackedValue a / unpackedValue b) (div Format.binary64 a b) := by
  cases b with
  | notANumber | infinity _ => cases hb
  | zero t => exact absurd rfl hne
  | finite t n f hn =>
    cases a with
    | notANumber | infinity _ => cases ha
    | zero s =>
      rw [unpackedValue_zero, zero_div]
      exact rounds_zero _
    | finite s m e hm =>
      obtain ⟨target, htarget⟩ : ∃ target, min (e - f)
        (Format.binary64.targetExponent (totalExponent m e - totalExponent n f)) = target := ⟨_, rfl⟩
      obtain ⟨k, hk⟩ : ∃ k : ℕ, e - f = target + k := ⟨(e - f - target).toNat, by omega⟩
      have hshift : (e - f - target).toNat = k := by omega
      have hcore : divCore Format.binary64 m e n f =
          (m <<< k / n, target, accuracyOfFraction (m <<< k % n) n) := by
        simp only [divCore, htarget, hshift]
      have hbits : 52 ≤ (m <<< k / n).log2 ∨ target ≤ -1074 := by
        rw [targetExponent_binary64, totalExponent, totalExponent] at htarget
        by_cases hlow : target ≤ -1074
        · exact Or.inr hlow
        · exact Or.inl (quotient_bits hm hn (by omega))
      have h := roundWithAccuracy_rounds (s / t) (cut_quotient (m <<< k) hn) hbits
      have hvalue : ((m <<< k : ℕ) : ℝ) / n * 2 ^ target = m * 2 ^ e / (n * 2 ^ f) := by
        have he : e = target + k + f := by omega
        have hpos : (0 : ℝ) < n := by exact_mod_cast hn
        rw [he, zpow_add₀ two_ne_zero, zpow_add₀ two_ne_zero, zpow_natCast, Nat.shiftLeft_eq]
        push_cast
        field_simp
      rw [hvalue, signed_div] at h
      have hdiv : div Format.binary64 (.finite s m e hm) (.finite t n f hn) =
          roundWithAccuracy Format.binary64 (s / t) (divCore Format.binary64 m e n f).1
            (divCore Format.binary64 m e n f).2.1 (divCore Format.binary64 m e n f).2.2 := rfl
      rw [hdiv, hcore]
      exact h

/-! ## Roots -/

/-- The root of a natural number, cut down to a natural number; it is never in the middle of two. -/
theorem cut_root (n : ℕ) :
    Cut (.ofMantissaAndAccuracy n.sqrt (if n - n.sqrt * n.sqrt = 0 then .exact
      else .inexact (if n - n.sqrt * n.sqrt ≤ n.sqrt then .lt else .gt))) (√n) := by
  have hlow := Nat.sqrt_le n
  have hnonneg : (0 : ℝ) ≤ n.sqrt := Nat.cast_nonneg _
  split
  · rename_i hzero
    have hsquare : (n : ℝ) = n.sqrt * n.sqrt := by exact_mod_cast (by omega)
    show √(n : ℝ) = n.sqrt
    rw [Real.sqrt_eq_iff_mul_self_eq (Nat.cast_nonneg _) hnonneg]
    exact hsquare
  · rename_i hzero
    split
    · rename_i hhalf
      constructor
      · rw [Real.lt_sqrt hnonneg, pow_two]
        exact_mod_cast (by omega)
      · rw [Real.sqrt_lt' (by linarith)]
        have : (n : ℝ) ≤ n.sqrt * n.sqrt + n.sqrt := by exact_mod_cast (by omega)
        linarith
    · rename_i hhalf
      constructor
      · rw [Real.lt_sqrt (by linarith)]
        have : (n.sqrt * n.sqrt + n.sqrt + 1 : ℝ) ≤ n := by exact_mod_cast (by omega)
        linarith
      · exact Real.real_sqrt_lt_nat_sqrt_succ

theorem root_bits {m k : ℕ} (hm : 0 < m) (hk : 104 ≤ m.log2 + k) : 52 ≤ (m <<< k).sqrt.log2 := by
  have hle : 2 ^ 52 ≤ (m <<< k).sqrt := by
    rw [Nat.le_sqrt]
    calc 2 ^ 52 * 2 ^ 52 = 2 ^ 104 := by norm_num
      _ ≤ 2 ^ (m.log2 + k) := Nat.pow_le_pow_right two_pos hk
      _ = 2 ^ m.log2 * 2 ^ k := pow_add _ _ _
      _ ≤ m * 2 ^ k := Nat.mul_le_mul_right _ (Nat.log2_self_le hm.ne')
      _ = m <<< k := (Nat.shiftLeft_eq m k).symm
  have hne : (m <<< k).sqrt ≠ 0 := by
    have : 0 < 2 ^ 52 := by positivity
    omega
  exact (Nat.le_log2 hne).mpr hle

theorem sqrt_rounds {a : UnpackedFloat} (ha : Canonical a) (hnonneg : 0 ≤ unpackedValue a) :
    Rounds (√(unpackedValue a)) (sqrt Format.binary64 a) := by
  cases a with
  | notANumber | infinity _ => cases ha
  | zero s =>
    rw [unpackedValue_zero, Real.sqrt_zero]
    exact rounds_zero s
  | finite s m e hm =>
    cases s with
    | negative =>
      have hneg : -(m * 2 ^ e : ℝ) < 0 := neg_lt_zero.mpr (finite_pos hm e)
      exact absurd hnonneg hneg.not_ge
    | positive =>
      obtain ⟨target, htarget⟩ : ∃ target, min (e.ediv 2)
        (Format.binary64.targetExponent ((totalExponent m e + 1).ediv 2)) = target := ⟨_, rfl⟩
      have hle : 2 * target ≤ e := by
        have : e.ediv 2 = e / 2 := rfl
        omega
      obtain ⟨k, hk⟩ : ∃ k : ℕ, e = 2 * target + k := ⟨(e - 2 * target).toNat, by omega⟩
      have hshift : (e - 2 * target).toNat = k := by omega
      have hcore : sqrtCore Format.binary64 m e = ((m <<< k).sqrt, target,
          if m <<< k - (m <<< k).sqrt * (m <<< k).sqrt = 0 then .exact
          else .inexact
            (if m <<< k - (m <<< k).sqrt * (m <<< k).sqrt ≤ (m <<< k).sqrt then .lt else .gt)) := by
        simp only [sqrtCore, htarget, hshift]
      have hbits : 52 ≤ (m <<< k).sqrt.log2 ∨ target ≤ -1074 := by
        rw [targetExponent_binary64, totalExponent] at htarget
        by_cases hlow : target ≤ -1074
        · exact Or.inr hlow
        · refine Or.inl (root_bits hm ?_)
          have hhalf : ((m.log2 : ℤ) + 1 + e + 1).ediv 2 = (m.log2 + 1 + e + 1) / 2 := rfl
          omega
      have h := roundWithAccuracy_rounds .positive (cut_root (m <<< k)) hbits
      have hvalue : √((m <<< k : ℕ) : ℝ) * 2 ^ target = √(m * 2 ^ e) := by
        have hpos : (0 : ℝ) ≤ 2 ^ target := (zpow_pos two_pos target).le
        rw [← Real.sqrt_sq hpos, ← Real.sqrt_mul (Nat.cast_nonneg _), hk, zpow_add₀ two_ne_zero,
          zpow_natCast, two_mul, zpow_add₀ two_ne_zero, Nat.shiftLeft_eq]
        congr 1
        push_cast
        ring
      rw [hvalue] at h
      have hroot : sqrt Format.binary64 (.finite .positive m e hm) =
          roundWithAccuracy Format.binary64 .positive (sqrtCore Format.binary64 m e).1
            (sqrtCore Format.binary64 m e).2.1 (sqrtCore Format.binary64 m e).2.2 := rfl
      rw [hroot, hcore]
      exact h

/-! ## Results of operations on doubles -/

variable {x y : Float}

theorem add_roundsTo (hx : x.isFinite = true) (hy : y.isFinite = true) :
    RoundsTo (value x + value y) (x + y) :=
  (add_rounds (canonical_of_isFinite hx) (canonical_of_isFinite hy)).roundsTo

theorem sub_roundsTo (hx : x.isFinite = true) (hy : y.isFinite = true) :
    RoundsTo (value x - value y) (x - y) :=
  (sub_rounds (canonical_of_isFinite hx) (canonical_of_isFinite hy)).roundsTo

theorem mul_roundsTo (hx : x.isFinite = true) (hy : y.isFinite = true) :
    RoundsTo (value x * value y) (x * y) :=
  (mul_rounds (canonical_of_isFinite hx) (canonical_of_isFinite hy)).roundsTo

theorem div_roundsTo (hx : x.isFinite = true) (hy : y.isFinite = true) (hne : value y ≠ 0) :
    RoundsTo (value x / value y) (x / y) :=
  (div_rounds (canonical_of_isFinite hx) (canonical_of_isFinite hy) hne).roundsTo

theorem sqrt_roundsTo (hx : x.isFinite = true) (hnonneg : 0 ≤ value x) :
    RoundsTo (√(value x)) x.sqrt :=
  (sqrt_rounds (canonical_of_isFinite hx) hnonneg).roundsTo

end TableProfile.Double
