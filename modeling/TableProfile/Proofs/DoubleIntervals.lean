import TableProfile.Proofs.DoubleEquality
import TableProfile.Proofs.NumeralRounding

/-!
# Numbers that are rounded to a double

A finite double is the one that its own mantissa and exponent are put together to (`encode_decode`). What
is rounded to it is an interval: half a step of the mantissa to either side, and only a quarter below a
power of two, where the steps become half as long. The ends are rounded to the double with the even
mantissa (`RoundsBack`).

Results:
* `lastBit_eq`, `roundQuotient_scaled`: exponent and mantissa that a quotient is rounded to.
* `nearest_eq`: a quotient in the interval of a double is rounded to it.
* `toDouble_eq`: so is a numeral.
-/
namespace TableProfile.Number

open Double

/-! ## Doubles from their parts -/

theorem ofBits_toBits (x : Float) : Float.ofBits x.toBits = x :=
  congrArg Float.ofModel (pack_unpack x.toModel)

/-- A mantissa and an exponent that a finite double is taken apart into. -/
structure Normal (m : ℕ) (e : ℤ) : Prop where
  short : m < 2 ^ 53
  least : -1074 ≤ e
  greatest : e ≤ 971
  full : 2 ^ 52 ≤ m ∨ e = -1074

/-- A sign and a magnitude are bits that are put together again. -/
theorem ofMagnitude_eq {bits : ℕ} (hbits : bits < 2 ^ 64) (h : bits % 2 ^ 63 < 2047 * 2 ^ 52) :
    ofMagnitude (bits / 2 ^ 63 == 1) (bits % 2 ^ 63) = Float.ofBits (UInt64.ofNat bits) := by
  have hsign : (signOf (bits / 2 ^ 63 == 1)).toBitVec.toNat = bits / 2 ^ 63 := by
    rcases (by omega : bits / 2 ^ 63 = 0 ∨ bits / 2 ^ 63 = 1) with hzero | hone
    · rw [hzero]
      rfl
    · rw [hone]
      rfl
  rw [ofMagnitude, hsign, Nat.min_eq_left h.le]
  congr 2
  omega

theorem encode_decode {x : Float} {negative : Bool} {m : ℕ} {e : ℤ} (h : decode x = .finite negative m e) :
    encode negative m e = x ∧ Normal m e := by
  have hbits : x.toBits.toNat < 2 ^ 64 := x.toBits.toNat_lt
  have hback : Float.ofBits (UInt64.ofNat x.toBits.toNat) = x := by
    rw [UInt64.ofNat_toNat, ofBits_toBits]
  unfold decode at h
  generalize x.toBits.toNat = bits at *
  dsimp only [Nat.pow_eq] at h
  split at h
  · split at h <;> cases h
  · rename_i hfinite
    have hfield : bits / 2 ^ 52 % 2 ^ 11 ≠ 2047 := fun heq => hfinite (beq_iff_eq.mpr heq)
    have hmagnitude : bits % 2 ^ 63 < 2047 * 2 ^ 52 := by omega
    split at h
    · rename_i hzero
      have hzero : bits / 2 ^ 52 % 2 ^ 11 = 0 := beq_iff_eq.mp hzero
      cases h
      refine ⟨?_, by omega, le_rfl, by norm_num, .inr rfl⟩
      have hfraction : bits % 2 ^ 52 = bits % 2 ^ 63 := by omega
      rw [encode_eq, if_pos (by omega), hfraction, ofMagnitude_eq hbits hmagnitude, hback]
    · rename_i hzero
      have hzero : bits / 2 ^ 52 % 2 ^ 11 ≠ 0 := fun heq => hzero (beq_iff_eq.mpr heq)
      cases h
      refine ⟨?_, by omega, by omega, by omega, .inl (by omega)⟩
      have hfields : (((bits / 2 ^ 52 % 2 ^ 11 : ℕ) : ℤ) - 1075 + 1075).toNat * 2 ^ 52 +
          (2 ^ 52 + bits % 2 ^ 52 - 2 ^ 52) = bits % 2 ^ 63 := by omega
      rw [encode_eq, if_neg (by omega), hfields, ofMagnitude_eq hbits hmagnitude, hback]

/-! ## Intervals -/

/-- The numbers that are rounded to `m · 2^e`: up to half a step away, down to a quarter where the steps
are shorter below. The ends are rounded to it if the mantissa is even. -/
structure RoundsBack (m : ℕ) (e : ℤ) (x : ℝ) : Prop where
  low : (m - if m = 2 ^ 52 ∧ -1074 < e then 1 / 4 else 1 / 2) * (2 : ℝ) ^ e ≤ x
  high : x ≤ (m + 1 / 2) * (2 : ℝ) ^ e
  ends : m % 2 = 1 → (m - 1 / 2) * (2 : ℝ) ^ e < x ∧ x < (m + 1 / 2) * (2 : ℝ) ^ e

/-- The integer that a quotient is rounded to: it is at most half away, and is even if it is half away. -/
theorem roundQuotient_eq_of {num den m : ℕ} (hlow : 2 * m * den ≤ 2 * num + den)
    (hhigh : 2 * num ≤ 2 * m * den + den)
    (hends : m % 2 = 1 → 2 * m * den < 2 * num + den ∧ 2 * num < 2 * m * den + den) (hden : 0 < den) :
    roundQuotient num den = m := by
  have hdivide : num = den * (num / den) + num % den := (Nat.div_add_mod num den).symm
  have hrest : num % den < den := Nat.mod_lt num hden
  rw [roundQuotient]
  generalize num / den = q at *
  generalize num % den = r at *
  subst hdivide
  have hcases : m < q ∨ m = q ∨ m = q + 1 ∨ q + 2 ≤ m := by omega
  rcases hcases with h | rfl | rfl | h
  · exfalso
    nlinarith
  · split
    · rfl
    · split
      · nlinarith
      · rename_i hhalf hhalf'
        have : 2 * r = den := by omega
        by_cases hodd : m % 2 = 1
        · have := (hends hodd).2
          nlinarith
        · omega
  · split
    · nlinarith
    · split
      · rfl
      · rename_i hhalf hhalf'
        have : 2 * r = den := by omega
        by_cases hodd : (q + 1) % 2 = 1
        · have := (hends hodd).1
          nlinarith
        · omega
  · exfalso
    nlinarith

/-- The exponent of the last bit is where the quotient has a full mantissa, or the least one. -/
theorem lastBit_eq {num den : ℕ} (hnum : 0 < num) (hden : 0 < den) {e : ℤ} (hleast : -1074 ≤ e)
    (hbelow : (num : ℝ) / den < 2 ^ 53 * 2 ^ e)
    (hfull : (2 : ℝ) ^ 52 * 2 ^ e ≤ num / den ∨ e = -1074) : lastBit double num den = e := by
  obtain ⟨y, hvalue, hleast', hfit, hfull'⟩ := lastBit_spec hnum hden
  generalize lastBit double num den = f at *
  have hstep {a b : ℤ} (hab : a < b) : (2 : ℝ) ^ 53 * 2 ^ a ≤ 2 ^ 52 * 2 ^ b := by
    calc (2 : ℝ) ^ 53 * 2 ^ a = 2 ^ 52 * 2 ^ (a + 1) := by rw [zpow_add₀ two_ne_zero]; ring
      _ ≤ 2 ^ 52 * 2 ^ b := by
        refine mul_le_mul_of_nonneg_left ?_ (by positivity)
        exact zpow_le_zpow_right₀ one_le_two hab
  rcases lt_trichotomy f e with hlt | heq | hgt
  · have hlow := hfull.resolve_right (by omega)
    have hhigh : y * 2 ^ f < 2 ^ 53 * 2 ^ f := mul_lt_mul_of_pos_right hfit (by positivity)
    linarith [hstep hlt]
  · exact heq
  · have hlow : (2 : ℝ) ^ 52 * 2 ^ f ≤ y * 2 ^ f :=
      mul_le_mul_of_nonneg_right (hfull'.resolve_right (by omega)) (by positivity)
    linarith [hstep hgt]

/-- Scaled by an exponent, a quotient is rounded to the integer nearest to it. -/
theorem roundQuotient_scaled {num den m : ℕ} (hden : 0 < den) {e : ℤ}
    (hlow : (m - 1 / 2) * (2 : ℝ) ^ e ≤ num / den) (hhigh : num / den ≤ (m + 1 / 2) * (2 : ℝ) ^ e)
    (hends : m % 2 = 1 → (m - 1 / 2) * (2 : ℝ) ^ e < num / den ∧ num / den < (m + 1 / 2) * (2 : ℝ) ^ e) :
    roundQuotient (scaled num den e).1 (scaled num den e).2 = m := by
  have hpos : (0 : ℝ) < 2 ^ e := by positivity
  have hden' := scaled_pos num hden e
  have hdpos : (0 : ℝ) < (scaled num den e).2 := by exact_mod_cast hden'
  rw [← scaled_value num den e] at hlow hhigh hends
  generalize (scaled num den e).1 = n at *
  generalize (scaled num den e).2 = d at *
  rw [mul_le_mul_iff_left₀ hpos] at hlow hhigh
  rw [mul_lt_mul_iff_left₀ hpos, mul_lt_mul_iff_left₀ hpos] at hends
  refine roundQuotient_eq_of ?_ ?_ (fun hodd => ?_) hden'
  · rw [le_div_iff₀ hdpos] at hlow
    have : 2 * (m : ℝ) * d ≤ 2 * n + d := by linarith
    exact_mod_cast this
  · rw [div_le_iff₀ hdpos] at hhigh
    have : 2 * (n : ℝ) ≤ 2 * m * d + d := by linarith
    exact_mod_cast this
  · obtain ⟨hlow, hhigh⟩ := hends hodd
    rw [lt_div_iff₀ hdpos] at hlow
    rw [div_lt_iff₀ hdpos] at hhigh
    have hleft : 2 * (m : ℝ) * d < 2 * n + d := by linarith
    have hright : 2 * (n : ℝ) < 2 * m * d + d := by linarith
    exact ⟨by exact_mod_cast hleft, by exact_mod_cast hright⟩

theorem encode_carry (negative : Bool) {e : ℤ} (he : -1074 < e) :
    encode negative (2 ^ 53) (e - 1) = encode negative (2 ^ 52) e := by
  have hfields : (e - 1 + 1075).toNat * 2 ^ 52 + (2 ^ 53 - 2 ^ 52) =
      (e + 1075).toNat * 2 ^ 52 + (2 ^ 52 - 2 ^ 52) := by omega
  rw [encode_eq, encode_eq, if_neg (by norm_num), if_neg (by norm_num), hfields]

/-- Below the least full mantissa only a power of two is rounded to. -/
theorem RoundsBack.eq_of_lt {m : ℕ} {e : ℤ} {x : ℝ} (h : RoundsBack m e x) (hfull : 2 ^ 52 ≤ m)
    (hless : x < 2 ^ 52 * 2 ^ e) : m = 2 ^ 52 := by
  by_contra hne
  have hlow := h.low
  rw [if_neg (fun hedge => hne hedge.1)] at hlow
  have hlong : (2 : ℝ) ^ 52 + 1 ≤ m := by
    have : 2 ^ 52 + 1 ≤ m := by omega
    exact_mod_cast this
  have hle : (2 : ℝ) ^ 52 * 2 ^ e ≤ (m - 1 / 2) * 2 ^ e :=
    mul_le_mul_of_nonneg_right (by linarith) (by positivity)
  exact absurd hless (not_lt.mpr (hle.trans hlow))

/-- A quotient in the interval of a double is rounded to it. -/
theorem nearest_eq {num den : ℕ} (hnum : 0 < num) (hden : 0 < den) {m : ℕ} {e : ℤ} (hnormal : Normal m e)
    (h : RoundsBack m e (num / den)) (negative : Bool) : nearest negative num den = encode negative m e := by
  obtain ⟨hshort, hleast, hgreatest, hfull⟩ := hnormal
  have ⟨hlow, hhigh, hends⟩ := h
  have hpos : (0 : ℝ) < 2 ^ e := by positivity
  have hround {f : ℤ} (hf : lastBit double num den = f) :
      nearest negative num den = encode negative (roundQuotient (scaled num den f).1 (scaled num den f).2) f := by
    rw [nearest, roundTo, if_neg hnum.ne', ← hf]
  have hbelow : (num : ℝ) / den < 2 ^ 53 * 2 ^ e := by
    refine hhigh.trans_lt (mul_lt_mul_of_pos_right ?_ hpos)
    have : (m : ℝ) + 1 ≤ 2 ^ 53 := by exact_mod_cast hshort
    linarith
  by_cases hcarry : (2 : ℝ) ^ 52 * 2 ^ e ≤ num / den ∨ e = -1074
  · rw [hround (lastBit_eq hnum hden hleast hbelow hcarry), roundQuotient_scaled hden ?_ hhigh hends]
    by_cases hedge : m = 2 ^ 52 ∧ -1074 < e
    · have hcarry := hcarry.resolve_right (by omega)
      rw [hedge.1]
      push_cast
      linarith
    · rwa [if_neg hedge] at hlow
  · -- Below a power of two the steps are half as long.
    obtain ⟨hless, he⟩ := not_or.mp hcarry
    rw [not_le] at hless
    have hm : m = 2 ^ 52 := h.eq_of_lt (hfull.resolve_right he) hless
    subst hm
    have hedge : -1074 < e := by omega
    have hhalf : (2 : ℝ) ^ e = 2 * 2 ^ (e - 1) := by
      rw [zpow_sub_one₀ two_ne_zero]
      ring
    rw [if_pos ⟨rfl, hedge⟩] at hlow
    push_cast at hlow
    rw [hhalf] at hlow hless
    have hpos' : (0 : ℝ) < 2 ^ (e - 1) := by positivity
    have hlast : lastBit double num den = e - 1 :=
      lastBit_eq hnum hden (by omega) (by linarith) (.inl (by linarith))
    rw [hround hlast, roundQuotient_scaled (m := 2 ^ 53) hden, encode_carry negative hedge]
    · push_cast
      linarith
    · push_cast
      linarith
    · intro hodd
      omega

namespace RoundsBack

variable {m : ℕ} {e : ℤ} {x : ℝ}

theorem lt_of_pos (h : RoundsBack m e x) (hm : 0 < m) (he : -1074 ≤ e) : (2 : ℝ) ^ (-1075 : ℤ) < x := by
  have hleast : (2 : ℝ) ^ (-1074 : ℤ) ≤ 2 ^ e := zpow_le_zpow_right₀ one_le_two he
  have hhalf : (2 : ℝ) ^ (-1075 : ℤ) = 1 / 2 * 2 ^ (-1074 : ℤ) := by
    rw [show (-1075 : ℤ) = -1 + -1074 by norm_num, zpow_add₀ two_ne_zero]
    norm_num
  have hpos : (0 : ℝ) < 2 ^ (-1074 : ℤ) := by positivity
  rw [hhalf]
  rcases (by omega : m = 1 ∨ 2 ≤ m) with rfl | hm
  · have hlow := (h.ends rfl).1
    push_cast at hlow
    linarith
  · have hm' : (2 : ℝ) ≤ m := by exact_mod_cast hm
    have hstep : (m - 1 / 2) * (2 : ℝ) ^ e ≤ x := by
      refine le_trans (mul_le_mul_of_nonneg_right ?_ (by positivity)) h.low
      split <;> linarith
    have hlarge : 3 / 2 * (2 : ℝ) ^ (-1074 : ℤ) ≤ (m - 1 / 2) * 2 ^ e :=
      mul_le_mul (by linarith) hleast (by positivity) (by linarith)
    linarith

theorem lt_of_greatest (h : RoundsBack m e x) (hm : m < 2 ^ 53) (he : e ≤ 971) : x < 2 ^ (1024 : ℤ) := by
  have hm' : (m : ℝ) + 1 ≤ 2 ^ 53 := by exact_mod_cast hm
  calc x ≤ (m + 1 / 2) * 2 ^ e := h.high
    _ < 2 ^ 53 * 2 ^ e := mul_lt_mul_of_pos_right (by linarith) (by positivity)
    _ ≤ 2 ^ 53 * 2 ^ (971 : ℤ) := by
      refine mul_le_mul_of_nonneg_left ?_ (by positivity)
      exact zpow_le_zpow_right₀ one_le_two he
    _ = 2 ^ (1024 : ℤ) := by
      rw [← zpow_natCast, ← zpow_add₀ two_ne_zero]
      rfl

end RoundsBack

/-- A numeral that is rounded to a double is read as it. -/
theorem toDouble_eq {m : ℕ} {e : ℤ} (hm : 0 < m) (hnormal : Normal m e) {digits : ℕ} {exponent : ℤ}
    (h : RoundsBack m e (digits * 10 ^ exponent)) (negative : Bool) :
    (Numeral.decimal negative digits exponent).toDouble = encode negative m e := by
  obtain ⟨hden, hvalue⟩ := quotientOf_value digits exponent
  have hlow := h.lt_of_pos hm hnormal.least
  have hpos : 0 < digits := by
    refine Nat.pos_of_ne_zero fun hzero => ?_
    rw [hzero, Nat.cast_zero, zero_mul] at hlow
    exact absurd hlow (not_lt.mpr (by positivity))
  have htiny : ¬ isTiny digits exponent = true := fun htiny => absurd hlow (not_lt.mpr (isTiny_le htiny))
  have hhuge : ¬ isHuge digits exponent = true := fun hhuge =>
    absurd (h.lt_of_greatest hnormal.short hnormal.greatest) (not_lt.mpr (isHuge_le hpos hhuge))
  have hnum : 0 < (quotientOf digits exponent).1 := by
    refine Nat.pos_of_ne_zero fun hzero => ?_
    rw [hzero, Nat.cast_zero, zero_div] at hvalue
    exact absurd hlow (not_lt.mpr (by rw [← hvalue]; positivity))
  rw [Numeral.toDouble, if_neg htiny, if_neg hhuge]
  exact nearest_eq hnum hden hnormal (by rwa [hvalue]) negative

end TableProfile.Number
