import TableProfile.Number.Binary
import TableProfile.Proofs.DoubleArithmetic

/-!
# The doubles of exact numbers

Numbers are read and counts are turned into doubles by exact division: the quotient is scaled to a full
mantissa or to the least exponent (`lastBit`), rounded to an integer (`roundQuotient`) and put together
(`encode`).

Results:
* `encode_roundsTo`: what is put together has the sign, mantissa and exponent that it is put together of.
* `nearest_roundsTo`: the double of a quotient is nearest to it.
* `ofNat_roundsTo`, `ofInt_roundsTo`: so is the double of an integer.
* `ofInt_exact`, `ofNat_exact`: an integer that 53 bits hold is held exactly.
-/
namespace TableProfile.Number

open Double
open Float.Model (UnpackedFloat)
open Float.Model.UnpackedFloat (Sign ExtendedMantissa accuracyOfFraction packComponents unpack)

/-! ## Doubles from their bits -/

def signOf (negative : Bool) : Sign := if negative then .negative else .positive

theorem packComponents_eq (s : Sign) {field fraction : ℕ} (hfield : field < 2048)
    (hfraction : fraction < 2 ^ 52) :
    packComponents .binary64 s (BitVec.ofNat 11 field) (BitVec.ofNat 52 fraction) =
      BitVec.ofNat 64 (s.toBitVec.toNat * 2 ^ 63 + (field * 2 ^ 52 + fraction)) := by
  have hfirst : (BitVec.ofNat 11 field).toNat = field := by
    rw [BitVec.toNat_ofNat, Nat.mod_eq_of_lt hfield]
  have hlast : (BitVec.ofNat 52 fraction).toNat = fraction := by
    rw [BitVec.toNat_ofNat, Nat.mod_eq_of_lt hfraction]
  have hsign : s.toBitVec.toNat < 2 := s.toBitVec.isLt
  have hall : (BitVec.ofNat 64 (s.toBitVec.toNat * 2 ^ 63 + (field * 2 ^ 52 + fraction))).toNat =
      s.toBitVec.toNat * 2 ^ 63 + (field * 2 ^ 52 + fraction) := by
    rw [BitVec.toNat_ofNat, Nat.mod_eq_of_lt (by omega)]
  apply BitVec.eq_of_toNat_eq
  refine Eq.trans ?_ hall.symm
  rw [packComponents, BitVec.toNat_append, ← Nat.shiftLeft_add_eq_or_of_lt (BitVec.isLt _),
    BitVec.toNat_append, ← Nat.shiftLeft_add_eq_or_of_lt (BitVec.isLt _), hfirst, hlast,
    Nat.shiftLeft_eq, Nat.shiftLeft_eq]
  omega

/-- The bits of a sign, and a magnitude that is capped at that of infinity. -/
def ofMagnitude (negative : Bool) (magnitude : ℕ) : Float :=
  Float.ofBits (UInt64.ofNat ((signOf negative).toBitVec.toNat * 2 ^ 63 +
    min magnitude (2047 * 2 ^ 52)))

theorem encode_eq (negative : Bool) (m : ℕ) (e : ℤ) :
    encode negative m e = ofMagnitude negative
      (if m < 2 ^ 52 then m else (e + 1075).toNat * 2 ^ 52 + (m - 2 ^ 52)) := by
  have hsign : (if negative then Nat.pow 2 63 else 0) = (signOf negative).toBitVec.toNat * 2 ^ 63 := by
    cases negative <;> rfl
  have hcap (n : ℕ) : (if n < 2047 * Nat.pow 2 52 then n else 2047 * Nat.pow 2 52) =
      min n (2047 * 2 ^ 52) := by
    rw [Nat.min_def]
    show (if n < 2047 * 2 ^ 52 then n else 2047 * 2 ^ 52) = _
    split <;> split <;> omega
  rw [ofMagnitude, ← hsign, ← hcap]
  rfl

theorem unpack_ofMagnitude (negative : Bool) {field fraction : ℕ} (hfield : field < 2047)
    (hfraction : fraction < 2 ^ 52) :
    (ofMagnitude negative (field * 2 ^ 52 + fraction)).toModel.unpack =
      unpack .binary64 (packComponents .binary64 (signOf negative) (BitVec.ofNat 11 field)
        (BitVec.ofNat 52 fraction)) := by
  rw [packComponents_eq _ (by omega) hfraction, ofMagnitude, Nat.min_eq_left (by omega)]
  exact unpack_pack_unpack _

theorem unpack_ofMagnitude_infinite (negative : Bool) {magnitude : ℕ} (h : 2047 * 2 ^ 52 ≤ magnitude) :
    (ofMagnitude negative magnitude).toModel.unpack = .infinity (signOf negative) := by
  rw [ofMagnitude, Nat.min_eq_right h]
  cases negative <;> rfl

/-- A full mantissa comes from the fields that hold it, if it is not too large. -/
theorem ofMagnitude_roundsTo (negative : Bool) {x : ℝ} {field fraction : ℕ} (hpos : 0 < field)
    (hfraction : fraction < 2 ^ 52)
    (h : Nearest x ((2 ^ 52 + fraction : ℕ) * 2 ^ ((field : ℤ) - 1075))) :
    RoundsTo (signed (signOf negative) x) (ofMagnitude negative (field * 2 ^ 52 + fraction)) := by
  by_cases hfield : field < 2047
  · have hunpack := unpack_ofMagnitude negative hfield hfraction
    rw [unpack_full _ hpos hfield hfraction] at hunpack
    refine .finite (congrArg UnpackedFloat.isFinite hunpack) ?_
    rw [value, hunpack]
    exact h.signed _
  · refine .infinite (signOf negative) (unpack_ofMagnitude_infinite negative (by omega)) _
      (by rwa [signed_signed]) ?_
    calc (2 : ℝ) ^ (1024 : ℤ) = 2 ^ 52 * 2 ^ (972 : ℤ) := by
          rw [← zpow_natCast, ← zpow_add₀ two_ne_zero]
          rfl
      _ ≤ (2 ^ 52 + fraction : ℕ) * 2 ^ ((field : ℤ) - 1075) := by
          refine mul_le_mul ?_ (zpow_le_zpow_right₀ one_le_two (by omega)) ?_ ?_
          · push_cast
            linarith [(Nat.cast_nonneg fraction : (0 : ℝ) ≤ fraction)]
          all_goals positivity

/-- The double that is put together of a nearest mantissa and exponent comes from the exact number. -/
theorem encode_roundsTo (negative : Bool) {x : ℝ} {m : ℕ} {e : ℤ} (h : Nearest x (m * 2 ^ e))
    (hm : m ≤ 2 ^ 53) (he : -1074 ≤ e) (hfull : 2 ^ 52 ≤ m ∨ e = -1074) :
    RoundsTo (signed (signOf negative) x) (encode negative m e) := by
  rw [encode_eq]
  split
  · rename_i hshort
    obtain rfl : e = -1074 := hfull.resolve_left (by omega)
    have hunpack := @unpack_ofMagnitude negative 0 m (by norm_num) hshort
    rw [zero_mul, zero_add] at hunpack
    rcases Nat.eq_zero_or_pos m with rfl | hpos
    · have hzero : (ofMagnitude negative 0).toModel.unpack = .zero (signOf negative) := by
        cases negative <;> rfl
      refine .finite (congrArg UnpackedFloat.isFinite hzero) ?_
      rw [Nat.cast_zero, zero_mul] at h
      rw [value, hzero, unpackedValue_zero, ← signed_zero (signOf negative)]
      exact h.signed _
    · have hshort' := hunpack.trans (unpack_short (signOf negative) hpos hshort)
      refine .finite (congrArg UnpackedFloat.isFinite hshort') ?_
      rw [value, hshort']
      exact h.signed _
  · rename_i hlong
    rcases hm.lt_or_eq with hlt | rfl
    · refine ofMagnitude_roundsTo negative (by omega) (by omega) ?_
      have hmantissa : 2 ^ 52 + (m - 2 ^ 52) = m := by omega
      have hexponent : (((e + 1075).toNat : ℕ) : ℤ) - 1075 = e := by omega
      rwa [hmantissa, hexponent]
    · have hcarry : (e + 1075).toNat * 2 ^ 52 + (2 ^ 53 - 2 ^ 52) =
          (e + 1076).toNat * 2 ^ 52 + 0 := by omega
      rw [hcarry]
      refine ofMagnitude_roundsTo negative (by omega) (by norm_num) ?_
      have hexponent : (((e + 1076).toNat : ℕ) : ℤ) - 1075 = e + 1 := by omega
      have hvalue : ((2 ^ 52 + 0 : ℕ) : ℝ) * 2 ^ (e + 1) = (2 ^ 53 : ℕ) * 2 ^ e := by
        rw [zpow_add₀ two_ne_zero]
        push_cast
        ring
      rwa [hexponent, hvalue]

/-! ## Quotients -/

/-- Rounding by twice the remainder is rounding by the bits that it gives. -/
theorem roundQuotient_eq (num den : ℕ) : roundQuotient num den =
    (ExtendedMantissa.ofMantissaAndAccuracy (num / den)
      (accuracyOfFraction (num % den) den)).roundedMantissa := by
  rw [roundQuotient, accuracyOfFraction]
  by_cases hzero : num % den = 0
  · rw [if_pos hzero, hzero]
    rcases Nat.eq_zero_or_pos den with rfl | hden
    · simp only [Nat.div_zero]
      rfl
    · exact if_pos hden
  · rw [if_neg hzero]
    rcases lt_trichotomy (2 * (num % den)) den with hhalf | hhalf | hhalf
    · rw [Nat.compare_eq_lt.mpr hhalf]
      exact if_pos hhalf
    · rw [Nat.compare_eq_eq.mpr hhalf]
      exact (if_neg (by omega)).trans (if_neg (by omega))
    · rw [Nat.compare_eq_gt.mpr hhalf]
      exact (if_neg (by omega)).trans (if_pos hhalf)

theorem roundQuotient_dist (num : ℕ) {den : ℕ} (hden : 0 < den) :
    |(roundQuotient num den : ℝ) - num / den| ≤ 1 / 2 := by
  rw [roundQuotient_eq]
  exact (cut_quotient num hden).roundedMantissa

theorem roundQuotient_bounds (num den : ℕ) :
    num / den ≤ roundQuotient num den ∧ roundQuotient num den ≤ num / den + 1 := by
  have hlow := le_roundedMantissa (.ofMantissaAndAccuracy (num / den)
    (accuracyOfFraction (num % den) den))
  have hhigh := roundedMantissa_le (.ofMantissaAndAccuracy (num / den)
    (accuracyOfFraction (num % den) den))
  rw [mantissa_ofMantissaAndAccuracy, ← roundQuotient_eq] at hlow hhigh
  exact ⟨hlow, hhigh⟩

theorem scaled_pos (num : ℕ) {den : ℕ} (hden : 0 < den) (e : ℤ) : 0 < (scaled num den e).2 := by
  have hpow (k : ℕ) : 0 < Nat.pow 2 k := Nat.pow_pos two_pos
  rw [scaled]
  split
  · exact hden
  · exact Nat.mul_pos hden (hpow _)

theorem scaled_value (num den : ℕ) (e : ℤ) :
    ((scaled num den e).1 : ℝ) / (scaled num den e).2 * 2 ^ e = num / den := by
  have hpow (k : ℕ) : ((Nat.pow 2 k : ℕ) : ℝ) = 2 ^ k := by
    rw [Nat.pow_eq]
    push_cast
    rfl
  rw [scaled]
  split
  · rename_i hneg
    obtain ⟨k, hk⟩ : ∃ k : ℕ, e = -k := ⟨(-e).toNat, by omega⟩
    have hshift : (-e).toNat = k := by omega
    simp only [hshift, Nat.cast_mul, hpow]
    rw [hk, zpow_neg, zpow_natCast]
    field_simp
  · rename_i hneg
    obtain ⟨k, hk⟩ : ∃ k : ℕ, e = k := ⟨e.toNat, by omega⟩
    have hshift : e.toNat = k := by omega
    simp only [hshift, Nat.cast_mul, hpow]
    rw [hk, zpow_natCast]
    field_simp

/-- A quotient lies between the powers of two that the digits of its parts say. -/
theorem quotient_bounds {num den : ℕ} (hnum : 0 < num) (hden : 0 < den) :
    (2 : ℝ) ^ ((num.log2 : ℤ) - den.log2 - 1) < num / den ∧
      (num : ℝ) / den < 2 ^ ((num.log2 : ℤ) - den.log2 + 1) := by
  have hpos : (0 : ℝ) < den := by exact_mod_cast hden
  have hnumlow : (2 : ℝ) ^ num.log2 ≤ num := by exact_mod_cast Nat.log2_self_le hnum.ne'
  have hnumhigh : (num : ℝ) < 2 ^ (num.log2 + 1) := by exact_mod_cast Nat.lt_log2_self
  have hdenlow : (2 : ℝ) ^ den.log2 ≤ den := by exact_mod_cast Nat.log2_self_le hden.ne'
  have hdenhigh : (den : ℝ) < 2 ^ (den.log2 + 1) := by exact_mod_cast Nat.lt_log2_self
  constructor
  · rw [lt_div_iff₀ hpos]
    calc (2 : ℝ) ^ ((num.log2 : ℤ) - den.log2 - 1) * den
        < 2 ^ ((num.log2 : ℤ) - den.log2 - 1) * 2 ^ (den.log2 + 1) :=
          mul_lt_mul_of_pos_left hdenhigh (zpow_pos two_pos _)
      _ = 2 ^ num.log2 := by
          rw [← zpow_natCast, ← zpow_natCast, ← zpow_add₀ two_ne_zero]
          congr 1
          push_cast
          ring
      _ ≤ num := hnumlow
  · rw [div_lt_iff₀ hpos]
    calc (num : ℝ) < 2 ^ (num.log2 + 1) := hnumhigh
      _ = 2 ^ ((num.log2 : ℤ) - den.log2 + 1) * 2 ^ den.log2 := by
          rw [← zpow_natCast, ← zpow_natCast, ← zpow_add₀ two_ne_zero]
          congr 1
          push_cast
          ring
      _ ≤ 2 ^ ((num.log2 : ℤ) - den.log2 + 1) * den :=
          mul_le_mul_of_nonneg_left hdenlow (zpow_pos two_pos _).le

/-- Scaled by the exponent of its last bit, a quotient has at most 53 bits, and no fewer unless the
exponent is the least one. -/
theorem lastBit_spec {num den : ℕ} (hnum : 0 < num) (hden : 0 < den) :
    ∃ y : ℝ, y * 2 ^ lastBit double num den = num / den ∧ -1074 ≤ lastBit double num den ∧
      y < 2 ^ 53 ∧ (2 ^ 52 ≤ y ∨ lastBit double num den = -1074) := by
  obtain ⟨guess, hguess⟩ : ∃ guess, max ((num.log2 : ℤ) - den.log2 - 53) (-1074) = guess :=
    ⟨_, rfl⟩
  obtain ⟨y, hy⟩ : ∃ y : ℝ, ((scaled num den guess).1 : ℝ) / (scaled num den guess).2 = y :=
    ⟨_, rfl⟩
  have hvalue : y * 2 ^ guess = num / den := by rw [← hy, scaled_value]
  obtain ⟨hlow, hhigh⟩ := quotient_bounds hnum hden
  have hpos : (0 : ℝ) < 2 ^ guess := zpow_pos two_pos guess
  have hbelow : y < 2 ^ 54 := by
    refine lt_of_mul_lt_mul_right ?_ hpos.le
    calc y * 2 ^ guess = num / den := hvalue
      _ < 2 ^ ((num.log2 : ℤ) - den.log2 + 1) := hhigh
      _ ≤ 2 ^ (54 + guess) := zpow_le_zpow_right₀ one_le_two (by omega)
      _ = 2 ^ 54 * 2 ^ guess := zpow_add₀ two_ne_zero _ _
  have habove : 2 ^ 52 ≤ y ∨ guess = -1074 := by
    by_cases hleast : guess = -1074
    · exact Or.inr hleast
    · refine Or.inl (le_of_mul_le_mul_right ?_ hpos)
      calc (2 : ℝ) ^ 52 * 2 ^ guess = 2 ^ (52 + guess) := (zpow_add₀ two_ne_zero _ _).symm
        _ = 2 ^ ((num.log2 : ℤ) - den.log2 - 1) := by congr 1; omega
        _ ≤ num / den := hlow.le
        _ = y * 2 ^ guess := hvalue.symm
  have hfits : (scaled num den guess).1 / (scaled num den guess).2 < 2 ^ 53 ↔ y < 2 ^ 53 := by
    have hden' := scaled_pos num hden guess
    have hpos' : (0 : ℝ) < (scaled num den guess).2 := by exact_mod_cast hden'
    rw [Nat.div_lt_iff_lt_mul hden', ← hy, div_lt_iff₀ hpos']
    exact_mod_cast Iff.rfl
  have hlast : lastBit double num den = if y < 2 ^ 53 then guess else guess + 1 := by
    rw [← if_congr hfits rfl rfl, ← hguess]
    rfl
  rw [hlast]
  split
  · rename_i hfit
    exact ⟨y, hvalue, by omega, hfit, habove⟩
  · rename_i hfit
    refine ⟨y / 2, ?_, by omega, by linarith, Or.inl (by linarith)⟩
    rw [← hvalue, zpow_add₀ two_ne_zero]
    ring

/-- The double of a quotient is nearest to it. -/
theorem nearest_roundsTo (negative : Bool) (num : ℕ) {den : ℕ} (hden : 0 < den) :
    RoundsTo (signed (signOf negative) (num / den)) (nearest negative num den) := by
  rcases Nat.eq_zero_or_pos num with rfl | hnum
  · have hzero : Nearest ((0 : ℕ) / den : ℝ) ((0 : ℕ) * 2 ^ (-1074 : ℤ)) := by
      rw [Nat.cast_zero, zero_div, zero_mul]
      exact nearest_self representable_zero
    exact encode_roundsTo negative hzero (by norm_num) le_rfl (Or.inr rfl)
  · obtain ⟨e, he⟩ : ∃ e, lastBit double num den = e := ⟨_, rfl⟩
    obtain ⟨y, hvalue, hleast, hfit, hfull⟩ := lastBit_spec hnum hden
    rw [he] at hvalue hleast hfull
    have hden' := scaled_pos num hden e
    have hy : ((scaled num den e).1 : ℝ) / (scaled num den e).2 = y := by
      have h := (scaled_value num den e).trans hvalue.symm
      exact mul_right_cancel₀ (zpow_pos two_pos e).ne' h
    have hnearest : nearest negative num den =
        encode negative (roundQuotient (scaled num den e).1 (scaled num den e).2) e := by
      rw [nearest, roundTo, if_neg hnum.ne', ← he]
    have hdist := roundQuotient_dist (scaled num den e).1 hden'
    obtain ⟨hbelow, habove⟩ := roundQuotient_bounds (scaled num den e).1 (scaled num den e).2
    obtain ⟨hfloor, hceil⟩ := (cut_quotient (scaled num den e).1 hden').floor
    rw [mantissa_ofMantissaAndAccuracy, hy] at hfloor hceil
    rw [hy] at hdist
    rw [hnearest]
    generalize roundQuotient (scaled num den e).1 (scaled num den e).2 = m at *
    generalize (scaled num den e).1 / (scaled num den e).2 = q at *
    have hm : m ≤ 2 ^ 53 := by
      have hq : q < 2 ^ 53 := by exact_mod_cast hfloor.trans_lt hfit
      omega
    have hmfull : 2 ^ 52 ≤ m ∨ e = -1074 := hfull.imp_left fun h => by
      have hq : 2 ^ 52 < q + 1 := by exact_mod_cast h.trans_lt hceil
      omega
    refine encode_roundsTo negative ?_ hm hleast hmfull
    rw [← hvalue, ← Int.cast_natCast m]
    refine nearest_of_scaled ?_ ?_ hleast hfull
    · rwa [Int.cast_natCast]
    · rw [Nat.abs_cast]
      exact_mod_cast hm

/-! ## Integers -/

theorem ofNat_roundsTo (n : ℕ) : RoundsTo n (ofNat n) := by
  have h := nearest_roundsTo false n one_pos
  rwa [Nat.cast_one, div_one] at h

theorem ofInt_roundsTo (n : ℤ) : RoundsTo n (ofInt n) := by
  have h := nearest_roundsTo (decide (n < 0)) n.natAbs one_pos
  rw [Nat.cast_one, div_one] at h
  have hvalue : signed (signOf (decide (n < 0))) n.natAbs = n := by
    rw [Nat.cast_natAbs]
    by_cases hneg : n < 0
    · rw [decide_eq_true hneg, abs_of_neg hneg, Int.cast_neg]
      exact neg_neg _
    · rw [decide_eq_false hneg, abs_of_nonneg (by omega)]
      rfl
  rwa [hvalue] at h

/-- An integer that 53 bits hold is held exactly. -/
theorem ofInt_exact {n : ℤ} (h : |n| ≤ 2 ^ 53) : (ofInt n).isFinite = true ∧ value (ofInt n) = n := by
  have hle : |(n : ℝ)| ≤ 2 ^ (53 : ℤ) := by exact_mod_cast h
  obtain ⟨hfinite, hnearest⟩ := (ofInt_roundsTo n).of_abs_le hle (representable_two_pow (by norm_num))
    (zpow_lt_zpow_right₀ one_lt_two (by norm_num))
  exact ⟨hfinite, hnearest.eq_self (representable_int h)⟩

theorem ofNat_exact {n : ℕ} (h : n ≤ 2 ^ 53) : (ofNat n).isFinite = true ∧ value (ofNat n) = n :=
  ofInt_exact (n := n) (by rw [Nat.abs_cast]; exact_mod_cast h)

end TableProfile.Number
