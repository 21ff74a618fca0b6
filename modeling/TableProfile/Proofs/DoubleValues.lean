import Mathlib.Algebra.Order.Archimedean.Real.Basic
import TableProfile.Proofs.Doubles
import TableProfile.Proofs.Rounding

/-!
# The numbers that doubles stand for

A finite double stands for a number (`value`), and its bits hold this number in normal form. An unpacked
number in normal form is packed without loss unless it is too large; then it becomes infinite. So each
operation on finite doubles gives a double that is nearest to the exact result, or an infinite one where
the nearest number of the grid is `2^1024` or more (`RoundsTo`).

Results:
* `RoundsTo.of_abs_le`: a result within the range of doubles is finite and nearest to the exact one.
* `lt_iff_value`, `le_iff_value`, `beq_iff_value`: finite doubles compare as their numbers do.
-/
namespace TableProfile.Double

open Float.Model (Format UnpackedFloat totalExponent)
open Float.Model.UnpackedFloat

theorem unpackSign_packComponents (spec : Format) (s : Sign) (e : BitVec spec.exponentBits)
    (m : BitVec spec.mantissaBitsWithoutImplicit) :
    Sign.ofBitVec (unpackSign (packComponents spec s e m)) = s := by
  have h : unpackSign (packComponents spec s e m) = s.toBitVec := by
    refine BitVec.eq_of_getLsbD_eq fun i hi => ?_
    obtain rfl : i = 0 := by omega
    delta unpackSign packComponents
    simp [BitVec.getLsbD_append, BitVec.getElem_append]
  rw [h]
  cases s <;> rfl

/-- What the fields of a number say. -/
theorem unpack_of_fields {b : BitVec 64} {s : Sign} {e : BitVec 11} {m : BitVec 52}
    (hs : Sign.ofBitVec (@unpackSign Format.binary64 b) = s)
    (he : @unpackExponent Format.binary64 b = e) (hm : @unpackMantissa Format.binary64 b = m) :
    unpack Format.binary64 b =
      if e = -1#11 then if m = 0#52 then .infinity s else .notANumber
      else if e = 0#11 then
        if h : m = 0#52 then .zero s
        else .finite s m.toNat (e.toNat - 1075 + 1) (Nat.pos_of_ne_zero fun hzero =>
          h (BitVec.eq_of_toNat_eq hzero))
      else .finite s (1#1 ++ m).toNat (e.toNat - 1075) (by
        rw [BitVec.toNat_append, ← Nat.shiftLeft_add_eq_or_of_lt m.isLt]
        exact Nat.add_pos_left (by decide) _) := by
  subst hs he hm
  rfl

/-- A number is finite unless its exponent is full. -/
theorem isFinite_unpack_iff (b : BitVec 64) :
    (unpack Format.binary64 b).isFinite = true ↔ @unpackExponent Format.binary64 b ≠ -1#11 := by
  obtain ⟨e, he⟩ : ∃ e : BitVec 11, @unpackExponent Format.binary64 b = e := ⟨_, rfl⟩
  obtain ⟨m, hm⟩ : ∃ m : BitVec 52, @unpackMantissa Format.binary64 b = m := ⟨_, rfl⟩
  rw [unpack_of_fields rfl he hm, he]
  by_cases hfull : e = -1#11
  · rw [if_pos hfull]
    refine iff_of_false ?_ (not_not_intro hfull)
    by_cases hzero : m = 0#52
    · rw [if_pos hzero]
      exact Bool.false_ne_true
    · rw [if_neg hzero]
      exact Bool.false_ne_true
  · rw [if_neg hfull]
    refine iff_of_true ?_ hfull
    by_cases hleast : e = 0#11
    · rw [if_pos hleast]
      by_cases hzero : m = 0#52
      · rw [dif_pos hzero]
        rfl
      · rw [dif_neg hzero]
        rfl
    · rw [if_neg hleast]
      rfl

theorem finite_congr {s : Sign} {m n : ℕ} {e f : ℤ} {hm : 0 < m} {hn : 0 < n} (h : m = n)
    (he : e = f) : UnpackedFloat.finite s m e hm = .finite s n f hn := by
  subst h he
  rfl

theorem ofNat_ne {width n k : ℕ} (hn : n < 2 ^ width) (hk : k < 2 ^ width) (h : n ≠ k) :
    BitVec.ofNat width n ≠ BitVec.ofNat width k := fun heq => by
  have := congrArg BitVec.toNat heq
  rw [BitVec.toNat_ofNat, BitVec.toNat_ofNat, Nat.mod_eq_of_lt hn, Nat.mod_eq_of_lt hk] at this
  exact h this

/-- The fields of a number with a full mantissa. -/
theorem unpack_full (s : Sign) {field fraction : ℕ} (hpos : 0 < field) (hfield : field < 2047)
    (hfraction : fraction < 2 ^ 52) :
    unpack Format.binary64
        (packComponents Format.binary64 s (BitVec.ofNat 11 field) (BitVec.ofNat 52 fraction)) =
      .finite s (2 ^ 52 + fraction) (field - 1075) (by omega) := by
  have hnotInfinite : BitVec.ofNat 11 field ≠ -1#11 :=
    ofNat_ne (k := 2047) (by omega) (by norm_num) (by omega)
  have hnotLeast : BitVec.ofNat 11 field ≠ 0#11 := ofNat_ne (by omega) (by norm_num) (by omega)
  have hlast : (BitVec.ofNat 52 fraction).toNat = fraction := by
    rw [BitVec.toNat_ofNat, Nat.mod_eq_of_lt hfraction]
  have hmantissa : (1#1 ++ BitVec.ofNat 52 fraction).toNat = 2 ^ 52 + fraction := by
    rw [BitVec.toNat_append, ← Nat.shiftLeft_add_eq_or_of_lt (BitVec.isLt _), hlast]
    rfl
  have hexponent : ((BitVec.ofNat 11 field).toNat : ℤ) - 1075 = field - 1075 := by
    rw [BitVec.toNat_ofNat]
    omega
  rw [unpack_of_fields (unpackSign_packComponents _ _ _ _) unpackExponent_packComponents
    unpackMantissa_packComponents, if_neg hnotInfinite, if_neg hnotLeast]
  exact finite_congr hmantissa hexponent

/-- The fields of a number with the least exponent whose mantissa is not full. -/
theorem unpack_short (s : Sign) {fraction : ℕ} (hpos : 0 < fraction) (hfraction : fraction < 2 ^ 52) :
    unpack Format.binary64 (packComponents Format.binary64 s 0#11 (BitVec.ofNat 52 fraction)) =
      .finite s fraction (-1074) hpos := by
  have hnotInfinite : 0#11 ≠ -1#11 := by decide
  have hnotZero : BitVec.ofNat 52 fraction ≠ 0#52 := ofNat_ne hfraction (by norm_num) (by omega)
  have hmantissa : (BitVec.ofNat 52 fraction).toNat = fraction := by
    rw [BitVec.toNat_ofNat, Nat.mod_eq_of_lt hfraction]
  rw [unpack_of_fields (unpackSign_packComponents _ _ _ _) unpackExponent_packComponents
    unpackMantissa_packComponents, if_neg hnotInfinite, if_pos rfl, dif_neg hnotZero]
  exact finite_congr hmantissa rfl

/-- The fields that a number in normal form is packed into, unless it is too large. -/
theorem pack_finite {s : Sign} {m : ℕ} {e : ℤ} {hm : 0 < m} (h : Canonical (.finite s m e hm))
    (he : e ≤ 971) : pack Format.binary64 (.finite s m e hm) =
      if 2 ^ 52 ≤ m then
        packComponents Format.binary64 s (BitVec.ofNat 11 (e + 1075).toNat) (BitVec.ofNat 52 m)
      else packComponents Format.binary64 s 0#11 (BitVec.ofNat 52 m) := by
  obtain ⟨hdigits, hleast, -⟩ := h
  have hfield : e + (1023 : ℕ) + (52 : ℕ) = (e + 1075).toNat := by omega
  have hsmall : ¬ 2 ^ 11 ≤ (e + (1023 : ℕ) + (52 : ℕ)).toNat + 1 := by omega
  have hnormal : m.log2 + 1 = 53 ↔ 2 ^ 52 ≤ m := by
    have hlog : m.log2 = 52 ↔ 2 ^ 52 ≤ m ∧ m < 2 ^ 53 := Nat.log2_eq_iff hm.ne'
    omega
  refine (if_neg hsmall).trans ?_
  show (if m.log2 + 1 = 53 then packComponents Format.binary64 s
      (BitVec.ofNat 11 (e + (1023 : ℕ) + (52 : ℕ)).toNat) (BitVec.ofNat 52 m) else _) = _
  simp only [hnormal, hfield]
  rfl

/-- A number in normal form that is not too large is packed without loss. -/
theorem unpack_pack {s : Sign} {m : ℕ} {e : ℤ} {hm : 0 < m} (h : Canonical (.finite s m e hm))
    (he : e ≤ 971) : (Float.Model.pack (.finite s m e hm)).unpack = .finite s m e hm := by
  show unpack Format.binary64 (pack Format.binary64 (.finite s m e hm)) = _
  rw [pack_finite h he]
  obtain ⟨hdigits, hleast, hfull⟩ := h
  by_cases hnormal : 2 ^ 52 ≤ m
  · have hfraction : BitVec.ofNat 52 m = BitVec.ofNat 52 (m - 2 ^ 52) := by
      apply BitVec.eq_of_toNat_eq
      rw [BitVec.toNat_ofNat, BitVec.toNat_ofNat]
      omega
    rw [if_pos hnormal, hfraction, unpack_full s (by omega) (by omega) (by omega)]
    exact finite_congr (by omega) (by omega)
  · obtain rfl : e = -1074 := hfull.resolve_left hnormal
    rw [if_neg hnormal, unpack_short s hm (by omega)]

/-- A number that is too large is packed as infinite. -/
theorem unpack_pack_of_lt {s : Sign} {m : ℕ} {e : ℤ} {hm : 0 < m} (he : 971 < e) :
    (Float.Model.pack (.finite s m e hm)).unpack = .infinity s := by
  have hlarge : 2 ^ 11 ≤ (e + (1023 : ℕ) + (52 : ℕ)).toNat + 1 := by omega
  have hpack : pack Format.binary64 (.finite s m e hm) = packedInfinity Format.binary64 s :=
    if_pos hlarge
  show unpack Format.binary64 (pack Format.binary64 (.finite s m e hm)) = _
  rw [hpack]
  cases s <;> rfl

/-- What bits hold is in normal form and not too large. -/
theorem unpack_finite {bits : BitVec 64} {s : Sign} {m : ℕ} {e : ℤ} {hm : 0 < m}
    (h : unpack Format.binary64 bits = .finite s m e hm) :
    Canonical (.finite s m e hm) ∧ e ≤ 971 := by
  obtain ⟨field, hfield⟩ : ∃ field : BitVec 11, @unpackExponent Format.binary64 bits = field :=
    ⟨_, rfl⟩
  obtain ⟨fraction, hfraction⟩ : ∃ fraction : BitVec 52,
    @unpackMantissa Format.binary64 bits = fraction := ⟨_, rfl⟩
  rw [unpack_of_fields rfl hfield hfraction] at h
  by_cases hinfinite : field = -1#11
  · rw [if_pos hinfinite] at h
    by_cases hzero : fraction = 0#52
    · rw [if_pos hzero] at h
      cases h
    · rw [if_neg hzero] at h
      cases h
  rw [if_neg hinfinite] at h
  by_cases hleast : field = 0#11
  · rw [if_pos hleast] at h
    by_cases hzero : fraction = 0#52
    · rw [dif_pos hzero] at h
      cases h
    · rw [dif_neg hzero] at h
      obtain ⟨-, rfl, rfl⟩ := UnpackedFloat.finite.inj h
      rw [hleast]
      refine ⟨⟨fraction.isLt.trans (by decide), ?_, Or.inr ?_⟩, ?_⟩
      all_goals decide
  · rw [if_neg hleast] at h
    obtain ⟨-, rfl, rfl⟩ := UnpackedFloat.finite.inj h
    have hmantissa : (1#1 ++ fraction).toNat = 2 ^ 52 + fraction.toNat := by
      rw [BitVec.toNat_append, ← Nat.shiftLeft_add_eq_or_of_lt fraction.isLt]
      rfl
    have hlast := fraction.isLt
    have hfirst := field.isLt
    have hne : field.toNat ≠ 2047 := fun heq => hinfinite (BitVec.eq_of_toNat_eq heq)
    have hpos : field.toNat ≠ 0 := fun heq => hleast (BitVec.eq_of_toNat_eq heq)
    refine ⟨⟨?_, ?_, Or.inl ?_⟩, ?_⟩
    all_goals omega

/-- Bits that are unpacked and packed again hold the same number. -/
theorem unpack_pack_unpack (bits : BitVec 64) :
    (Float.Model.pack (unpack Format.binary64 bits)).unpack = unpack Format.binary64 bits := by
  cases hunpack : unpack Format.binary64 bits with
  | notANumber => rfl
  | infinity s | zero s => cases s <;> rfl
  | finite s m e hm =>
    obtain ⟨hcanonical, he⟩ := unpack_finite hunpack
    exact unpack_pack hcanonical he

/-! ## Numbers of finite doubles -/

/-- The number that a double stands for, if it is finite. -/
noncomputable def value (x : Float) : ℝ := unpackedValue x.toModel.unpack

theorem canonical_of_isFinite {x : Float} (h : x.isFinite = true) : Canonical x.toModel.unpack := by
  have hfinite : x.toModel.unpack.isFinite = true := h
  cases hu : x.toModel.unpack with
  | notANumber | infinity _ => rw [hu] at hfinite; cases hfinite
  | zero _ => trivial
  | finite s m e hm => exact (unpack_finite hu).1

theorem Canonical.representable {u : UnpackedFloat} (h : Canonical u) :
    Representable (unpackedValue u) := by
  cases u with
  | notANumber | infinity _ => cases h
  | zero _ => exact representable_zero
  | finite s m e hm =>
    have hpositive : Representable (m * 2 ^ e) :=
      ⟨m, e, by rw [Nat.abs_cast]; exact_mod_cast h.1.le, h.2.1, by push_cast; rfl⟩
    cases s with
    | positive => exact hpositive
    | negative => exact hpositive.neg

theorem representable_value {x : Float} (h : x.isFinite = true) : Representable (value x) :=
  (canonical_of_isFinite h).representable

theorem abs_signed (s : Sign) (x : ℝ) : |signed s x| = |x| := by
  cases s with
  | positive => rfl
  | negative => exact abs_neg x

theorem abs_value_lt (x : Float) : |value x| < 2 ^ (1024 : ℤ) := by
  rw [value]
  cases hu : x.toModel.unpack with
  | notANumber | infinity _ | zero _ =>
    show |(0 : ℝ)| < 2 ^ (1024 : ℤ)
    rw [abs_zero]
    exact zpow_pos two_pos _
  | finite s m e hm =>
    obtain ⟨⟨hm, -, -⟩, he⟩ := unpack_finite hu
    rw [unpackedValue_finite, abs_signed, abs_of_nonneg (by positivity)]
    calc (m : ℝ) * 2 ^ e < 2 ^ 53 * 2 ^ e := by
          refine mul_lt_mul_of_pos_right ?_ (zpow_pos two_pos e)
          exact_mod_cast hm
      _ ≤ 2 ^ 53 * 2 ^ (971 : ℤ) := by
          refine mul_le_mul_of_nonneg_left (zpow_le_zpow_right₀ one_le_two he) ?_
          positivity
      _ = 2 ^ (1024 : ℤ) := by rw [← zpow_natCast, ← zpow_add₀ two_ne_zero]; rfl

/-! ## Rounded results -/

/-- How a double comes from an exact result: it is nearest to it, or infinite where the nearest number is
too large. -/
inductive RoundsTo (x : ℝ) (z : Float) : Prop
  | finite (defined : z.isFinite = true) (nearest : Nearest x (value z))
  | infinite (s : Sign) (unpacked : z.toModel.unpack = .infinity s) (r : ℝ)
      (nearest : Nearest (signed s x) r) (large : 2 ^ (1024 : ℤ) ≤ r)

theorem signed_signed (s : Sign) (x : ℝ) : signed s (signed s x) = x := by
  cases s with
  | positive => rfl
  | negative => exact neg_neg x

theorem Rounds.roundsTo {x : ℝ} {u : UnpackedFloat} (h : Rounds x u) :
    RoundsTo x (.ofModel (.pack u)) := by
  obtain ⟨hcanonical, hnearest⟩ := h
  cases u with
  | notANumber | infinity _ => cases hcanonical
  | zero s =>
    have hunpack : (Float.Model.pack (.zero s)).unpack = .zero s := by cases s <;> rfl
    refine .finite (congrArg isFinite hunpack) ?_
    rwa [value, hunpack]
  | finite s m e hm =>
    by_cases he : e ≤ 971
    · have hunpack := unpack_pack hcanonical he
      refine .finite (congrArg isFinite hunpack) ?_
      rwa [value, hunpack]
    · have hlarge : (2 : ℝ) ^ (1024 : ℤ) ≤ m * 2 ^ e := by
        have hfull : 2 ^ 52 ≤ m := hcanonical.2.2.resolve_right (by omega)
        calc (2 : ℝ) ^ (1024 : ℤ) = 2 ^ 52 * 2 ^ (972 : ℤ) := by
              rw [← zpow_natCast, ← zpow_add₀ two_ne_zero]
              rfl
          _ ≤ (m : ℝ) * 2 ^ e := by
            refine mul_le_mul ?_ (zpow_le_zpow_right₀ one_le_two (by omega)) ?_ ?_
            · exact_mod_cast hfull
            all_goals positivity
      refine .infinite s (unpack_pack_of_lt (by omega)) (m * 2 ^ e) ?_ hlarge
      have h := hnearest.signed s
      rwa [unpackedValue_finite, signed_signed] at h

/-- A result within the range of doubles is finite and nearest to the exact one. -/
theorem RoundsTo.of_abs_le {x g : ℝ} {z : Float} (h : RoundsTo x z) (hx : |x| ≤ g)
    (hg : Representable g) (hlt : g < 2 ^ (1024 : ℤ)) : z.isFinite = true ∧ Nearest x (value z) := by
  cases h with
  | finite hdefined hnearest => exact ⟨hdefined, hnearest⟩
  | infinite s _ r hnearest hlarge =>
    have hle : r ≤ g := hnearest.le hg (by rw [← abs_signed s] at hx; exact (abs_le.mp hx).2)
    linarith

theorem RoundsTo.nearest {x : ℝ} {z : Float} (h : RoundsTo x z) (hz : z.isFinite = true) :
    Nearest x (value z) := by
  cases h with
  | finite _ hnearest => exact hnearest
  | infinite s hunpack _ _ _ =>
    have hfinite : z.toModel.unpack.isFinite = true := hz
    rw [hunpack] at hfinite
    cases hfinite

/-! ## Order -/

/-- A full mantissa is larger than any other at a smaller exponent. -/
theorem lt_of_exponent_lt {m n : ℕ} {e f : ℤ} (hm : m < 2 ^ 53) (hn : 2 ^ 52 ≤ n) (h : e < f) :
    (m : ℝ) * 2 ^ e < n * 2 ^ f := by
  calc (m : ℝ) * 2 ^ e < 2 ^ 53 * 2 ^ e := by
        refine mul_lt_mul_of_pos_right ?_ (zpow_pos two_pos e)
        exact_mod_cast hm
    _ ≤ 2 ^ 53 * 2 ^ (f - 1) := by
        refine mul_le_mul_of_nonneg_left (zpow_le_zpow_right₀ one_le_two (by omega)) ?_
        positivity
    _ = 2 ^ 52 * 2 ^ f := by
        rw [zpow_sub₀ two_ne_zero]
        ring
    _ ≤ n * 2 ^ f := by
        refine mul_le_mul_of_nonneg_right ?_ (zpow_pos two_pos f).le
        exact_mod_cast hn

theorem compare_positive {m n : ℕ} {e f : ℤ} {hm : 0 < m} {hn : 0 < n}
    (ha : Canonical (.finite .positive m e hm)) (hb : Canonical (.finite .positive n f hn)) :
    (compare e f).then (compare m n) = compare ((m : ℝ) * 2 ^ e) (n * 2 ^ f) := by
  obtain ⟨hm, he, hmfull⟩ := ha
  obtain ⟨hn, hf, hnfull⟩ := hb
  rcases lt_trichotomy e f with hlt | rfl | hgt
  · have h := lt_of_exponent_lt hm (hnfull.resolve_right (by omega)) hlt
    rw [compare_lt_iff_lt.mpr hlt, compare_lt_iff_lt.mpr h]
    rfl
  · have hpos : (0 : ℝ) < 2 ^ e := zpow_pos two_pos e
    rw [compare_eq_iff_eq.mpr (rfl : e = e)]
    rcases lt_trichotomy m n with hlt | rfl | hgt
    · have h : (m : ℝ) * 2 ^ e < n * 2 ^ e := mul_lt_mul_of_pos_right (by exact_mod_cast hlt) hpos
      rw [compare_lt_iff_lt.mpr hlt, compare_lt_iff_lt.mpr h]
      rfl
    · rw [compare_eq_iff_eq.mpr rfl, compare_eq_iff_eq.mpr rfl]
      rfl
    · have h : (n : ℝ) * 2 ^ e < m * 2 ^ e := mul_lt_mul_of_pos_right (by exact_mod_cast hgt) hpos
      rw [compare_gt_iff_gt.mpr hgt, compare_gt_iff_gt.mpr h]
      rfl
  · have h := lt_of_exponent_lt hn (hmfull.resolve_right (by omega)) hgt
    rw [compare_gt_iff_gt.mpr hgt, compare_gt_iff_gt.mpr h]
    rfl

theorem compare_neg (x y : ℝ) : (compare x y).swap = compare (-x) (-y) := by
  rcases lt_trichotomy x y with hlt | rfl | hgt
  · rw [compare_lt_iff_lt.mpr hlt, compare_gt_iff_gt.mpr (neg_lt_neg hlt)]
    rfl
  · rw [compare_eq_iff_eq.mpr rfl, compare_eq_iff_eq.mpr rfl]
    rfl
  · rw [compare_gt_iff_gt.mpr hgt, compare_lt_iff_lt.mpr (neg_lt_neg hgt)]
    rfl

theorem finite_pos {m : ℕ} (hm : 0 < m) (e : ℤ) : (0 : ℝ) < m * 2 ^ e := by
  have : (0 : ℝ) < m := by exact_mod_cast hm
  positivity

/-- Numbers in normal form compare as the numbers that they stand for. -/
theorem compare_eq {a b : UnpackedFloat} (ha : Canonical a) (hb : Canonical b) :
    a.compare b = some (compare (unpackedValue a) (unpackedValue b)) := by
  have hneg {x : ℝ} (h : 0 < x) : -x < 0 := neg_lt_zero.mpr h
  cases a with
  | notANumber | infinity _ => cases ha
  | zero s =>
    cases b with
    | notANumber | infinity _ => cases hb
    | zero _ => exact congrArg some (compare_eq_iff_eq.mpr rfl).symm
    | finite t n f hn =>
      cases t with
      | positive => exact congrArg some (compare_lt_iff_lt.mpr (finite_pos hn f)).symm
      | negative => exact congrArg some (compare_gt_iff_gt.mpr (hneg (finite_pos hn f))).symm
  | finite s m e hm =>
    cases b with
    | notANumber | infinity _ => cases hb
    | zero _ =>
      cases s with
      | positive => exact congrArg some (compare_gt_iff_gt.mpr (finite_pos hm e)).symm
      | negative => exact congrArg some (compare_lt_iff_lt.mpr (hneg (finite_pos hm e))).symm
    | finite t n f hn =>
      have hmpos := finite_pos hm e
      have hnpos := finite_pos hn f
      cases s with
      | positive =>
        cases t with
        | positive => exact congrArg some (compare_positive ha hb)
        | negative => exact congrArg some (compare_gt_iff_gt.mpr ((hneg hnpos).trans hmpos)).symm
      | negative =>
        cases t with
        | positive => exact congrArg some (compare_lt_iff_lt.mpr ((hneg hmpos).trans hnpos)).symm
        | negative =>
          refine congrArg some ?_
          rw [@compare_positive _ _ _ _ hm hn ha hb]
          rw [compare_neg, unpackedValue_finite, unpackedValue_finite, signed, signed]

variable {x y : Float}

theorem lt_iff_value (hx : x.isFinite = true) (hy : y.isFinite = true) :
    x < y ↔ value x < value y := by
  rw [lt_iff, compare_eq (canonical_of_isFinite hx) (canonical_of_isFinite hy), Option.some.injEq,
    compare_lt_iff_lt, value, value]

theorem le_iff_value (hx : x.isFinite = true) (hy : y.isFinite = true) :
    x ≤ y ↔ value x ≤ value y := by
  rw [le_iff, compare_eq (canonical_of_isFinite hx) (canonical_of_isFinite hy), Option.any_some,
    Ordering.isLE_iff_ne_gt, ← compare_le_iff_le, value, value]

theorem beq_iff_value (hx : x.isFinite = true) (hy : y.isFinite = true) :
    (x == y) = true ↔ value x = value y := by
  have h : (x == y) = (x.toModel.unpack.compare y.toModel.unpack == some .eq) := rfl
  rw [h, compare_eq (canonical_of_isFinite hx) (canonical_of_isFinite hy), beq_iff_eq,
    Option.some.injEq, compare_eq_iff_eq, value, value]

end TableProfile.Double
