import TableProfile.Proofs.DoubleLimits
import TableProfile.Proofs.NumberRounding

/-!
# Bounds of doubles

A sum of squares may be too large to be finite, and a root or a product of such sums is infinite too. So
a lower bound says that a double is at least some number or positively infinite (`AtLeast`); adding,
multiplying and taking roots keep it, and a quotient by such a double is not too large.

Results:
* `RoundsTo.atLeast`: rounding does not move a number that is not negative below one of the grid.
* `AtLeast.add`, `AtLeast.mul`, `AtLeast.sqrt`: bounds of results from bounds of operands.
* `AtLeast.div`: a quotient by a double with a lower bound is finite if the bound of the exact one is.
* `Within.mul`, `Within.sub`, `Within.div`: upper bounds of results from upper bounds of operands.
* `beq_zero_iff`: a double equals zero if it is finite and its number is zero.
-/
namespace TableProfile.Double

open Float.Model (Format UnpackedFloat)
open Float.Model.UnpackedFloat

/-- A number that is at least `r`, or positively infinite. -/
def AtLeast (r : ℝ) (z : Float) : Prop :=
  (z.isFinite = true ∧ r ≤ value z) ∨ z.toModel.unpack = .infinity .positive

/-- Rounding does not move a number below one of the grid, and makes none that is not negative negatively
infinite. -/
theorem RoundsTo.atLeast {x g : ℝ} {z : Float} (h : RoundsTo x z) (hg : Representable g)
    (hgx : g ≤ x) (hx : 0 ≤ x) : AtLeast g z := by
  cases h with
  | finite hfinite hnearest => exact Or.inl ⟨hfinite, hnearest.ge hg hgx⟩
  | infinite s hunpack r hnearest hlarge =>
    cases s with
    | positive => exact Or.inr hunpack
    | negative =>
      have hnonpos : r ≤ 0 := hnearest.le representable_zero (neg_nonpos.mpr hx)
      have hpos : (0 : ℝ) < 2 ^ (1024 : ℤ) := zpow_pos two_pos _
      exact absurd (hpos.trans_le hlarge) hnonpos.not_gt

variable {x z : Float} {a b c : ℝ}

theorem AtLeast.le (h : AtLeast a z) (hz : z.isFinite = true) : a ≤ value z := by
  rcases h with ⟨-, hle⟩ | hinfinite
  · exact hle
  · rw [not_isFinite_of_infinite hinfinite] at hz
    cases hz

theorem infinite_add (hz : z.toModel.unpack = .infinity .positive) (hx : AtLeast a x) :
    (z + x).toModel.unpack = .infinity .positive := by
  have hsum : (z + x).toModel.unpack =
    (Float.Model.pack (add Format.binary64 z.toModel.unpack x.toModel.unpack)).unpack := rfl
  rw [hsum, hz]
  rcases hx with ⟨hfinite, -⟩ | hinfinite
  · rcases finite_kinds hfinite with ⟨t, hu⟩ | ⟨t, m, e, hm, hu⟩ <;> rw [hu] <;>
      exact unpack_pack_infinity .positive
  · rw [hinfinite]
    exact unpack_pack_infinity .positive

theorem add_infinite (hz : AtLeast a z) (hx : x.toModel.unpack = .infinity .positive) :
    (z + x).toModel.unpack = .infinity .positive := by
  have hsum : (z + x).toModel.unpack =
    (Float.Model.pack (add Format.binary64 z.toModel.unpack x.toModel.unpack)).unpack := rfl
  rw [hsum, hx]
  rcases hz with ⟨hfinite, -⟩ | hinfinite
  · rcases finite_kinds hfinite with ⟨t, hu⟩ | ⟨t, m, e, hm, hu⟩ <;> rw [hu] <;>
      exact unpack_pack_infinity .positive
  · rw [hinfinite]
    exact unpack_pack_infinity .positive

theorem AtLeast.add (hz : AtLeast a z) (hx : AtLeast b x) (ha : 0 ≤ a) (hb : 0 ≤ b)
    (hc : Representable c) (hle : c ≤ a + b) : AtLeast c (z + x) := by
  rcases hz with ⟨hzfinite, hza⟩ | hzinfinite
  · rcases hx with ⟨hxfinite, hxb⟩ | hxinfinite
    · exact (add_roundsTo hzfinite hxfinite).atLeast hc (by linarith) (by linarith)
    · exact Or.inr (add_infinite (Or.inl ⟨hzfinite, hza⟩) hxinfinite)
  · exact Or.inr (infinite_add hzinfinite hx)

theorem infinite_mul (hz : z.toModel.unpack = .infinity .positive) (hx : AtLeast a x) (ha : 0 < a) :
    (z * x).toModel.unpack = .infinity .positive := by
  have hproduct : (z * x).toModel.unpack =
    (Float.Model.pack (mul Format.binary64 z.toModel.unpack x.toModel.unpack)).unpack := rfl
  rw [hproduct, hz]
  rcases hx with ⟨hfinite, hle⟩ | hinfinite
  · have hpos : 0 < value x := ha.trans_le hle
    rcases finite_kinds hfinite with ⟨t, hu⟩ | ⟨t, m, e, hm, hu⟩
    · rw [value, hu] at hpos
      exact absurd hpos (lt_irrefl 0)
    · rw [value, hu] at hpos
      rw [hu]
      cases t with
      | negative => exact absurd hpos (neg_lt_zero.mpr (finite_pos hm e)).not_gt
      | positive => exact unpack_pack_infinity .positive
  · rw [hinfinite]
    exact unpack_pack_infinity .positive

theorem AtLeast.mul (hz : AtLeast a z) (hx : AtLeast b x) (ha : 0 < a) (hb : 0 < b)
    (hc : Representable c) (hle : c ≤ a * b) : AtLeast c (z * x) := by
  rcases hz with ⟨hzfinite, hza⟩ | hzinfinite
  · rcases hx with ⟨hxfinite, hxb⟩ | hxinfinite
    · have hproduct : a * b ≤ value z * value x := mul_le_mul hza hxb hb.le (ha.le.trans hza)
      exact (mul_roundsTo hzfinite hxfinite).atLeast hc (hle.trans hproduct)
        ((mul_pos ha hb).le.trans hproduct)
    · rw [mul_comm]
      exact Or.inr (infinite_mul hxinfinite (Or.inl ⟨hzfinite, hza⟩) ha)
  · exact Or.inr (infinite_mul hzinfinite hx hb)

theorem mul_self_atLeast (hx : x.isFinite = true) (hc : Representable c)
    (hle : c ≤ value x * value x) : AtLeast c (x * x) :=
  (mul_roundsTo hx hx).atLeast hc hle (mul_self_nonneg _)

theorem AtLeast.sqrt (hz : AtLeast a z) (hc : Representable c) (hle : c * c ≤ a) :
    AtLeast c z.sqrt := by
  rcases hz with ⟨hfinite, hza⟩ | hinfinite
  · have hsquare : c ^ 2 ≤ value z := by
      rw [pow_two]
      exact hle.trans hza
    exact (sqrt_roundsTo hfinite ((sq_nonneg c).trans hsquare)).atLeast hc
      (Real.le_sqrt_of_sq_le hsquare) (Real.sqrt_nonneg _)
  · have hroot : z.sqrt.toModel.unpack =
      (Float.Model.pack (UnpackedFloat.sqrt Format.binary64 z.toModel.unpack)).unpack := rfl
    rw [AtLeast, hroot, hinfinite]
    exact Or.inr (unpack_pack_infinity .positive)

/-- A quotient by a double with a lower bound. -/
theorem AtLeast.div (hz : AtLeast a z) (ha : 0 < a) (hx : x.isFinite = true) (hc : Representable c)
    (hmax : c < 2 ^ (1024 : ℤ)) (hle : |value x| ≤ c * a) :
    (x / z).isFinite = true ∧ |value (x / z)| ≤ c := by
  rcases hz with ⟨hfinite, hza⟩ | hinfinite
  · have hzpos : 0 < value z := ha.trans_le hza
    have hcpos : 0 ≤ c := nonneg_of_mul_nonneg_left ((abs_nonneg _).trans hle) ha
    have hbound : |value x / value z| ≤ c := by
      rw [abs_div, abs_of_pos hzpos, div_le_iff₀ hzpos]
      exact hle.trans (mul_le_mul_of_nonneg_left hza hcpos)
    obtain ⟨hquotient, hnearest⟩ := (div_roundsTo hx hfinite hzpos.ne').of_abs_le hbound hc hmax
    exact ⟨hquotient, hnearest.abs_le_of_abs_le hc hbound⟩
  · obtain ⟨hquotient, hzero⟩ := div_infinite hx hinfinite
    rw [hzero, abs_zero]
    exact ⟨hquotient, nonneg_of_mul_nonneg_left ((abs_nonneg _).trans hle) ha⟩

theorem AtLeast.div_atLeast_zero (hz : AtLeast a z) (ha : 0 < a) (hx : x.isFinite = true)
    (hnonneg : 0 ≤ value x) : AtLeast 0 (x / z) := by
  rcases hz with ⟨hfinite, hza⟩ | hinfinite
  · have hzpos : 0 < value z := ha.trans_le hza
    have hquotient : 0 ≤ value x / value z := div_nonneg hnonneg hzpos.le
    exact (div_roundsTo hx hfinite hzpos.ne').atLeast representable_zero hquotient hquotient
  · obtain ⟨hquotient, hzero⟩ := div_infinite hx hinfinite
    exact Or.inl ⟨hquotient, hzero.ge⟩

/-! ## Upper bounds -/

/-- A finite number of at most `2^t`, on either side of zero. -/
structure Within (t : ℤ) (z : Float) : Prop where
  finite : z.isFinite = true
  bound : |value z| ≤ 2 ^ t

namespace Within

variable {y : Float} {s t : ℤ}

theorem of_roundsTo {r : ℝ} (h : RoundsTo r z) (ht : -1074 ≤ t) (hmax : t < 1024) (hr : |r| ≤ 2 ^ t) :
    Within t z := by
  have hgrid : Representable (2 ^ t) := representable_two_pow ht
  obtain ⟨hfinite, hnearest⟩ := h.of_abs_le hr hgrid (zpow_lt_zpow_right₀ one_lt_two hmax)
  exact ⟨hfinite, hnearest.abs_le_of_abs_le hgrid hr⟩

theorem of_zero (h : z.isFinite = true ∧ value z = 0) : Within t z := by
  refine ⟨h.1, ?_⟩
  rw [h.2, abs_zero]
  exact (zpow_pos two_pos _).le

theorem mono (h : Within s z) (hst : s ≤ t) : Within t z :=
  ⟨h.finite, h.bound.trans (zpow_le_zpow_right₀ one_le_two hst)⟩

theorem mul (hx : Within s x) (hy : Within t y) (hsum : -1074 ≤ s + t) (hmax : s + t < 1024) :
    Within (s + t) (x * y) := by
  refine of_roundsTo (mul_roundsTo hx.finite hy.finite) hsum hmax ?_
  rw [abs_mul, zpow_add₀ two_ne_zero]
  exact mul_le_mul hx.bound hy.bound (abs_nonneg _) (zpow_pos two_pos _).le

theorem sub (hx : Within t x) (hy : Within t y) (ht : -1074 ≤ t + 1) (hmax : t + 1 < 1024) :
    Within (t + 1) (x - y) := by
  refine of_roundsTo (sub_roundsTo hx.finite hy.finite) ht hmax ?_
  have htriangle := abs_sub (value x) (value y)
  rw [zpow_add_one₀ two_ne_zero]
  linarith [hx.bound, hy.bound]

/-- A quotient by one or more. -/
theorem div (hx : Within t x) (hz : AtLeast 1 z) (ht : -1074 ≤ t) (hmax : t < 1024) :
    Within t (x / z) := by
  have hbound : |value x| ≤ 2 ^ t * 1 := by rw [mul_one]; exact hx.bound
  obtain ⟨hfinite, hle⟩ := hz.div one_pos hx.finite (representable_two_pow ht)
    (zpow_lt_zpow_right₀ one_lt_two hmax) hbound
  exact ⟨hfinite, hle⟩

end Within

/-! ## Zeros -/

/-- A result that is exactly zero is zero. -/
theorem RoundsTo.zero (h : RoundsTo 0 z) : z.isFinite = true ∧ value z = 0 := by
  obtain ⟨hfinite, hnearest⟩ := h.of_abs_le (abs_zero.trans_le (zpow_pos two_pos 0).le)
    (representable_two_pow (by norm_num)) (zpow_lt_zpow_right₀ one_lt_two (by norm_num))
  exact ⟨hfinite, hnearest.eq_self representable_zero⟩

theorem zero_finite : (Number.ofNat 0).isFinite = true ∧ value (Number.ofNat 0) = 0 := by
  have h := Number.ofNat_exact (Nat.zero_le (2 ^ 53))
  rwa [Nat.cast_zero] at h

theorem isFinite_of_beq {y : Float} (hy : y.isFinite = true) (h : (z == y) = true) :
    z.isFinite = true := by
  have hcompare : z.toModel.unpack.compare y.toModel.unpack = some .eq := beq_iff_eq.mp h
  rcases kinds z with hfinite | ⟨s, hz⟩ | hz
  · exact hfinite
  · rw [hz] at hcompare
    rcases finite_kinds hy with ⟨t, hu⟩ | ⟨t, m, e, hm, hu⟩ <;> rw [hu] at hcompare <;>
      cases s <;> cases hcompare
  · rw [hz] at hcompare
    cases hcompare

theorem beq_zero_iff : (z == Number.ofNat 0) = true ↔ z.isFinite = true ∧ value z = 0 := by
  constructor
  · intro h
    have hfinite := isFinite_of_beq zero_finite.1 h
    rw [beq_iff_value hfinite zero_finite.1, zero_finite.2] at h
    exact ⟨hfinite, h⟩
  · rintro ⟨hfinite, hzero⟩
    rw [beq_iff_value hfinite zero_finite.1, zero_finite.2, hzero]

theorem AtLeast.ne_zero (hz : AtLeast a z) (ha : 0 < a) : (z == Number.ofNat 0) = false := by
  refine Bool.eq_false_iff.mpr fun h => ?_
  obtain ⟨hfinite, hzero⟩ := beq_zero_iff.mp h
  rcases hz with ⟨-, hle⟩ | hinfinite
  · exact absurd (ha.trans_le hle) hzero.not_gt
  · rw [not_isFinite_of_infinite hinfinite] at hfinite
    cases hfinite

end TableProfile.Double
