import TableProfile.Proofs.DoubleBounds
import TableProfile.Proofs.MedianOrder

/-!
# Equal doubles

Two finite doubles that stand for one number are the same double, up to the sign of a zero: a number has
one normal form, and the fields of a double are what its number is packed into. So where arithmetic is
done with equal doubles, the results are equal: either the operands are the same, or one of them is a
zero and the result is exact.

Results:
* `pack_unpack`: a double is packed from its own number.
* `SameNumber.eq`: finite doubles of one number other than zero are the same double.
* `SameNumber.add`, `Equal.half`: sums of equal doubles are equal, and so are their halves.
-/
namespace TableProfile.Double

open Float.Model (Format UnpackedFloat)
open Float.Model.UnpackedFloat

/-! ## The fields of a double -/

theorem toBitVec_ofBitVec (b : BitVec 1) : (Sign.ofBitVec b).toBitVec = b := by
  revert b
  decide

/-- Bits are put together from their own fields. -/
theorem packComponents_fields (b : BitVec 64) :
    packComponents Format.binary64 (Sign.ofBitVec (@unpackSign Format.binary64 b))
      (@unpackExponent Format.binary64 b) (@unpackMantissa Format.binary64 b) = b := by
  refine BitVec.eq_of_getLsbD_eq fun i hi => ?_
  delta packComponents unpackSign unpackExponent unpackMantissa
  rw [toBitVec_ofBitVec]
  simp only [BitVec.getLsbD_append, BitVec.getLsbD_cast, BitVec.getLsbD_extractLsb]
  grind

/-- The number that valid bits hold is packed into these bits. -/
theorem pack_unpack_valid {b : BitVec 64} (h : Format.binary64.Valid b) :
    pack Format.binary64 (unpack Format.binary64 b) = b := by
  obtain ⟨s, hs⟩ : ∃ s, Sign.ofBitVec (@unpackSign Format.binary64 b) = s := ⟨_, rfl⟩
  obtain ⟨field, hfield⟩ : ∃ field : BitVec 11, @unpackExponent Format.binary64 b = field := ⟨_, rfl⟩
  obtain ⟨fraction, hfraction⟩ : ∃ fraction : BitVec 52,
    @unpackMantissa Format.binary64 b = fraction := ⟨_, rfl⟩
  have hb := packComponents_fields b
  rw [hs, hfield, hfraction] at hb
  have hunpack := unpack_of_fields hs hfield hfraction
  by_cases hinfinite : field = -1#11
  · rw [if_pos hinfinite] at hunpack
    by_cases hzero : fraction = 0#52
    · rw [if_pos hzero] at hunpack
      rw [hinfinite, hzero] at hb
      rw [hunpack]
      exact hb
    · rw [if_neg hzero] at hunpack
      rw [hunpack]
      exact (h.eq_packedNaN (hfield.trans hinfinite) (hfraction.symm ▸ hzero)).symm
  rw [if_neg hinfinite] at hunpack
  by_cases hleast : field = 0#11
  · rw [if_pos hleast] at hunpack
    by_cases hzero : fraction = 0#52
    · rw [dif_pos hzero] at hunpack
      rw [hleast, hzero] at hb
      rw [hunpack]
      exact hb
    · rw [dif_neg hzero] at hunpack
      obtain ⟨hcanonical, he⟩ := unpack_finite hunpack
      have hshort : ¬ 2 ^ 52 ≤ fraction.toNat := not_le.mpr fraction.isLt
      rw [hleast] at hb
      rw [hunpack, pack_finite hcanonical he, if_neg hshort, BitVec.ofNat_toNat, BitVec.setWidth_eq]
      exact hb
  · rw [if_neg hleast] at hunpack
    obtain ⟨hcanonical, he⟩ := unpack_finite hunpack
    have hmantissa : (1#1 ++ fraction).toNat = 2 ^ 52 + fraction.toNat := by
      rw [BitVec.toNat_append, ← Nat.shiftLeft_add_eq_or_of_lt fraction.isLt]
      rfl
    have hfull : 2 ^ 52 ≤ (1#1 ++ fraction).toNat := by omega
    have hlast : BitVec.ofNat 52 (1#1 ++ fraction).toNat = fraction := by
      apply BitVec.eq_of_toNat_eq
      rw [hmantissa, BitVec.toNat_ofNat, Nat.add_mod_left, Nat.mod_eq_of_lt fraction.isLt]
    have hfirst : BitVec.ofNat 11 ((field.toNat : ℤ) - 1075 + 1075).toNat = field := by
      rw [sub_add_cancel, Int.toNat_natCast, BitVec.ofNat_toNat, BitVec.setWidth_eq]
    rw [hunpack, pack_finite hcanonical he, if_pos hfull, hfirst, hlast]
    exact hb

/-- A double is packed from its own number. -/
theorem pack_unpack (m : Float.Model) : .pack m.unpack = m := by
  have hbits : (Float.Model.pack m.unpack).toBits = m.toBits :=
    congrArg UInt64.ofBitVec (pack_unpack_valid m.valid)
  cases m with
  | mk bits valid => exact (Float.Model.mk.injEq ..).mpr hbits

theorem eq_of_unpack {x y : Float} (h : x.toModel.unpack = y.toModel.unpack) : x = y := by
  have hmodel : x.toModel = y.toModel := by rw [← pack_unpack x.toModel, h, pack_unpack]
  exact congrArg Float.ofModel hmodel

/-! ## Equality of numbers -/

/-- Finite numbers that compare as equal have the same fields. -/
theorem eq_of_compare {s t : Sign} {m n : ℕ} {e f : ℤ} {hm : 0 < m} {hn : 0 < n}
    (h : (UnpackedFloat.finite s m e hm).compare (.finite t n f hn) = some .eq) :
    UnpackedFloat.finite s m e hm = .finite t n f hn := by
  have hsame (heq : (compare e f).then (compare m n) = .eq) : e = f ∧ m = n := by
    rw [Ordering.then_eq_eq, compare_eq_iff_eq, compare_eq_iff_eq] at heq
    exact heq
  cases s with
  | positive =>
    cases t with
    | negative => cases h
    | positive =>
      obtain ⟨rfl, rfl⟩ := hsame (Option.some.inj h)
      rfl
  | negative =>
    cases t with
    | positive => cases h
    | negative =>
      have hswap : ((compare e f).then (compare m n)).swap = .eq := Option.some.inj h
      obtain ⟨rfl, rfl⟩ := hsame (by rwa [Ordering.swap_eq_eq] at hswap)
      rfl

/-- Finite doubles of one number. -/
structure SameNumber (x y : Float) : Prop where
  left : x.isFinite = true
  right : y.isFinite = true
  number : value x = value y

/-- The same double, or finite ones of one number. -/
def Equal (x y : Float) : Prop := x = y ∨ SameNumber x y

variable {a b x y : Float}

/-- Finite doubles of one number other than zero are the same double. -/
theorem SameNumber.eq (h : SameNumber x y) (hne : value x ≠ 0) : x = y := by
  have hcompare : x.toModel.unpack.compare y.toModel.unpack = some .eq := by
    rw [compare_eq (canonical_of_isFinite h.left) (canonical_of_isFinite h.right),
      compare_eq_iff_eq.mpr (show unpackedValue _ = unpackedValue _ from h.number)]
  rcases finite_kinds h.left with ⟨s, hu⟩ | ⟨s, m, e, hm, hu⟩
  · rw [value, hu] at hne
    exact absurd rfl hne
  rcases finite_kinds h.right with ⟨t, hv⟩ | ⟨t, n, f, hn, hv⟩
  · rw [h.number, value, hv] at hne
    exact absurd rfl hne
  rw [hu, hv] at hcompare
  exact eq_of_unpack (by rw [hu, hv, eq_of_compare hcompare])

/-- Finite doubles of one number are the same, or zeros. -/
theorem SameNumber.eq_or_zero (h : SameNumber x y) : x = y ∨ value x = 0 ∧ value y = 0 := by
  by_cases hzero : value x = 0
  · exact Or.inr ⟨hzero, h.number ▸ hzero⟩
  · exact Or.inl (h.eq hzero)

theorem SameNumber.beq (h : SameNumber x y) : (x == y) = true :=
  (beq_iff_value h.left h.right).mpr h.number

theorem compare_self {u : UnpackedFloat} (h : u.isNaN = false) : u.compare u = some .eq := by
  obtain ⟨o, ho⟩ := isSome_compare h h
  have hswap := compare_swap u u
  rw [ho, Option.map_some, Option.some.injEq] at hswap
  cases o with
  | eq => exact ho
  | lt | gt => cases hswap

theorem Equal.beq (h : Equal x y) (hdefined : x.isNaN = false) : (x == y) = true := by
  rcases h with rfl | hsame
  · have hself : (x.toModel.unpack.compare x.toModel.unpack == some .eq) = true := by
      rw [compare_self (u := x.toModel.unpack) hdefined]
      rfl
    exact hself
  · exact hsame.beq

/-! ## Results of equal operands -/

theorem RoundsTo.isNaN {r : ℝ} (h : RoundsTo r x) : x.isNaN = false := by
  cases h with
  | finite hfinite _ => exact isNaN_of_isFinite hfinite
  | infinite s hunpack _ _ _ => exact congrArg UnpackedFloat.isNaN hunpack

/-- A sum that is a double is exact. -/
theorem add_exact {z : Float} (hx : x.isFinite = true) (hy : y.isFinite = true)
    (hz : z.isFinite = true) (h : value x + value y = value z) : SameNumber (x + y) z := by
  have hrounds := add_roundsTo hx hy
  rw [h] at hrounds
  obtain ⟨hfinite, hnearest⟩ := hrounds.of_abs_le le_rfl (representable_value hz).abs (abs_value_lt z)
  exact ⟨hfinite, hz, hnearest.eq_self (representable_value hz)⟩

theorem SameNumber.trans_symm {z : Float} (hx : SameNumber x z) (hy : SameNumber y z) :
    SameNumber x y :=
  ⟨hx.left, hy.left, hx.number.trans hy.number.symm⟩

/-- Sums of equal doubles are equal. -/
theorem SameNumber.add (hax : SameNumber a x) (hby : SameNumber b y) : Equal (a + b) (x + y) := by
  rcases hax.eq_or_zero with rfl | ⟨ha, hx⟩
  · rcases hby.eq_or_zero with rfl | ⟨hb, hy⟩
    · exact Or.inl rfl
    · -- what is added is a zero, so both sums are the other summand
      have hleft := add_exact hax.left hby.left hax.left (by rw [hb, add_zero])
      have hright := add_exact hax.left hby.right hax.left (by rw [hy, add_zero])
      exact Or.inr (hleft.trans_symm hright)
  · have hleft := add_exact hax.left hby.left hby.left (by rw [ha, zero_add])
    have hright := add_exact hax.right hby.right hby.left (by rw [hx, zero_add, hby.number])
    exact Or.inr (hleft.trans_symm hright)

/-- Halves of equal doubles are equal. -/
theorem Equal.half (h : Equal x y) : Equal (x / Number.ofNat 2) (y / Number.ofNat 2) := by
  rcases h with rfl | hsame
  · exact Or.inl rfl
  rcases hsame.eq_or_zero with rfl | ⟨hx, hy⟩
  · exact Or.inl rfl
  · have hhalf {z : Float} (hz : z.isFinite = true) (hzero : value z = 0) :
        (z / Number.ofNat 2).isFinite = true ∧ value (z / Number.ofNat 2) = 0 := by
      have hrounds := div_roundsTo hz two_finite.1 (by rw [two_finite.2]; exact two_ne_zero)
      rw [hzero, zero_div] at hrounds
      exact hrounds.zero
    obtain ⟨hleft, hleftzero⟩ := hhalf hsame.left hx
    obtain ⟨hright, hrightzero⟩ := hhalf hsame.right hy
    exact Or.inr ⟨hleft, hright, hleftzero.trans hrightzero.symm⟩

/-- Half of a sum of finite doubles is defined. -/
theorem half_defined (ha : a.isFinite = true) (hb : b.isFinite = true) :
    ((a + b) / Number.ofNat 2).isNaN = false := by
  cases add_roundsTo ha hb with
  | finite hsum _ =>
    exact (div_roundsTo hsum two_finite.1 (by rw [two_finite.2]; exact two_ne_zero)).isNaN
  | infinite s hunpack _ _ _ =>
    have hhalf := infinite_div hunpack two_finite.1 (by rw [two_finite.2]; exact two_pos)
    exact congrArg UnpackedFloat.isNaN hhalf

/-- Halves of sums of equal doubles are equal. -/
theorem SameNumber.half_add (hax : SameNumber a x) (hby : SameNumber b y) :
    ((a + b) / Number.ofNat 2 == (x + y) / Number.ofNat 2) = true :=
  (hax.add hby).half.beq (half_defined hax.left hby.left)

end TableProfile.Double
