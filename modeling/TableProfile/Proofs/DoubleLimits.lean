import TableProfile.Proofs.DoubleArithmetic

/-!
# Infinite and undefined doubles

A result that is too large is infinite, and what is infinite or undefined does not become finite again by
adding, multiplying or dividing it, or by taking its root. The exception is a quotient by something
infinite, which is zero.

Results:
* `isFinite_of_add`, `isFinite_of_mul`, `isFinite_of_div`, `isFinite_of_sqrt`: where the result is
  finite, so are the operands (of a quotient the first one).
* `not_le_of_infinite`, `not_ge_of_infinite`: no finite double lies beyond an infinite one.
-/
namespace TableProfile.Double

open Float.Model (Format UnpackedFloat)
open Float.Model.UnpackedFloat

theorem unpack_pack_infinity (s : Sign) : (Float.Model.pack (.infinity s)).unpack = .infinity s := by
  cases s <;> rfl

theorem isFinite_of_pack {u : UnpackedFloat} (h : (Float.Model.pack u).unpack.isFinite = true) :
    u.isFinite = true := by
  cases u with
  | notANumber => cases h
  | infinity s =>
    rw [unpack_pack_infinity] at h
    cases h
  | zero _ | finite _ _ _ _ => rfl

/-- A double is finite, infinite or undefined. -/
theorem kinds (x : Float) : x.isFinite = true ∨ (∃ s, x.toModel.unpack = .infinity s) ∨
    x.toModel.unpack = .notANumber := by
  have hfinite : x.isFinite = x.toModel.unpack.isFinite := rfl
  rw [hfinite]
  cases x.toModel.unpack with
  | notANumber => exact Or.inr (Or.inr rfl)
  | infinity s => exact Or.inr (Or.inl ⟨s, rfl⟩)
  | zero _ | finite _ _ _ _ => exact Or.inl rfl

theorem finite_kinds {x : Float} (h : x.isFinite = true) : (∃ s, x.toModel.unpack = .zero s) ∨
    ∃ s m e hm, x.toModel.unpack = .finite s m e hm := by
  have hfinite : x.toModel.unpack.isFinite = true := h
  cases hu : x.toModel.unpack with
  | notANumber | infinity _ => rw [hu] at hfinite; cases hfinite
  | zero s => exact Or.inl ⟨s, rfl⟩
  | finite s m e hm => exact Or.inr ⟨s, m, e, hm, rfl⟩

/-! ## What a finite result says of its operands -/

theorem unpacked_isFinite_of_add {a b : UnpackedFloat} (h : (add Format.binary64 a b).isFinite = true) :
    a.isFinite = true ∧ b.isFinite = true := by
  cases a with
  | notANumber => cases b <;> cases h
  | infinity s =>
    cases b with
    | infinity t => cases s <;> cases t <;> cases h
    | notANumber | zero _ | finite _ _ _ _ => cases h
  | zero s | finite s _ _ _ =>
    cases b with
    | notANumber | infinity _ => cases h
    | zero _ | finite _ _ _ _ => exact ⟨rfl, rfl⟩

theorem unpacked_isFinite_of_mul {a b : UnpackedFloat} (h : (mul Format.binary64 a b).isFinite = true) :
    a.isFinite = true ∧ b.isFinite = true := by
  cases a with
  | notANumber | infinity _ => cases b <;> cases h
  | zero s | finite s _ _ _ =>
    cases b with
    | notANumber | infinity _ => cases h
    | zero _ | finite _ _ _ _ => exact ⟨rfl, rfl⟩

theorem unpacked_isFinite_of_div {a b : UnpackedFloat} (h : (div Format.binary64 a b).isFinite = true) :
    a.isFinite = true := by
  cases a with
  | notANumber | infinity _ => cases b <;> cases h
  | zero _ | finite _ _ _ _ => rfl

theorem unpacked_isFinite_of_sqrt {a : UnpackedFloat} (h : (sqrt Format.binary64 a).isFinite = true) :
    a.isFinite = true := by
  cases a with
  | notANumber => cases h
  | infinity s => cases s <;> cases h
  | zero _ | finite _ _ _ _ => rfl

variable {x y : Float} {s : Sign}

theorem isFinite_of_add (h : (x + y).isFinite = true) : x.isFinite = true ∧ y.isFinite = true :=
  unpacked_isFinite_of_add (isFinite_of_pack h)

theorem isFinite_of_mul (h : (x * y).isFinite = true) : x.isFinite = true ∧ y.isFinite = true :=
  unpacked_isFinite_of_mul (isFinite_of_pack h)

theorem isFinite_of_div (h : (x / y).isFinite = true) : x.isFinite = true :=
  unpacked_isFinite_of_div (isFinite_of_pack h)

theorem isFinite_of_sqrt (h : x.sqrt.isFinite = true) : x.isFinite = true :=
  unpacked_isFinite_of_sqrt (isFinite_of_pack h)

/-! ## Infinite operands -/

theorem not_isFinite_of_infinite (h : x.toModel.unpack = .infinity s) : x.isFinite = false :=
  congrArg UnpackedFloat.isFinite h

/-- Half of something infinite is infinite. -/
theorem infinite_div (hx : x.toModel.unpack = .infinity s) (hy : y.isFinite = true)
    (hpos : 0 < value y) : (x / y).toModel.unpack = .infinity s := by
  have hquotient : (x / y).toModel.unpack =
    (Float.Model.pack (div Format.binary64 x.toModel.unpack y.toModel.unpack)).unpack := rfl
  rw [hquotient, hx]
  rcases finite_kinds hy with ⟨t, hu⟩ | ⟨t, m, e, hm, hu⟩
  · rw [value, hu] at hpos
    exact absurd hpos (lt_irrefl 0)
  · rw [value, hu] at hpos
    cases t with
    | negative => exact absurd hpos (neg_lt_zero.mpr (finite_pos hm e)).not_gt
    | positive =>
      have hsign : s / Sign.positive = s := by cases s <;> rfl
      rw [hu]
      show (Float.Model.pack (.infinity (s / Sign.positive))).unpack = _
      rw [hsign, unpack_pack_infinity]

/-- A finite double divided by an infinite one is zero. -/
theorem div_infinite (hx : x.isFinite = true) (hy : y.toModel.unpack = .infinity s) :
    (x / y).isFinite = true ∧ value (x / y) = 0 := by
  have hquotient : (x / y).toModel.unpack =
    (Float.Model.pack (div Format.binary64 x.toModel.unpack y.toModel.unpack)).unpack := rfl
  obtain ⟨t, hzero⟩ : ∃ t, (x / y).toModel.unpack = .zero t := by
    have hzero (t : Sign) : (Float.Model.pack (.zero t)).unpack = .zero t := by cases t <;> rfl
    rw [hquotient, hy]
    rcases finite_kinds hx with ⟨t, hu⟩ | ⟨t, m, e, hm, hu⟩
    · rw [hu]
      exact ⟨_, hzero _⟩
    · rw [hu]
      exact ⟨_, hzero _⟩
  refine ⟨congrArg UnpackedFloat.isFinite hzero, ?_⟩
  rw [value, hzero, unpackedValue_zero]

theorem not_le_of_infinite (hx : x.toModel.unpack = .infinity .positive) (hy : y.isFinite = true) :
    ¬ x ≤ y := by
  rw [le_iff, hx]
  rcases finite_kinds hy with ⟨t, hu⟩ | ⟨t, m, e, hm, hu⟩
  · rw [hu]
    exact Bool.false_ne_true
  · rw [hu]
    exact Bool.false_ne_true

theorem not_ge_of_infinite (hx : x.toModel.unpack = .infinity .negative) (hy : y.isFinite = true) :
    ¬ y ≤ x := by
  rw [le_iff, hx]
  rcases finite_kinds hy with ⟨t, hu⟩ | ⟨t, m, e, hm, hu⟩
  · rw [hu]
    exact Bool.false_ne_true
  · cases t <;> rw [hu] <;> exact Bool.false_ne_true

end TableProfile.Double
