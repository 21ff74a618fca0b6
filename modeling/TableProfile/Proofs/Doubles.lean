/-!
# Arithmetic of doubles

Doubles have a model that takes them apart into sign, mantissa and exponent. What is needed of their
arithmetic is proved there, one case for each kind of number.

* `isFinite_eq`: a double is finite unless it is undefined or infinite.
* `mul_comm`: products do not depend on the order of the factors.
* `le_of_not_lt`: of two defined numbers one is at most the other.
-/
namespace TableProfile.Double

open Float.Model (Format UnpackedFloat)

theorem isFinite_eq (x : Float) : x.isFinite = (!x.isNaN && !x.isInf) := by
  have h (u : UnpackedFloat) : u.isFinite = (!u.isNaN && !u.isInf) := by cases u <;> rfl
  exact h x.toModel.unpack

theorem isNaN_of_isFinite {x : Float} (h : x.isFinite = true) : x.isNaN = false := by
  rw [isFinite_eq, Bool.and_eq_true, Bool.not_eq_true'] at h
  exact h.1

/-! ## Products -/

theorem sign_mul_comm (s t : UnpackedFloat.Sign) : s * t = t * s := by cases s <;> cases t <;> rfl

theorem unpacked_mul_comm (spec : Format) (a b : UnpackedFloat) :
    UnpackedFloat.mul spec a b = UnpackedFloat.mul spec b a := by
  cases a with
  | notANumber => cases b <;> rfl
  | infinity s =>
    cases b with
    | infinity t | finite t _ _ _ => exact congrArg UnpackedFloat.infinity (sign_mul_comm s t)
    | notANumber | zero _ => rfl
  | zero s =>
    cases b with
    | zero t | finite t _ _ _ => exact congrArg UnpackedFloat.zero (sign_mul_comm s t)
    | notANumber | infinity _ => rfl
  | finite s m e hm =>
    cases b with
    | notANumber => rfl
    | infinity t => exact congrArg UnpackedFloat.infinity (sign_mul_comm s t)
    | zero t => exact congrArg UnpackedFloat.zero (sign_mul_comm s t)
    | finite t n f hn =>
      show UnpackedFloat.roundWithAccuracy spec (s * t) (m * n) (e + f) .exact =
        UnpackedFloat.roundWithAccuracy spec (t * s) (n * m) (f + e) .exact
      rw [sign_mul_comm s t, Nat.mul_comm m n, Int.add_comm e f]

theorem mul_comm (x y : Float) : x * y = y * x := by
  have h : Float.Model.mul x.toModel y.toModel = Float.Model.mul y.toModel x.toModel := by
    unfold Float.Model.mul
    rw [unpacked_mul_comm]
  exact congrArg Float.ofModel h

/-! ## Order -/

theorem isSome_compare {a b : UnpackedFloat} (ha : a.isNaN = false) (hb : b.isNaN = false) :
    ∃ o, a.compare b = some o := by
  cases a with
  | notANumber => cases ha
  | infinity s =>
    cases b with
    | notANumber => cases hb
    | infinity _ | zero _ | finite _ _ _ _ => cases s <;> exact ⟨_, rfl⟩
  | zero s =>
    cases b with
    | notANumber => cases hb
    | zero _ => exact ⟨_, rfl⟩
    | infinity t | finite t _ _ _ => cases t <;> exact ⟨_, rfl⟩
  | finite s m e hm =>
    cases b with
    | notANumber => cases hb
    | zero _ => cases s <;> exact ⟨_, rfl⟩
    | infinity t | finite t _ _ _ => cases s <;> cases t <;> exact ⟨_, rfl⟩

/-- Comparing the other way round gives the opposite. -/
theorem compare_swap (a b : UnpackedFloat) : b.compare a = (a.compare b).map Ordering.swap := by
  cases a with
  | notANumber => cases b <;> rfl
  | infinity s =>
    cases b with
    | infinity t => cases s <;> cases t <;> rfl
    | notANumber | zero _ | finite _ _ _ _ => cases s <;> rfl
  | zero s =>
    cases b with
    | notANumber | zero _ => rfl
    | infinity t | finite t _ _ _ => cases t <;> rfl
  | finite s m e hm =>
    cases b with
    | notANumber | zero _ => cases s <;> rfl
    | infinity t => cases s <;> cases t <;> rfl
    | finite t n f hn =>
      have h : (compare f e).then (compare n m) = ((compare e f).then (compare m n)).swap := by
        rw [Ordering.swap_then, Int.compare_swap, Nat.compare_swap]
      cases s with
      | positive =>
        cases t with
        | positive => exact congrArg some h
        | negative => rfl
      | negative =>
        cases t with
        | positive => rfl
        | negative => exact congrArg (fun o => some o.swap) h

theorem lt_iff (x y : Float) : x < y ↔ x.toModel.unpack.compare y.toModel.unpack = some .lt := by
  show decide (_ = true) = true ↔ _
  simp only [decide_eq_true_eq]
  exact beq_iff_eq

theorem le_iff (x y : Float) :
    x ≤ y ↔ (x.toModel.unpack.compare y.toModel.unpack).any Ordering.isLE = true := by
  show decide (_ = true) = true ↔ _
  simp only [decide_eq_true_eq]
  exact Iff.rfl

/-- Of two defined numbers one is at most the other. -/
theorem le_of_not_lt {x y : Float} (hx : x.isNaN = false) (hy : y.isNaN = false) (h : ¬ x < y) :
    y ≤ x := by
  obtain ⟨o, ho⟩ := isSome_compare (a := x.toModel.unpack) (b := y.toModel.unpack) hx hy
  rw [lt_iff, ho, Option.some.injEq] at h
  rw [le_iff, compare_swap, ho]
  cases o with
  | lt => exact absurd rfl h
  | eq | gt => rfl

end TableProfile.Double
