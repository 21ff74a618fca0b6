import TableProfile.Proofs.DoubleBounds

/-!
# Sums of doubles in turn

A sum is taken from left to right and rounded after each step. Two facts hold of it however many terms it
has. Where it has grown to `2^54` times the bound of its terms, one more term is less than half the
distance to the next number of the grid, and leaves it where it is. And where no term is negative, it is
never less than any of them.

Results:
* `foldl_add_bound`, `foldl_add_within`: the bound of a sum of bounded terms.
* `foldl_add_atLeast`: a sum of terms that are not negative is at least as large as each.
* `foldl_add_zero`: a sum of zeros is zero.
* `isFinite_of_foldl_add`: where the sum is finite, so are the terms.
-/
namespace TableProfile.Double

/-! ## The grid above a power of two -/

theorem Representable.le_of_pos {g : ℝ} (h : Representable g) (hpos : 0 < g) : 2 ^ (-1074 : ℤ) ≤ g := by
  obtain ⟨m, e, -, he, rfl⟩ := h
  have hm : (0 : ℝ) < m := (mul_pos_iff_of_pos_right (zpow_pos two_pos e)).mp hpos
  have hone : (1 : ℝ) ≤ m := by exact_mod_cast (by exact_mod_cast hm : 0 < m)
  calc (2 : ℝ) ^ (-1074 : ℤ) ≤ 2 ^ e := zpow_le_zpow_right₀ one_le_two he
    _ ≤ m * 2 ^ e := le_mul_of_one_le_left (zpow_pos two_pos e).le hone

/-- The next number of the grid behind `2^p` is `2^(p - 52)` away. -/
theorem Representable.gap {g : ℝ} {p : ℤ} (h : Representable g) (hlt : 2 ^ p < g) :
    2 ^ p + 2 ^ (p - 52) ≤ g := by
  obtain ⟨m, e, hm, -, rfl⟩ := h
  have hle : (m : ℝ) ≤ 2 ^ (53 : ℤ) := by exact_mod_cast (le_abs_self m).trans hm
  have hexponent : p - 52 ≤ e := by
    have hbound : (2 : ℝ) ^ p < 2 ^ (53 + e) := by
      rw [zpow_add₀ two_ne_zero]
      exact hlt.trans_le (mul_le_mul_of_nonneg_right hle (zpow_pos two_pos e).le)
    have := (zpow_lt_zpow_iff_right₀ one_lt_two).mp hbound
    omega
  obtain ⟨k, hk⟩ : ∃ k : ℕ, e = p - 52 + k := ⟨(e - (p - 52)).toNat, by omega⟩
  have hpos : (0 : ℝ) < 2 ^ (p - 52) := zpow_pos two_pos _
  have hpower : (2 : ℝ) ^ p = (2 ^ 52 : ℤ) * 2 ^ (p - 52) := by
    rw [zpow_sub₀ two_ne_zero]
    push_cast
    field_simp
    norm_num
  have hvalue : (m : ℝ) * 2 ^ e = (m * 2 ^ k : ℤ) * 2 ^ (p - 52) := by
    rw [hk, zpow_add₀ two_ne_zero, zpow_natCast]
    push_cast
    ring
  rw [hpower, hvalue] at hlt ⊢
  have hint : (2 ^ 52 : ℤ) < m * 2 ^ k := by exact_mod_cast lt_of_mul_lt_mul_right hlt hpos.le
  have hnext : ((2 ^ 52 : ℤ) : ℝ) + 1 ≤ (m * 2 ^ k : ℤ) := by exact_mod_cast hint
  calc ((2 ^ 52 : ℤ) : ℝ) * 2 ^ (p - 52) + 2 ^ (p - 52) = ((2 ^ 52 : ℤ) + 1) * 2 ^ (p - 52) := by ring
    _ ≤ (m * 2 ^ k : ℤ) * 2 ^ (p - 52) := mul_le_mul_of_nonneg_right hnext hpos.le

/-- One more term that is `2^54` times less leaves a bound where it is. -/
theorem Nearest.le_of_le_add {x r : ℝ} {t : ℤ} (h : Nearest x r) (ht : -1074 ≤ t)
    (hx : x ≤ 2 ^ (t + 54) + 2 ^ t) : r ≤ 2 ^ (t + 54) := by
  have hgrid : Representable (2 ^ (t + 54)) := representable_two_pow (by omega)
  rcases le_total x (2 ^ (t + 54)) with hle | hle
  · exact h.le hgrid hle
  · by_contra hlt
    have hgap := h.representable.gap (not_le.mp hlt)
    have hpower : (2 : ℝ) ^ (t + 54 - 52) = 4 * 2 ^ t := by
      rw [show t + 54 - 52 = 2 + t by ring, zpow_add₀ two_ne_zero]
      norm_num
    have hpos : (0 : ℝ) < 2 ^ t := zpow_pos two_pos t
    have hdist := h.dist_le _ hgrid
    rw [hpower] at hgap
    rw [abs_of_nonneg (by linarith), abs_of_nonpos (by linarith)] at hdist
    linarith

theorem Nearest.abs_le_of_abs_le_add {x r : ℝ} {t : ℤ} (h : Nearest x r) (ht : -1074 ≤ t)
    (hx : |x| ≤ 2 ^ (t + 54) + 2 ^ t) : |r| ≤ 2 ^ (t + 54) := by
  obtain ⟨hlow, hhigh⟩ := abs_le.mp hx
  have hneg := h.neg.le_of_le_add ht (by linarith)
  exact abs_le.mpr ⟨by linarith, h.le_of_le_add ht hhigh⟩

/-! ## Bounded terms -/

theorem isFinite_of_foldl_add {xs : List Float} {z : Float}
    (h : (xs.foldl (· + ·) z).isFinite = true) :
    z.isFinite = true ∧ ∀ x ∈ xs, x.isFinite = true := by
  induction xs generalizing z with
  | nil => exact ⟨h, fun x hx => absurd hx List.not_mem_nil⟩
  | cons y ys ih =>
    obtain ⟨hsum, hys⟩ := ih h
    obtain ⟨hz, hy⟩ := isFinite_of_add hsum
    refine ⟨hz, fun x hx => ?_⟩
    rcases List.mem_cons.mp hx with rfl | hx
    · exact hy
    · exact hys x hx

/-- A finite sum of terms of at most `2^t` is at most `2^(t + 54)`, however many they are. -/
theorem foldl_add_bound {xs : List Float} {z : Float} {t : ℤ} (ht : -1074 ≤ t)
    (hxs : ∀ x ∈ xs, |value x| ≤ 2 ^ t) (hz : |value z| ≤ 2 ^ (t + 54))
    (h : (xs.foldl (· + ·) z).isFinite = true) : |value (xs.foldl (· + ·) z)| ≤ 2 ^ (t + 54) := by
  induction xs generalizing z with
  | nil => exact hz
  | cons y ys ih =>
    obtain ⟨hsum, -⟩ := isFinite_of_foldl_add (z := z + y) h
    obtain ⟨hzfinite, hyfinite⟩ := isFinite_of_add hsum
    have hbound := (abs_add_le _ _).trans (add_le_add hz (hxs y List.mem_cons_self))
    have hnearest := (add_roundsTo hzfinite hyfinite).nearest hsum
    exact ih (fun x hx => hxs x (List.mem_cons_of_mem y hx))
      (hnearest.abs_le_of_abs_le_add ht hbound) h

/-- One more such term leaves the bound of a sum where it is. -/
theorem Within.add {x z : Float} {t : ℤ} (hz : Within (t + 54) z) (hx : Within t x) (ht : -1074 ≤ t)
    (hmax : t + 55 < 1024) : Within (t + 54) (z + x) := by
  have hsum := (abs_add_le _ _).trans (add_le_add hz.bound hx.bound)
  have hdouble : |value z + value x| ≤ 2 ^ (t + 55) := by
    have hle : (2 : ℝ) ^ t ≤ 2 ^ (t + 54) := zpow_le_zpow_right₀ one_le_two (by omega)
    have hpower : (2 : ℝ) ^ (t + 55) = 2 ^ (t + 54) * 2 := by
      rw [show t + 55 = t + 54 + 1 by ring, zpow_add_one₀ two_ne_zero]
    linarith
  obtain ⟨hfinite, hnearest⟩ := (add_roundsTo hz.finite hx.finite).of_abs_le hdouble
    (representable_two_pow (by omega)) (zpow_lt_zpow_right₀ one_lt_two hmax)
  exact ⟨hfinite, hnearest.abs_le_of_abs_le_add ht hsum⟩

/-- The sum of such terms is finite, if that bound is in the range of doubles. -/
theorem foldl_add_within {xs : List Float} {z : Float} {t : ℤ} (ht : -1074 ≤ t) (hmax : t + 55 < 1024)
    (hxs : ∀ x ∈ xs, Within t x) (hz : Within (t + 54) z) : Within (t + 54) (xs.foldl (· + ·) z) := by
  induction xs generalizing z with
  | nil => exact hz
  | cons y ys ih =>
    exact ih (fun x hx => hxs x (List.mem_cons_of_mem y hx)) (hz.add (hxs y List.mem_cons_self) ht hmax)

/-! ## Terms that are not negative -/

variable {x z : Float} {a : ℝ}

/-- A sum does not fall below what it begins with. -/
theorem foldl_add_atLeast_begin {xs : List Float} (hxs : ∀ x ∈ xs, AtLeast 0 x) (hz : AtLeast a z)
    (ha : 0 ≤ a) (hgrid : Representable a) : AtLeast a (xs.foldl (· + ·) z) := by
  induction xs generalizing z with
  | nil => exact hz
  | cons y ys ih =>
    refine ih (fun x hx => hxs x (List.mem_cons_of_mem y hx)) ?_
    exact hz.add (hxs y List.mem_cons_self) ha le_rfl hgrid (add_zero a).ge

/-- A sum of terms that are not negative is at least as large as each. -/
theorem foldl_add_atLeast {xs : List Float} (hxs : ∀ x ∈ xs, AtLeast 0 x) (hz : AtLeast 0 z)
    (hx : x ∈ xs) (hxa : AtLeast a x) (ha : 0 ≤ a) (hgrid : Representable a) :
    AtLeast a (xs.foldl (· + ·) z) := by
  induction xs generalizing z with
  | nil => cases hx
  | cons y ys ih =>
    have hys : ∀ x ∈ ys, AtLeast 0 x := fun x hx => hxs x (List.mem_cons_of_mem y hx)
    rw [List.foldl_cons]
    rcases List.mem_cons.mp hx with rfl | hx
    · exact foldl_add_atLeast_begin hys (hz.add hxa le_rfl ha hgrid (zero_add a).ge) ha hgrid
    · refine ih hys ?_ hx
      exact hz.add (hxs y List.mem_cons_self) le_rfl le_rfl representable_zero (add_zero 0).ge

theorem foldl_add_zero {xs : List Float} (hxs : ∀ x ∈ xs, x.isFinite = true ∧ value x = 0)
    (hz : z.isFinite = true ∧ value z = 0) :
    (xs.foldl (· + ·) z).isFinite = true ∧ value (xs.foldl (· + ·) z) = 0 := by
  induction xs generalizing z with
  | nil => exact hz
  | cons y ys ih =>
    obtain ⟨hyfinite, hyzero⟩ := hxs y List.mem_cons_self
    have hrounds := add_roundsTo hz.1 hyfinite
    rw [hz.2, hyzero, add_zero] at hrounds
    exact ih (fun x hx => hxs x (List.mem_cons_of_mem y hx)) hrounds.zero

end TableProfile.Double
