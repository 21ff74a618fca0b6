import TableProfile.Proofs.CorrelationDefined
import TableProfile.Proofs.PresentFigures

/-!
# When a deviation is zero

Whether a column is constant is decided twice: a correlation compares its values, and the deviation is the
root of a sum of squares. A term of that sum is the square of how far a value lies from the mean so far,
and no term is negative, so the sum is zero exactly if each term is (`squares_zero_iff`).

Rounding can spoil both directions. A running sum of equal values may be rounded away from their multiple,
and values that differ may be so close that a gap is rounded to zero. It cannot where counting, adding and
multiplying are exact: where the values are multiples of one power of two, so few and so small that the
sums have 53 bits (`OnGrid`), as integers are. As long as the values are copies of the first one, the sum is
their multiple and the gap of the next value is how far it is from them, times their number
(`Copies.gap_roundsTo`). So the first value that differs adds a term that is not zero.

Results:
* `squares_zero_iff`: when the sum of squares is zero.
* `isZero_deviation_iff`: when the deviation is.
* `zero_deviation_iff`: on a grid, exactly where the values are equal, as a correlation sees it.
* `zero_deviation_inexact`: six times 0.1 has a deviation, and two different values near 1 have none.
-/
namespace TableProfile

open Double

/-! ## Doubles that are zero -/

namespace Double

variable {x z : Float} {s t : ℤ}

/-- A finite double of the number zero, of either sign. -/
def IsZero (z : Float) : Prop := z.isFinite = true ∧ value z = 0

theorem AtLeast.not_isZero {a : ℝ} (h : AtLeast a z) (ha : 0 < a) : ¬ IsZero z := by
  rintro ⟨hfinite, hzero⟩
  exact absurd (h.le hfinite) (by rw [hzero]; exact ha.not_ge)

/-- A result that is in the grid is exact. -/
theorem RoundsTo.exact {r : ℝ} (h : RoundsTo r z) (hr : Representable r) (hmax : |r| < 2 ^ (1024 : ℤ)) :
    z.isFinite = true ∧ value z = r := by
  obtain ⟨hfinite, hnearest⟩ := h.of_abs_le le_rfl hr.abs hmax
  exact ⟨hfinite, hnearest.eq_self hr⟩

theorem IsZero.mul_self (h : IsZero x) : IsZero (x * x) := by
  have hrounds := mul_roundsTo h.1 h.1
  rw [h.2, mul_zero] at hrounds
  exact hrounds.zero

theorem IsZero.div (h : IsZero x) (hz : AtLeast 1 z) : IsZero (x / z) := by
  have hbound : |value x| ≤ 0 * 1 := by rw [h.2, abs_zero, mul_one]
  obtain ⟨hfinite, hle⟩ := hz.div one_pos h.1 representable_zero (zpow_pos two_pos _) hbound
  exact ⟨hfinite, abs_nonpos_iff.mp hle⟩

/-- A quotient by a number between one and `2^t` is at most `2^t` times less. -/
theorem div_atLeast_two_pow (hx : x.isFinite = true) (hxs : 2 ^ s ≤ value x) (hz : Within t z)
    (hone : 1 ≤ value z) (hst : -1074 ≤ s - t) : AtLeast (2 ^ (s - t)) (x / z) := by
  have hpos : 0 < value z := one_pos.trans_le hone
  have hquotient : (2 : ℝ) ^ (s - t) ≤ value x / value z := by
    rw [zpow_sub₀ two_ne_zero]
    exact div_le_div₀ ((zpow_pos two_pos s).le.trans hxs) hxs hpos ((le_abs_self _).trans hz.bound)
  exact (div_roundsTo hx hz.finite hpos.ne').atLeast (representable_two_pow hst) hquotient
    ((zpow_pos two_pos _).le.trans hquotient)

end Double

namespace Numeric

/-! ## The terms of the sum of squares -/

namespace Pass

/-- What values add to the sum of squares, in turn. -/
def terms : Pass → List Float → List Float
  | _, [] => []
  | p, x :: rest => p.term x :: terms (p.step x) rest

theorem foldl_step_squares (p : Pass) (xs : List Float) :
    (xs.foldl step p).squares = (p.terms xs).foldl (· + ·) p.squares := by
  induction xs generalizing p with
  | nil => rfl
  | cons x rest ih => exact ih (p.step x)

variable {p : Pass}

theorem Sound.terms_nonneg (h : p.Sound) (xs : List Float) :
    ∀ t ∈ p.terms xs, t.isFinite = true → 0 ≤ value t := by
  induction xs generalizing p with
  | nil => exact fun t ht => absurd ht List.not_mem_nil
  | cons x rest ih =>
    intro t ht
    rcases List.mem_cons.mp ht with rfl | ht
    · exact h.term_nonneg x
    · exact ih (h.step x) t ht

end Pass

/-- What the values behind the first add to the sum of squares. -/
def terms : List Float → List Float
  | [] => []
  | x :: rest => Pass.terms ⟨Number.ofNat 1, x, Number.ofNat 0⟩ rest

variable {values : List Float}

theorem pass_squares (values : List Float) :
    (pass values).squares = (terms values).foldl (· + ·) (Number.ofNat 0) := by
  cases values with
  | nil => rfl
  | cons x rest => exact Pass.foldl_step_squares _ rest

theorem terms_nonneg (values : List Float) : ∀ t ∈ terms values, t.isFinite = true → 0 ≤ value t := by
  cases values with
  | nil => exact fun t ht => absurd ht List.not_mem_nil
  | cons x rest => exact (Pass.sound_begin x).terms_nonneg rest

/-- A finite sum of squares is at least as large as each of its terms. -/
theorem squares_atLeast_of_term (hfinite : (pass values).squares.isFinite = true) {t : Float}
    (ht : t ∈ terms values) {a : ℝ} (hta : AtLeast a t) (ha : 0 ≤ a) (hgrid : Representable a) :
    AtLeast a (pass values).squares := by
  rw [pass_squares] at hfinite ⊢
  have hterms : ∀ t ∈ terms values, AtLeast 0 t := fun t ht =>
    have hterm := (isFinite_of_foldl_add hfinite).2 t ht
    Or.inl ⟨hterm, terms_nonneg values t ht hterm⟩
  exact foldl_add_atLeast hterms (Or.inl ⟨zero_finite.1, zero_finite.2.ge⟩) ht hta ha hgrid

/-- **The sum of squares is zero** exactly if each of its terms is. -/
theorem squares_zero_iff (values : List Float) :
    IsZero (pass values).squares ↔ ∀ t ∈ terms values, IsZero t := by
  constructor
  · intro hzero t ht
    have hsum := hzero.1
    rw [pass_squares] at hsum
    have hfinite := (isFinite_of_foldl_add hsum).2 t ht
    rcases (terms_nonneg values t ht hfinite).eq_or_lt with heq | hlt
    · exact ⟨hfinite, heq.symm⟩
    · have hsquares := squares_atLeast_of_term hzero.1 ht (Or.inl ⟨hfinite, le_rfl⟩) hlt.le
        (representable_value hfinite)
      exact absurd hzero (hsquares.not_isZero hlt)
  · intro h
    rw [pass_squares]
    exact foldl_add_zero h zero_finite

/-! ## The deviation -/

/-- A root is zero exactly if its number is. -/
theorem isZero_sqrt_iff {z : Float} (hz : z.isFinite = true) (hnonneg : 0 ≤ value z) :
    IsZero z.sqrt ↔ IsZero z := by
  constructor
  · intro hroot
    rcases hnonneg.eq_or_lt with heq | hlt
    · exact ⟨hz, heq.symm⟩
    · have hleast : AtLeast (2 ^ (-1074 : ℤ)) z := Or.inl ⟨hz, (representable_value hz).le_of_pos hlt⟩
      have hroot' : AtLeast (2 ^ (-537 : ℤ)) z.sqrt := by
        refine hleast.sqrt (representable_two_pow (by norm_num)) ?_
        rw [← zpow_add₀ two_ne_zero]
        norm_num
      exact absurd hroot (hroot'.not_isZero (zpow_pos two_pos _))
  · rintro ⟨-, hzero⟩
    have hrounds := sqrt_roundsTo hz hnonneg
    rw [hzero, Real.sqrt_zero] at hrounds
    exact hrounds.zero

/-- The sum of squares over the count less one. -/
def variance (values : List Float) : Float :=
  (pass values).squares / ((pass values).count - Number.ofNat 1)

/-- **The deviation is zero** exactly if the quotient under the root is. -/
theorem isZero_deviation_iff (hcount : 2 ≤ values.length) :
    (∃ z, deviation values = some z ∧ IsZero z) ↔ IsZero (variance values) := by
  obtain ⟨hsound, htwo⟩ := pass_sound hcount
  have hdivisor := Pass.sub_one_atLeast hsound.count.finite htwo
  have hnonneg (hfinite : (variance values).isFinite = true) : 0 ≤ value (variance values) := by
    have hsquares : (pass values).squares.isFinite = true := isFinite_of_div hfinite
    exact (hdivisor.div_atLeast_zero one_pos hsquares (hsound.squares hsquares)).le hfinite
  rw [deviation, rawDeviation_eq hcount]
  constructor
  · rintro ⟨z, hz, hzero⟩
    obtain ⟨hroot, -⟩ := Option.filter_eq_some_iff.mp hz
    obtain rfl := Option.some.inj hroot
    have hfinite : (variance values).isFinite = true := isFinite_of_sqrt hzero.1
    exact (isZero_sqrt_iff hfinite (hnonneg hfinite)).mp hzero
  · intro hzero
    have hroot := (isZero_sqrt_iff hzero.1 (hnonneg hzero.1)).mpr hzero
    exact ⟨_, Option.filter_eq_some_iff.mpr ⟨rfl, hroot.1⟩, hroot⟩

/-! ## Multiples of a power of two -/

/-- A double of the number `m · 2^e`. -/
structure Scaled (e m : ℤ) (x : Float) : Prop where
  finite : x.isFinite = true
  number : value x = m * 2 ^ e

/-- A number of which `n` times as much has 53 bits. -/
def Fits (n : ℕ) (m : ℤ) : Prop := |m| * n ≤ 2 ^ 53

/-- Counts that doubles hold, and a grid that is so far from both ends of their range that the squares of
53 bits are in it, also over the square of a count. -/
structure Room (e : ℤ) (n : ℕ) : Prop where
  low : -456 ≤ e
  high : e ≤ 347
  count : n ≤ 2 ^ 53

/-- Numbers that are multiples of one power of two, so few and so small that sums and multiples of them
have 53 bits. -/
structure OnGrid (e : ℤ) (numbers : List ℤ) (values : List Float) : Prop where
  room : Room e numbers.length
  scaled : List.Forall₂ (Scaled e) numbers values
  fits : ∀ m ∈ numbers, Fits numbers.length m

section
variable {e m m' : ℤ} {n k : ℕ} {x : Float}

theorem Room.abs_le (hroom : Room e n) (hm : |m| ≤ 2 ^ 53) : |(m : ℝ) * 2 ^ e| ≤ 2 ^ (400 : ℤ) := by
  have hpower : (2 : ℝ) ^ (400 : ℤ) = 2 ^ 53 * 2 ^ (347 : ℤ) := by
    rw [← zpow_natCast, ← zpow_add₀ two_ne_zero]
    norm_num
  rw [abs_mul, abs_of_pos (zpow_pos (two_pos (α := ℝ)) e), hpower]
  exact mul_le_mul (by exact_mod_cast hm) (zpow_le_zpow_right₀ one_le_two hroom.high)
    (zpow_pos two_pos e).le (by positivity)

theorem Scaled.within (h : Scaled e m x) (hroom : Room e n) (hm : |m| ≤ 2 ^ 53) : Within 400 x :=
  ⟨h.finite, h.number ▸ hroom.abs_le hm⟩

/-- A result on the grid is exact. -/
theorem Room.scaled (hroom : Room e n) (hm : |m| ≤ 2 ^ 53) (h : RoundsTo (m * 2 ^ e) x) :
    Scaled e m x := by
  have hlt : |(m : ℝ) * 2 ^ e| < 2 ^ (1024 : ℤ) :=
    (hroom.abs_le hm).trans_lt (zpow_lt_zpow_right₀ one_lt_two (by norm_num))
  have hlow := hroom.low
  obtain ⟨hfinite, hvalue⟩ := h.exact ⟨m, e, hm, by omega, rfl⟩ hlt
  exact ⟨hfinite, hvalue⟩

/-- What is not zero on a grid is at least as large as its step. -/
theorem two_pow_le_abs (e : ℤ) (hm : m ≠ 0) : (2 : ℝ) ^ e ≤ |(m : ℝ) * 2 ^ e| := by
  have hone : (1 : ℝ) ≤ |(m : ℝ)| := by exact_mod_cast Int.one_le_abs hm
  rw [abs_mul, abs_of_pos (zpow_pos (two_pos (α := ℝ)) e)]
  exact le_mul_of_one_le_left (zpow_pos two_pos e).le hone

theorem Scaled.value_eq_iff {y : Float} (hx : Scaled e m x) (hy : Scaled e m' y) :
    value x = value y ↔ m = m' := by
  rw [hx.number, hy.number, mul_left_inj' (zpow_pos two_pos e).ne', Int.cast_inj]

theorem Fits.abs_le (h : Fits n m) (hn : 0 < n) : |m| ≤ 2 ^ 53 := by
  have hone : (1 : ℤ) ≤ n := by exact_mod_cast hn
  exact (le_mul_of_one_le_right (abs_nonneg m) hone).trans h

theorem Fits.mul (h : Fits n m) (hk : k ≤ n) : |(k : ℤ) * m| ≤ 2 ^ 53 := by
  rw [abs_mul, Nat.abs_cast, Int.mul_comm]
  exact (mul_le_mul_of_nonneg_left (by exact_mod_cast hk) (abs_nonneg m)).trans h

theorem Fits.mul_add (h : Fits n m) (h' : Fits n m') (hk : k + 1 ≤ n) :
    |(k : ℤ) * m + m'| ≤ 2 ^ 53 := by
  have hpos : (0 : ℤ) < n := by omega
  have htriangle : |(k : ℤ) * m + m'| ≤ k * |m| + |m'| := by
    have := abs_add_le ((k : ℤ) * m) m'
    rwa [abs_mul, Nat.abs_cast] at this
  have hk' : (k : ℤ) + 1 ≤ n := by exact_mod_cast hk
  refine le_of_mul_le_mul_right ?_ hpos
  calc |(k : ℤ) * m + m'| * n ≤ (k * |m| + |m'|) * n := mul_le_mul_of_nonneg_right htriangle hpos.le
    _ = k * (|m| * n) + |m'| * n := by ring
    _ ≤ k * 2 ^ 53 + 2 ^ 53 := add_le_add (mul_le_mul_of_nonneg_left h (Int.natCast_nonneg k)) h'
    _ = (k + 1) * 2 ^ 53 := by ring
    _ ≤ n * 2 ^ 53 := mul_le_mul_of_nonneg_right hk' (by positivity)
    _ = 2 ^ 53 * n := Int.mul_comm _ _

end

/-! ## Copies of the first value -/

/-- What the pass has after `k` copies of `m · 2^e`: their exact count and sum. -/
structure Copies (e : ℤ) (k : ℕ) (m : ℤ) (p : Pass) : Prop where
  bounded : p.Bounded
  count : p.count.isFinite = true ∧ value p.count = k
  sum : Scaled e (k * m) p.sum

section
variable {e : ℤ} {n k : ℕ} {m m' : ℤ} {p : Pass} {x : Float}

theorem Copies.count_step (h : Copies e k m p) (hroom : Room e n) (hk : k + 1 ≤ n) (x : Float) :
    (p.step x).count.isFinite = true ∧ value (p.step x).count = (k + 1 : ℕ) := by
  have hrounds := add_roundsTo h.count.1 one_exact.1
  rw [h.count.2, one_exact.2, ← Nat.cast_one, ← Nat.cast_add] at hrounds
  have hsmall := hk.trans hroom.count
  have hrep : Representable (k + 1 : ℕ) := by
    have hint : |((k + 1 : ℕ) : ℤ)| ≤ 2 ^ 53 := by
      rw [Nat.abs_cast]
      exact_mod_cast hsmall
    exact_mod_cast representable_int hint
  refine hrounds.exact hrep ?_
  rw [Nat.abs_cast]
  calc ((k + 1 : ℕ) : ℝ) ≤ 2 ^ (53 : ℤ) := by exact_mod_cast hsmall
    _ < 2 ^ (1024 : ℤ) := zpow_lt_zpow_right₀ one_lt_two (by norm_num)

theorem Copies.sum_step (h : Copies e k m p) (hroom : Room e n) (hk : k + 1 ≤ n) (hfits : Fits n m)
    (hx : Scaled e m' x) (hfits' : Fits n m') : Scaled e (k * m + m') (p.step x).sum := by
  have hrounds := add_roundsTo h.sum.finite hx.finite
  rw [h.sum.number, hx.number, ← add_mul, ← Int.cast_add] at hrounds
  exact hroom.scaled (hfits.mul_add hfits' hk) hrounds

/-- How far a value lies from copies, times their number. -/
theorem Copies.gap_roundsTo (h : Copies e k m p) (hroom : Room e n) (hk : k + 1 ≤ n) (hfits : Fits n m)
    (hx : Scaled e m' x) (hfits' : Fits n m') :
    RoundsTo ((k * (m' - m) : ℤ) * 2 ^ e) (p.gap x) := by
  obtain ⟨hcount, hcountValue⟩ := h.count_step hroom hk x
  have hsum := h.sum_step hroom hk hfits hx hfits'
  have hrounds := mul_roundsTo hcount hx.finite
  have hproductValue : value (p.step x).count * value x = ((k + 1 : ℕ) * m' : ℤ) * 2 ^ e := by
    rw [hcountValue, hx.number]
    push_cast
    ring
  rw [hproductValue] at hrounds
  have hproduct := hroom.scaled (hfits'.mul hk) hrounds
  have hgap := sub_roundsTo hproduct.finite hsum.finite
  have hgapValue : value ((p.step x).count * x) - value (p.step x).sum = (k * (m' - m) : ℤ) * 2 ^ e := by
    rw [hproduct.number, hsum.number]
    push_cast
    ring
  rwa [hgapValue] at hgap

/-- One more copy adds nothing to the sum of squares. -/
theorem Copies.term_zero (h : Copies e k m p) (hroom : Room e n) (hk : k + 1 ≤ n) (hfits : Fits n m)
    (hx : Scaled e m x) : IsZero (p.term x) := by
  have hgap := h.gap_roundsTo hroom hk hfits hx hfits
  rw [sub_self, mul_zero, Int.cast_zero, zero_mul] at hgap
  exact (IsZero.mul_self hgap.zero).div (h.bounded.sound.divisor_atLeast x)

theorem Copies.next (h : Copies e k m p) (hroom : Room e n) (hk : k + 1 ≤ n) (hfits : Fits n m)
    (hx : Scaled e m x) : Copies e (k + 1) m (p.step x) := by
  refine ⟨h.bounded.step (hx.within hroom (hfits.abs_le (by omega))), h.count_step hroom hk x, ?_⟩
  have hsum := h.sum_step hroom hk hfits hx hfits
  rwa [← add_one_mul, ← Nat.cast_succ] at hsum

theorem Pass.sub_one_within {i : Float} (hi : Within 54 i) (hlow : 2 ≤ value i) :
    Within 54 (i - Number.ofNat 1) := by
  have hrounds := sub_roundsTo hi.finite one_exact.1
  rw [one_exact.2] at hrounds
  refine .of_roundsTo hrounds (by norm_num) (by norm_num) ?_
  have hhigh := (le_abs_self _).trans hi.bound
  rw [abs_of_nonneg (by linarith)]
  linarith

/-- Another value adds a term that is not zero. -/
theorem Copies.term_atLeast (h : Copies e k m p) (hpos : 0 < k) (hroom : Room e n) (hk : k + 1 ≤ n)
    (hfits : Fits n m) (hx : Scaled e m' x) (hfits' : Fits n m') (hne : m' ≠ m) :
    AtLeast (2 ^ (2 * e - 108)) (p.term x) := by
  have hlow := hroom.low
  have hwithin := h.bounded.gap (hx.within hroom (hfits'.abs_le (by omega)))
  have hgap : 2 ^ e ≤ |value (p.gap x)| := by
    have hnearest := (h.gap_roundsTo hroom hk hfits hx hfits').nearest hwithin.finite
    have hapart : k * (m' - m) ≠ 0 := mul_ne_zero (by omega) (sub_ne_zero.mpr hne)
    exact hnearest.le_abs (representable_two_pow (by omega)) (two_pow_le_abs e hapart)
  have hsquare : (p.gap x * p.gap x).isFinite = true :=
    (hwithin.mul hwithin (by norm_num) (by norm_num)).finite
  have hsquareValue : 2 ^ (2 * e) ≤ value (p.gap x * p.gap x) := by
    refine (mul_self_atLeast hwithin.finite (representable_two_pow (by omega)) ?_).le hsquare
    calc (2 : ℝ) ^ (2 * e) = 2 ^ e * 2 ^ e := by rw [← zpow_add₀ two_ne_zero, two_mul]
      _ ≤ |value (p.gap x)| * |value (p.gap x)| := mul_self_le_mul_self (zpow_pos two_pos e).le hgap
      _ = value (p.gap x) * value (p.gap x) := abs_mul_abs_self _
  obtain ⟨hcount, htwo⟩ := h.bounded.sound.count_step x
  have hdivisor := hcount.mul (Pass.sub_one_within hcount htwo) (by norm_num) (by norm_num)
  exact div_atLeast_two_pow hsquare hsquareValue hdivisor
    ((h.bounded.sound.divisor_atLeast x).le hdivisor.finite) (by omega)

/-- Behind copies, either all values are copies and no term counts, or another value adds one that does. -/
theorem Copies.terms (h : Copies e k m p) (hpos : 0 < k) (hroom : Room e n) {numbers : List ℤ}
    (hk : k + numbers.length ≤ n) (hfits : Fits n m) {xs : List Float}
    (hxs : List.Forall₂ (Scaled e) numbers xs) (hall : ∀ m' ∈ numbers, Fits n m') :
    ((∀ m' ∈ numbers, m' = m) ∧ ∀ t ∈ p.terms xs, IsZero t) ∨
      (∃ m' ∈ numbers, m' ≠ m) ∧ ∃ t ∈ p.terms xs, AtLeast (2 ^ (2 * e - 108)) t := by
  induction hxs generalizing p k with
  | nil => exact Or.inl ⟨fun _ hm => absurd hm List.not_mem_nil, fun _ ht => absurd ht List.not_mem_nil⟩
  | @cons m' x numbers xs hx _ ih =>
    rw [List.length_cons] at hk
    have hfits' := hall m' List.mem_cons_self
    by_cases hsame : m' = m
    · subst hsame
      have hnext := h.next hroom (by omega) hfits hx
      have hzero := h.term_zero hroom (by omega) hfits hx
      rcases ih hnext (Nat.succ_pos k) (by omega) fun l hl => hall l (List.mem_cons_of_mem _ hl) with
        ⟨hsame, hterms⟩ | ⟨⟨l, hl, hne⟩, t, ht, hterm⟩
      · exact Or.inl ⟨List.forall_mem_cons.mpr ⟨rfl, hsame⟩, List.forall_mem_cons.mpr ⟨hzero, hterms⟩⟩
      · exact Or.inr ⟨⟨l, List.mem_cons_of_mem _ hl, hne⟩, t, List.mem_cons_of_mem _ ht, hterm⟩
    · exact Or.inr ⟨⟨m', List.mem_cons_self, hsame⟩, p.term x, List.mem_cons_self,
        h.term_atLeast hpos hroom (by omega) hfits hx hfits' hsame⟩

end

/-! ## Columns on a grid -/

namespace OnGrid

variable {e : ℤ} {numbers : List ℤ} {values : List Float}

theorem length_eq (h : OnGrid e numbers values) : numbers.length = values.length := h.scaled.length_eq

/-- The number of a value. -/
theorem exists_scaled (h : OnGrid e numbers values) {v : Float} (hv : v ∈ values) :
    ∃ m ∈ numbers, Scaled e m v ∧ |m| ≤ 2 ^ 53 := by
  obtain ⟨i, hi, rfl⟩ := List.mem_iff_getElem.mp hv
  have hi' : i < numbers.length := h.length_eq ▸ hi
  have hmem := List.getElem_mem hi'
  exact ⟨numbers[i], hmem, h.scaled.get hi' hi, (h.fits _ hmem).abs_le (by omega)⟩

theorem within (h : OnGrid e numbers values) : ∀ v ∈ values, Within 400 v := by
  intro v hv
  obtain ⟨m, -, hscaled, hm⟩ := h.exists_scaled hv
  exact hscaled.within h.room hm

theorem moderate (h : OnGrid e numbers values) : Moderate values where
  finite v hv := (h.within v hv).finite
  bounded v hv := (h.within v hv).bound
  apart v hv w hw hne := by
    obtain ⟨m, -, hm, -⟩ := h.exists_scaled hv
    obtain ⟨l, -, hl, -⟩ := h.exists_scaled hw
    have hapart : m - l ≠ 0 := sub_ne_zero.mpr (mt (hm.value_eq_iff hl).mpr hne)
    have hlow := h.room.low
    calc (2 : ℝ) ^ (-536 : ℤ) ≤ 2 ^ e := zpow_le_zpow_right₀ one_le_two (by omega)
      _ ≤ |((m - l : ℤ) : ℝ) * 2 ^ e| := two_pow_le_abs e hapart
      _ = |value v - value w| := by rw [hm.number, hl.number, ← sub_mul, ← Int.cast_sub]

/-- Values equal the first one exactly if their multiples are the same. -/
theorem all_beq_iff {m : ℤ} {x : Float} (hx : Scaled e m x) (h : List.Forall₂ (Scaled e) numbers values) :
    values.all (· == x) = true ↔ ∀ m' ∈ numbers, m' = m := by
  induction h with
  | nil => exact iff_of_true rfl fun _ hm => absurd hm List.not_mem_nil
  | @cons m' y numbers values hy _ ih =>
    rw [List.all_cons, Bool.and_eq_true, ih, List.forall_mem_cons, beq_iff_value hy.finite hx.finite,
      hy.value_eq_iff hx]

/-- **On a grid a column has no variance** exactly if it is constant. -/
theorem isZero_variance_iff (h : OnGrid e numbers values) (hcount : 2 ≤ values.length) :
    IsZero (variance values) ↔ isConstant values = true := by
  obtain ⟨hsound, htwo⟩ := pass_sound hcount
  have hdivisor := Pass.sub_one_atLeast hsound.count.finite htwo
  have hfinite := pass_squares_isFinite h.within
  have hlow := h.room.low
  have hlength := h.length_eq
  obtain ⟨hroom, hscaled, hfits⟩ := h
  cases hscaled with
  | nil => cases hcount
  | @cons m x ms rest hx hrest =>
    rw [List.length_cons] at hroom hfits
    obtain ⟨hm, hms⟩ := List.forall_mem_cons.mp hfits
    have hbegin : Copies e 1 m ⟨Number.ofNat 1, x, Number.ofNat 0⟩ := by
      refine ⟨Pass.bounded_begin (hx.within hroom (hm.abs_le (Nat.succ_pos _))), ?_, ?_⟩
      · rw [Nat.cast_one]
        exact one_exact
      · rwa [Nat.cast_one, one_mul]
    have hconstant : isConstant (x :: rest) = true ↔ ∀ m' ∈ ms, m' = m := all_beq_iff hx hrest
    rcases hbegin.terms one_pos hroom (Nat.add_comm 1 _).le hm hrest hms with
      ⟨hsame, hterms⟩ | ⟨⟨m', hmem, hne⟩, t, ht, hterm⟩
    · have hsquares : IsZero (pass (x :: rest)).squares := (squares_zero_iff _).mpr hterms
      exact iff_of_true (hsquares.div hdivisor) (hconstant.mpr hsame)
    · have hsquares := (squares_atLeast_of_term hfinite ht hterm (zpow_pos two_pos _).le
        (representable_two_pow (by omega))).le hfinite
      have hone := Pass.sub_one_within hsound.count htwo
      have hvariance := div_atLeast_two_pow hfinite hsquares hone (hdivisor.le hone.finite) (by omega)
      exact iff_of_false (hvariance.not_isZero (zpow_pos two_pos _)) fun hall =>
        hne (hconstant.mp hall m' hmem)

end OnGrid

/-- Integers whose multiples have 53 bits are on a grid. -/
theorem onGrid_ofInt {numbers : List ℤ} (hcount : numbers.length ≤ 2 ^ 53)
    (h : ∀ m ∈ numbers, |m| * numbers.length ≤ 2 ^ 53) :
    OnGrid 0 numbers (numbers.map Number.ofInt) where
  room := ⟨by norm_num, by norm_num, hcount⟩
  fits := h
  scaled := by
    rw [List.forall₂_map_right_iff, List.forall₂_same]
    intro m hm
    have hpos : 0 < numbers.length := List.length_pos_of_mem hm
    obtain ⟨hfinite, hvalue⟩ := Number.ofInt_exact (Fits.abs_le (h m hm) hpos)
    exact ⟨hfinite, by rw [hvalue, zpow_zero, mul_one]⟩

end Numeric

open Numeric (OnGrid)

/-! ## A column with itself -/

theorem completeRows_self (cells : List (Option Float)) :
    completeRows cells cells = (present cells).map fun v => (v, v) := by
  induction cells with
  | nil => rfl
  | cons cell rest ih =>
    cases cell with
    | none => exact ih
    | some v => exact congrArg ((v, v) :: ·) ih

/-- A moderate column of two values or more has no correlation with itself exactly if it is constant. -/
theorem pearson_self_eq_none_iff {cells : List (Option Float)} (h : Moderate (present cells))
    (hcount : 2 ≤ (present cells).length) :
    pearson cells cells = none ↔ isConstant (present cells) = true := by
  have hleft : (completeRows cells cells).map (·.1) = present cells := by
    rw [completeRows_self, List.map_map]
    exact List.map_id _
  have hright : (completeRows cells cells).map (·.2) = present cells := by
    rw [completeRows_self, List.map_map]
    exact List.map_id _
  have hsome := Moderate.isSome_pearson_iff (hleft.symm ▸ h) (hright.symm ▸ h)
  rw [← Option.not_isSome_iff_eq_none, hsome]
  constructor
  · intro hnot
    by_contra hvary
    have hfalse := Bool.of_not_eq_true hvary
    refine hnot ⟨?_, by rw [hleft, hfalse], by rw [hright, hfalse]⟩
    rwa [completeRows_self, List.length_map]
  · intro hconstant hvaries
    have hfalse := hvaries.left
    rw [hleft, hconstant] at hfalse
    cases hfalse

/-- The first value equals all others exactly if any two are the same number. -/
theorem isConstant_iff {values : List Float} (h : ∀ v ∈ values, v.isFinite = true) :
    isConstant values = true ↔ ∀ v ∈ values, ∀ w ∈ values, value v = value w := by
  cases values with
  | nil => exact iff_of_true rfl fun v hv => absurd hv List.not_mem_nil
  | cons x rest =>
    have hx := h x List.mem_cons_self
    have hrest : isConstant (x :: rest) = true ↔ ∀ w ∈ rest, value w = value x := by
      rw [isConstant, List.all_eq_true]
      exact forall₂_congr fun w hw => beq_iff_value (h w (List.mem_cons_of_mem x hw)) hx
    rw [hrest]
    constructor
    · intro hall
      have hsame : ∀ v ∈ x :: rest, value v = value x := List.forall_mem_cons.mpr ⟨rfl, hall⟩
      exact fun v hv w hw => (hsame v hv).trans (hsame w hw).symm
    · exact fun hall w hw => hall w (List.mem_cons_of_mem x hw) x List.mem_cons_self

/-- A figure that is present and equals zero. -/
def ZeroFigure (figure : Option Float) : Prop := ∃ z, figure = some z ∧ (z == Number.ofNat 0) = true

/-- **When a deviation is zero.** Of two values or more the deviation is zero exactly if the sum of squares
over the count less one is rounded to zero, and a sum of squares is zero exactly if each of its terms is.
Where the values are on a grid, it is zero exactly if all values are equal, which is also where the test of
the correlation takes the column for constant, and where the column has no correlation with itself. -/
theorem zero_deviation_iff (column : String) {cells : List (Option Float)}
    (hcount : 2 ≤ (describe column cells).count) :
    let figure := (describe column cells).deviation
    let values := present cells
    (ZeroFigure figure ↔ (Numeric.variance values == Number.ofNat 0) = true) ∧
      (((Numeric.pass values).squares == Number.ofNat 0) = true ↔
        ∀ t ∈ Numeric.terms values, (t == Number.ofNat 0) = true) ∧
      ∀ e numbers, OnGrid e numbers values →
        (ZeroFigure figure ↔ ∀ v ∈ values, ∀ w ∈ values, value v = value w) ∧
          (ZeroFigure figure ↔ isConstant values = true) ∧
          (ZeroFigure figure ↔ pearson cells cells = none) := by
  intro figure values
  have hlength : 2 ≤ values.length := hcount
  have hzero : ZeroFigure figure ↔ IsZero (Numeric.variance values) := by
    rw [← Numeric.isZero_deviation_iff hlength]
    exact exists_congr fun z => and_congr_right fun _ => beq_zero_iff
  refine ⟨hzero.trans beq_zero_iff.symm, ?_, fun e numbers hgrid => ?_⟩
  · simp only [beq_zero_iff]
    exact Numeric.squares_zero_iff values
  · have hconstant := hzero.trans (hgrid.isZero_variance_iff hlength)
    refine ⟨hconstant.trans (isConstant_iff hgrid.moderate.finite), hconstant, ?_⟩
    rw [hconstant, pearson_self_eq_none_iff hgrid.moderate hlength]

theorem zero_deviation_iff_integers :
    let cells (n : ℤ) : List (Option Float) := [some (Number.ofInt 3), none, some (Number.ofInt n)]
    ZeroFigure (describe "n" (cells 3)).deviation ∧ pearson (cells 3) (cells 3) = none ∧
      ¬ ZeroFigure (describe "n" (cells 4)).deviation ∧ pearson (cells 4) (cells 4) ≠ none := by
  intro cells
  have hcount (n : ℤ) : 2 ≤ (describe "n" (cells n)).count := le_rfl
  have hgrid {n : ℤ} (hn : |n| ≤ 4) : OnGrid 0 [3, n] (present (cells n)) := by
    refine Numeric.onGrid_ofInt (by simp) (List.forall_mem_cons.mpr ⟨by norm_num, ?_⟩)
    refine List.forall_mem_singleton.mpr ?_
    rw [List.length_cons, List.length_singleton]
    omega
  obtain ⟨-, -, hthree⟩ := zero_deviation_iff "n" (hcount 3)
  obtain ⟨-, hconstant, hself⟩ := hthree 0 _ (hgrid (by norm_num))
  obtain ⟨-, -, hfour⟩ := zero_deviation_iff "n" (hcount 4)
  obtain ⟨-, hconstant', hself'⟩ := hfour 0 _ (hgrid (by norm_num))
  have hzero := hconstant.mpr (by decide +kernel)
  have hne : ¬ ZeroFigure (describe "n" (cells 4)).deviation := mt hconstant'.mp (by decide +kernel)
  exact ⟨hzero, hself.mp hzero, hne, mt hself'.mpr hne⟩

/-- Six times the double 0.1: the running sum is rounded away from its multiple, so the deviation of a
constant column is not zero. And `1 + 2^(-52)` with 1: the gap is rounded to zero, so the deviation of a
column that varies is. -/
theorem zero_deviation_inexact :
    let tenths := List.replicate 6 (some (Number.nearest false 1 10))
    let close := [some (Number.encode false (Nat.pow 2 52 + 1) (-52)), some (Number.ofInt 1)]
    (isConstant (present tenths) = true ∧ pearson tenths tenths = none ∧
        ¬ ZeroFigure (describe "x" tenths).deviation) ∧
      isConstant (present close) = false ∧ pearson close close ≠ none ∧
        ZeroFigure (describe "x" close).deviation := by
  intro tenths close
  have hdeviation : ∃ z, (describe "x" tenths).deviation = some z ∧ (z == Number.ofNat 0) = false :=
    ⟨Number.encode false 5883477916184625 (-109), by decide +kernel, by decide +kernel⟩
  obtain ⟨z, hz, hne⟩ := hdeviation
  refine ⟨⟨by decide +kernel, by decide +kernel, ?_⟩, by decide +kernel, by decide +kernel,
    Number.ofNat 0, by decide +kernel, by decide +kernel⟩
  rintro ⟨w, hw, hzero⟩
  obtain rfl := Option.some.inj (hz.symm.trans hw)
  rw [hne] at hzero
  cases hzero

end TableProfile
