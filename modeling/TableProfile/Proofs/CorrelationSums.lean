import TableProfile.Profile.Correlation
import TableProfile.Proofs.DoubleSums

/-!
# The sums of a correlation

The coefficient of two columns is a quotient: the sum of the products of their deviations, by the roots of
the sums of their squares. A sum of squares is at least the square of half the largest deviation, and the
sum of products is at most `2^54` times the product of the two largest deviations, whatever the number of
rows. So the quotient is never too large by itself.

Results:
* `crossSums_eq`: the sums of one pass are sums of squares and products.
* `squares_ne_zero_iff`: a sum of squares is zero exactly if every square is.
* `quotient_isFinite_iff`: the quotient is finite exactly if the sum of products is.
* `coefficient_isSome_iff`: sums give a coefficient exactly if some square of each column is not zero and
  the sum of products is finite.
-/
namespace TableProfile

open Double

/-- The sum of squares, in order. -/
def squares (ds : List Float) : Float := (ds.map fun d => d * d).foldl (· + ·) (Number.ofNat 0)

/-- The sum of the products of pairs, in order. -/
def products (ds : List (Float × Float)) : Float :=
  (ds.map fun d => d.1 * d.2).foldl (· + ·) (Number.ofNat 0)

/-- The deviations of rows from the means of their columns. -/
def deviations (rows : List (Float × Float)) : List (Float × Float) :=
  rows.map fun row =>
    (row.1 - Numeric.mean (rows.map (·.1)), row.2 - Numeric.mean (rows.map (·.2)))

/-- The three sums of one pass are taken each for itself. -/
theorem foldl_step (meanX meanY : Float) (rows : List (Float × Float)) (s : CrossSums) :
    rows.foldl (CrossSums.step meanX meanY) s =
      ⟨((rows.map fun row => (row.1 - meanX, row.2 - meanY)).map fun d => d.1 * d.2).foldl (· + ·) s.xy,
        (((rows.map fun row => (row.1 - meanX, row.2 - meanY)).map (·.1)).map fun d => d * d).foldl
          (· + ·) s.xx,
        (((rows.map fun row => (row.1 - meanX, row.2 - meanY)).map (·.2)).map fun d => d * d).foldl
          (· + ·) s.yy⟩ := by
  induction rows generalizing s with
  | nil => rfl
  | cons row rest ih => exact ih _

theorem crossSums_eq (rows : List (Float × Float)) :
    crossSums rows = ⟨products (deviations rows), squares ((deviations rows).map (·.1)),
      squares ((deviations rows).map (·.2))⟩ :=
  foldl_step _ _ rows _

/-! ## Sums of squares -/

variable {ds : List Float}

theorem square_atLeast {d : Float} (h : d.isFinite = true) : AtLeast 0 (d * d) :=
  mul_self_atLeast h representable_zero (mul_self_nonneg _)

theorem squares_atLeast (hfinite : ∀ d ∈ ds, d.isFinite = true) {d : Float} (hd : d ∈ ds) {a : ℝ}
    (h : AtLeast a (d * d)) (ha : 0 ≤ a) (hgrid : Representable a) : AtLeast a (squares ds) := by
  refine foldl_add_atLeast ?_ (Or.inl ⟨zero_finite.1, zero_finite.2.ge⟩)
    (List.mem_map_of_mem hd) h ha hgrid
  intro x hx
  obtain ⟨e, he, rfl⟩ := List.mem_map.mp hx
  exact square_atLeast (hfinite e he)

/-- A double that is not negative and not zero is at least the least positive one. -/
theorem atLeast_least {z : Float} (h : AtLeast 0 z) (hne : (z == Number.ofNat 0) = false) :
    AtLeast (2 ^ (-1074 : ℤ)) z := by
  rcases h with ⟨hfinite, hnonneg⟩ | hinfinite
  · refine Or.inl ⟨hfinite, (representable_value hfinite).le_of_pos (hnonneg.lt_of_ne fun hzero => ?_)⟩
    rw [beq_zero_iff.mpr ⟨hfinite, hzero.symm⟩] at hne
    cases hne
  · exact Or.inr hinfinite

/-- A sum of squares is zero exactly if every square is. -/
theorem squares_ne_zero_iff : (squares ds == Number.ofNat 0) = false ↔
    ∃ d ∈ ds, (d * d == Number.ofNat 0) = false := by
  constructor
  · intro hne
    by_contra hall
    have hzero : ∀ x ∈ ds.map (fun d => d * d), x.isFinite = true ∧ value x = 0 := by
      intro x hx
      obtain ⟨d, hd, rfl⟩ := List.mem_map.mp hx
      exact beq_zero_iff.mp (Bool.of_not_eq_false fun h => hall ⟨d, hd, h⟩)
    have hsum := beq_zero_iff.mpr (foldl_add_zero hzero zero_finite)
    rw [squares, hsum] at hne
    cases hne
  · rintro ⟨d, hd, hne⟩
    refine Bool.eq_false_iff.mpr fun hsum => ?_
    obtain ⟨hfinite, -⟩ := beq_zero_iff.mp hsum
    obtain ⟨-, hsquares⟩ := isFinite_of_foldl_add hfinite
    have hds : ∀ e ∈ ds, e.isFinite = true := fun e he =>
      (isFinite_of_mul (hsquares _ (List.mem_map_of_mem he))).1
    have hleast := squares_atLeast hds hd (atLeast_least (square_atLeast (hds d hd)) hne)
      (zpow_pos two_pos _).le (representable_two_pow le_rfl)
    rw [hleast.ne_zero (zpow_pos two_pos _)] at hsum
    cases hsum

/-- A bound of the deviations whose square the sum of their squares reaches. -/
theorem exists_scale (hfinite : ∀ d ∈ ds, d.isFinite = true)
    (hne : (squares ds == Number.ofNat 0) = false) :
    ∃ k : ℤ, -537 ≤ k ∧ (∀ d ∈ ds, |value d| ≤ 2 ^ (k + 1)) ∧ AtLeast (2 ^ k * 2 ^ k) (squares ds) := by
  have hexists : ∃ n : ℕ, ∀ d ∈ ds, |value d| ≤ 2 ^ ((n : ℤ) - 536) :=
    ⟨1560, fun d _ => (abs_value_lt d).le⟩
  classical
  obtain ⟨n, hn⟩ : ∃ n, Nat.find hexists = n := ⟨_, rfl⟩
  have hbound := Nat.find_spec hexists
  rw [hn] at hbound
  refine ⟨(n : ℤ) - 537, by omega, fun d hd => ?_, ?_⟩
  · have hexponent : (n : ℤ) - 537 + 1 = n - 536 := by omega
    rw [hexponent]
    exact hbound d hd
  · rw [← zpow_add₀ two_ne_zero]
    cases n with
    | zero =>
      -- The deviations are so small that only the least positive double bounds the sum.
      obtain ⟨d, hd, hsquare⟩ := squares_ne_zero_iff.mp hne
      exact squares_atLeast hfinite hd (atLeast_least (square_atLeast (hfinite d hd)) hsquare)
        (zpow_pos two_pos _).le (representable_two_pow le_rfl)
    | succ m =>
      -- Some deviation is larger than half the bound.
      have hlarger : ¬ ∀ d ∈ ds, |value d| ≤ 2 ^ ((m : ℤ) - 536) :=
        Nat.find_min hexists (by omega)
      push Not at hlarger
      obtain ⟨d, hd, hlarge⟩ := hlarger
      have hexponent : ((m + 1 : ℕ) : ℤ) - 537 = m - 536 := by omega
      have hgrid : Representable (2 ^ ((m : ℤ) - 536 + (m - 536))) := representable_two_pow (by omega)
      rw [hexponent]
      refine squares_atLeast hfinite hd (mul_self_atLeast (hfinite d hd) hgrid ?_)
        (zpow_pos two_pos _).le hgrid
      rw [zpow_add₀ two_ne_zero, ← abs_mul_abs_self (value d)]
      exact mul_self_le_mul_self (zpow_pos two_pos _).le hlarge.le

/-! ## The quotient -/

/-- A sum of products of finite deviations is at most `2^56` times the product of their scales. -/
theorem products_bound {ds : List (Float × Float)} {k l : ℤ} (hk : -537 ≤ k) (hl : -537 ≤ l)
    (hks : ∀ d ∈ ds.map (·.1), |value d| ≤ 2 ^ (k + 1))
    (hls : ∀ d ∈ ds.map (·.2), |value d| ≤ 2 ^ (l + 1)) (h : (products ds).isFinite = true) :
    |value (products ds)| ≤ 2 ^ (56 : ℤ) * 2 ^ (k + l) := by
  obtain ⟨-, hfinite⟩ := isFinite_of_foldl_add h
  have hterms : ∀ x ∈ ds.map (fun d => d.1 * d.2), |value x| ≤ 2 ^ (k + l + 2) := by
    intro x hx
    have hx' := hfinite x hx
    obtain ⟨d, hd, rfl⟩ := List.mem_map.mp hx
    obtain ⟨hleft, hright⟩ := isFinite_of_mul hx'
    refine ((mul_roundsTo hleft hright).nearest hx').abs_le_of_abs_le
      (representable_two_pow (by omega)) ?_
    rw [abs_mul, show k + l + 2 = k + 1 + (l + 1) by ring, zpow_add₀ two_ne_zero]
    exact mul_le_mul (hks _ (List.mem_map_of_mem hd)) (hls _ (List.mem_map_of_mem hd)) (abs_nonneg _)
      (zpow_pos two_pos _).le
  have hzero : |value (Number.ofNat 0)| ≤ 2 ^ (k + l + 2 + 54) := by
    rw [zero_finite.2, abs_zero]
    exact (zpow_pos two_pos _).le
  have hbound := foldl_add_bound (by omega) hterms hzero h
  rwa [show k + l + 2 + 54 = 56 + (k + l) by ring, zpow_add₀ two_ne_zero] at hbound

/-- Where no sum of squares is zero, the quotient is finite exactly if the sum of products is. -/
theorem quotient_isFinite_iff {ds : List (Float × Float)}
    (hx : (squares (ds.map (·.1)) == Number.ofNat 0) = false)
    (hy : (squares (ds.map (·.2)) == Number.ofNat 0) = false) :
    (products ds / ((squares (ds.map (·.1))).sqrt * (squares (ds.map (·.2))).sqrt)).isFinite = true ↔
      (products ds).isFinite = true := by
  refine ⟨isFinite_of_div, fun h => ?_⟩
  obtain ⟨-, hfinite⟩ := isFinite_of_foldl_add h
  have hleft : ∀ d ∈ ds.map (·.1), d.isFinite = true := by
    intro x hmem
    obtain ⟨d, hd, rfl⟩ := List.mem_map.mp hmem
    exact (isFinite_of_mul (hfinite _ (List.mem_map_of_mem hd))).1
  have hright : ∀ d ∈ ds.map (·.2), d.isFinite = true := by
    intro x hmem
    obtain ⟨d, hd, rfl⟩ := List.mem_map.mp hmem
    exact (isFinite_of_mul (hfinite _ (List.mem_map_of_mem hd))).2
  obtain ⟨k, hk, hks, hxs⟩ := exists_scale hleft hx
  obtain ⟨l, hl, hls, hys⟩ := exists_scale hright hy
  have hpower (n : ℤ) : (0 : ℝ) < 2 ^ n := zpow_pos two_pos n
  have hroots : AtLeast (2 ^ (k + l)) ((squares (ds.map (·.1))).sqrt * (squares (ds.map (·.2))).sqrt) := by
    rw [zpow_add₀ two_ne_zero]
    refine (hxs.sqrt (representable_two_pow (by omega)) le_rfl).mul
      (hys.sqrt (representable_two_pow (by omega)) le_rfl) (hpower k) (hpower l) ?_ le_rfl
    rw [← zpow_add₀ two_ne_zero]
    exact representable_two_pow (by omega)
  exact (hroots.div (hpower _) h (representable_two_pow (by norm_num))
    (zpow_lt_zpow_right₀ one_lt_two (by norm_num)) (products_bound hk hl hks hls h)).1

/-- Sums give a coefficient exactly if some square of each column is not zero and the sum of products is
finite. -/
theorem coefficient_isSome_iff (ds : List (Float × Float)) :
    (CrossSums.coefficient
        ⟨products ds, squares (ds.map (·.1)), squares (ds.map (·.2))⟩).isSome = true ↔
      (∃ d ∈ ds.map (·.1), (d * d == Number.ofNat 0) = false) ∧
        (∃ d ∈ ds.map (·.2), (d * d == Number.ofNat 0) = false) ∧ (products ds).isFinite = true := by
  rw [CrossSums.coefficient, ← squares_ne_zero_iff, ← squares_ne_zero_iff]
  by_cases hx : (squares (ds.map (·.1)) == Number.ofNat 0) = false
  · by_cases hy : (squares (ds.map (·.2)) == Number.ofNat 0) = false
    · rw [if_neg (by rw [hx, hy]; exact Bool.false_ne_true), ← quotient_isFinite_iff hx hy]
      simp only
      split
      · rename_i hfinite
        exact ⟨fun _ => ⟨hx, hy, hfinite⟩, fun _ => rfl⟩
      · rename_i hfinite
        exact ⟨nofun, fun h => absurd h.2.2 hfinite⟩
    · rw [if_pos (by rw [Bool.of_not_eq_false hy, Bool.or_true])]
      exact ⟨nofun, fun h => absurd h.2.1 hy⟩
  · rw [if_pos (by rw [Bool.of_not_eq_false hx, Bool.true_or])]
    exact ⟨nofun, fun h => absurd h.1 hx⟩

end TableProfile
