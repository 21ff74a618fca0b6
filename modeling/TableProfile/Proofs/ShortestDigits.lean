import TableProfile.Number.Shortest
import TableProfile.Proofs.DecimalNumerals
import TableProfile.Proofs.DoubleIntervals
import TableProfile.Proofs.GroupedCounts

/-!
# Shortest digits read back

The decimal text of a double is looked for on grids of one digit, of two digits and so on, in the interval
of the numbers that are rounded to the double. Where the decimal point stands is estimated from the binary
length of the number (`pointOf_spec`). A grid that is finer than the interval is long has a point in it next
to the number (`Interval.exists_pick`), and the grid of seventeen digits is: its points are nearer to each
other than a step of a mantissa of 53 bits. So the search ends in the interval (`Interval.search_spec`).

* `roundingInterval_spec`: the interval is the one of the numbers that are rounded to the double.
* `shortest_spec`: the shortest digits are digits of a number that is rounded to the double.
-/
namespace TableProfile.Number

/-! ## The place of the decimal point -/

theorem two_zpow_le_ten_zpow {k a : ℤ} (hsteep : 30103 * k ≤ 100000 * a) (hflat : 30102 * k ≤ 100000 * a) :
    (2 : ℝ) ^ k ≤ 10 ^ a := by
  have habove : (2 : ℝ) ^ 100000 ≤ 10 ^ 30103 := by
    have hnat : 2 ^ 100000 ≤ 10 ^ 30103 := by decide +kernel
    exact_mod_cast hnat
  have hbelow : (10 : ℝ) ^ 30102 ≤ 2 ^ 100000 := by
    have hnat : 10 ^ 30102 ≤ 2 ^ 100000 := by decide +kernel
    exact_mod_cast hnat
  refine le_of_pow_le_pow_left₀ (n := 100000) (by norm_num) (by positivity) ?_
  have hpower (b : ℝ) (i : ℤ) (n : ℕ) : (b ^ i) ^ n = (b ^ n) ^ i := by
    rw [← zpow_natCast, ← zpow_mul, ← zpow_natCast b, ← zpow_mul, Int.mul_comm]
  have hten (n : ℕ) (i : ℤ) : ((10 : ℝ) ^ n) ^ i = 10 ^ (n * i) := by
    rw [← zpow_natCast, ← zpow_mul]
  rw [hpower, hpower 10, hten 100000]
  rcases le_or_gt 0 k with hk | hk
  · calc ((2 : ℝ) ^ 100000) ^ k ≤ (10 ^ 30103) ^ k := zpow_le_zpow_left₀ hk (by positivity) habove
      _ = 10 ^ ((30103 : ℕ) * k) := hten _ _
      _ ≤ 10 ^ ((100000 : ℕ) * a) := zpow_le_zpow_right₀ (by norm_num) (by push_cast; exact hsteep)
  · obtain ⟨n, rfl⟩ : ∃ n : ℕ, k = -(n : ℤ) := ⟨(-k).toNat, by omega⟩
    calc ((2 : ℝ) ^ 100000) ^ (-(n : ℤ)) ≤ (10 ^ 30102) ^ (-(n : ℤ)) := by
          rw [zpow_neg, zpow_neg]
          refine inv_anti₀ (by positivity) ?_
          exact zpow_le_zpow_left₀ (by positivity) (by positivity) hbelow
      _ = 10 ^ ((30102 : ℕ) * -(n : ℤ)) := hten _ _
      _ ≤ 10 ^ ((100000 : ℕ) * a) := zpow_le_zpow_right₀ (by norm_num) (by push_cast; exact hflat)

theorem belowPowerOfTen_iff {num den : ℕ} (hden : 0 < den) (p : ℤ) :
    belowPowerOfTen num den p = true ↔ (num : ℝ) / den < 10 ^ p := by
  have hpos : (0 : ℝ) < den := by exact_mod_cast hden
  rw [belowPowerOfTen, div_lt_iff₀ hpos]
  split
  · rename_i hneg
    obtain ⟨n, rfl⟩ : ∃ n : ℕ, p = -(n : ℤ) := ⟨(-p).toNat, by omega⟩
    rw [decide_eq_true_iff, neg_neg, Int.toNat_natCast, zpow_neg, zpow_natCast, inv_mul_eq_div,
      lt_div_iff₀ (by positivity), Nat.pow_eq]
    exact_mod_cast Iff.rfl
  · rename_i hneg
    obtain ⟨n, rfl⟩ : ∃ n : ℕ, p = n := ⟨p.toNat, by omega⟩
    rw [decide_eq_true_iff, Int.toNat_natCast, zpow_natCast, Nat.pow_eq, Nat.mul_comm]
    exact_mod_cast Iff.rfl

/-- The number of digits before the decimal point. -/
theorem pointOf_spec {num den : ℕ} (hnum : 0 < num) (hden : 0 < den)
    (hlow : (2 : ℝ) ^ (-1074 : ℤ) ≤ num / den) (hhigh : (num : ℝ) / den < 2 ^ (1024 : ℤ)) :
    (10 : ℝ) ^ (pointOf num den - 1) ≤ num / den ∧ (num : ℝ) / den < 10 ^ pointOf num den := by
  obtain ⟨hbelow, habove⟩ := quotient_bounds hnum hden
  have hleast : -1074 < (num.log2 : ℤ) - den.log2 + 1 :=
    (zpow_lt_zpow_iff_right₀ one_lt_two).mp (hlow.trans_lt habove)
  have hgreatest : (num.log2 : ℤ) - den.log2 - 1 < 1024 :=
    (zpow_lt_zpow_iff_right₀ one_lt_two).mp (hbelow.trans hhigh)
  rw [pointOf]
  generalize (num.log2 : ℤ) - den.log2 = length at *
  obtain ⟨guess, hguess⟩ : ∃ guess, length * 30103 / 100000 = guess := ⟨_, rfl⟩
  -- The estimate is at most one off on either side.
  have hunder : (10 : ℝ) ^ (guess - 2) ≤ num / den := by
    have hpowers : (2 : ℝ) ^ (1 - length) ≤ 10 ^ (2 - guess) :=
      two_zpow_le_ten_zpow (by omega) (by omega)
    rw [← neg_sub length, ← neg_sub guess, zpow_neg, zpow_neg,
      inv_le_inv₀ (by positivity) (by positivity)] at hpowers
    exact hpowers.trans hbelow.le
  have hover : (num : ℝ) / den < 10 ^ (guess + 2) :=
    habove.trans_le (two_zpow_le_ten_zpow (by omega) (by omega))
  simp only [hguess]
  have hge {p : ℤ} (h : ¬ belowPowerOfTen num den p = true) : (10 : ℝ) ^ p ≤ num / den :=
    not_lt.mp fun hlt => h ((belowPowerOfTen_iff hden p).mpr hlt)
  have hlt {p : ℤ} (h : belowPowerOfTen num den p = true) : (num : ℝ) / den < 10 ^ p :=
    (belowPowerOfTen_iff hden p).mp h
  split
  · rename_i h
    split
    · rename_i h'
      exact ⟨by rwa [show guess - 1 - 1 = guess - 2 by omega], hlt h'⟩
    · rename_i h'
      exact ⟨hge h', hlt h⟩
  · rename_i h
    split
    · rename_i h'
      exact ⟨by rw [show guess + 1 - 1 = guess by omega]; exact hge h, hlt h'⟩
    · rename_i h'
      exact ⟨by rw [show guess + 2 - 1 = guess + 1 by omega]; exact hge h', hover⟩

/-! ## Points of a decimal grid -/

namespace Interval

variable {i : Interval} {x : ℝ}

/-- The interval holds a number. -/
def Holds (i : Interval) (x : ℝ) : Prop :=
  (i.low : ℝ) / i.den ≤ x ∧ x ≤ (i.high : ℝ) / i.den ∧
    (i.closed = false → (i.low : ℝ) / i.den < x ∧ x < (i.high : ℝ) / i.den)

theorem holds_iff (hden : 0 < i.den) (c num : ℕ) {den : ℕ} (hgrid : 0 < den) :
    i.holds c num den = true ↔ i.Holds (c * ((num : ℝ) / den)) := by
  have hpos : (0 : ℝ) < i.den := by exact_mod_cast hden
  have hgrid' : (0 : ℝ) < den := by exact_mod_cast hgrid
  have hle (a : ℕ) : (a : ℝ) / i.den ≤ c * (num / den) ↔ a * den ≤ c * num * i.den := by
    rw [div_le_iff₀ hpos, mul_div_assoc', div_mul_eq_mul_div, le_div_iff₀ hgrid']
    exact_mod_cast Iff.rfl
  have hge (a : ℕ) : c * ((num : ℝ) / den) ≤ a / i.den ↔ c * num * i.den ≤ a * den := by
    rw [le_div_iff₀ hpos, mul_div_assoc', div_mul_eq_mul_div, div_le_iff₀ hgrid']
    exact_mod_cast Iff.rfl
  rw [Holds, ← not_le, ← not_le, hle, hge, hge, hle, holds]
  cases i.closed
  · simp only [Bool.and_eq_true, decide_eq_true_iff, Bool.false_eq_true, ↓reduceIte,
      forall_const]
    omega
  · simp only [Bool.and_eq_true, decide_eq_true_iff, ↓reduceIte, Bool.true_eq_false, false_implies,
      and_true]

/-- A point that is picked is in the interval. -/
theorem of_pick (hden : 0 < i.den) {num den c : ℕ} (hgrid : 0 < den) (h : i.pick num den = some c) :
    0 < c ∧ i.Holds (c * ((num : ℝ) / den)) := by
  rw [pick] at h
  generalize i.value * den / (i.den * num) = q at h
  split at h
  · rename_i hbelow
    cases h
    obtain ⟨⟨hholds, hpos⟩, -⟩ := by simpa only [Bool.and_eq_true] using hbelow
    exact ⟨Nat.pos_of_ne_zero (by simpa using hpos), (holds_iff hden _ _ hgrid).mp hholds⟩
  · split at h
    · rename_i habove
      cases h
      exact ⟨Nat.succ_pos q, (holds_iff hden _ _ hgrid).mp habove⟩
    · cases h

theorem holds_of_lt (hlow : (i.low : ℝ) / i.den < x) (hhigh : x < i.high / i.den) : i.Holds x :=
  ⟨hlow.le, hhigh.le, fun _ => ⟨hlow, hhigh⟩⟩

/-- A grid that is finer than the interval is long has a point next to the value in it. -/
theorem exists_pick (hden : 0 < i.den) {num den : ℕ} (hnum : 0 < num) (hgrid : 0 < den)
    (hlow : i.low < i.value) (hhigh : i.value < i.high)
    (hle : (num : ℝ) / den ≤ i.value / i.den)
    (hlong : (num : ℝ) / den < (i.high : ℝ) / i.den - i.low / i.den) :
    ∃ c, i.pick num den = some c := by
  have hpos : (0 : ℝ) < i.den := by exact_mod_cast hden
  have hgrid' : (0 : ℝ) < den := by exact_mod_cast hgrid
  have hlow' : (i.low : ℝ) / i.den < i.value / i.den :=
    div_lt_div_of_pos_right (by exact_mod_cast hlow) hpos
  have hhigh' : (i.value : ℝ) / i.den < i.high / i.den :=
    div_lt_div_of_pos_right (by exact_mod_cast hhigh) hpos
  have hscale : 0 < i.den * num := Nat.mul_pos hden hnum
  have hpoint (c : ℕ) : (c : ℝ) * (num / den) ≤ i.value / i.den ↔ c ≤ i.value * den / (i.den * num) := by
    rw [Nat.le_div_iff_mul_le hscale, le_div_iff₀ hpos, mul_div_assoc', div_mul_eq_mul_div,
      div_le_iff₀ hgrid', show c * (i.den * num) = c * num * i.den by ring]
    exact_mod_cast Iff.rfl
  rw [pick]
  generalize i.value * den / (i.den * num) = q at hpoint ⊢
  have hone : 1 ≤ q := (hpoint 1).mp (by rwa [Nat.cast_one, one_mul])
  have hbelow : (q : ℝ) * (num / den) ≤ i.value / i.den := (hpoint q).mpr le_rfl
  have habove : (i.value : ℝ) / i.den < (q + 1 : ℕ) * (num / den) :=
    not_le.mp fun h => absurd ((hpoint (q + 1)).mp h) (by omega)
  have hsome : i.holds q num den = true ∨ i.holds (q + 1) num den = true := by
    rw [holds_iff hden q num hgrid, holds_iff hden (q + 1) num hgrid]
    by_contra hnone
    obtain ⟨hleft, hright⟩ := not_or.mp hnone
    have hend : (q : ℝ) * (num / den) ≤ i.low / i.den :=
      not_lt.mp fun h => hleft (holds_of_lt h (hbelow.trans_lt hhigh'))
    have hend' : (i.high : ℝ) / i.den ≤ (q + 1 : ℕ) * (num / den) :=
      not_lt.mp fun h => hright (holds_of_lt (hlow'.trans habove) h)
    push_cast at hend'
    linarith
  have hne : (q != 0) = true := by simpa using Nat.ne_zero_of_lt hone
  rw [hne, Bool.and_true]
  by_cases hright : i.holds (q + 1) num den = true
  · by_cases hnear : (i.holds q num den && (!i.holds (q + 1) num den ||
        decide (2 * (i.value * den - q * num * i.den) ≤ num * i.den))) = true
    · exact ⟨q, if_pos hnear⟩
    · exact ⟨q + 1, by rw [if_neg hnear, if_pos hright]⟩
  · refine ⟨q, if_pos ?_⟩
    rw [hsome.resolve_right hright, (Bool.not_eq_true _).mp hright]
    rfl

/-- The width of a decimal grid as a quotient. -/
theorem exists_width (width : ℤ) : ∃ num den : ℕ, 0 < num ∧ 0 < den ∧
    (if width < 0 then (1, Nat.pow 10 (-width).toNat) else (Nat.pow 10 width.toNat, 1)) = (num, den) ∧
    (num : ℝ) / den = 10 ^ width := by
  split
  · obtain ⟨n, rfl⟩ : ∃ n : ℕ, width = -(n : ℤ) := ⟨(-width).toNat, by omega⟩
    refine ⟨1, _, Nat.one_pos, Nat.pow_pos (by norm_num), rfl, ?_⟩
    rw [neg_neg, Int.toNat_natCast, zpow_neg, zpow_natCast, Nat.cast_one, one_div]
    push_cast
    rfl
  · obtain ⟨n, rfl⟩ : ∃ n : ℕ, width = n := ⟨width.toNat, by omega⟩
    refine ⟨_, 1, Nat.pow_pos (by norm_num), Nat.one_pos, rfl, ?_⟩
    rw [Int.toNat_natCast, zpow_natCast, Nat.cast_one, div_one]
    push_cast
    rfl

/-- If the grid of seventeen digits is finer than the interval is long, the search ends at a point in it. -/
theorem search_spec (hden : 0 < i.den) (hlow : i.low < i.value) (hhigh : i.value < i.high) {point : ℤ}
    (hpoint : (10 : ℝ) ^ (point - 1) ≤ i.value / i.den)
    (hlong : (10 : ℝ) ^ (point - 17) < (i.high : ℝ) / i.den - i.low / i.den) {fuel n : ℕ} (hn : 1 ≤ n)
    (hlast : n + fuel = 17) : 0 < (i.search point (fuel + 1) n).1 ∧
      i.Holds ((i.search point (fuel + 1) n).1 * 10 ^ (i.search point (fuel + 1) n).2) := by
  induction fuel generalizing n with
  | zero =>
    obtain ⟨num, den, hnum, hgrid, hwidth, hvalue⟩ := exists_width (point - n)
    obtain rfl : n = 17 := hlast
    have hle : (10 : ℝ) ^ (point - 17) ≤ i.value / i.den :=
      le_trans (zpow_le_zpow_right₀ (by norm_num) (by omega)) hpoint
    obtain ⟨c, hc⟩ := exists_pick hden hnum hgrid hlow hhigh (by rw [hvalue]; exact hle)
      (by rw [hvalue]; exact hlong)
    obtain ⟨hpos, hholds⟩ := of_pick hden hgrid hc
    rw [hvalue] at hholds
    simp only [search, hwidth, hc]
    exact ⟨hpos, hholds⟩
  | succ fuel ih =>
    obtain ⟨num, den, hnum, hgrid, hwidth, hvalue⟩ := exists_width (point - n)
    rw [search]
    simp only [hwidth]
    cases hpick : i.pick num den with
    | none => exact ih (by omega) (by omega)
    | some c =>
      obtain ⟨hpos, hholds⟩ := of_pick hden hgrid hpick
      rw [hvalue] at hholds
      exact ⟨hpos, hholds⟩

end Interval

/-! ## Shortest digits -/

/-- The interval of a double, as real numbers. -/
structure IsInterval (m : ℕ) (e : ℤ) (i : Interval) : Prop where
  den : 0 < i.den
  low : i.low < i.value
  high : i.value < i.high
  center : (i.value : ℝ) / i.den = m * 2 ^ e
  long : (if m = 2 ^ 52 ∧ -1074 < e then 3 / 4 else 1) * (2 : ℝ) ^ e = (i.high : ℝ) / i.den - i.low / i.den
  back {x : ℝ} (h : i.Holds x) : RoundsBack m e x

/-- The unit of the interval is a quarter of a step. -/
theorem scaled_quarter (e : ℤ) : 0 < (scaled 1 1 (2 - e)).1 ∧ 0 < (scaled 1 1 (2 - e)).2 ∧
    ((scaled 1 1 (2 - e)).1 : ℝ) / (scaled 1 1 (2 - e)).2 = 2 ^ e / 4 := by
  have hvalue := scaled_value 1 1 (2 - e)
  have hden := scaled_pos 1 Nat.one_pos (2 - e)
  generalize (scaled 1 1 (2 - e)).1 = unit at *
  generalize (scaled 1 1 (2 - e)).2 = den at *
  have hquarter : (unit : ℝ) / den = 2 ^ e / 4 := by
    rw [Nat.cast_one, div_one, zpow_sub₀ two_ne_zero] at hvalue
    have hpos : (2 : ℝ) ^ e ≠ 0 := (zpow_pos two_pos e).ne'
    field_simp at hvalue ⊢
    linarith
  refine ⟨Nat.pos_of_ne_zero fun hzero => ?_, hden, hquarter⟩
  rw [hzero, Nat.cast_zero, zero_div] at hquarter
  have : (0 : ℝ) < 2 ^ e / 4 := by positivity
  exact this.ne hquarter

theorem roundingInterval_spec {m : ℕ} (hm : 0 < m) (e : ℤ) : IsInterval m e (roundingInterval m e) := by
  obtain ⟨below, hbelow⟩ : ∃ below, (if m = 2 ^ 52 ∧ -1074 < e then 1 else 2) = below := ⟨_, rfl⟩
  have hinterval : roundingInterval m e = ⟨(4 * m - below) * (scaled 1 1 (2 - e)).1,
      4 * m * (scaled 1 1 (2 - e)).1, (4 * m + 2) * (scaled 1 1 (2 - e)).1, (scaled 1 1 (2 - e)).2,
      m % 2 == 0⟩ := by
    rw [← hbelow]
    rfl
  obtain ⟨hunitpos, hdenpos, hquarter⟩ := scaled_quarter e
  rw [hinterval]
  generalize (scaled 1 1 (2 - e)).1 = unit at hunitpos hquarter ⊢
  generalize (scaled 1 1 (2 - e)).2 = den at hdenpos hquarter ⊢
  have htwo : below = 1 ∨ below = 2 := by
    rw [← hbelow]
    split <;> simp
  have hbelow' : (below : ℝ) / 4 = if m = 2 ^ 52 ∧ -1074 < e then 1 / 4 else 1 / 2 := by
    rw [← hbelow]
    by_cases hedge : m = 2 ^ 52 ∧ -1074 < e
    · rw [if_pos hedge, if_pos hedge]
      norm_num
    · rw [if_neg hedge, if_neg hedge]
      norm_num
  have hpart (n : ℕ) : ((n * unit : ℕ) : ℝ) / den = n / 4 * 2 ^ e := by
    rw [Nat.cast_mul, mul_div_assoc, hquarter]
    ring
  have hlow : (((4 * m - below) * unit : ℕ) : ℝ) / den = (m - below / 4) * 2 ^ e := by
    rw [hpart, Nat.cast_sub (by omega)]
    push_cast
    ring
  have hhigh : (((4 * m + 2) * unit : ℕ) : ℝ) / den = (m + 1 / 2) * 2 ^ e := by
    rw [hpart]
    push_cast
    ring
  refine ⟨hdenpos, ?_, ?_, ?_, ?_, ?_⟩
  · exact Nat.mul_lt_mul_of_pos_right (by omega) hunitpos
  · exact Nat.mul_lt_mul_of_pos_right (by omega) hunitpos
  · dsimp only
    rw [hpart]
    push_cast
    ring
  · dsimp only
    rw [hlow, hhigh, hbelow']
    split <;> ring
  · rintro x ⟨hleft, hright, hends⟩
    dsimp only at hleft hright hends
    rw [hlow, hbelow'] at hleft hends
    rw [hhigh] at hright hends
    refine ⟨hleft, hright, fun hodd => ?_⟩
    have hedge : ¬ (m = 2 ^ 52 ∧ -1074 < e) := fun hedge => by omega
    rw [if_neg hedge] at hends
    exact hends (by rw [hodd]; rfl)

theorem spelled_append (cs more : List Char) :
    spelled (cs ++ more) = spelled cs * 10 ^ more.length + spelled more := by
  rw [← digitsValue_append, digitsValue_eq, digitsValue_zero]

theorem spelled_zeros (n : ℕ) : spelled (List.replicate n '0') = 0 := by
  induction n with
  | zero => rfl
  | succ n ih => rw [List.replicate_succ', spelled_append, ih]; rfl

theorem spelled_toDigits (n : ℕ) : spelled (Nat.toDigits 10 n) = n := by
  rw [← digitsValue_zero]
  exact Nat.ofDigitChars_ten_toDigits

/-- The value of digits behind a decimal point that is shifted by `point` places. -/
noncomputable def Digits.value (d : Digits) : ℝ :=
  spelled d.digits * ((10 : ℕ) : ℝ) ^ (d.point - d.digits.length)

theorem Digits.value_eq (d : Digits) :
    d.value = spelled d.digits * 10 ^ (d.point - d.digits.length) := by
  rw [value, Nat.cast_ofNat]

/-- Digits, and the first one is not zero. -/
structure Digits.Proper (d : Digits) : Prop where
  ne_nil : d.digits ≠ []
  digits : AllDigits d.digits
  lead : d.digits.head? ≠ some '0'

/-- The zeros at the end of a numeral. -/
theorem exists_zeros (cs : List Char) : ∃ n,
    cs = (cs.reverse.dropWhile (· == '0')).reverse ++ List.replicate n '0' := by
  have hzeros : cs.reverse.takeWhile (· == '0') =
      List.replicate (cs.reverse.takeWhile (· == '0')).length '0' :=
    List.eq_replicate_iff.mpr ⟨rfl, fun c hc => by simpa using List.mem_takeWhile_imp hc⟩
  have hcut := congrArg List.reverse (List.takeWhile_append_dropWhile (p := (· == '0')) (l := cs.reverse))
  rw [List.reverse_append, List.reverse_reverse, hzeros, List.reverse_replicate] at hcut
  exact ⟨_, hcut.symm⟩

/-- A number of units of a decimal grid, without the zeros at its end. -/
theorem proper_units {c : ℕ} (hc : 0 < c) (width : ℤ) {d : Digits}
    (hdigits : d.digits = ((Nat.toDigits 10 c).reverse.dropWhile (· == '0')).reverse)
    (hpoint : d.point = width + (Nat.toDigits 10 c).length) : d.Proper ∧ d.value = c * 10 ^ width := by
  obtain ⟨n, htext⟩ := exists_zeros (Nat.toDigits 10 c)
  have hall : AllDigits (Nat.toDigits 10 c) := (isNumeral_iff.mpr rfl).digits
  have hlead : (Nat.toDigits 10 c).head? ≠ some '0' := fun h => hc.ne' (eq_zero_of_head_toDigits h)
  have hspelled : spelled (Nat.toDigits 10 c) = c := spelled_toDigits c
  rw [← hdigits] at htext
  rw [htext] at hpoint hall hlead hspelled
  rw [spelled_append, spelled_zeros, List.length_replicate, Nat.add_zero] at hspelled
  have hsome : d.digits ≠ [] := by
    intro hnil
    rw [hnil, show spelled [] = 0 from rfl, Nat.zero_mul] at hspelled
    exact hc.ne hspelled
  rw [List.head?_append_of_ne_nil _ hsome] at hlead
  refine ⟨⟨hsome, fun x hx => hall x (List.mem_append_left _ hx), hlead⟩, ?_⟩
  rw [Digits.value_eq, hpoint, List.length_append, List.length_replicate, ← hspelled]
  push_cast
  rw [mul_assoc, ← zpow_natCast, ← zpow_add₀ (by norm_num)]
  congr 2
  ring

/-- **Shortest digits** are digits of a number that is rounded to the double that they are of. -/
theorem shortest_spec {m : ℕ} {e : ℤ} (hm : 0 < m) (hnormal : Normal m e) :
    (shortest m e).Proper ∧ RoundsBack m e (shortest m e).value := by
  obtain ⟨hden, hlow, hhigh, hcenter, hlong, hback⟩ := roundingInterval_spec hm e
  obtain ⟨i, hi⟩ : ∃ i, roundingInterval m e = i := ⟨_, rfl⟩
  rw [hi] at hden hlow hhigh hcenter hlong hback
  have hpos : (0 : ℝ) < 2 ^ e := by positivity
  have hm' : (1 : ℝ) ≤ m := by exact_mod_cast hm
  have hcenterlow : (2 : ℝ) ^ (-1074 : ℤ) ≤ i.value / i.den := by
    rw [hcenter]
    have hleast : (2 : ℝ) ^ (-1074 : ℤ) ≤ 2 ^ e := zpow_le_zpow_right₀ one_le_two hnormal.least
    nlinarith
  have hself : RoundsBack m e (i.value / i.den) := by
    have hpos' : (0 : ℝ) < i.den := by exact_mod_cast hden
    refine hback (Interval.holds_of_lt ?_ ?_)
    · exact div_lt_div_of_pos_right (by exact_mod_cast hlow) hpos'
    · exact div_lt_div_of_pos_right (by exact_mod_cast hhigh) hpos'
  obtain ⟨hpoint, -⟩ := pointOf_spec (Nat.zero_lt_of_lt hlow) hden hcenterlow
    (hself.lt_of_greatest hnormal.short hnormal.greatest)
  generalize hp : pointOf i.value i.den = point at hpoint
  have hfine : (10 : ℝ) ^ (point - 17) < (i.high : ℝ) / i.den - i.low / i.den := by
    have hgrid : (10 : ℝ) ^ (point - 17) * 10 ^ 16 ≤ m * 2 ^ e := by
      rw [← hcenter, ← zpow_natCast, ← zpow_add₀ (by norm_num)]
      exact le_of_eq_of_le (by congr 1; push_cast; ring) hpoint
    rw [← hlong]
    split
    · rename_i hedge
      rw [hedge.1] at hgrid
      push_cast at hgrid
      linarith
    · have hshort : (m : ℝ) < 2 ^ 53 := by exact_mod_cast hnormal.short
      nlinarith
  obtain ⟨hc, hholds⟩ := Interval.search_spec hden hlow hhigh hpoint hfine (le_refl 1)
    (show 1 + 16 = 17 from rfl)
  have hproper := proper_units hc (i.search point 17 1).2 (d := shortest m e)
    (by rw [shortest, hi, hp]) (by rw [shortest, hi, hp])
  rw [hproper.2]
  exact ⟨hproper.1, hback hholds⟩

end TableProfile.Number
