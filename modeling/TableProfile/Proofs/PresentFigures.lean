import TableProfile.Profile.Json
import TableProfile.Proofs.CorrelationSums
import TableProfile.Proofs.Means
import TableProfile.Proofs.MedianOrder

/-!
# Which figures a numeric column has

Mean, median, least and greatest value are present where there is a value, for each of them is taken from
the same values. That they are finite, and so written as numbers, is another matter. Least and greatest are
values themselves. The mean is finite as long as the running sum is, and the median as long as the sum of
the two middle values is. The deviation is left out where it is not finite: of two values or more it is
finite exactly if the sum of squares of the one pass is.

The pass keeps two bounds whatever the values are (`Pass.Sound`): the count lies between one and `2^54`,
where it stays for ever since doubles cannot count further, and a finite sum of squares is not negative.
Of values of at most `2^400` no step of the pass leaves the range of doubles (`Pass.Bounded`).

Results:
* `describe_isSome`: which figures are present.
* `deviation_isSome_iff`: when there is a deviation.
* `floatText_eq_null_iff`: which doubles have no text as numbers.
* `describe_shown_iff`: which figures are present and finite.
-/
namespace TableProfile

open Double
open Float.Model (UnpackedFloat)

/-! ## Presence -/

namespace Numeric

theorem length_insertBehind (x : Float) (placed : List Float) :
    (insertBehind x placed).length = placed.length + 1 := by
  induction placed with
  | nil => rfl
  | cons y rest ih =>
    rw [insertBehind]
    split
    · rw [List.length_cons, ih, List.length_cons]
    · rfl

theorem length_foldl_insertBehind (xs placed : List Float) :
    (xs.foldl (fun placed x => insertBehind x placed) placed).length = xs.length + placed.length := by
  induction xs generalizing placed with
  | nil => exact (Nat.zero_add _).symm
  | cons x rest ih =>
    rw [List.foldl_cons, ih, length_insertBehind, List.length_cons]
    omega

theorem length_sorted (xs : List Float) : (sorted xs).length = xs.length := by
  rw [sorted]
  split
  · rw [List.length_reverse, length_foldl_insertBehind, List.length_nil, Nat.add_zero]
  · exact List.length_mergeSort _

theorem medianOf_isSome {xs : List Float} (h : xs ≠ []) : (medianOf xs).isSome = true := by
  have hpos : 0 < xs.length := List.length_pos_iff.mpr h
  rw [medianOf]
  split
  · rw [List.getElem?_eq_getElem (by omega)]
    rfl
  · rw [List.getElem?_eq_getElem (by omega), List.getElem?_eq_getElem (by omega)]
    rfl

end Numeric

/-- A column has a mean, a median, a least and a greatest value exactly if it has a value. -/
theorem describe_isSome (column : String) (cells : List (Option Float)) :
    ((describe column cells).mean.isSome = true ↔ 0 < (describe column cells).count) ∧
      ((describe column cells).median.isSome = true ↔ 0 < (describe column cells).count) ∧
      ((describe column cells).least.isSome = true ↔ 0 < (describe column cells).count) ∧
      ((describe column cells).greatest.isSome = true ↔ 0 < (describe column cells).count) := by
  have hcount : (describe column cells).count = (present cells).length := rfl
  rw [hcount]
  simp only [describe]
  rcases eq_or_ne (present cells) [] with hnil | hne
  · have hsorted : Numeric.sorted [] = [] := List.length_eq_zero_iff.mp (Numeric.length_sorted [])
    rw [hnil, hsorted]
    have hnone : (none : Option Float).isSome = true ↔ 0 < 0 :=
      iff_of_false Bool.false_ne_true (lt_irrefl 0)
    exact ⟨hnone, hnone, hnone, hnone⟩
  · have hpos : 0 < (present cells).length := List.length_pos_iff.mpr hne
    have hsorted : Numeric.sorted (present cells) ≠ [] := by
      rwa [← List.length_pos_iff, Numeric.length_sorted]
    have hmean : (present cells).isEmpty = false := List.isEmpty_eq_false_iff.mpr hne
    rw [hmean]
    exact ⟨iff_of_true rfl hpos, iff_of_true (Numeric.medianOf_isSome hsorted) hpos,
      iff_of_true (List.isSome_head?.mpr hsorted) hpos,
      iff_of_true (List.getLast?_isSome.mpr hsorted) hpos⟩

/-! ## One pass over the values -/

namespace Numeric

/-- The pass over values, from the first on. -/
def pass : List Float → Pass
  | [] => ⟨Number.ofNat 0, Number.ofNat 0, Number.ofNat 0⟩
  | x :: rest => rest.foldl Pass.step ⟨Number.ofNat 1, x, Number.ofNat 0⟩

theorem one_exact : (Number.ofNat 1).isFinite = true ∧ value (Number.ofNat 1) = 1 := by
  have h := Number.ofNat_exact (n := 1) (by norm_num)
  rwa [Nat.cast_one] at h

namespace Pass

/-- How far a value lies from the mean so far, times the count. -/
def gap (p : Pass) (x : Float) : Float := (p.step x).count * x - (p.step x).sum

/-- What a value adds to the sum of squares. -/
def term (p : Pass) (x : Float) : Float :=
  p.gap x * p.gap x / ((p.step x).count * ((p.step x).count - Number.ofNat 1))

theorem step_squares (p : Pass) (x : Float) : (p.step x).squares = p.squares + p.term x := rfl

/-- What the pass keeps over any values: a count that is one or more and does not grow past `2^54`, and a
sum of squares that is not negative as long as it is finite. -/
structure Sound (p : Pass) : Prop where
  count : Within 54 p.count
  low : 1 ≤ value p.count
  squares : p.squares.isFinite = true → 0 ≤ value p.squares

variable {p : Pass}

theorem Sound.count_step (h : p.Sound) (x : Float) :
    Within 54 (p.step x).count ∧ 2 ≤ value (p.step x).count := by
  have hone : Within 0 (Number.ofNat 1) := by
    refine ⟨one_exact.1, ?_⟩
    rw [one_exact.2, abs_one, zpow_zero]
  have hnext : Within (0 + 54) (p.step x).count := h.count.add hone (by norm_num) (by norm_num)
  have hnearest := (add_roundsTo h.count.finite one_exact.1).nearest hnext.finite
  refine ⟨hnext, hnearest.ge representable_two ?_⟩
  rw [one_exact.2]
  linarith [h.low]

/-- From two on, a count less one is one or more. -/
theorem sub_one_atLeast {i : Float} (hi : i.isFinite = true) (hlow : 2 ≤ value i) :
    AtLeast 1 (i - Number.ofNat 1) := by
  have hrounds := sub_roundsTo hi one_exact.1
  rw [one_exact.2] at hrounds
  exact hrounds.atLeast representable_one (by linarith) (by linarith)

/-- The square of a deviation is divided by one or more. -/
theorem Sound.divisor_atLeast (h : p.Sound) (x : Float) :
    AtLeast 1 ((p.step x).count * ((p.step x).count - Number.ofNat 1)) := by
  obtain ⟨hcount, hlow⟩ := h.count_step x
  exact AtLeast.mul (Or.inl ⟨hcount.finite, hlow⟩) (sub_one_atLeast hcount.finite hlow) two_pos
    one_pos representable_one (by norm_num)

/-- A finite term has a finite gap, and the square of a finite number is not negative. -/
theorem Sound.term_nonneg (h : p.Sound) (x : Float) (hterm : (p.term x).isFinite = true) :
    0 ≤ value (p.term x) := by
  have hsquare : (p.gap x * p.gap x).isFinite = true := isFinite_of_div hterm
  have hnonneg := (square_atLeast (isFinite_of_mul hsquare).1).le hsquare
  exact ((h.divisor_atLeast x).div_atLeast_zero one_pos hsquare hnonneg).le hterm

theorem Sound.step (h : p.Sound) (x : Float) : (p.step x).Sound := by
  obtain ⟨hcount, hlow⟩ := h.count_step x
  refine ⟨hcount, one_le_two.trans hlow, fun hsquares => ?_⟩
  rw [step_squares] at hsquares ⊢
  obtain ⟨hbefore, hterm⟩ := isFinite_of_add hsquares
  exact ((add_roundsTo hbefore hterm).nearest hsquares).ge representable_zero
    (add_nonneg (h.squares hbefore) (h.term_nonneg x hterm))

theorem Sound.run (h : p.Sound) (xs : List Float) : (xs.foldl Pass.step p).Sound := by
  induction xs generalizing p with
  | nil => exact h
  | cons x rest ih => exact ih (h.step x)

theorem sound_begin (x : Float) : Sound ⟨Number.ofNat 1, x, Number.ofNat 0⟩ := by
  refine ⟨⟨one_exact.1, ?_⟩, one_exact.2.ge, fun _ => zero_finite.2.ge⟩
  rw [one_exact.2, abs_one]
  exact one_le_zpow₀ one_le_two (by norm_num)

/-- What the pass keeps over values of at most `2^400`: sums that are far below the greatest double. -/
structure Bounded (p : Pass) : Prop where
  sound : p.Sound
  sum : Within 454 p.sum
  squares : Within 964 p.squares

theorem bounded_begin {x : Float} (h : Within 400 x) : Bounded ⟨Number.ofNat 1, x, Number.ofNat 0⟩ :=
  ⟨sound_begin x, h.mono (by norm_num), .of_zero zero_finite⟩

theorem Bounded.sum_step (h : p.Bounded) {x : Float} (hx : Within 400 x) : Within 454 (p.step x).sum :=
  h.sum.add hx (by norm_num) (by norm_num)

theorem Bounded.gap (h : p.Bounded) {x : Float} (hx : Within 400 x) : Within 455 (p.gap x) := by
  obtain ⟨hcount, -⟩ := h.sound.count_step x
  exact (hcount.mul hx (by norm_num) (by norm_num)).sub (h.sum_step hx) (by norm_num) (by norm_num)

theorem Bounded.step (h : p.Bounded) {x : Float} (hx : Within 400 x) : (p.step x).Bounded := by
  have hgap := h.gap hx
  have hterm : Within 910 (p.term x) :=
    (hgap.mul hgap (by norm_num) (by norm_num)).div (h.sound.divisor_atLeast x) (by norm_num)
      (by norm_num)
  exact ⟨h.sound.step x, h.sum_step hx, h.squares.add hterm (by norm_num) (by norm_num)⟩

theorem Bounded.run (h : p.Bounded) {xs : List Float} (hxs : ∀ x ∈ xs, Within 400 x) :
    (xs.foldl Pass.step p).Bounded := by
  induction xs generalizing p with
  | nil => exact h
  | cons x rest ih =>
    exact ih (h.step (hxs x List.mem_cons_self)) fun y hy => hxs y (List.mem_cons_of_mem x hy)

end Pass

/-- After two values or more the pass has counted to two at least. -/
theorem pass_sound {values : List Float} (h : 2 ≤ values.length) :
    (pass values).Sound ∧ 2 ≤ value (pass values).count := by
  obtain ⟨x, rest, rfl⟩ : ∃ x rest, values = x :: rest := by
    cases values with
    | nil => cases h
    | cons x rest => exact ⟨x, rest, rfl⟩
  rcases List.eq_nil_or_concat rest with rfl | ⟨before, last, rfl⟩
  · cases Nat.le_of_succ_le_succ h
  · rw [pass, List.concat_eq_append, List.foldl_append]
    have hbefore := (Pass.sound_begin x).run before
    exact ⟨hbefore.step last, (hbefore.count_step last).2⟩

/-- Of values of at most `2^400` the sum of squares is finite. -/
theorem pass_squares_isFinite {values : List Float} (h : ∀ v ∈ values, Within 400 v) :
    (pass values).squares.isFinite = true := by
  cases values with
  | nil => exact zero_finite.1
  | cons x rest =>
    have hbegin := Pass.bounded_begin (h x List.mem_cons_self)
    exact (hbegin.run fun y hy => h y (List.mem_cons_of_mem x hy)).squares.finite

/-! ## The deviation -/

theorem rawDeviation_eq {values : List Float} (h : 2 ≤ values.length) : rawDeviation values =
    some ((pass values).squares / ((pass values).count - Number.ofNat 1)).sqrt := by
  cases values with
  | nil => cases h
  | cons x rest =>
    cases rest with
    | nil => cases Nat.le_of_succ_le_succ h
    | cons y more => rfl

/-- A root of a finite number that is not negative is finite. -/
theorem sqrt_isFinite {z : Float} (hz : z.isFinite = true) (hnonneg : 0 ≤ value z) :
    z.sqrt.isFinite = true := by
  have hroot : |√(value z)| ≤ 2 ^ (512 : ℤ) := by
    rw [abs_of_nonneg (Real.sqrt_nonneg _), Real.sqrt_le_left (zpow_pos two_pos _).le, ← zpow_natCast,
      ← zpow_mul]
    exact (le_abs_self _).trans (abs_value_lt z).le
  exact (Within.of_roundsTo (sqrt_roundsTo hz hnonneg) (by norm_num) (by norm_num) hroot).finite

/-- **When there is a deviation**: for two values or more whose sum of squares is finite. -/
theorem deviation_isSome_iff (values : List Float) : (deviation values).isSome = true ↔
    2 ≤ values.length ∧ (pass values).squares.isFinite = true := by
  by_cases hlength : 2 ≤ values.length
  · obtain ⟨hsound, htwo⟩ := pass_sound hlength
    have hdivisor := Pass.sub_one_atLeast hsound.count.finite htwo
    rw [deviation, rawDeviation_eq hlength, Option.isSome_filter, Option.any_some,
      and_iff_right hlength]
    constructor
    · intro hroot
      exact isFinite_of_div (isFinite_of_sqrt hroot)
    · intro hsquares
      have hquotient := (isFinite_div_iff hdivisor).mpr hsquares
      have hnonneg := hdivisor.div_atLeast_zero one_pos hsquares (hsound.squares hsquares)
      exact sqrt_isFinite hquotient (hnonneg.le hquotient)
  · have hnone : rawDeviation values = none := by
      cases values with
      | nil => rfl
      | cons x rest =>
        cases rest with
        | nil => rfl
        | cons y more => exact absurd (Nat.le_add_left 2 _) hlength
    rw [deviation, hnone]
    exact iff_of_false Bool.false_ne_true fun h => hlength h.1

end Numeric

/-! ## Figures as they are written -/

namespace Number

/-- A double is finite unless its exponent field is full. -/
theorem isFinite_iff_field (x : Float) :
    x.isFinite = true ↔ x.toBits.toNat / 2 ^ 52 % 2 ^ 11 ≠ 2047 := by
  have hfield : (@UnpackedFloat.unpackExponent .binary64 x.toBits.toBitVec).toNat =
      x.toBits.toNat / 2 ^ 52 % 2 ^ 11 := by
    show (BitVec.extractLsb 62 52 x.toBits.toBitVec).toNat = _
    rw [BitVec.extractLsb_toNat, Nat.shiftRight_eq_div_pow]
    rfl
  have hfull : @UnpackedFloat.unpackExponent .binary64 x.toBits.toBitVec = -1#11 ↔
      x.toBits.toNat / 2 ^ 52 % 2 ^ 11 = 2047 := by
    rw [← hfield]
    exact BitVec.toNat_inj.symm
  rw [ne_eq, ← hfull]
  exact isFinite_unpack_iff x.toBits.toBitVec

theorem decode_finite_iff (x : Float) :
    (∃ negative m e, decode x = .finite negative m e) ↔ x.isFinite = true := by
  have hfull : (x.toBits.toNat / Nat.pow 2 52 % Nat.pow 2 11 == 2047) = true ↔
      x.toBits.toNat / 2 ^ 52 % 2 ^ 11 = 2047 := beq_iff_eq
  rw [isFinite_iff_field, ne_eq, ← hfull, decode]
  split
  · rename_i h
    refine iff_of_false ?_ (not_not_intro h)
    split <;> exact nofun
  · rename_i h
    refine iff_of_true ?_ h
    split <;> exact ⟨_, _, _, rfl⟩

end Number

namespace Json

/-- The text of a decimal number has a point or an exponent. -/
theorem mem_digitsText (d : Number.Digits) : '.' ∈ digitsText d ∨ 'e' ∈ digitsText d := by
  rw [digitsText]
  split
  · rename_i hpoint
    split
    · simp
    · rename_i hlong
      rw [Number.Digits.plain, if_neg (by omega), if_neg hlong]
      simp
  · split
    · rename_i hpoint
      rw [Number.Digits.plain, if_pos hpoint.2]
      simp
    · simp

/-- A double that is finite is written as a number, any other as `null`. -/
theorem floatText_eq_null_iff (x : Float) : floatText x = "null" ↔ x.isFinite = false := by
  rw [← Bool.not_eq_true, ← Number.decode_finite_iff, floatText]
  split
  · rename_i negative m e hdecode
    refine iff_of_false (fun htext => ?_) (not_not_intro ⟨negative, m, e, hdecode⟩)
    have hbody : ∀ c, c ∈ (if m = 0 then ['0', '.', '0'] else digitsText (Number.shortest m e)) →
        c ∈ "null".toList := by
      intro c hc
      rw [← htext, String.toList_ofList]
      split
      · exact List.mem_cons_of_mem _ hc
      · exact hc
    have hmark : '.' ∈ "null".toList ∨ 'e' ∈ "null".toList := by
      refine Or.imp (hbody _) (hbody _) ?_
      split
      · exact Or.inl (by decide)
      · exact mem_digitsText _
    revert hmark
    decide
  · rename_i h
    exact iff_of_true rfl fun ⟨negative, m, e, hdecode⟩ => h negative m e hdecode

end Json
/-- A figure that is present and finite. -/
def Shown (figure : Option Float) : Prop := ∃ x, figure = some x ∧ x.isFinite = true

theorem not_shown_none : ¬ Shown none := by
  rintro ⟨x, hx, -⟩
  cases hx

/-- What is shown is written as a number, and all else as `null`. -/
theorem number?_eq_null_iff (figure : Option Float) :
    (Json.number? figure).compact = "null" ↔ ¬ Shown figure := by
  cases figure with
  | none => exact iff_of_true rfl not_shown_none
  | some x =>
    have hcompact : (Json.number? (some x)).compact = Json.floatText x := rfl
    rw [hcompact, Json.floatText_eq_null_iff, ← Bool.not_eq_true, not_iff_not]
    exact ⟨fun h => ⟨x, rfl, h⟩, fun ⟨_, rfl, h⟩ => h⟩

theorem shown_iff_isSome {figure : Option Float} (h : ∀ x, figure = some x → x.isFinite = true) :
    Shown figure ↔ figure.isSome = true := by
  rw [Option.isSome_iff_exists]
  exact ⟨fun ⟨x, hx, _⟩ => ⟨x, hx⟩, fun ⟨x, hx⟩ => ⟨x, hx, h x hx⟩⟩

theorem medianOf_shown_iff {xs : List Float} (hne : xs ≠ []) (h : ∀ x ∈ xs, x.isFinite = true) :
    Shown (Numeric.medianOf xs) ↔ MiddleSumFinite xs := by
  have hpos : 0 < xs.length := List.length_pos_iff.mpr hne
  rw [Numeric.medianOf]
  by_cases hodd : xs.length % 2 = 1
  · rw [if_pos hodd, List.getElem?_eq_getElem (by omega)]
    exact iff_of_true ⟨_, rfl, h _ (List.getElem_mem _)⟩ fun _ _ heven => by omega
  · have htwo : AtLeast 1 (Number.ofNat 2) := Or.inl ⟨two_finite.1, by rw [two_finite.2]; norm_num⟩
    rw [if_neg hodd, MiddleSumFinite, List.getElem?_eq_getElem (by omega),
      List.getElem?_eq_getElem (by omega)]
    constructor
    · rintro ⟨_, hmedian, hfinite⟩ a b _ ha hb
      cases hmedian
      cases ha
      cases hb
      exact (Numeric.isFinite_div_iff htwo).mp hfinite
    · intro hmiddle
      exact ⟨_, rfl, (Numeric.isFinite_div_iff htwo).mpr (hmiddle _ _ (by omega) rfl rfl)⟩

variable {cells : List (Option Float)}

theorem describe_mean_shown_iff (column : String) (cells : List (Option Float)) :
    Shown (describe column cells).mean ↔
      1 ≤ (describe column cells).count ∧ (Numeric.sum (present cells)).isFinite = true := by
  have hcount : (describe column cells).count = (present cells).length := rfl
  rw [hcount, describe]
  rcases eq_or_ne (present cells) [] with hnil | hne
  · rw [hnil]
    exact iff_of_false not_shown_none fun h => Nat.not_succ_le_zero 0 h.1
  · have hpos : 1 ≤ (present cells).length := List.length_pos_iff.mpr hne
    have hmean : (present cells).isEmpty = false := List.isEmpty_eq_false_iff.mpr hne
    rw [and_iff_right hpos, ← Numeric.mean_isFinite_iff hne, hmean]
    constructor
    · rintro ⟨x, hx, h⟩
      cases hx
      exact h
    · exact fun h => ⟨_, rfl, h⟩

theorem describe_median_shown_iff (column : String)
    (h : ∀ x ∈ present cells, x.isFinite = true) :
    Shown (describe column cells).median ↔
      1 ≤ (describe column cells).count ∧ MiddleSumFinite (Numeric.sorted (present cells)) := by
  have hcount : (describe column cells).count = (Numeric.sorted (present cells)).length :=
    (Numeric.length_sorted _).symm
  have hsorted : ∀ x ∈ Numeric.sorted (present cells), x.isFinite = true :=
    fun x hx => h x ((sorted_perm h).mem_iff.mp hx)
  rw [hcount, describe]
  rcases eq_or_ne (Numeric.sorted (present cells)) [] with hnil | hne
  · rw [hnil]
    exact iff_of_false not_shown_none fun h => Nat.not_succ_le_zero 0 h.1
  · have hpos : 1 ≤ (Numeric.sorted (present cells)).length := List.length_pos_iff.mpr hne
    rw [and_iff_right hpos, ← medianOf_shown_iff hne hsorted]

/-- Values of at most `2^400` are far from where sums and squares become infinite. -/
theorem middleSumFinite_of_within {xs : List Float} (h : ∀ x ∈ xs, Within 400 x) :
    MiddleSumFinite xs := by
  intro a b _ ha hb
  have ha' : Within (400 + 54) a := (h a (List.mem_of_getElem? ha)).mono (by norm_num)
  exact (ha'.add (h b (List.mem_of_getElem? hb)) (by norm_num) (by norm_num)).finite

/-- **Which figures are shown.** Of finite values, least and greatest are shown exactly if there is a
value. The mean is, exactly if there is a value and the running sum is finite; the median, if there is a
value and the two middle ones have a finite sum; the deviation, if there are two values and the sum of
squares is finite. Of values of at most `2^400` these sums are finite. What is shown is written as a
number, and what is not as `null`. -/
theorem describe_shown_iff (column : String) (h : ∀ x ∈ present cells, x.isFinite = true) :
    let p := describe column cells
    (Shown p.least ↔ 1 ≤ p.count) ∧ (Shown p.greatest ↔ 1 ≤ p.count) ∧
      (Shown p.mean ↔ 1 ≤ p.count ∧ (Numeric.sum (present cells)).isFinite = true) ∧
      (Shown p.median ↔ 1 ≤ p.count ∧ MiddleSumFinite (Numeric.sorted (present cells))) ∧
      (p.deviation.isSome = true ↔
        2 ≤ p.count ∧ (Numeric.pass (present cells)).squares.isFinite = true) ∧
      (Shown p.deviation ↔ p.deviation.isSome = true) ∧
      ((∀ x ∈ present cells, |value x| ≤ 2 ^ (400 : ℤ)) →
        (Shown p.mean ↔ 1 ≤ p.count) ∧ (Shown p.median ↔ 1 ≤ p.count) ∧
          (p.deviation.isSome = true ↔ 2 ≤ p.count)) ∧
      ∀ figure ∈ [p.mean, p.median, p.deviation, p.least, p.greatest],
        ((Json.number? figure).compact ≠ "null" ↔ Shown figure) := by
  intro p
  have hsorted : ∀ x ∈ Numeric.sorted (present cells), x ∈ present cells :=
    fun x hx => (sorted_perm h).mem_iff.mp hx
  obtain ⟨-, -, hleast, hgreatest⟩ := describe_isSome column cells
  have hmean := describe_mean_shown_iff column cells
  have hmedian := describe_median_shown_iff column h
  have hdeviation := Numeric.deviation_isSome_iff (present cells)
  refine ⟨?_, ?_, hmean, hmedian, hdeviation, ?_, fun hbound => ?_, fun figure _ => ?_⟩
  · exact (shown_iff_isSome fun x hx => h x (hsorted x (List.mem_of_head? hx))).trans hleast
  · exact (shown_iff_isSome fun x hx => h x (hsorted x (List.mem_of_getLast? hx))).trans hgreatest
  · exact shown_iff_isSome fun x hx => (Option.filter_eq_some_iff.mp hx).2
  · have hwithin : ∀ x ∈ present cells, Within 400 x := fun x hx => ⟨h x hx, hbound x hx⟩
    have hsum := (Numeric.sum_within (by norm_num) (by norm_num) hwithin).finite
    have hmiddle := middleSumFinite_of_within fun x hx => hwithin x (hsorted x hx)
    rw [and_iff_left hsum] at hmean
    rw [and_iff_left hmiddle] at hmedian
    rw [and_iff_left (Numeric.pass_squares_isFinite hwithin)] at hdeviation
    exact ⟨hmean, hmedian, hdeviation⟩
  · rw [ne_eq, number?_eq_null_iff, not_not]

theorem describe_shown_iff_two :
    let p := describe "n" [some (Number.ofInt 3), none, some (Number.ofInt (-4))]
    p.count = 2 ∧ Shown p.mean ∧ Shown p.median ∧ Shown p.deviation ∧ Shown p.least ∧
      (Json.number? p.mean).compact ≠ "null" := by
  intro p
  have hfinite : ∀ x ∈ present [some (Number.ofInt 3), none, some (Number.ofInt (-4))],
      x.isFinite = true := by decide +kernel
  have hbound : ∀ x ∈ present [some (Number.ofInt 3), none, some (Number.ofInt (-4))],
      |value x| ≤ 2 ^ (400 : ℤ) := by
    have hsmall {n : ℤ} (hn : |n| ≤ 2 ^ 53) : |value (Number.ofInt n)| ≤ 2 ^ (400 : ℤ) := by
      rw [(Number.ofInt_exact hn).2]
      calc |(n : ℝ)| ≤ 2 ^ (53 : ℤ) := by exact_mod_cast hn
        _ ≤ 2 ^ (400 : ℤ) := zpow_le_zpow_right₀ one_le_two (by norm_num)
    intro x hx
    rcases List.mem_pair.mp hx with rfl | rfl
    · exact hsmall (by decide)
    · exact hsmall (by decide)
  obtain ⟨hleast, -, -, -, -, hdeviation, hmoderate, htext⟩ := describe_shown_iff "n" hfinite
  obtain ⟨hmean, hmedian, hpresent⟩ := hmoderate hbound
  have hcount : p.count = 2 := rfl
  have hshown : Shown p.mean := hmean.mpr (by rw [hcount]; decide)
  exact ⟨hcount, hshown, hmedian.mpr (by rw [hcount]; decide),
    hdeviation.mpr (hpresent.mpr (by rw [hcount])), hleast.mpr (by rw [hcount]; decide),
    (htext _ List.mem_cons_self).mpr hshown⟩

/-- Two values whose sum is too large: no mean and no median is shown, and there is no deviation. -/
theorem figures_of_large_values :
    let x := Number.nearest false (17 * Nat.pow 10 307) 1
    let p := describe "a" [some x, some x]
    x.isFinite = true ∧ p.count = 2 ∧ ¬ Shown p.mean ∧ ¬ Shown p.median ∧ p.deviation = none ∧
      (Json.number? p.mean).compact = "null" := by
  intro x p
  have hsorted : Numeric.sorted [x, x] = [x, x] := by
    rw [Numeric.sorted, if_neg (by decide +kernel)]
    exact List.mergeSort_of_pairwise (by decide +kernel)
  have hmean : ¬ Shown p.mean := by
    rw [describe_mean_shown_iff]
    exact fun h => absurd h.2 (by decide +kernel)
  have hmedian : ¬ Shown p.median := by
    have hinfinite : Numeric.medianOf [x, x] = some (Number.infinity false) := by decide +kernel
    rintro ⟨y, hy, hfinite⟩
    obtain rfl : Number.infinity false = y := by
      rw [← Option.some.injEq, ← hinfinite, ← hsorted]
      exact hy
    exact absurd hfinite (by decide +kernel)
  exact ⟨by decide +kernel, rfl, hmean, hmedian, by decide +kernel, (number?_eq_null_iff _).mpr hmean⟩

end TableProfile
