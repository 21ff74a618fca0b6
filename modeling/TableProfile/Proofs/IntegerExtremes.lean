import TableProfile.Proofs.DoubleEquality
import TableProfile.Proofs.OrderStatistics

/-!
# The extremes of integer columns

The cells of an integer column are converted to doubles before they are put in order. Conversion keeps the
order, though not strictly: integers beyond 53 bits may become the same double. So the first of the sorted
values is what the least integer is converted to, and the last one what the greatest is converted to. As a
number such a figure is the extreme of the column exactly if the extreme is a double itself; otherwise
rounding moves it past the integer, or off the values of the column.

Results:
* `ofInt_mono`: conversion keeps the order.
* `ofInt_eq_of_le`: an integer that is not greater after conversion becomes the same double.
* `describe_tellsExtremes`: least and greatest value of a profile, from the integers of the column.
* `integer_extremes`: so it is for every integer column of a table that has a summary.
-/
namespace TableProfile

open Double

/-! ## Conversion and order -/

/-- Conversion keeps the order of integers. -/
theorem ofInt_mono {m n : ℤ} (hm : (Number.ofInt m).isFinite = true)
    (hn : (Number.ofInt n).isFinite = true) (h : m ≤ n) :
    value (Number.ofInt m) ≤ value (Number.ofInt n) := by
  rcases h.lt_or_eq with hlt | rfl
  · exact ((Number.ofInt_roundsTo m).nearest hm).mono ((Number.ofInt_roundsTo n).nearest hn)
      (by exact_mod_cast hlt)
  · exact le_rfl

/-- Only zero is converted to a zero. -/
theorem eq_zero_of_value_ofInt {n : ℤ} (hn : (Number.ofInt n).isFinite = true)
    (h : value (Number.ofInt n) = 0) : n = 0 := by
  by_contra hne
  have hone : (1 : ℝ) ≤ |(n : ℝ)| := by exact_mod_cast Int.one_le_abs hne
  have hle := ((Number.ofInt_roundsTo n).nearest hn).le_abs representable_one hone
  rw [h, abs_zero] at hle
  exact absurd hle one_pos.not_ge

/-- An integer that is not greater after conversion is converted to the same double. -/
theorem ofInt_eq_of_le {m n : ℤ} (hm : (Number.ofInt m).isFinite = true)
    (hn : (Number.ofInt n).isFinite = true) (h : m ≤ n) (hle : Number.ofInt n ≤ Number.ofInt m) :
    Number.ofInt m = Number.ofInt n := by
  have hsame : SameNumber (Number.ofInt m) (Number.ofInt n) :=
    ⟨hm, hn, le_antisymm (ofInt_mono hm hn h) ((le_iff_value hn hm).mp hle)⟩
  rcases hsame.eq_or_zero with heq | ⟨hmzero, hnzero⟩
  · exact heq
  · rw [eq_zero_of_value_ofInt hm hmzero, eq_zero_of_value_ofInt hn hnzero]

/-- Integers of at most 32 bits have no more than 53. -/
theorem abs_le_of_holds {t : IntType} {n : ℤ} (h : t.holds n = true) (hbytes : t.bytes ≤ 4) :
    |n| ≤ 2 ^ 53 := by
  have hpow (k : ℕ) : Nat.pow 2 k = 2 ^ k := rfl
  cases t <;> simp only [IntType.holds, IntType.signed, IntType.bytes, hpow, if_true,
    Bool.false_eq_true, if_false, Bool.and_eq_true, decide_eq_true_eq] at h hbytes <;>
    rw [abs_le] <;> omega

/-! ## The figures of a profile -/

/-- The integers of a column. -/
def integers (cells : List (Option ℤ)) : Set ℤ := {n | some n ∈ cells}

/-- `x` is what the integer `n` is converted to: a double that no other one is nearer to `n` than. -/
structure ConvertedFrom (n : ℤ) (x : Float) : Prop where
  converted : x = Number.ofInt n
  finite : x.isFinite = true
  nearest : Nearest n (value x)

/-- What least and greatest value of a profile are among the integers of a column. -/
structure NumericProfile.TellsExtremes (p : NumericProfile) (cells : List (Option ℤ)) : Prop where
  least : ∃ n x, IsLeast (integers cells) n ∧ p.least = some x ∧ ConvertedFrom n x ∧
    (IsLeast (((↑) : ℤ → ℝ) '' integers cells) (value x) ↔ Representable n)
  greatest : ∃ n x, IsGreatest (integers cells) n ∧ p.greatest = some x ∧ ConvertedFrom n x ∧
    (IsGreatest (((↑) : ℤ → ℝ) '' integers cells) (value x) ↔ Representable n)

/-- The numbers of an integer column are what its integers are converted to. -/
theorem mem_present_ofInt {cells : List (Option ℤ)} {x : Float} :
    x ∈ present (cells.map (·.map Number.ofInt)) ↔ ∃ n ∈ integers cells, Number.ofInt n = x := by
  rw [present, List.mem_filterMap]
  constructor
  · rintro ⟨cell, hcell, rfl⟩
    obtain ⟨original, horiginal, hx⟩ := List.mem_map.mp hcell
    obtain ⟨n, rfl, hn⟩ := Option.map_eq_some_iff.mp hx
    exact ⟨n, horiginal, hn⟩
  · rintro ⟨n, hn, rfl⟩
    exact ⟨some (Number.ofInt n), List.mem_map.mpr ⟨some n, hn, rfl⟩, rfl⟩

theorem convertedFrom_ofInt {n : ℤ} (h : (Number.ofInt n).isFinite = true) :
    ConvertedFrom n (Number.ofInt n) :=
  ⟨rfl, h, (Number.ofInt_roundsTo n).nearest h⟩

/-- The figure is the integer if the integer is a double. -/
theorem ConvertedFrom.value_eq_iff {n : ℤ} {x : Float} (h : ConvertedFrom n x) :
    (n : ℝ) = value x ↔ Representable n := by
  constructor
  · intro hvalue
    rw [hvalue]
    exact representable_value h.finite
  · intro hrepresentable
    exact (h.nearest.eq_self hrepresentable).symm

/-- A column with an integer has a least and a greatest one. -/
theorem exists_extremes {t : IntType} {cells : List (Option ℤ)} (hheld : (Cells.int t cells).Held)
    (hne : ∃ n, n ∈ integers cells) :
    (∃ least, IsLeast (integers cells) least) ∧ ∃ greatest, IsGreatest (integers cells) greatest := by
  have hbound (m : ℤ) (hm : m ∈ integers cells) : m.natAbs ≤ 2 ^ 64 :=
    natAbs_le_of_holds (hheld (some m) hm)
  constructor
  · obtain ⟨least, hmem, hle⟩ := Int.exists_least_of_bdd (P := (· ∈ integers cells))
      ⟨-2 ^ 64, fun m hm => by have := hbound m hm; omega⟩ hne
    exact ⟨least, hmem, hle⟩
  · obtain ⟨greatest, hmem, hle⟩ := Int.exists_greatest_of_bdd (P := (· ∈ integers cells))
      ⟨2 ^ 64, fun m hm => by have := hbound m hm; omega⟩ hne
    exact ⟨greatest, hmem, hle⟩

/-- Least and greatest value of a profile, from the integers of a column. -/
theorem describe_tellsExtremes (column : String) {t : IntType} {cells : List (Option ℤ)}
    (hheld : (Cells.int t cells).Held) (hne : ∃ n, n ∈ integers cells) :
    (describe column (cells.map (·.map Number.ofInt))).TellsExtremes cells := by
  have hfinite (n : ℤ) (hn : n ∈ integers cells) : (Number.ofInt n).isFinite = true :=
    ofInt_finite (hheld (some n) hn)
  have hmem (n : ℤ) (hn : n ∈ integers cells) :
      Number.ofInt n ∈ present (cells.map (·.map Number.ofInt)) := mem_present_ofInt.mpr ⟨n, hn, rfl⟩
  obtain ⟨⟨least, hleast⟩, ⟨greatest, hgreatest⟩⟩ := exists_extremes hheld hne
  have hpresent : present (cells.map (·.map Number.ofInt)) ≠ [] :=
    List.ne_nil_of_mem (hmem least hleast.1)
  have hsorts := sorts_sorted (numbers_finite hheld rfl)
  constructor
  · obtain ⟨x, hx, hhead, hle⟩ := hsorts.head hpresent
    obtain ⟨m, hm, rfl⟩ := mem_present_ofInt.mp hx
    have heq : Number.ofInt least = Number.ofInt m :=
      ofInt_eq_of_le (hfinite _ hleast.1) (hfinite m hm) (hleast.2 hm) (hle _ (hmem _ hleast.1))
    have hconverted := convertedFrom_ofInt (hfinite _ hleast.1)
    refine ⟨least, _, hleast, hhead.trans (congrArg some heq.symm), hconverted, ?_⟩
    exact (Int.cast_mono.map_isLeast hleast).isLeast_iff_eq.trans hconverted.value_eq_iff
  · obtain ⟨x, hx, hlast, hle⟩ := hsorts.last hpresent
    obtain ⟨m, hm, rfl⟩ := mem_present_ofInt.mp hx
    have heq : Number.ofInt m = Number.ofInt greatest :=
      ofInt_eq_of_le (hfinite m hm) (hfinite _ hgreatest.1) (hgreatest.2 hm)
        (hle _ (hmem _ hgreatest.1))
    have hconverted := convertedFrom_ofInt (hfinite _ hgreatest.1)
    refine ⟨greatest, _, hgreatest, hlast.trans (congrArg some heq), hconverted, ?_⟩
    exact (Int.cast_mono.map_isGreatest hgreatest).isGreatest_iff_eq.trans hconverted.value_eq_iff

/-- **The extremes of integer columns.** In a table that has a summary, least and greatest value of an
integer column with an integer are what its least and its greatest integer are converted to, finite
doubles that no other is nearer to the integer than. As a number the figure is an integer of the column
that bounds all of them exactly if the extreme is a double, as every integer of at most 53 bits is, and so
every one of a type of at most 32 bits. That integers are of the type of their column holds of every
dataset that is loaded (`loadFile_held`). -/
theorem integer_extremes {d : Dataset} {s : Summary} (h : summarize d = .ok s) {i : ℕ} {c : Column}
    (hc : d.columns[i]? = some c) {t : IntType} {cells : List (Option ℤ)} (hcells : c.cells = .int t cells)
    (hheld : c.cells.Held) (hne : ∃ n, n ∈ integers cells) :
    (∃ p, s.columns[i]? = some (.numeric p) ∧ p.column = c.name ∧ p.TellsExtremes cells) ∧
      ∀ n ∈ integers cells, t.bytes ≤ 4 ∨ |n| ≤ 2 ^ 53 → Representable n := by
  have hnumbers : c.cells.numbers = some (cells.map (·.map Number.ofInt)) := by
    rw [hcells]
    rfl
  rw [hcells] at hheld
  constructor
  · exact ⟨_, numeric_profile_at h hc hnumbers, rfl, describe_tellsExtremes c.name hheld hne⟩
  · rintro n hn (hbytes | hbits)
    · exact representable_int (abs_le_of_holds (hheld (some n) hn) hbytes)
    · exact representable_int hbits

theorem integer_extremes_three :
    let d : Dataset := ⟨"t.csv", none, [⟨"n", .int .i32 [some 5, none, some (-7)]⟩], [3]⟩
    ∃ s p x y, summarize d = .ok s ∧ s.columns[0]? = some (.numeric p) ∧ p.least = some x ∧
      p.greatest = some y ∧ value x = -7 ∧ value y = 5 := by
  intro d
  let c : Column := ⟨"n", .int .i32 [some 5, none, some (-7)]⟩
  let cells : List (Option ℤ) := [some 5, none, some (-7)]
  obtain ⟨s, hs⟩ : ∃ s, summarize d = .ok s := ⟨_, rfl⟩
  have hheld : c.cells.Held := by
    show ∀ cell ∈ [some 5, none, some (-7)], cell.all IntType.i32.holds = true
    decide
  have hmem {n : ℤ} : n ∈ integers cells ↔ n = 5 ∨ n = -7 := by simp [integers, cells]
  obtain ⟨⟨p, hp, -, hextremes⟩, hexact⟩ :=
    integer_extremes hs (i := 0) (c := c) rfl rfl hheld ⟨5, hmem.mpr (Or.inl rfl)⟩
  obtain ⟨least, x, hleast, hx, hxleast, -⟩ := hextremes.least
  obtain ⟨greatest, y, hgreatest, hy, hygreatest, -⟩ := hextremes.greatest
  have hleast' : least = -7 := hleast.unique ⟨hmem.mpr (Or.inr rfl), fun n hn => by
    rcases hmem.mp hn with rfl | rfl <;> decide⟩
  have hgreatest' : greatest = 5 := hgreatest.unique ⟨hmem.mpr (Or.inl rfl), fun n hn => by
    rcases hmem.mp hn with rfl | rfl <;> decide⟩
  have hxvalue := hxleast.value_eq_iff.mpr (hexact least hleast.1 (Or.inl (by decide)))
  have hyvalue := hygreatest.value_eq_iff.mpr (hexact greatest hgreatest.1 (Or.inl (by decide)))
  refine ⟨s, p, x, y, hs, hp, hx, hy, ?_, ?_⟩
  · rw [← hxvalue, hleast']
    norm_num
  · rw [← hyvalue, hgreatest']
    norm_num

/-- A column of `2^53 + 1` alone: least and greatest value are `2^53`, which is not in the column. -/
theorem integer_extremes_inexact :
    let cells : List (Option ℤ) := [some 9007199254740993]
    let d : Dataset := ⟨"t.csv", none, [⟨"a", .int .i64 cells⟩], [1]⟩
    ∃ s p x, summarize d = .ok s ∧ s.columns[0]? = some (.numeric p) ∧ p.least = some x ∧
      p.greatest = some x ∧ value x = 9007199254740992 ∧
      ¬ IsLeast (((↑) : ℤ → ℝ) '' integers cells) (value x) ∧
      ¬ IsGreatest (((↑) : ℤ → ℝ) '' integers cells) (value x) := by
  intro cells d
  let x := Number.ofInt 9007199254740993
  have hrounded : x = Number.ofInt 9007199254740992 := by decide +kernel
  have hvalue : value x = 9007199254740992 := by
    rw [hrounded, (Number.ofInt_exact (by norm_num)).2]
    norm_num
  have hsorted : Numeric.sorted [x] = [x] := by
    rw [Numeric.sorted, if_neg (by decide +kernel)]
    exact List.mergeSort_of_pairwise (List.pairwise_singleton _ _)
  have hnot : value x ∉ ((↑) : ℤ → ℝ) '' integers cells := by
    rintro ⟨n, hn, heq⟩
    obtain rfl : n = 9007199254740993 := by simpa [integers, cells] using hn
    rw [hvalue] at heq
    norm_num at heq
  refine ⟨_, describe "a" [some x], x, rfl, rfl, ?_, ?_, hvalue, fun h => hnot h.1, fun h => hnot h.1⟩
  · show (Numeric.sorted [x]).head? = some x
    rw [hsorted]
    rfl
  · show (Numeric.sorted [x]).getLast? = some x
    rw [hsorted]
    rfl

end TableProfile
