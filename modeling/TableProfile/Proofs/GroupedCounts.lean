import Mathlib.Data.List.Basic
import Mathlib.Logic.Function.Basic
import TableProfile.Number.Fixed

/-!
# Counts in groups of three

A count is written from its last digit on, three digits at a time. Read from the left, a comma stands before
each digit, but the first, from which a multiple of three digits is left (`writeFrom`). So the number of digits
behind a digit tells whether the group that begins behind it is full. If it is, a comma stands between them and
the digit begins a group of its own; otherwise the digit belongs to that group, which has room for it.

A text is its groups with commas between them. Their sizes are settled by the number of digits, so a numeral
can be put into groups in one way only.

* `toList_grouped`: from the left, commas stand where a multiple of three digits is left.
* `isNumeral_iff`: a number has one numeral without zeros in front.
* `grouped_eq_iff`: the text of a count is the one text in groups of three whose digits are its numeral.
-/
namespace TableProfile.Number

/-! ## Numerals -/

/-- Characters are the numeral of a number: digits that have its value, with a zero in front only if it
stands alone. -/
structure IsNumeral (cs : List Char) (n : ℕ) : Prop where
  ne_nil : cs ≠ []
  digits : ∀ c ∈ cs, c.isDigit = true
  value : Nat.ofDigitChars 10 cs 0 = n
  lead : cs.head? = some '0' → cs = ['0']

theorem toDigits_of_isDigit {c : Char} (h : c.isDigit = true) : Nat.toDigits 10 (c.toNat - 48) = [c] := by
  have hbounds : 48 ≤ c.toNat ∧ c.toNat ≤ 57 := Char.isDigit_iff_toNat.mp h
  have hchar : (c.toNat - 48).digitChar = c := by
    refine Char.toNat_inj.mp ?_
    rw [Nat.toNat_digitChar_of_lt_ten (by omega)]
    omega
  rw [Nat.toDigits_of_lt_base (by omega), hchar]

/-- Digits behind the numeral of a number that is not zero make a numeral again. -/
theorem toDigits_append {n : ℕ} (hn : 0 < n) {cs : List Char} (h : ∀ c ∈ cs, c.isDigit = true) :
    Nat.toDigits 10 n ++ cs = Nat.toDigits 10 (Nat.ofDigitChars 10 cs n) := by
  induction cs generalizing n with
  | nil => rw [List.append_nil, Nat.ofDigitChars_nil]
  | cons c cs ih =>
    have hc := h c List.mem_cons_self
    have hbounds : 48 ≤ c.toNat ∧ c.toNat ≤ 57 := Char.isDigit_iff_toNat.mp hc
    have hfirst : Nat.toDigits 10 n ++ [c] = Nat.toDigits 10 (10 * n + (c.toNat - 48)) := by
      rw [← toDigits_of_isDigit hc, Nat.toDigits_append_toDigits (by decide) hn (by omega)]
    have hrest := ih (n := 10 * n + (c.toNat - 48)) (by omega)
      fun d hd => h d (List.mem_cons_of_mem _ hd)
    rw [← hfirst, List.append_assoc, List.singleton_append] at hrest
    exact hrest

/-- Only zero has a numeral with a zero in front. -/
theorem eq_zero_of_head_toDigits {n : ℕ} (h : (Nat.toDigits 10 n).head? = some '0') : n = 0 := by
  induction n using Nat.strongRecOn with
  | ind n ih =>
    by_cases hn : n < 10
    · rw [Nat.toDigits_of_lt_base hn] at h
      exact Nat.digitChar_eq_zero.mp (Option.some.inj h)
    · rw [Nat.toDigits_of_base_le (by decide) (by omega),
        List.head?_append_of_ne_nil _ Nat.toDigits_ne_nil] at h
      have hfront := ih (n / 10) (by omega) h
      omega

/-- **Numerals.** A number has one numeral without zeros in front. -/
theorem isNumeral_iff {cs : List Char} {n : ℕ} : IsNumeral cs n ↔ cs = Nat.toDigits 10 n := by
  constructor
  · rintro ⟨hne, hdigits, rfl, hlead⟩
    obtain ⟨c, rest, rfl⟩ := List.exists_cons_of_ne_nil hne
    by_cases hzero : c = '0'
    · subst hzero
      rw [hlead rfl]
      rfl
    · have hc := hdigits c List.mem_cons_self
      have hpos : 0 < c.toNat - 48 := by
        have hbounds : 48 ≤ c.toNat ∧ c.toNat ≤ 57 := Char.isDigit_iff_toNat.mp hc
        have hcode : c.toNat ≠ 48 := fun h => hzero (Char.toNat_inj.mp h)
        omega
      have hvalue := toDigits_append hpos fun d hd => hdigits d (List.mem_cons_of_mem _ hd)
      rw [toDigits_of_isDigit hc, List.singleton_append] at hvalue
      rw [Nat.ofDigitChars_cons, Nat.mul_zero, Nat.zero_add]
      exact hvalue
  · rintro rfl
    refine ⟨Nat.toDigits_ne_nil, fun c => Nat.isDigit_of_mem_toDigits (by decide) (by decide),
      Nat.ofDigitChars_ten_toDigits, fun h => ?_⟩
    rw [eq_zero_of_head_toDigits h]
    rfl

/-! ## Groups -/

/-- Three characters in each group but the first, which has one to three. -/
def Threes : List (List Char) → Prop
  | [] => False
  | first :: rest => 1 ≤ first.length ∧ first.length ≤ 3 ∧ ∀ group ∈ rest, group.length = 3

namespace Threes

variable {first : List Char} {rest : List (List Char)}

theorem singleton (c : Char) : Threes [[c]] := ⟨Nat.le_refl 1, Nat.le_add_left 1 2, nofun⟩

/-- In front of a full group a new one begins. -/
theorem cons_full (h : Threes (first :: rest)) (hfull : first.length = 3) (c : Char) :
    Threes ([c] :: first :: rest) :=
  ⟨Nat.le_refl 1, Nat.le_add_left 1 2, List.forall_mem_cons.mpr ⟨hfull, h.2.2⟩⟩

/-- A group that is not full has room for one more. -/
theorem cons_room (h : Threes (first :: rest)) (hroom : first.length ≠ 3) (c : Char) :
    Threes ((c :: first) :: rest) := by
  obtain ⟨-, hle, hrest⟩ := h
  refine ⟨?_, ?_, hrest⟩
  · rw [List.length_cons]
    omega
  · rw [List.length_cons]
    omega

theorem map_length (h : Threes (first :: rest)) :
    (first :: rest).map List.length = first.length :: List.replicate rest.length 3 := by
  have hrest : rest.map List.length = List.replicate rest.length 3 :=
    List.eq_replicate_iff.mpr ⟨List.length_map _, by simpa using h.2.2⟩
  rw [List.map_cons, hrest]

theorem length_flatten (h : Threes (first :: rest)) :
    (first :: rest).flatten.length = first.length + rest.length * 3 := by
  rw [List.length_flatten, h.map_length, List.sum_cons, List.sum_replicate_nat]

theorem ne_nil_of_mem {gs : List (List Char)} (h : Threes gs) {group : List Char} (hmem : group ∈ gs) :
    group ≠ [] := by
  rintro rfl
  cases gs with
  | nil => exact h.elim
  | cons first rest =>
    rcases List.mem_cons.mp hmem with rfl | hrest
    · exact absurd h.1 (by decide)
    · exact absurd (h.2.2 [] hrest) (by decide)

/-- Groups are determined by what they hold. -/
theorem eq_of_flatten {gs hs : List (List Char)} (hgs : Threes gs) (hhs : Threes hs)
    (h : gs.flatten = hs.flatten) : gs = hs := by
  cases gs with
  | nil => exact hgs.elim
  | cons g gs =>
    cases hs with
    | nil => exact hhs.elim
    | cons k ks =>
      have hlength := congrArg List.length h
      rw [hgs.length_flatten, hhs.length_flatten] at hlength
      have ⟨hg, hg', _⟩ := hgs
      have ⟨hk, hk', _⟩ := hhs
      have hfirst : g.length = k.length := by omega
      have hnumber : gs.length = ks.length := by omega
      refine List.eq_iff_flatten_eq.mpr ⟨h, ?_⟩
      rw [hgs.map_length, hhs.map_length, hfirst, hnumber]

end Threes

/-! ## Writing from the left -/

/-- The digits of a numeral of `total` digits from the place `i` on, as they are written from the left. A comma
stands before a digit, but the first, from which a multiple of three digits is left. -/
def writeFrom (total : ℕ) : ℕ → List Char → List Char
  | _, [] => []
  | i, c :: rest =>
    if 0 < i ∧ (total - i) % 3 = 0 then ',' :: c :: writeFrom total (i + 1) rest
    else c :: writeFrom total (i + 1) rest

theorem writeFrom_append (total i : ℕ) (cs ds : List Char) :
    writeFrom total i (cs ++ ds) = writeFrom total i cs ++ writeFrom total (i + cs.length) ds := by
  induction cs generalizing i with
  | nil => rfl
  | cons c cs ih =>
    have hplace : i + (c :: cs).length = i + 1 + cs.length := by
      rw [List.length_cons]
      omega
    rw [List.cons_append, writeFrom, writeFrom, ih, hplace]
    split <;> rfl

/-- Three digits more at the end of a numeral move no comma. -/
theorem writeFrom_add_three {total i : ℕ} {cs : List Char} (h : i + cs.length ≤ total) :
    writeFrom (total + 3) i cs = writeFrom total i cs := by
  induction cs generalizing i with
  | nil => rfl
  | cons c cs ih =>
    rw [List.length_cons] at h
    have hleft : (total + 3 - i) % 3 = (total - i) % 3 := by omega
    rw [writeFrom, writeFrom, hleft, ih (by omega)]

/-- The last three digits have a comma in front of them. -/
theorem writeFrom_last {i : ℕ} (hi : 0 < i) (a b c : Char) :
    writeFrom (i + 3) i [a, b, c] = [',', a, b, c] := by
  rw [writeFrom, if_pos ⟨hi, by omega⟩, writeFrom, if_neg (by omega), writeFrom, if_neg (by omega), writeFrom]

/-- Digits are written alike from the last one on and from the left. -/
theorem reverse_groupReversed (cs : List Char) :
    (groupReversed cs).reverse = writeFrom cs.length 0 cs.reverse := by
  fun_induction groupReversed cs with
  | case1 a b c d rest ih =>
    have hdigits : (a :: b :: c :: d :: rest).reverse = (d :: rest).reverse ++ [c, b, a] := by simp
    have htotal : (a :: b :: c :: d :: rest).length = (d :: rest).length + 3 := rfl
    have hlength : (d :: rest).reverse.length = (d :: rest).length := List.length_reverse
    have hsome : 0 < (d :: rest).length := Nat.succ_pos _
    rw [hdigits, htotal, writeFrom_append, Nat.zero_add, hlength, writeFrom_last hsome,
      writeFrom_add_three (by rw [hlength]; omega), ← ih]
    simp
  | case2 few hfew =>
    -- no comma stands among fewer than four digits
    match few, hfew with
    | [], _ => rfl
    | [_], _ => rfl
    | [_, _], _ => rfl
    | [_, _, _], _ => rfl
    | a :: b :: c :: d :: rest, hfew => exact (hfew a b c d rest rfl).elim

/-- From the left, commas stand where a multiple of three digits is left. -/
theorem toList_grouped (n : ℕ) :
    (grouped n).toList = writeFrom (Nat.toDigits 10 n).length 0 (Nat.toDigits 10 n) := by
  rw [grouped, String.toList_ofList, reverse_groupReversed, List.length_reverse, List.reverse_reverse]

/-- From any digit on, without the comma that may stand in front of it, digits are written in groups. -/
theorem exists_groups_from {total i : ℕ} (c : Char) (rest : List Char) (h : i + 1 + rest.length = total) :
    ∃ gs, Threes gs ∧ gs.flatten = c :: rest ∧ [','].intercalate gs = c :: writeFrom total (i + 1) rest := by
  induction rest generalizing c i with
  | nil => exact ⟨[[c]], .singleton c, rfl, rfl⟩
  | cons d rest ih =>
    rw [List.length_cons] at h
    obtain ⟨gs, hthrees, hflatten, hwritten⟩ := ih (i := i + 1) d (by omega)
    cases gs with
    | nil => exact hthrees.elim
    | cons first more =>
      have hleft : first.length + more.length * 3 = total - (i + 1) := by
        rw [← hthrees.length_flatten, hflatten, List.length_cons]
        omega
      have ⟨hsome, hle, _⟩ := hthrees
      rw [writeFrom]
      split
      · rename_i hcomma
        have hfull : first.length = 3 := by omega
        refine ⟨[c] :: first :: more, hthrees.cons_full hfull c, ?_, ?_⟩
        · rw [List.flatten_cons, hflatten, List.singleton_append]
        · rw [List.intercalate_cons_cons, hwritten]
          rfl
      · rename_i hnone
        have hroom : first.length ≠ 3 := fun hfull => hnone ⟨by omega, by omega⟩
        refine ⟨(c :: first) :: more, hthrees.cons_room hroom c, ?_, ?_⟩
        · rw [List.flatten_cons, List.cons_append, ← List.flatten_cons, hflatten]
        · rw [List.intercalate_cons_cons_left, hwritten]

/-- A count is written in groups of its digits. -/
theorem exists_groups (n : ℕ) : ∃ gs, Threes gs ∧ gs.flatten = Nat.toDigits 10 n ∧
    (grouped n).toList = [','].intercalate gs := by
  rw [toList_grouped]
  obtain ⟨c, rest, hdigits⟩ := List.exists_cons_of_ne_nil (Nat.toDigits_ne_nil (n := n) (b := 10))
  have htotal : 0 + 1 + rest.length = (c :: rest).length := by
    rw [List.length_cons]
    omega
  obtain ⟨gs, hthrees, hflatten, hwritten⟩ := exists_groups_from c rest htotal
  rw [hdigits]
  refine ⟨gs, hthrees, hflatten, ?_⟩
  rw [hwritten, writeFrom, if_neg (by omega)]

/-! ## Texts in groups -/

/-- A text is a number in groups of three: without its commas it is the numeral of the number, no comma stands
at an end of it, and each piece between its commas has three characters, but the first has one to three. -/
structure IsGrouped (s : String) (n : ℕ) : Prop where
  numeral : IsNumeral (s.toList.filter (· != ',')) n
  head : s.toList.head? ≠ some ','
  last : s.toList.getLast? ≠ some ','
  groups : Threes (s.toList.splitOn ',')

/-- The pieces between separators are what is left without the separators. -/
theorem flatten_splitOn (sep : Char) (cs : List Char) : (cs.splitOn sep).flatten = cs.filter (· != sep) := by
  induction cs with
  | nil => rfl
  | cons c cs ih =>
    obtain ⟨piece, pieces, hpieces⟩ := List.exists_cons_of_ne_nil (List.splitOn_ne_nil sep cs)
    rw [hpieces, List.flatten_cons] at ih
    rw [List.splitOn_cons_eq_if_modifyHead, hpieces]
    by_cases hc : c = sep
    · rw [if_pos (beq_iff_eq.mpr hc), List.flatten_cons, List.nil_append, List.flatten_cons, ih,
        List.filter_cons_of_neg (by simpa using hc)]
    · rw [if_neg (by simpa using hc), List.modifyHead_cons, List.flatten_cons, List.cons_append, ih,
        List.filter_cons_of_pos (by simpa using hc)]

/-- No comma stands at an end of groups. -/
theorem head_last_of_threes {cs : List Char} (h : Threes (cs.splitOn ',')) :
    cs.head? ≠ some ',' ∧ cs.getLast? ≠ some ',' := by
  constructor
  · intro hhead
    obtain ⟨rest, rfl⟩ := List.head?_eq_some_iff.mp hhead
    rw [← List.nil_append (',' :: rest), List.splitOn_append_cons_self] at h
    exact h.ne_nil_of_mem (List.mem_append_left _ List.mem_cons_self) rfl
  · intro hlast
    obtain ⟨front, rfl⟩ := List.getLast?_eq_some_iff.mp hlast
    rw [List.splitOn_append_cons_self] at h
    exact h.ne_nil_of_mem (List.mem_append_right _ List.mem_cons_self) rfl

theorem isGrouped_grouped (n : ℕ) : IsGrouped (grouped n) n := by
  obtain ⟨gs, hthrees, hflatten, hwritten⟩ := exists_groups n
  have hnumeral := isNumeral_iff.mpr hflatten
  have hcomma : ∀ group ∈ gs, ',' ∉ group := by
    intro group hgroup hmem
    exact absurd (hnumeral.digits ',' (List.mem_flatten_of_mem hgroup hmem)) (by decide)
  have hpieces : (grouped n).toList.splitOn ',' = gs := by
    rw [hwritten]
    refine List.splitOn_intercalate ',' hcomma ?_
    rintro rfl
    exact hthrees.elim
  have hgroups : Threes ((grouped n).toList.splitOn ',') := by rwa [hpieces]
  obtain ⟨hhead, hlast⟩ := head_last_of_threes hgroups
  refine ⟨?_, hhead, hlast, hgroups⟩
  rwa [← flatten_splitOn, hpieces]

namespace IsGrouped

variable {s t : String} {m n : ℕ}

/-- A text in groups tells its number. -/
theorem number_eq (hm : IsGrouped s m) (hn : IsGrouped s n) : m = n := by
  rw [← hm.numeral.value, hn.numeral.value]

/-- A number has one text in groups. -/
theorem text_eq (hs : IsGrouped s n) (ht : IsGrouped t n) : s = t := by
  have hflatten : (s.toList.splitOn ',').flatten = (t.toList.splitOn ',').flatten := by
    rw [flatten_splitOn, flatten_splitOn, isNumeral_iff.mp hs.numeral, isNumeral_iff.mp ht.numeral]
  have hpieces := hs.groups.eq_of_flatten ht.groups hflatten
  have hchars : s.toList = t.toList := by
    rw [← @List.intercalate_splitOn _ s.toList, hpieces, List.intercalate_splitOn]
  exact String.toList_inj.mp hchars

end IsGrouped

/-- **Counts in groups of three.** The text of a count is the one text that is its numeral once its commas are
removed, with no comma at an end and three digits in each group but the first, which has one to three. So
different counts have different texts. -/
theorem grouped_eq_iff :
    (∀ n s, grouped n = s ↔ IsGrouped s n) ∧ Function.Injective grouped := by
  refine ⟨fun n s => ⟨?_, fun hs => (isGrouped_grouped n).text_eq hs⟩, fun m n h => ?_⟩
  · rintro rfl
    exact isGrouped_grouped n
  · have hm := isGrouped_grouped m
    rw [h] at hm
    exact hm.number_eq (isGrouped_grouped n)

example : grouped 1000 = "1,000" ∧ grouped 12345678 = "12,345,678" := by decide

end TableProfile.Number
