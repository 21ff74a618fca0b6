import Mathlib.Data.List.Basic
import Mathlib.Logic.Function.Basic
import TableProfile.Table.Calendar

/-!
# What the texts of dates and times tell

A date is taken apart into year, month and day, and these are written with a fixed width behind the year.
Nothing is lost on the way: days can be counted from year, month and day again (`daysOf`), and a numeral
with zeros in front has the value of the number that it is padded from. So different dates have different
texts.

A time of day is written to the second. Two times have one text exactly if they are in one second.

* `daysOf_civil`: a count of days is the count of the days before its date.
* `dateText_injective`: the text of a date tells the date.
* `timeText_eq_iff`: the text of a time tells its second and no more.
-/
namespace TableProfile.Calendar

/-! ## Padded numerals -/

theorem toList_padded (width n : Nat) : (padded width n).toList =
    List.replicate (width - (Nat.toDigits 10 n).length) '0' ++ Nat.toDigits 10 n := by
  rw [padded, String.toList_append, String.toList_ofList, Nat.toString_eq_ofList_toDigits,
    String.length_ofList, String.toList_ofList]

theorem value_padded (width n : Nat) : Nat.ofDigitChars 10 (padded width n).toList 0 = n := by
  rw [toList_padded, Nat.ofDigitChars_append, Nat.ofDigitChars_replicate_zero, Nat.mul_zero,
    Nat.ofDigitChars_ten_toDigits]

/-- A padded numeral tells its number. -/
theorem padded_inj {width m n : Nat} (h : padded width m = padded width n) : m = n := by
  rw [← value_padded width m, h, value_padded]

theorem isDigit_of_mem_padded {width n : Nat} {c : Char} (h : c ∈ (padded width n).toList) :
    c.isDigit = true := by
  rw [toList_padded, List.mem_append] at h
  rcases h with hzero | hdigit
  · rw [List.eq_of_mem_replicate hzero]
    rfl
  · exact Nat.isDigit_of_mem_toDigits (by decide) (by decide) hdigit

/-- A number below 100 takes two places. -/
theorem length_padded_two {n : Nat} (h : n < 100) : (padded 2 n).toList.length = 2 := by
  have hdigits : (Nat.toDigits 10 n).length ≤ 2 :=
    (Nat.length_toDigits_le_iff (by decide) (by decide)).mpr h
  rw [toList_padded, List.length_append, List.length_replicate]
  omega

/-- Two numbers of two places behind a text: the texts and the numbers are told apart. -/
theorem eq_of_tail {sep front front' : String} {m n m' n' : Nat} (hm : m < 100) (hn : n < 100)
    (hm' : m' < 100) (hn' : n' < 100)
    (h : front ++ sep ++ padded 2 m ++ sep ++ padded 2 n =
      front' ++ sep ++ padded 2 m' ++ sep ++ padded 2 n') : front = front' ∧ m = m' ∧ n = n' := by
  have hlength {a b : Nat} (ha : a < 100) (hb : b < 100) :
      (sep ++ padded 2 a).toList.length = (sep ++ padded 2 b).toList.length := by
    rw [String.toList_append, String.toList_append, List.length_append, List.length_append,
      length_padded_two ha, length_padded_two hb]
  have hcut {a b : Nat} (ha : a < 100) (hb : b < 100) {s t : String}
      (heq : s ++ sep ++ padded 2 a = t ++ sep ++ padded 2 b) : s = t ∧ a = b := by
    rw [String.append_assoc, String.append_assoc] at heq
    have hlists := congrArg String.toList heq
    rw [String.toList_append, @String.toList_append t] at hlists
    obtain ⟨hfront, htail⟩ := List.append_inj' hlists (hlength ha hb)
    rw [String.toList_append, String.toList_append] at htail
    exact ⟨String.toList_inj.mp hfront, padded_inj (String.toList_inj.mp (List.append_cancel_left htail))⟩
  obtain ⟨hrest, hlast⟩ := hcut hn hn' h
  obtain ⟨hfront, hfirst⟩ := hcut hm hm' hrest
  exact ⟨hfront, hfirst, hlast⟩

/-! ## Dates -/

/-- The days from 1970-01-01 to a date, counted by years that begin in March. -/
def daysOf (date : Int × Nat × Nat) : Int :=
  let (year, month, day) := date
  let year := if month ≤ 2 then year - 1 else year
  let march := if month ≤ 2 then month + 9 else month - 3
  365 * year + year / 4 - year / 100 + year / 400 + (153 * march + 2) / 5 + day - 719469

/-- The day of an era lies in the year that it is put into. -/
theorem yearOfEra_bounds {dayOfEra year : Nat} (hday : dayOfEra < 146097)
    (h : year = (dayOfEra - dayOfEra / 1460 + dayOfEra / 36524 - dayOfEra / 146096) / 365) :
    year ≤ 399 ∧ 365 * year + year / 4 - year / 100 ≤ dayOfEra ∧
      dayOfEra ≤ 365 * year + year / 4 - year / 100 + 365 := by
  by_cases hlast : dayOfEra = 146096
  · subst hlast
    omega
  have hzero : dayOfEra / 146096 = 0 := by omega
  rw [hzero, Nat.sub_zero] at h
  -- leap years and centuries before the day, by which the day is off a count of years of 365 days
  obtain ⟨leaps, hleaps⟩ : ∃ leaps, dayOfEra / 1460 = leaps := ⟨_, rfl⟩
  obtain ⟨centuries, hcenturies⟩ : ∃ centuries, dayOfEra / 36524 = centuries := ⟨_, rfl⟩
  rw [hleaps, hcenturies] at h
  have hleapsLow : 1460 * leaps ≤ dayOfEra := by omega
  have hleapsHigh : dayOfEra < 1460 * leaps + 1460 := by omega
  have hcenturiesLow : 36524 * centuries ≤ dayOfEra := by omega
  have hcenturiesHigh : dayOfEra < 36524 * centuries + 36524 := by omega
  have hlow : 365 * year ≤ dayOfEra - leaps + centuries := by omega
  have hhigh : dayOfEra - leaps + centuries < 365 * year + 365 := by omega
  have hcentury : year / 100 = centuries := by omega
  have hleapLow : year / 4 ≤ leaps := by omega
  have hleapHigh : leaps ≤ year / 4 + 1 := by omega
  omega

/-- The day of a year lies in the month that it is put into. -/
theorem month_bounds {dayOfYear march : Nat} (hday : dayOfYear ≤ 365)
    (h : march = (5 * dayOfYear + 2) / 153) :
    march ≤ 11 ∧ (153 * march + 2) / 5 ≤ dayOfYear ∧ dayOfYear ≤ (153 * march + 2) / 5 + 30 := by
  omega

/-- A count of days falls on the day of a month, counted from March, in a year of an era. -/
structure Falls (days era : Int) (year march day : Nat) : Prop where
  year_le : year ≤ 399
  march_le : march ≤ 11
  day_mem : 1 ≤ day ∧ day ≤ 31
  days_eq : days + 719468 =
    era * 146097 + (365 * year + year / 4 - year / 100 : Nat) + ((153 * march + 2) / 5 : Nat) + (day - 1)
  civil_eq : civil days =
    (if march < 10 then year + era * 400 else year + era * 400 + 1,
      if march < 10 then march + 3 else march - 9, day)

theorem exists_falls (days : Int) : ∃ era year march day, Falls days era year march day := by
  obtain ⟨era, hera⟩ : ∃ era, (days + 719468) / 146097 = era := ⟨_, rfl⟩
  obtain ⟨dayOfEra, hdayOfEra⟩ : ∃ dayOfEra, ((days + 719468) % 146097).toNat = dayOfEra := ⟨_, rfl⟩
  obtain ⟨year, hyear⟩ : ∃ year,
    (dayOfEra - dayOfEra / 1460 + dayOfEra / 36524 - dayOfEra / 146096) / 365 = year := ⟨_, rfl⟩
  obtain ⟨dayOfYear, hdayOfYear⟩ : ∃ dayOfYear,
    dayOfEra - (365 * year + year / 4 - year / 100) = dayOfYear := ⟨_, rfl⟩
  obtain ⟨march, hmarch⟩ : ∃ march, (5 * dayOfYear + 2) / 153 = march := ⟨_, rfl⟩
  obtain ⟨hyear399, hyearLow, hyearHigh⟩ := yearOfEra_bounds (by omega) hyear.symm
  obtain ⟨hmarch11, hmarchLow, hmarchHigh⟩ := month_bounds (by omega) hmarch.symm
  refine ⟨era, year, march, dayOfYear - (153 * march + 2) / 5 + 1, hyear399, hmarch11, ?_, ?_, ?_⟩
  · omega
  · omega
  · simp only [Calendar.civil, hera, hdayOfEra, hyear, hdayOfYear, hmarch]
    by_cases hlate : march < 10
    · rw [if_pos hlate, if_pos hlate, if_neg (by omega)]
    · rw [if_neg hlate, if_neg hlate, if_pos (by omega)]

/-- A count of days is the count of the days before its date. -/
theorem daysOf_civil (days : Int) : daysOf (civil days) = days := by
  obtain ⟨era, year, march, day, h⟩ := exists_falls days
  obtain ⟨hyear, hmarch, hday, hdays, hcivil⟩ := h
  rw [hcivil]
  by_cases hlate : march < 10
  · rw [if_pos hlate, if_pos hlate]
    simp only [daysOf]
    rw [if_neg (by omega), if_neg (by omega)]
    omega
  · rw [if_neg hlate, if_neg hlate]
    simp only [daysOf]
    rw [if_pos (by omega), if_pos (by omega)]
    omega

theorem civil_injective : Function.Injective civil := Function.LeftInverse.injective daysOf_civil

/-- Month and day take two places. -/
theorem civil_places (days : Int) : (civil days).2.1 < 100 ∧ (civil days).2.2 < 100 := by
  obtain ⟨era, year, march, day, h⟩ := exists_falls days
  have hmarch := h.march_le
  have hday := h.day_mem
  rw [h.civil_eq]
  constructor
  · dsimp only
    split <;> omega
  · dsimp only
    omega

/-! ## Years -/

/-- The year that a text tells. -/
def yearOf : List Char → Int
  | '-' :: digits => -(Nat.ofDigitChars 10 digits 0)
  | '+' :: digits => Nat.ofDigitChars 10 digits 0
  | digits => Nat.ofDigitChars 10 digits 0

theorem yearOf_digits {digits : List Char} (h : ∀ c ∈ digits, c.isDigit = true) :
    yearOf digits = Nat.ofDigitChars 10 digits 0 := by
  unfold yearOf
  split
  · exact absurd (h '-' List.mem_cons_self) (by decide)
  · exact absurd (h '+' List.mem_cons_self) (by decide)
  · rfl

theorem yearOf_yearText (year : Int) : yearOf (yearText year).toList = year := by
  unfold yearText
  split
  · rename_i hneg
    rw [String.toList_append]
    show -((Nat.ofDigitChars 10 (padded 4 year.natAbs).toList 0 : Nat) : Int) = year
    rw [value_padded]
    omega
  · rename_i hneg
    split
    · obtain ⟨n, rfl⟩ := Int.eq_ofNat_of_zero_le (Int.not_lt.mp hneg)
      rw [String.toList_append]
      show ((Nat.ofDigitChars 10 (toString n).toList 0 : Nat) : Int) = n
      rw [Nat.toString_eq_ofList_toDigits, String.toList_ofList, Nat.ofDigitChars_ten_toDigits]
    · rw [yearOf_digits fun c => isDigit_of_mem_padded, value_padded]
      omega

/-! ## Texts -/

theorem dateText_eq (days : Int) : dateText days =
    yearText (civil days).1 ++ "-" ++ padded 2 (civil days).2.1 ++ "-" ++ padded 2 (civil days).2.2 := rfl

/-- **The text of a date tells the date.** -/
theorem dateText_injective : Function.Injective dateText := by
  intro days days' h
  rw [dateText_eq, dateText_eq] at h
  obtain ⟨hmonth, hday⟩ := civil_places days
  obtain ⟨hmonth', hday'⟩ := civil_places days'
  obtain ⟨hyear, hmonths, hdays⟩ := eq_of_tail hmonth hday hmonth' hday' h
  have hyears : (civil days).1 = (civil days').1 := by
    rw [← yearOf_yearText (civil days).1, hyear, yearOf_yearText]
  exact civil_injective (Prod.ext hyears (Prod.ext hmonths hdays))

/-- **The text of a time tells its second**, and no more. -/
theorem timeText_eq_iff (t u : Nat) : timeText t = timeText u ↔ t / 1000000000 = u / 1000000000 := by
  constructor
  · intro h
    obtain ⟨hhours, hminutes, hseconds⟩ :=
      eq_of_tail (by omega) (by omega) (by omega) (by omega) h
    have hhours' := padded_inj hhours
    omega
  · intro h
    rw [timeText, timeText, h]

end TableProfile.Calendar
