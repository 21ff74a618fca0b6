import TableProfile.Proofs.HeadingWords

/-!
# The grammar of headings

A line is a heading if, trimmed, it is a decoration with words behind it that begin with an opening
(`Begins`). Such a line may be split in many ways, since the parts of a decoration may be missing and share
characters. The reader does not look for a split: it drops all that it can, four times. That leaves the
same words as any split does. For the words begin with a capital letter once they are in upper case, and
no character of a decoration is changed into a letter (`normal_cons_of_decoration`); so the words
themselves begin with a character that no pass drops.

* `begins_iff`: what the passes leave of a heading are its words, however it is split.
* `opens?_iff_begins`: the reader accepts the lines of the grammar and no other, each with one opening, in
  whatever order the openings are tried.
-/
namespace TableProfile.Heading

/-- Trimmed, the line is a decoration and words that begin with an opening, in upper case and with spaces
for hyphens. -/
def Begins (line : List Char) (opening : String) : Prop :=
  ∃ front rest, Blank.trimChars line = front ++ rest ∧ Decorated front ∧
    opening.toList <+: normal rest

/-! ## Characters of a decoration -/

/-- What a pass drops comes before the letters, and is no hyphen. -/
theorem le_of_not_plain {c : Char} (h : ¬ Plain c) : c.toNat ≤ 57 ∧ c ≠ '-' := by
  by_cases hmark : isMark c = true
  · simp only [isMark, Bool.or_eq_true, beq_iff_eq] at hmark
    rcases hmark with (rfl | rfl) | rfl <;> decide
  by_cases hdigit : c.isDigit = true
  · refine ⟨?_, ?_⟩
    · exact (Char.isDigit_iff_toNat.mp hdigit).2
    · rintro rfl
      exact absurd hdigit (by decide)
  by_cases hstop : isStop c = true
  · simp only [isStop, Bool.or_eq_true, beq_iff_eq] at hstop
    rcases hstop with rfl | rfl <;> decide
  exact absurd ⟨Bool.of_not_eq_true hmark, Bool.of_not_eq_true hdigit, Bool.of_not_eq_true hstop⟩ h

/-- A character of a decoration stays what it is in upper case. -/
theorem normal_cons_of_decoration {c : Char} (h : ¬ Plain c) (cs : List Char) :
    normal (c :: cs) = c :: normal cs := by
  obtain ⟨hle, hhyphen⟩ := le_of_not_plain h
  have hupper : c.toUpper = c := by
    refine Char.toNat_inj.mp ?_
    rw [toNat_toUpper, if_neg (by omega)]
  have hascii : c.toNat < 0x80 := by omega
  rw [normal_cons, Upper.upperChar, if_pos hascii, hupper, List.map_singleton,
    if_neg (by simpa using hhyphen)]
  rfl

/-- What begins with an opening in upper case begins with a character that no pass drops. -/
theorem plain_of_opening {o : String × Section} (ho : o ∈ openings) {rest : List Char}
    (h : o.1.toList <+: normal rest) : ∀ c ∈ rest.head?, Plain c := by
  intro c hc
  by_contra hplain
  obtain ⟨more, rfl⟩ := List.head?_eq_some_iff.mp hc
  rw [normal_cons_of_decoration hplain] at h
  obtain ⟨-, hfirst, -⟩ := capitals_openings o ho
  have hhead : o.1.toList.head? = some c := by
    obtain ⟨behind, hbehind⟩ := h
    have hsome := congrArg List.head? hbehind
    rwa [List.head?_append, List.head?_eq_some_head (openings_ne_nil o ho), Option.some_or,
      ← List.head?_eq_some_head (openings_ne_nil o ho)] at hsome
  rw [hhead, Option.all_some, isUpper_iff] at hfirst
  have := (le_of_not_plain hplain).1
  omega

/-! ## Splits -/

/-- Four passes cut a text into a decoration and what they leave. -/
theorem exists_strip (cs : List Char) : ∃ front, cs = front ++ strip cs ∧ Decorated front := by
  obtain ⟨marks, hmarks, hmark⟩ := Blank.exists_dropWhile isMark cs
  obtain ⟨digits, hdigits, hdigit⟩ := Blank.exists_dropWhile Char.isDigit (cs.dropWhile isMark)
  obtain ⟨stops, hstops, hstop⟩ :=
    Blank.exists_dropWhile isStop ((cs.dropWhile isMark).dropWhile Char.isDigit)
  obtain ⟨inner, hinner, hlast⟩ :=
    Blank.exists_dropWhile isInnerMark (((cs.dropWhile isMark).dropWhile Char.isDigit).dropWhile isStop)
  refine ⟨marks ++ (digits ++ (stops ++ inner)), ?_,
    ⟨marks, digits, stops, inner, rfl, hmark, hdigit, hstop, hlast⟩⟩
  rw [strip, List.append_assoc, List.append_assoc, List.append_assoc, ← hinner, ← hstops, ← hdigits,
    ← hmarks]

variable {line : List Char} {o : String × Section}

/-- However a heading is split, its words are what the passes leave; and these are one way to split it. -/
theorem begins_iff (ho : o ∈ openings) : Begins line o.1 ↔ o.1.toList <+: normal (words line) := by
  rw [words_eq]
  constructor
  · rintro ⟨front, rest, hline, hfront, hopening⟩
    rwa [hline, strip_decorated hfront (plain_of_opening ho hopening)]
  · intro h
    obtain ⟨front, hfront, hdecorated⟩ := exists_strip (Blank.trimChars line)
    exact ⟨front, strip (Blank.trimChars line), hfront, hdecorated, h⟩

/-- **The reader of headings accepts its grammar.** A line opens a section exactly if it can be split, after
white space at its ends is trimmed, into marks, digits, points or brackets, inner marks and words that begin
with an opening of that section, in upper case and with spaces for hyphens. No line begins with two
openings in this sense, so the order in which they are tried does not matter. -/
theorem opens?_iff_begins (line : List Char) :
    (∀ s, opens? line = some s ↔ ∃ o ∈ openings, o.2 = s ∧ Begins line o.1) ∧
      (∀ o ∈ openings, ∀ p ∈ openings, Begins line o.1 → Begins line p.1 → o = p) ∧
      ∀ table : List (String × Section), table.Perm openings → opensBy table line = opens? line := by
  refine ⟨fun s => ?_, fun o ho p hp hobegins hpbegins => ?_, fun table htable => ?_⟩
  · rw [← opensBy_openings, opensBy_eq_some_iff fun _ => Iff.rfl]
    refine exists_congr fun o => and_congr_right fun ho => and_congr_right fun _ => ?_
    exact (begins_iff ho).symm
  · exact eq_of_prefixes ho hp ((begins_iff ho).mp hobegins) ((begins_iff hp).mp hpbegins)
  · refine Option.ext fun s => ?_
    rw [← opensBy_openings, opensBy_eq_some_iff fun _ => Iff.rfl,
      opensBy_eq_some_iff fun _ => htable.mem_iff]

/-- A line in which a sharp s, in upper case two letters, stands behind the opening. -/
theorem opens?_iff_begins_numbered :
    let line := " **3) **key-trends, groß".toList
    Begins line "KEY TRENDS" ∧ opens? line = some .trends ∧ opensBy openings.reverse line = some .trends ∧
      ¬ Begins line "ANOMALIES" := by
  intro line
  have hdecorated : Decorated "**3) **".toList :=
    ⟨"**".toList, "3".toList, ")".toList, " **".toList, by decide, List.all_eq_true.mp (by decide),
      List.all_eq_true.mp (by decide), List.all_eq_true.mp (by decide), List.all_eq_true.mp (by decide)⟩
  have hbegins : Begins line "KEY TRENDS" :=
    ⟨"**3) **".toList, "key-trends, groß".toList, by decide, hdecorated, ", GROSS".toList, by decide⟩
  obtain ⟨hopens, hunique, horder⟩ := opens?_iff_begins line
  have hsection : opens? line = some .trends :=
    (hopens .trends).mpr ⟨("KEY TRENDS", .trends), by decide, rfl, hbegins⟩
  refine ⟨hbegins, hsection, ?_, fun hother => ?_⟩
  · rw [horder _ openings.reverse_perm, hsection]
  · have hsame := hunique ("KEY TRENDS", .trends) (by decide) ("ANOMALIES", .anomalies) (by decide)
      hbegins hother
    exact absurd (congrArg Prod.fst hsame) (by decide)

end TableProfile.Heading
