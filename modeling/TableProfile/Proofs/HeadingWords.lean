import Mathlib.Data.List.Forall2
import TableProfile.Insight.Heading
import TableProfile.Proofs.TextPieces

/-!
# The words of a heading

What may stand before the words of a heading is dropped in four passes, each of which drops all that it
can. A line is written with marks, a number, points or brackets and marks again in front (`Decorated`),
each of them possibly missing, so an earlier pass may drop what was meant for a later one; but no pass
stops before the end of what it is meant for, and none of them touches a word.

Trimming takes some characters off the front of such a decoration, and what is left is a decoration too
(`Decorated.of_append`). An opening is spelled in any case and with hyphens for spaces (`Spells`); upper
case and spaces for hyphens give it back.

* `strip_decorated`: what the four passes leave.
* `opensBy_eq_some_iff`, `opens?_of_prefix`: openings begin with different letters, so one that fits is the
  one that counts, in whatever order they are tried.
* `opens?_of_spelled`: a decorated line that spells an opening opens the section of it.
-/
namespace TableProfile.Heading

/-! ## Decorations -/

/-- The four passes that drop what stands before the words. -/
def strip (cs : List Char) : List Char :=
  (((cs.dropWhile isMark).dropWhile Char.isDigit).dropWhile isStop).dropWhile isInnerMark

theorem words_eq (line : List Char) : words line = strip (Blank.trimChars line) := rfl

/-- Only what trimming leaves of a line counts. -/
theorem opens?_congr {line line' : List Char} (h : Blank.trimChars line = Blank.trimChars line') :
    opens? line = opens? line' := by
  rw [opens?, opens?, words_eq, words_eq, h]

/-- Marks, a number, points or brackets, and marks again. -/
def Decorated (cs : List Char) : Prop :=
  ∃ marks digits stops inner, cs = marks ++ (digits ++ (stops ++ inner)) ∧
    (∀ c ∈ marks, isMark c = true) ∧ (∀ c ∈ digits, c.isDigit = true) ∧
      (∀ c ∈ stops, isStop c = true) ∧ ∀ c ∈ inner, isInnerMark c = true

theorem Decorated.tail {c : Char} {cs : List Char} (h : Decorated (c :: cs)) : Decorated cs := by
  obtain ⟨marks, digits, stops, inner, hcs, hmarks, hdigits, hstops, hinner⟩ := h
  cases marks with
  | cons m marks =>
    obtain ⟨-, rfl⟩ := List.cons.inj hcs
    exact ⟨marks, digits, stops, inner, rfl, (List.forall_mem_cons.mp hmarks).2, hdigits, hstops, hinner⟩
  | nil =>
    cases digits with
    | cons d digits =>
      obtain ⟨-, rfl⟩ := List.cons.inj hcs
      exact ⟨[], digits, stops, inner, rfl, hmarks, (List.forall_mem_cons.mp hdigits).2, hstops, hinner⟩
    | nil =>
      cases stops with
      | cons s stops =>
        obtain ⟨-, rfl⟩ := List.cons.inj hcs
        exact ⟨[], [], stops, inner, rfl, hmarks, hdigits, (List.forall_mem_cons.mp hstops).2, hinner⟩
      | nil =>
        cases inner with
        | cons i inner =>
          obtain ⟨-, rfl⟩ := List.cons.inj hcs
          exact ⟨[], [], [], cs, rfl, hmarks, hdigits, hstops, (List.forall_mem_cons.mp hinner).2⟩
        | nil => cases hcs

/-- What is left of a decoration when characters are taken off its front. -/
theorem Decorated.of_append {before cs : List Char} (h : Decorated (before ++ cs)) : Decorated cs := by
  induction before with
  | nil => exact h
  | cons c before ih => exact ih h.tail

/-- A character that no pass drops. -/
structure Plain (c : Char) : Prop where
  mark : isMark c = false
  digit : c.isDigit = false
  stop : isStop c = false

theorem Plain.innerMark {c : Char} (h : Plain c) : isInnerMark c = false := by
  have hmark := h.mark
  simp only [isMark, isInnerMark, Bool.or_eq_false_iff] at hmark ⊢
  exact ⟨hmark.1.2, hmark.2⟩

theorem isMark_of_isInnerMark {c : Char} (h : isInnerMark c = true) : isMark c = true := by
  simp only [isMark, isInnerMark, Bool.or_eq_true] at h ⊢
  tauto

theorem isMark_of_isDigit {c : Char} (h : c.isDigit = true) : isMark c = false := by
  by_contra hmark
  simp only [isMark, Bool.not_eq_false, Bool.or_eq_true, beq_iff_eq] at hmark
  rcases hmark with (rfl | rfl) | rfl <;> exact absurd h (by decide)

theorem stop_facts {c : Char} (h : isStop c = true) : isMark c = false ∧ c.isDigit = false := by
  simp only [isStop, Bool.or_eq_true, beq_iff_eq] at h
  rcases h with rfl | rfl <;> exact ⟨by decide, by decide⟩

theorem innerMark_facts {c : Char} (h : isInnerMark c = true) : c.isDigit = false ∧ isStop c = false := by
  simp only [isInnerMark, Bool.or_eq_true, beq_iff_eq] at h
  rcases h with rfl | rfl <;> exact ⟨by decide, by decide⟩

section
variable {rest : List Char}

theorem dropWhile_self {p : Char → Bool} (h : ∀ c ∈ rest.head?, p c = false) : rest.dropWhile p = rest :=
  @Blank.dropWhile_eq p [] rest (by simp) h

/-- Inner marks before a word, for each pass. -/
theorem dropWhile_inner {inner : List Char} (hinner : ∀ c ∈ inner, isInnerMark c = true)
    (hrest : ∀ c ∈ rest.head?, Plain c) :
    (inner ++ rest).dropWhile isMark = rest ∧ (inner ++ rest).dropWhile Char.isDigit = inner ++ rest ∧
      (inner ++ rest).dropWhile isStop = inner ++ rest ∧ (inner ++ rest).dropWhile isInnerMark = rest := by
  have hhead : ∀ c ∈ (inner ++ rest).head?, c.isDigit = false ∧ isStop c = false := by
    intro c hc
    cases inner with
    | nil => exact ⟨(hrest c hc).digit, (hrest c hc).stop⟩
    | cons i inner =>
      obtain rfl : i = c := Option.some.inj hc
      exact innerMark_facts (hinner i List.mem_cons_self)
  exact ⟨Blank.dropWhile_eq (fun c hc => isMark_of_isInnerMark (hinner c hc)) fun c hc => (hrest c hc).mark,
    dropWhile_self fun c hc => (hhead c hc).1, dropWhile_self fun c hc => (hhead c hc).2,
    Blank.dropWhile_eq hinner fun c hc => (hrest c hc).innerMark⟩

/-- The passes drop the decoration of a word and leave the word. -/
theorem strip_decorated {cs : List Char} (h : Decorated cs) (hrest : ∀ c ∈ rest.head?, Plain c) :
    strip (cs ++ rest) = rest := by
  obtain ⟨marks, digits, stops, inner, rfl, hmarks, hdigits, hstops, hinner⟩ := h
  obtain ⟨hmark, hdigit, hstop, hlast⟩ := dropWhile_inner hinner hrest
  rw [strip, List.append_assoc, List.append_assoc, List.append_assoc, List.dropWhile_append_of_pos hmarks]
  -- the first pass ends at the number, or at the points, or goes on to the word
  cases digits with
  | cons d digits =>
    have hd : ∀ c ∈ (d :: digits ++ (stops ++ (inner ++ rest))).head?, isMark c = false := by
      rintro c ⟨⟩
      exact isMark_of_isDigit (hdigits d List.mem_cons_self)
    rw [dropWhile_self hd, List.dropWhile_append_of_pos hdigits]
    cases stops with
    | cons s stops =>
      have hs : ∀ c ∈ (s :: stops ++ (inner ++ rest)).head?, c.isDigit = false := by
        rintro c ⟨⟩
        exact (stop_facts (hstops s List.mem_cons_self)).2
      rw [dropWhile_self hs, List.dropWhile_append_of_pos hstops, hstop, hlast]
    | nil => rw [List.nil_append, hdigit, hstop, hlast]
  | nil =>
    rw [List.nil_append]
    cases stops with
    | cons s stops =>
      have hs : ∀ c ∈ (s :: stops ++ (inner ++ rest)).head?, isMark c = false ∧ c.isDigit = false := by
        rintro c ⟨⟩
        exact stop_facts (hstops s List.mem_cons_self)
      rw [dropWhile_self fun c hc => (hs c hc).1, dropWhile_self fun c hc => (hs c hc).2,
        List.dropWhile_append_of_pos hstops, hstop, hlast]
    | nil =>
      rw [List.nil_append, hmark, dropWhile_self fun c hc => (hrest c hc).digit,
        dropWhile_self fun c hc => (hrest c hc).stop, dropWhile_self fun c hc => (hrest c hc).innerMark]

end

/-! ## Openings -/

theorem head_openings : ∀ o ∈ openings, ∀ o' ∈ openings, o.1.toList.head? = o'.1.toList.head? → o = o' := by
  decide

theorem openings_ne_nil : ∀ o ∈ openings, o.1.toList ≠ [] := by
  decide

/-- Openings that one text begins with are the same: no two begin with one letter. -/
theorem eq_of_prefixes {text : List Char} {o p : String × Section} (ho : o ∈ openings) (hp : p ∈ openings)
    (hotext : o.1.toList <+: text) (hptext : p.1.toList <+: text) : o = p := by
  have hhead {q : String × Section} (hq : q ∈ openings) (hbegins : q.1.toList <+: text) :
      q.1.toList.head? = text.head? := by
    obtain ⟨rest, hrest⟩ := hbegins
    rw [← hrest, List.head?_append, List.head?_eq_some_head (openings_ne_nil q hq), Option.some_or]
  exact head_openings o ho p hp ((hhead ho hotext).trans (hhead hp hptext).symm)

/-- The section that a line opens if the openings are tried in the order of `table`. -/
def opensBy (table : List (String × Section)) (line : List Char) : Option Section :=
  (table.find? fun o => o.1.toList.isPrefixOf (normal (words line))).map (·.2)

theorem opensBy_openings (line : List Char) : opensBy openings line = opens? line := rfl

/-- Wherever the openings stand in a table, the one that fits is the one that is found. -/
theorem opensBy_eq_some_iff {table : List (String × Section)} (htable : ∀ o, o ∈ table ↔ o ∈ openings)
    (line : List Char) (s : Section) :
    opensBy table line = some s ↔ ∃ o ∈ openings, o.2 = s ∧ o.1.toList <+: normal (words line) := by
  rw [opensBy, Option.map_eq_some_iff]
  constructor
  · rintro ⟨o, hfound, hsection⟩
    have hfits := List.find?_some hfound
    exact ⟨o, (htable o).mp (List.mem_of_find?_eq_some hfound), hsection,
      List.isPrefixOf_iff_prefix.mp hfits⟩
  · rintro ⟨o, ho, hsection, hprefix⟩
    cases hfound : table.find? fun o => o.1.toList.isPrefixOf (normal (words line)) with
    | none =>
      exact absurd (List.isPrefixOf_iff_prefix.mpr hprefix)
        (List.find?_eq_none.mp hfound o ((htable o).mpr ho))
    | some p =>
      have hp := (htable p).mp (List.mem_of_find?_eq_some hfound)
      have hfits := List.find?_some hfound
      have hsame := eq_of_prefixes ho hp hprefix (List.isPrefixOf_iff_prefix.mp hfits)
      exact ⟨p, rfl, hsame ▸ hsection⟩

/-- An opening that fits is the one that counts. -/
theorem opens?_of_prefix {line : List Char} {o : String × Section} (ho : o ∈ openings)
    (h : o.1.toList <+: normal (words line)) : opens? line = some o.2 :=
  (opensBy_eq_some_iff (fun _ => Iff.rfl) line o.2).mpr ⟨o, ho, rfl, h⟩

/-! ## Spelling -/

/-- Words spell an opening in any case, with a hyphen or a space for each space. -/
def Spells (words opening : List Char) : Prop :=
  List.Forall₂ (fun c o => if o = ' ' then c = ' ' ∨ c = '-' else c.toUpper = o) words opening

/-- A letter of ASCII, small or capital. -/
def IsLetter (c : Char) : Prop := 65 ≤ c.toNat ∧ c.toNat ≤ 90 ∨ 97 ≤ c.toNat ∧ c.toNat ≤ 122

theorem isUpper_iff (c : Char) : c.isUpper = true ↔ 65 ≤ c.toNat ∧ c.toNat ≤ 90 := decide_eq_true_iff

theorem isLetter_of_toUpper {c : Char} (h : c.toUpper.isUpper = true) : IsLetter c := by
  rw [isUpper_iff, toNat_toUpper] at h
  unfold IsLetter
  split at h <;> omega

namespace IsLetter

variable {c : Char}

theorem not_blank (h : IsLetter c) : Blank.isBlank c = false := by
  unfold IsLetter at h
  simp only [Blank.isBlank, Bool.or_eq_false_iff, Bool.and_eq_false_iff, decide_eq_false_iff_not,
    beq_eq_false_iff_ne]
  omega

/-- A letter is none of the characters before the words. -/
theorem plain (h : IsLetter c) : Plain c := by
  have hne (d : Char) (hd : d.toNat < 65) : (c == d) = false := by
    rw [beq_eq_false_iff_ne]
    rintro rfl
    unfold IsLetter at h
    omega
  refine ⟨?_, ?_, ?_⟩
  · simp [isMark, hne '#' (by decide), hne '*' (by decide), hne ' ' (by decide)]
  · refine Bool.eq_false_iff.mpr fun hdigit => ?_
    have hle : c.toNat ≤ 57 := (Char.isDigit_iff_toNat.mp hdigit).2
    unfold IsLetter at h
    omega
  · simp [isStop, hne '.' (by decide), hne ')' (by decide)]

end IsLetter

theorem capitals_openings : ∀ o ∈ openings, (o.1.toList.all fun c => c == ' ' || c.isUpper) = true ∧
    o.1.toList.head?.all Char.isUpper = true ∧ o.1.toList.getLast?.all Char.isUpper = true := by
  decide

section
variable {ws opening : List Char}

theorem Spells.ne_nil (h : Spells ws opening) (hopening : opening ≠ []) : ws ≠ [] := by
  rintro rfl
  exact hopening (List.forall₂_nil_left_iff.mp h)

theorem Spells.head (h : Spells ws opening) (hfirst : opening.head?.all Char.isUpper = true) :
    ∀ c ∈ ws.head?, IsLetter c := by
  cases h with
  | nil => simp
  | @cons c o ws opening hco _ =>
    rintro _ ⟨⟩
    have ho : o.isUpper = true := hfirst
    rw [if_neg (by rintro rfl; exact absurd ho (by decide))] at hco
    exact isLetter_of_toUpper (by rw [hco]; exact ho)

theorem Spells.last (h : Spells ws opening) (hlast : opening.getLast?.all Char.isUpper = true) :
    ∀ c ∈ ws.getLast?, IsLetter c := by
  have hreverse : Spells ws.reverse opening.reverse := List.forall₂_reverse_iff.mpr h
  rw [← List.head?_reverse] at hlast ⊢
  exact hreverse.head hlast

theorem normal_cons (c : Char) (cs : List Char) :
    normal (c :: cs) = (Upper.upperChar c).map (fun c => if c == '-' then ' ' else c) ++ normal cs := by
  rw [normal, Upper.upperChars, List.flatMap_cons, List.map_append]
  rfl

/-- In upper case and with spaces for hyphens, spelled words are the opening. -/
theorem normal_of_spells (h : Spells ws opening) (hcapitals : ∀ c ∈ opening, c = ' ' ∨ c.isUpper = true)
    (rest : List Char) : normal (ws ++ rest) = opening ++ normal rest := by
  induction h with
  | nil => rfl
  | @cons c o ws opening hco _ ih =>
    obtain ⟨ho, hopening⟩ := List.forall_mem_cons.mp hcapitals
    rw [List.cons_append, normal_cons, ih hopening, List.cons_append]
    by_cases hspace : o = ' '
    · rw [if_pos hspace] at hco
      rcases hco with rfl | rfl <;> rw [hspace] <;> rfl
    · rw [if_neg hspace] at hco
      have hupper : o.isUpper = true := ho.resolve_left hspace
      have hletter : IsLetter c := isLetter_of_toUpper (by rw [hco]; exact hupper)
      have hascii : c.toNat < 0x80 := by
        unfold IsLetter at hletter
        omega
      have hhyphen : (o == '-') = false := by
        rw [beq_eq_false_iff_ne]
        rintro rfl
        exact absurd hupper (by decide)
      rw [Upper.upperChar, if_pos hascii, hco, List.map_singleton, hhyphen]
      rfl

end

/-- **A decorated line that spells an opening opens its section**, whatever follows the words. -/
theorem opens?_of_spelled {front ws : List Char} {o : String × Section} (hfront : Decorated front)
    (ho : o ∈ openings) (h : Spells ws o.1.toList) (rest : List Char) :
    opens? (front ++ (ws ++ rest)) = some o.2 := by
  obtain ⟨hcapitals, hfirst, hlast⟩ := capitals_openings o ho
  have hne : ws ≠ [] := h.ne_nil (openings_ne_nil o ho)
  have htrim : Blank.trimChars (front ++ (ws ++ rest)) =
      Blank.trimStartChars front ++ (ws ++ Blank.trimEndChars rest) :=
    Blank.trimChars_around front rest hne (fun c hc => (h.head hfirst c hc).not_blank)
      fun c hc => (h.last hlast c hc).not_blank
  have htrimmed : Decorated (Blank.trimStartChars front) := by
    rw [← List.takeWhile_append_dropWhile (p := Blank.isBlank) (l := front)] at hfront
    exact hfront.of_append
  have hwords : words (front ++ (ws ++ rest)) = ws ++ Blank.trimEndChars rest := by
    rw [words_eq, htrim]
    refine strip_decorated htrimmed fun c hc => ?_
    rw [List.head?_append, List.head?_eq_some_head hne, Option.some_or, ← List.head?_eq_some_head hne] at hc
    exact (h.head hfirst c hc).plain
  refine opens?_of_prefix ho ?_
  have hletters : ∀ c ∈ o.1.toList, c = ' ' ∨ c.isUpper = true := by
    simpa only [List.all_eq_true, Bool.or_eq_true, beq_iff_eq] using hcapitals
  rw [hwords, normal_of_spells h hletters]
  exact List.prefix_append _ _

end TableProfile.Heading
