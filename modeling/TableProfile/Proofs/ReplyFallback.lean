import Mathlib.Data.List.Flatten
import TableProfile.Proofs.ReplySections

/-!
# When the whole reply becomes the summary

The whole reply is the summary where no section gets a text. It is so if the reply has no heading, but
not only then: where nothing of content stands behind the last heading of each section, headings and
what stands before them show up as the summary, be the summary among the sections opened or not. Where
something does, each section has what stands behind one of its own headings, and a section without a
heading has nothing.

That such a summary is never the whole reply is a count of the characters that are no white space
(`ink`). Cutting a text into lines and trimming lose none of them (`ink_linesOf`, `ink_trimChars`), and
the lines of a block lack at least those of its heading (`ink_text_lt`).

* `read_get_of_filled`, `read_get_of_not_filled`: the sections of a reply in either case.
* `whole_reply_iff`: when a reply with headings keeps to its sections.
* `empty_section_shows_heading`: a reply with a heading that becomes the summary as a whole.
-/
namespace TableProfile

namespace Blank

/-- The number of characters that are no white space. -/
def ink (cs : List Char) : Nat := cs.countP fun c => !isBlank c

theorem ink_append (cs ds : List Char) : ink (cs ++ ds) = ink cs + ink ds := List.countP_append

theorem ink_eq_zero {cs : List Char} (h : ∀ c ∈ cs, isBlank c = true) : ink cs = 0 :=
  List.countP_eq_zero.mpr fun c hc => by simp [h c hc]

theorem ink_cons_blank {c : Char} (h : isBlank c = true) (cs : List Char) : ink (c :: cs) = ink cs :=
  List.countP_cons_of_neg (by simp [h])

theorem ink_reverse (cs : List Char) : ink cs.reverse = ink cs := List.countP_reverse

/-- Trimming loses white space only. -/
theorem ink_trimChars (cs : List Char) : ink (trimChars cs) = ink cs := by
  obtain ⟨before, behind, hcs, hblank⟩ := exists_trimChars cs
  obtain ⟨hbefore, hbehind⟩ := List.forall_mem_append.mp hblank
  calc ink (trimChars cs) = ink before + ink (trimChars cs) + ink behind := by
        rw [ink_eq_zero hbefore, ink_eq_zero hbehind, Nat.zero_add, Nat.add_zero]
    _ = ink (before ++ trimChars cs ++ behind) := by rw [ink_append, ink_append]
    _ = ink cs := by rw [← hcs]

/-- What is not trimmed to nothing has ink. -/
theorem ink_pos {cs : List Char} (h : trimChars cs ≠ []) : 0 < ink cs := by
  refine Nat.pos_of_ne_zero fun hzero => h ?_
  have hblank : ∀ c ∈ cs ++ [], isBlank c = true := by
    intro c hc
    rw [List.append_nil] at hc
    simpa using List.countP_eq_zero.mp hzero c hc
  have htrim : trimChars (cs ++ [] ++ []) = [] := trimChars_eq hblank (by simp) (by simp)
  rwa [List.append_nil, List.append_nil] at htrim

end Blank

namespace Line

open Blank (ink ink_append ink_cons_blank ink_reverse)

theorem ink_pieces (begun cs : List Char) :
    ink (Split.pieces '\n' begun cs).flatten = ink begun + ink cs := by
  induction cs generalizing begun with
  | nil =>
    rw [Split.pieces, List.flatten_singleton, ink_reverse]
    rfl
  | cons c rest ih =>
    rw [Split.pieces]
    split
    · rename_i hc
      rw [List.flatten_cons, ink_append, ink_reverse, ih, hc, ink_cons_blank (by decide)]
      exact congrArg _ (Nat.zero_add _)
    · have hcons (ds : List Char) : ink (c :: ds) = ink [c] + ink ds := ink_append [c] ds
      rw [ih, hcons begun, hcons rest]
      omega

theorem ink_withoutReturn (piece : List Char) : ink (withoutReturn piece) = ink piece := by
  unfold withoutReturn
  split
  · rename_i rest hrest
    rw [← ink_reverse piece, hrest, ink_cons_blank (by decide), ink_reverse]
  · rfl

theorem ink_ofPieces (pieces : List (List Char)) : ink (ofPieces pieces).flatten = ink pieces.flatten := by
  induction pieces with
  | nil => rfl
  | cons piece rest ih =>
    cases rest with
    | nil =>
      rw [ofPieces]
      split
      · rename_i hempty
        rw [List.isEmpty_iff.mp hempty]
        rfl
      · rfl
    | cons next more =>
      rw [ofPieces, List.flatten_cons, List.flatten_cons, ink_append, ink_append, ink_withoutReturn, ih]
      exact List.cons_ne_nil next more

/-- The lines of a text have the characters of the text, white space apart. -/
theorem ink_linesOf (cs : List Char) : ink (linesOf cs).flatten = ink cs := by
  rw [linesOf, ink_ofPieces, ink_pieces]
  exact Nat.zero_add _

theorem ink_intercalate (lines : List (List Char)) :
    ink (List.intercalate ['\n'] lines) = ink lines.flatten := by
  induction lines with
  | nil => rfl
  | cons first rest ih =>
    cases rest with
    | nil => rw [List.intercalate_singleton, List.flatten_singleton]
    | cons next more =>
      rw [List.intercalate_cons_cons, ink_append, ink_append, ih, List.flatten_cons (L := next :: more),
        ink_append first]
      exact congrArg (· + _) (Nat.add_zero _)

end Line

theorem Heading.opens?_eq_none {line : List Char} (h : Blank.trimChars line = []) :
    opens? line = none := by
  simp only [opens?, words, h]
  decide

namespace Reply

open Blank (ink)

/-! ## Blocks and their headings -/

theorem content_sublist (lines : List (List Char)) : (content lines).Sublist lines := by
  induction lines with
  | nil => exact .slnil
  | cons l rest ih =>
    rw [content]
    split
    · exact List.nil_sublist _
    · split
      · exact ih.cons_cons l
      · exact ih.cons l

theorem isContent_of_mem_content {lines : List (List Char)} {l : List Char} (h : l ∈ content lines) :
    isContent l = true := by
  induction lines with
  | nil => cases h
  | cons first rest ih =>
    rw [content] at h
    split at h
    · cases h
    · split at h
      · rename_i hcontent
        rcases List.mem_cons.mp h with rfl | h
        · exact hcontent
        · exact ih h
      · exact ih h

/-- A block is a heading of its section with the lines of content behind it. -/
theorem mem_blocks_iff {lines : List (List Char)} {b : Block} :
    b ∈ blocks lines ↔ ∃ before heading after, lines = before ++ heading :: after ∧
      Heading.opens? heading = some b.name ∧ b.lines = content after := by
  constructor
  · intro h
    induction lines with
    | nil => cases h
    | cons l rest ih =>
      -- a block of the remaining lines has `l` before its heading
      have hrest (h : b ∈ blocks rest) : ∃ before heading after,
          l :: rest = before ++ heading :: after ∧
            Heading.opens? heading = some b.name ∧ b.lines = content after := by
        obtain ⟨before, heading, after, rfl, hheading, hlines⟩ := ih h
        exact ⟨l :: before, heading, after, rfl, hheading, hlines⟩
      cases hl : Heading.opens? l with
      | none =>
        rw [blocks, hl] at h
        exact hrest h
      | some s =>
        rw [blocks, hl] at h
        rcases List.mem_cons.mp h with rfl | h
        · exact ⟨[], l, rest, rfl, hl, rfl⟩
        · exact hrest h
  · rintro ⟨before, heading, after, rfl, hheading, hlines⟩
    obtain ⟨name, lines⟩ := b
    subst hlines
    rw [blocks_append before hheading]
    exact List.mem_append_right _ List.mem_cons_self

theorem isContent_of_mem_block {lines : List (List Char)} {b : Block} (hb : b ∈ blocks lines)
    {l : List Char} (hl : l ∈ b.lines) : isContent l = true := by
  obtain ⟨-, -, after, -, -, hlines⟩ := mem_blocks_iff.mp hb
  rw [hlines] at hl
  exact isContent_of_mem_content hl

theorem mem_of_lastBlock? {s : Section} {blocks : List Block} {b : Block}
    (h : lastBlock? s blocks = some b) : b ∈ blocks ∧ b.name = s := by
  obtain ⟨hb, hname⟩ := List.mem_filter.mp (List.mem_of_getLast? h)
  exact ⟨hb, beq_iff_eq.mp hname⟩

/-- The text of a block is empty only if the block has no lines. -/
theorem text_eq_empty_iff {lines : List (List Char)} {b : Block} (hb : b ∈ blocks lines) :
    b.text = "" ↔ b.lines = [] := by
  constructor
  · intro htext
    refine List.eq_nil_iff_forall_not_mem.mpr fun l hl => ?_
    have hpiece := trimChars_infix_text hl
    rw [htext, String.toList_empty, List.infix_nil] at hpiece
    have hcontent := isContent_of_mem_block hb hl
    rw [isContent, hpiece] at hcontent
    cases hcontent
  · intro hlines
    rw [Block.text, hlines]
    rfl

/-- The text of a block lacks the characters of its heading. -/
theorem ink_text_lt {lines : List (List Char)} {b : Block} (hb : b ∈ blocks lines) :
    ink b.text.toList < ink lines.flatten := by
  obtain ⟨before, heading, after, rfl, hheading, hlines⟩ := mem_blocks_iff.mp hb
  have htext : ink b.text.toList = ink (content after).flatten := by
    rw [Block.text, String.toList_ofList, Blank.ink_trimChars, joined, Line.ink_intercalate, hlines]
  have hafter : ink (content after).flatten ≤ ink after.flatten :=
    (content_sublist after).flatten.countP_le
  have hink : 0 < ink heading := Blank.ink_pos fun hblank => by
    rw [Heading.opens?_eq_none hblank] at hheading
    cases hheading
  rw [htext, List.flatten_append, List.flatten_cons, Blank.ink_append, Blank.ink_append]
  omega

/-! ## The sections of a reply -/

/-- Some line of a reply is a heading of the section. -/
def Opened (text : String) (s : Section) : Prop :=
  ∃ line ∈ Line.linesOf text.toList, Heading.opens? line = some s

/-- The last block of some section has a line. -/
def Filled (text : String) : Prop :=
  ∃ s b, lastBlock? s (blocks (Line.linesOf text.toList)) = some b ∧ b.lines ≠ []

/-- The block of a section is behind a line that opens it. -/
theorem opened_of_lastBlock? {text : String} {s : Section} {b : Block}
    (h : lastBlock? s (blocks (Line.linesOf text.toList)) = some b) : Opened text s := by
  obtain ⟨hb, rfl⟩ := mem_of_lastBlock? h
  obtain ⟨before, heading, after, hlines, hheading, -⟩ := mem_blocks_iff.mp hb
  exact ⟨heading, by simp [hlines], hheading⟩

theorem isEmpty_fill_iff (text : String) :
    (fill (blocks (Line.linesOf text.toList))).isEmpty = true ↔ ¬ Filled text := by
  rw [fill_isEmpty_iff]
  constructor
  · rintro h ⟨s, b, hlast, hlines⟩
    exact hlines ((text_eq_empty_iff (mem_of_lastBlock? hlast).1).mp (h s b hlast))
  · intro h s b hlast
    refine (text_eq_empty_iff (mem_of_lastBlock? hlast).1).mpr ?_
    by_contra hlines
    exact h ⟨s, b, hlast, hlines⟩

/-- Where something stands behind a last heading, each section has the text of its last block. -/
theorem read_get_of_filled {text : String} (h : Filled text) (s : Section) :
    (read text).get s =
      ((lastBlock? s (blocks (Line.linesOf text.toList))).map Block.text).getD "" := by
  have hfilled : (fill (blocks (Line.linesOf text.toList))).isEmpty ≠ true :=
    fun hempty => (isEmpty_fill_iff text).mp hempty h
  simp only [read]
  rw [if_neg hfilled, fill_get]

/-- Where nothing does, the whole reply is the summary. -/
theorem read_get_of_not_filled {text : String} (h : ¬ Filled text) (s : Section) :
    (read text).get s = if s = .summary then Blank.trim text else "" := by
  have hempty := (isEmpty_fill_iff text).mpr h
  simp only [read]
  rw [if_pos hempty]
  split
  · rename_i hs
    rw [hs, Insights.get_set_self]
  · rename_i hs
    rw [Insights.get_set_of_ne _ hs]
    exact (isEmpty_iff _).mp hempty s

/-- A section has no text if nothing opens it, and else what stands behind a heading of its own. -/
theorem read_get_cases {text : String} (h : Filled text) (s : Section) :
    (read text).get s = "" ∨ ∃ before heading after,
      Line.linesOf text.toList = before ++ heading :: after ∧ Heading.opens? heading = some s ∧
        (read text).get s = (⟨s, content after⟩ : Block).text := by
  rw [read_get_of_filled h]
  cases hlast : lastBlock? s (blocks (Line.linesOf text.toList)) with
  | none => exact Or.inl rfl
  | some b =>
    obtain ⟨hb, rfl⟩ := mem_of_lastBlock? hlast
    obtain ⟨before, heading, after, hlines, hheading, hcontent⟩ := mem_blocks_iff.mp hb
    refine Or.inr ⟨before, heading, after, hlines, hheading, ?_⟩
    rw [← hcontent]
    rfl

/-- A text of a section is not the whole reply. -/
theorem get_ne_trim {text : String} (h : Filled text) (s : Section) :
    (read text).get s ≠ Blank.trim text := by
  intro heq
  have hwhole : ink ((read text).get s).toList = ink (Line.linesOf text.toList).flatten := by
    rw [heq, Blank.trim, String.toList_ofList, Blank.ink_trimChars, Line.ink_linesOf]
  have hless : ink ((read text).get s).toList < ink (Line.linesOf text.toList).flatten := by
    rw [read_get_of_filled h]
    cases hlast : lastBlock? s (blocks (Line.linesOf text.toList)) with
    | none =>
      obtain ⟨t, b, ht, -⟩ := h
      exact Nat.zero_lt_of_lt (ink_text_lt (mem_of_lastBlock? ht).1)
    | some b => exact ink_text_lt (mem_of_lastBlock? hlast).1
  omega

/-- **When the whole reply becomes the summary.** Without headings it always does. A reply with headings
leaves the sections without a heading empty, and is not the summary as a whole, exactly if a line of
content stands behind the last heading of some section; and then each section that has a text has it
from behind a heading of its own. -/
theorem whole_reply_iff (text : String) :
    ((∀ s, ¬ Opened text s) →
        ∀ s, (read text).get s = if s = .summary then Blank.trim text else "") ∧
      ((∃ s, Opened text s) →
        ((∀ s, ¬ Opened text s → (read text).get s = "") ∧
          (read text).get .summary ≠ Blank.trim text ↔ Filled text)) ∧
      (Filled text → ∀ s, (read text).get s = "" ∨ ∃ before heading after,
        Line.linesOf text.toList = before ++ heading :: after ∧ Heading.opens? heading = some s ∧
          (read text).get s = (⟨s, content after⟩ : Block).text) := by
  refine ⟨fun hnone => read_get_of_not_filled ?_, fun _ => ⟨?_, fun h => ⟨?_, ?_⟩⟩, read_get_cases⟩
  · rintro ⟨s, b, hlast, -⟩
    exact hnone s (opened_of_lastBlock? hlast)
  · rintro ⟨-, hsummary⟩
    by_contra h
    rw [read_get_of_not_filled h, if_pos rfl] at hsummary
    exact hsummary rfl
  · intro s hs
    rcases read_get_cases h s with hempty | ⟨before, heading, after, hlines, hheading, -⟩
    · exact hempty
    · exact absurd ⟨heading, by simp [hlines], hheading⟩ hs
  · exact get_ne_trim h .summary

theorem whole_reply_trends :
    (∃ s, Opened "Sure!\nKEY TRENDS\nflat\nANOMALIES" s) ∧ Filled "Sure!\nKEY TRENDS\nflat\nANOMALIES" ∧
      ¬ Opened "Sure!\nKEY TRENDS\nflat\nANOMALIES" .summary ∧
      (read "Sure!\nKEY TRENDS\nflat\nANOMALIES").get .summary = "" := by
  have hopened : Opened "Sure!\nKEY TRENDS\nflat\nANOMALIES" .trends :=
    ⟨"KEY TRENDS".toList, by decide +kernel, by decide +kernel⟩
  have hfilled : Filled "Sure!\nKEY TRENDS\nflat\nANOMALIES" :=
    ⟨.trends, ⟨.trends, ["flat".toList]⟩, by decide +kernel, by decide⟩
  have hsummary : ¬ Opened "Sure!\nKEY TRENDS\nflat\nANOMALIES" .summary := by
    rintro ⟨line, hline, hheading⟩
    have hnone : ∀ l ∈ Line.linesOf "Sure!\nKEY TRENDS\nflat\nANOMALIES".toList,
      Heading.opens? l ≠ some .summary := by decide +kernel
    exact hnone line hline hheading
  obtain ⟨-, hkeeps, -⟩ := whole_reply_iff "Sure!\nKEY TRENDS\nflat\nANOMALIES"
  exact ⟨⟨_, hopened⟩, hfilled, hsummary, ((hkeeps ⟨_, hopened⟩).mpr hfilled).1 .summary hsummary⟩

/-- A reply whose only section has no line of content: its heading and what stands before it are the
summary, though nothing opens the summary. -/
theorem empty_section_shows_heading :
    let text := "Sure! Here you go.\nKEY TRENDS\n---"
    Line.linesOf text.toList = ["Sure! Here you go.".toList, "KEY TRENDS".toList, "---".toList] ∧
      Heading.opens? "KEY TRENDS".toList = some .trends ∧
      (∀ line ∈ Line.linesOf text.toList, Heading.opens? line ≠ some .summary) ∧
      (read text).get .summary = text := by
  refine ⟨?_, ?_, ?_, ?_⟩
  all_goals decide +kernel

end Reply

end TableProfile
