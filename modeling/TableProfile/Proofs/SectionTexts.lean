import TableProfile.Proofs.ReplyLayout

/-!
# The texts of sections

The text of a section is put together from the lines of a block and trimmed. Cut into lines again, it has
the lines of the block but for white space at their ends (`Line.Covered`): a carriage return that ends a
line goes when a line feed comes behind it, and trimming shortens the first line and the last one. What
is content and what is a heading is judged by what trimming leaves of a line. So where some section has
what stands under a heading of its own, the lines of every section are content and none is a heading.
Such a text has no blocks, and read as a reply it is the summary as a whole.

* `Line.covered_trimChars`, `Line.covered_intercalate`: the lines of a text that is trimmed, and of one
  that is put together from lines.
* `line_of_section`: the lines of a section.
* `trim_get`, `isEmpty_read_iff`: sections are trimmed, and when all of them are empty.
* `section_texts`: what a section can hold, and how it is read as a reply.
-/
namespace TableProfile

/-! ## Lines up to white space -/

namespace Line

/-- Each line of the first list is one of the second but for white space at its ends. -/
def Covered (lines lines' : List (List Char)) : Prop :=
  ∀ line ∈ lines, ∃ line' ∈ lines', Blank.trimChars line = Blank.trimChars line'

theorem Covered.trans {lines lines' lines'' : List (List Char)} (h : Covered lines lines')
    (h' : Covered lines' lines'') : Covered lines lines'' := by
  intro line hline
  obtain ⟨line', hline', htrim⟩ := h line hline
  obtain ⟨line'', hline'', htrim'⟩ := h' line' hline'
  exact ⟨line'', hline'', htrim.trans htrim'⟩

theorem covered_of_subset {lines lines' : List (List Char)} (h : lines ⊆ lines') : Covered lines lines' :=
  fun line hline => ⟨line, h hline, rfl⟩

/-- One line may differ in white space. -/
theorem covered_insert {lines more : List (List Char)} {line line' : List Char}
    (h : Blank.trimChars line = Blank.trimChars line') :
    Covered (lines ++ line :: more) (lines ++ line' :: more) := by
  intro l hl
  rcases List.mem_append.mp hl with hl | hl
  · exact ⟨l, List.mem_append_left _ hl, rfl⟩
  · rcases List.mem_cons.mp hl with rfl | hl
    · exact ⟨line', List.mem_append_right _ List.mem_cons_self, h⟩
    · exact ⟨l, List.mem_append_right _ (List.mem_cons_of_mem _ hl), rfl⟩

/-! ### White space at the ends of a text -/

theorem covered_cons_blank {c : Char} (h : Blank.isBlank c = true) (cs : List Char) :
    Covered (linesOf cs) (linesOf (c :: cs)) := by
  rcases linesOf_cons_blank h cs with ⟨line, -, hlines⟩ | ⟨line, line', rest, hself, hcons, htrim⟩
  · rw [hlines]
    exact covered_of_subset (List.subset_cons_self line _)
  · rw [hself, hcons]
    exact @covered_insert [] rest line line' htrim.symm

theorem covered_concat_blank {c : Char} (h : Blank.isBlank c = true) (cs : List Char) :
    Covered (linesOf cs) (linesOf (cs ++ [c])) := by
  rcases linesOf_concat_blank h cs with
    ⟨line, -, hlines⟩ | ⟨lines, line, line', blanks, hblanks, hends, hself, hconcat⟩
  · rw [hlines]
    exact covered_of_subset (List.subset_append_left _ _)
  · rw [hself, hconcat]
    refine covered_insert ?_
    rcases hends with rfl | rfl
    · exact (Blank.trimChars_append_blank line hblanks).symm
    · exact Blank.trimChars_append_blank line' hblanks

theorem covered_blank_append {blanks : List Char} (h : ∀ c ∈ blanks, Blank.isBlank c = true)
    (cs : List Char) : Covered (linesOf cs) (linesOf (blanks ++ cs)) := by
  induction blanks with
  | nil => exact covered_of_subset (List.Subset.refl _)
  | cons c rest ih =>
    obtain ⟨hc, hrest⟩ := List.forall_mem_cons.mp h
    exact (ih hrest).trans (covered_cons_blank hc (rest ++ cs))

theorem covered_append_blank {blanks : List Char} (h : ∀ c ∈ blanks, Blank.isBlank c = true)
    (cs : List Char) : Covered (linesOf cs) (linesOf (cs ++ blanks)) := by
  induction blanks generalizing cs with
  | nil =>
    rw [List.append_nil]
    exact covered_of_subset (List.Subset.refl _)
  | cons c rest ih =>
    obtain ⟨hc, hrest⟩ := List.forall_mem_cons.mp h
    rw [List.append_cons]
    exact (covered_concat_blank hc cs).trans (ih hrest (cs ++ [c]))

/-- The lines of a trimmed text. -/
theorem covered_trimChars (cs : List Char) : Covered (linesOf (Blank.trimChars cs)) (linesOf cs) := by
  obtain ⟨before, behind, hcs, hblank⟩ := Blank.exists_trimChars cs
  obtain ⟨hbefore, hbehind⟩ := List.forall_mem_append.mp hblank
  have hends : Covered (linesOf (Blank.trimChars cs)) (linesOf (before ++ Blank.trimChars cs ++ behind)) :=
    (covered_blank_append hbefore _).trans (covered_append_blank hbehind _)
  rwa [← hcs] at hends

/-! ### Texts put together from lines -/

theorem newline_notMem_of_mem_pieces {begun cs piece : List Char} (hbegun : '\n' ∉ begun)
    (h : piece ∈ Split.pieces '\n' begun cs) : '\n' ∉ piece := by
  induction cs generalizing begun with
  | nil =>
    obtain rfl := List.mem_singleton.mp h
    rwa [List.mem_reverse]
  | cons c rest ih =>
    rw [Split.pieces] at h
    split at h
    · rcases List.mem_cons.mp h with rfl | h
      · rwa [List.mem_reverse]
      · exact ih List.not_mem_nil h
    · rename_i hc
      refine ih (fun hmem => ?_) h
      rcases List.mem_cons.mp hmem with heq | hmem
      · exact hc heq.symm
      · exact hbegun hmem

/-- A line has no line feed. -/
theorem newline_notMem_of_mem_linesOf {cs line : List Char} (h : line ∈ linesOf cs) : '\n' ∉ line := by
  obtain ⟨piece, hpiece, hline⟩ := mem_ofPieces h
  exact fun hmem => newline_notMem_of_mem_pieces List.not_mem_nil hpiece (hline.subset hmem)

/-- The lines of a text that is put together from lines. -/
theorem covered_intercalate {lines : List (List Char)} (h : ∀ line ∈ lines, '\n' ∉ line) :
    Covered (linesOf (List.intercalate ['\n'] lines)) lines := by
  induction lines with
  | nil => exact covered_of_subset (List.Subset.refl _)
  | cons line rest ih =>
    obtain ⟨hline, hrest⟩ := List.forall_mem_cons.mp h
    cases rest with
    | nil =>
      rw [List.intercalate_singleton]
      by_cases hempty : line = []
      · rw [hempty]
        exact covered_of_subset (List.nil_subset _)
      · rw [linesOf_last hline hempty]
        exact covered_of_subset (List.Subset.refl _)
    | cons next more =>
      rw [List.intercalate_cons_cons, List.append_assoc, List.singleton_append, linesOf_line hline]
      intro l hl
      rcases List.mem_cons.mp hl with rfl | hl
      · exact ⟨line, List.mem_cons_self, trimChars_withoutReturn line⟩
      · obtain ⟨l', hl', htrim⟩ := ih hrest l hl
        exact ⟨l', List.mem_cons_of_mem _ hl', htrim⟩

end Line

theorem Blank.trim_trim (s : String) : trim (trim s) = trim s := by
  rw [trim, trim, String.toList_ofList, trimChars_trimChars]

namespace Reply

/-! ## The lines of a section -/

/-- The content behind a heading ends at the next one. -/
theorem opens?_of_mem_content {lines : List (List Char)} {l : List Char} (h : l ∈ content lines) :
    Heading.opens? l = none := by
  induction lines with
  | nil => cases h
  | cons first rest ih =>
    rw [content] at h
    split at h
    · cases h
    · rename_i hopens
      split at h
      · rcases List.mem_cons.mp h with rfl | h
        · simpa using hopens
        · exact ih h
      · exact ih h

theorem opens?_of_mem_block {lines : List (List Char)} {b : Block} (hb : b ∈ blocks lines)
    {l : List Char} (hl : l ∈ b.lines) : Heading.opens? l = none := by
  obtain ⟨-, -, after, -, -, hlines⟩ := mem_blocks_iff.mp hb
  rw [hlines] at hl
  exact opens?_of_mem_content hl

/-- The lines of a block are lines of the reply. -/
theorem mem_of_mem_block {lines : List (List Char)} {b : Block} (hb : b ∈ blocks lines)
    {l : List Char} (hl : l ∈ b.lines) : l ∈ lines := by
  obtain ⟨before, heading, after, rfl, -, hlines⟩ := mem_blocks_iff.mp hb
  rw [hlines] at hl
  exact List.mem_append_right _ (List.mem_cons_of_mem _ ((content_sublist after).subset hl))

/-- The text of a block has the lines of the block. -/
theorem covered_text {text : String} {b : Block} (hb : b ∈ blocks (Line.linesOf text.toList)) :
    Line.Covered (Line.linesOf b.text.toList) b.lines := by
  rw [Block.text, String.toList_ofList]
  refine (Line.covered_trimChars _).trans (Line.covered_intercalate fun l hl => ?_)
  exact Line.newline_notMem_of_mem_linesOf (mem_of_mem_block hb hl)

/-- Where some section has what stands under a heading of its own, the lines of every section are content
and no headings. -/
theorem line_of_section {text : String} (h : Filled text) (s : Section) {line : List Char}
    (hline : line ∈ Line.linesOf ((read text).get s).toList) :
    isContent line = true ∧ Heading.opens? line = none := by
  rw [read_get_of_filled h] at hline
  cases hlast : lastBlock? s (blocks (Line.linesOf text.toList)) with
  | none =>
    rw [hlast] at hline
    cases hline
  | some b =>
    rw [hlast] at hline
    obtain ⟨hb, -⟩ := mem_of_lastBlock? hlast
    obtain ⟨l, hl, htrim⟩ := covered_text hb line hline
    exact ⟨(isContent_congr htrim).trans (isContent_of_mem_block hb hl),
      (Heading.opens?_congr htrim).trans (opens?_of_mem_block hb hl)⟩

/-! ## Sections as texts -/

theorem Block.trim_text (b : Block) : Blank.trim b.text = b.text := by
  rw [Block.text, Blank.trim, String.toList_ofList, Blank.trimChars_trimChars]

/-- A section has no white space at its ends. -/
theorem trim_get (text : String) (s : Section) : Blank.trim ((read text).get s) = (read text).get s := by
  by_cases h : Filled text
  · rw [read_get_of_filled h]
    cases lastBlock? s (blocks (Line.linesOf text.toList)) with
    | none => rfl
    | some b => exact b.trim_text
  · rw [read_get_of_not_filled h]
    split
    · exact Blank.trim_trim text
    · rfl

/-- White space alone has no headings. -/
theorem not_filled_of_blank {text : String} (h : ∀ c ∈ text.toList, Blank.isBlank c = true) :
    ¬ Filled text := by
  rintro ⟨s, b, hlast, -⟩
  have hless := ink_text_lt (mem_of_lastBlock? hlast).1
  rw [Line.ink_linesOf, Blank.ink_eq_zero h] at hless
  exact Nat.not_lt_zero _ hless

/-- No section holds a text exactly if the reply is white space. -/
theorem isEmpty_read_iff (text : String) :
    (read text).isEmpty = true ↔ ∀ c ∈ text.toList, Blank.isBlank c = true := by
  rw [isEmpty_iff]
  constructor
  · intro h
    have hfilled : ¬ Filled text := by
      rintro ⟨s, b, hlast, hlines⟩
      have hget := read_get_of_filled ⟨s, b, hlast, hlines⟩ s
      rw [hlast, h s] at hget
      exact hlines ((text_eq_empty_iff (mem_of_lastBlock? hlast).1).mp hget.symm)
    have hsummary := h .summary
    rw [read_get_of_not_filled hfilled, if_pos rfl] at hsummary
    exact (Blank.trim_eq_empty_iff text).mp hsummary
  · intro h s
    rw [read_get_of_not_filled (not_filled_of_blank h), (Blank.trim_eq_empty_iff text).mpr h, ite_self]

/-- A trimmed text without headings is read as the summary. -/
theorem read_of_no_heading {text : String} (htrim : Blank.trim text = text)
    (h : ∀ line ∈ Line.linesOf text.toList, Heading.opens? line = none) :
    read text = Insights.empty.set .summary text := by
  have hblocks : blocks (Line.linesOf text.toList) = [] := by
    rw [← List.append_nil (Line.linesOf text.toList), blocks_append_of_none h]
    rfl
  simp only [read]
  rw [hblocks, htrim]
  rfl

/-- **What a section can hold.** No section holds a text exactly if the reply is white space, and a section
has no white space at its ends. If some section has what stands under a heading of its own, then no line
of any section is blank, a rule or a heading; and each section, read as a reply, is the summary, and the
other three sections of that reply are empty. A section that is opened again has only what stands under
its last heading; where that leaves all sections without a text, the whole reply is the summary, headings
and all. -/
theorem section_texts (text : String) :
    ((read text).isEmpty = true ↔ ∀ c ∈ text.toList, Blank.isBlank c = true) ∧
      (∀ s, Blank.trim ((read text).get s) = (read text).get s) ∧
      ((∃ s, Received text s) → ∀ s,
        (∀ line ∈ Line.linesOf ((read text).get s).toList, Blank.trimChars line ≠ [] ∧
          ¬ "---".toList <+: Blank.trimChars line ∧ Heading.opens? line = none) ∧
        read ((read text).get s) = Insights.empty.set .summary ((read text).get s)) ∧
      ((¬ ∃ s, Received text s) →
        ∀ s, (read text).get s = if s = .summary then Blank.trim text else "") := by
  rw [exists_received_iff]
  refine ⟨isEmpty_read_iff text, trim_get text, fun hfilled s => ?_, read_get_of_not_filled⟩
  have hlines {line : List Char} := @line_of_section text hfilled s line
  refine ⟨fun line hline => ?_, read_of_no_heading (trim_get text s) fun line hline => (hlines hline).2⟩
  obtain ⟨hcontent, hheading⟩ := hlines hline
  obtain ⟨hblank, hrule⟩ := (isContent_iff line).mp hcontent
  exact ⟨hblank, hrule, hheading⟩

/-- Two lines of a block, the first one with white space before it and two carriage returns behind it. -/
theorem section_texts_returns :
    let text := "KEY TRENDS\n - up\r\r\n---\n - more\r"
    Received text .trends ∧ (read text).get .trends = "- up\r\n - more" ∧
      Line.linesOf ((read text).get .trends).toList = ["- up".toList, " - more".toList] ∧
      read ((read text).get .trends) = ⟨"- up\r\n - more", "", "", ""⟩ := by
  intro text
  have hreceived : Received text .trends :=
    ⟨[], "KEY TRENDS".toList, [" - up\r".toList, "---".toList, " - more\r".toList], by decide, by decide,
      by decide, by decide⟩
  have htrends : (read text).get .trends = "- up\r\n - more" := by decide
  have hread := ((section_texts text).2.2.1 ⟨.trends, hreceived⟩ .trends).2
  refine ⟨hreceived, htrends, ?_, ?_⟩
  · rw [htrends]
    decide
  · rw [hread, htrends]
    rfl

end Reply

end TableProfile
