import TableProfile.Insight.Reply
import TableProfile.Proofs.TextPieces

/-!
# What becomes of the lines of a reply

A line of content under a heading belongs to the block of that heading. Blocks are cut at headings only
(`blocks_append`, `content_append`), so the block holds the line whatever stands around it. But a section
has the text of its last block alone (`fill_get`): where a heading occurs again, what stood under it
before is gone, unless the last block repeats it. The reply as a whole comes to the rescue only if every
section is left empty, and then only for the summary.

* `line_kept_iff`: when a line of content is in the section of its heading.
* `reopened_section_loses_line`: a reply in which it is not.
-/
namespace TableProfile.Reply

/-- The last block of a section. -/
def lastBlock? (s : Section) (blocks : List Block) : Option Block :=
  (blocks.filter (·.name == s)).getLast?

/-! ## Blocks -/

theorem isContent_iff (line : List Char) :
    isContent line = true ↔
      Blank.trimChars line ≠ [] ∧ ¬ "---".toList <+: Blank.trimChars line := by
  rw [isContent, Bool.and_eq_true, Bool.not_eq_true', Bool.not_eq_true', List.isEmpty_eq_false_iff,
    ← List.isPrefixOf_iff_prefix, Bool.not_eq_true]

theorem content_append {lines : List (List Char)} (h : ∀ l ∈ lines, Heading.opens? l = none)
    (rest : List (List Char)) : content (lines ++ rest) = lines.filter isContent ++ content rest := by
  induction lines with
  | nil => rfl
  | cons l more ih =>
    have hl := h l List.mem_cons_self
    have hmore := ih fun l hl => h l (List.mem_cons_of_mem _ hl)
    simp only [List.cons_append, content, hl, Option.isSome_none, Bool.false_eq_true, if_false, hmore]
    split
    · rename_i hcontent
      rw [List.filter_cons_of_pos hcontent, List.cons_append]
    · rename_i hcontent
      rw [List.filter_cons_of_neg hcontent]

theorem content_append_heading (lines : List (List Char)) {heading : List Char} {s : Section}
    (h : Heading.opens? heading = some s) (rest : List (List Char)) :
    content (lines ++ heading :: rest) = content lines := by
  induction lines with
  | nil => simp only [List.nil_append, content, h, Option.isSome_some, if_true]
  | cons l more ih => simp only [List.cons_append, content, ih]

/-- A heading begins a block, whatever stands before it. -/
theorem blocks_append (lines : List (List Char)) {heading : List Char} {s : Section}
    (h : Heading.opens? heading = some s) (rest : List (List Char)) :
    blocks (lines ++ heading :: rest) = blocks lines ++ ⟨s, content rest⟩ :: blocks rest := by
  induction lines with
  | nil => simp only [List.nil_append, blocks, h]
  | cons l more ih =>
    simp only [List.cons_append, blocks, ih]
    cases Heading.opens? l with
    | none => rfl
    | some t => rw [content_append_heading more h rest]; rfl

/-- Lines that are no headings begin no block. -/
theorem blocks_append_of_none {lines : List (List Char)} (h : ∀ l ∈ lines, Heading.opens? l = none)
    (rest : List (List Char)) : blocks (lines ++ rest) = blocks rest := by
  induction lines with
  | nil => rfl
  | cons l more ih =>
    simp only [List.cons_append, blocks, h l List.mem_cons_self]
    exact ih fun l hl => h l (List.mem_cons_of_mem _ hl)

/-! ## The last block of a section -/

theorem lastBlock?_append (s : Section) (before later : List Block) :
    lastBlock? s (before ++ later) = (lastBlock? s later).or (lastBlock? s before) := by
  unfold lastBlock?
  rw [List.filter_append, List.getLast?_append]

theorem lastBlock?_singleton (s : Section) (b : Block) :
    lastBlock? s [b] = if b.name = s then some b else none := by
  by_cases h : b.name = s <;> simp [lastBlock?, h]

theorem lastBlock?_cons (s : Section) (b : Block) (later : List Block) :
    lastBlock? s (b :: later) = (lastBlock? s later).or (if b.name = s then some b else none) := by
  rw [← List.singleton_append, lastBlock?_append, lastBlock?_singleton]

theorem foldl_set_get (s : Section) (blocks : List Block) (i : Insights) :
    (blocks.foldl (fun i b => i.set b.name b.text) i).get s =
      ((lastBlock? s blocks).map Block.text).getD (i.get s) := by
  induction blocks generalizing i with
  | nil => rfl
  | cons b later ih =>
    rw [List.foldl_cons, ih, lastBlock?_cons]
    cases lastBlock? s later with
    | some last => rfl
    | none =>
      by_cases h : b.name = s
      · rw [if_pos h, ← h, Insights.get_set_self]
        rfl
      · rw [if_neg h, Insights.get_set_of_ne _ (Ne.symm h)]
        rfl

/-- A section has the text of its last block. -/
theorem fill_get (s : Section) (blocks : List Block) :
    (fill blocks).get s = ((lastBlock? s blocks).map Block.text).getD "" := by
  have hempty : Insights.empty.get s = "" := by cases s <;> rfl
  rw [fill, foldl_set_get, hempty]

/-! ## The whole reply -/

theorem isEmpty_iff (i : Insights) : i.isEmpty = true ↔ ∀ s, i.get s = "" := by
  constructor
  · intro h s
    have hs := List.filter_eq_nil_iff.mp (List.isEmpty_iff.mp h) (s, i.get s)
      (List.mem_map.mpr ⟨s, by cases s <;> decide, rfl⟩)
    simpa using hs
  · intro h
    refine List.isEmpty_iff.mpr (List.filter_eq_nil_iff.mpr fun p hp => ?_)
    obtain ⟨s, -, rfl⟩ := List.mem_map.mp hp
    simp [h s]

/-- What a line of content leaves in the text of its block. -/
theorem trimChars_infix_text {b : Block} {line : List Char} (h : line ∈ b.lines) :
    Blank.trimChars line <:+: b.text.toList := by
  have hjoined : line <:+: joined b.lines := Line.infix_intercalate h
  rw [Block.text, String.toList_ofList]
  exact Blank.trimChars_infix hjoined

/-- No section gets a text if the last block of every section has none. -/
theorem fill_isEmpty_iff (blocks : List Block) :
    (fill blocks).isEmpty = true ↔ ∀ s b, lastBlock? s blocks = some b → b.text = "" := by
  rw [isEmpty_iff]
  constructor
  · intro h s b hb
    have hs := h s
    rw [fill_get, hb] at hs
    exact hs
  · intro h s
    rw [fill_get]
    cases hb : lastBlock? s blocks with
    | none => rfl
    | some b => exact h s b hb

/-- The block of a heading holds the lines of content behind it, and the blocks further behind are
those of the rest of the reply. -/
theorem lastBlock?_of_line (before after : List (List Char)) {between : List (List Char)}
    {heading line : List Char} {s : Section} (hheading : Heading.opens? heading = some s)
    (hbetween : ∀ l ∈ between, Heading.opens? l = none) (hline : Heading.opens? line = none)
    (hcontent : isContent line = true) :
    ∃ own : Block, line ∈ own.lines ∧
      lastBlock? s (blocks (before ++ heading :: (between ++ line :: after))) =
        some ((lastBlock? s (blocks after)).getD own) := by
  refine ⟨⟨s, content (between ++ line :: after)⟩, ?_, ?_⟩
  · simp only [content_append hbetween, content, hline, hcontent, Option.isSome_none,
      Bool.false_eq_true, if_false, if_true]
    exact List.mem_append_right _ List.mem_cons_self
  · have hafter : blocks (between ++ line :: after) = blocks after := by
      rw [blocks_append_of_none hbetween, blocks, hline]
    rw [blocks_append before hheading, hafter, lastBlock?_append, lastBlock?_cons, if_pos rfl]
    cases lastBlock? s (blocks after) <;> rfl

/-- **When a line is kept.** A line of content is in the section of its heading if that section is not
opened again, or if its last block has the line too, or if the section is the summary and no section
gets a text. -/
theorem line_kept_iff {text : String} {before between after : List (List Char)}
    {heading line : List Char} {s : Section}
    (hlines : Line.linesOf text.toList = before ++ heading :: (between ++ line :: after))
    (hheading : Heading.opens? heading = some s)
    (hbetween : ∀ l ∈ between, Heading.opens? l = none) (hline : Heading.opens? line = none)
    (hcontent : isContent line = true) :
    Blank.trimChars line <:+: ((read text).get s).toList ↔
      (∀ b, lastBlock? s (blocks after) = some b → Blank.trimChars line <:+: b.text.toList) ∨
        (s = .summary ∧ ∀ t b, lastBlock? t (blocks (Line.linesOf text.toList)) = some b →
          b.text = "") := by
  obtain ⟨own, hown, hlast⟩ := lastBlock?_of_line before after hheading hbetween hline hcontent
  rw [← hlines] at hlast
  have hfill : (fill (blocks (Line.linesOf text.toList))).get s =
      ((lastBlock? s (blocks after)).getD own).text := by
    rw [fill_get, hlast]
    rfl
  -- the two ways to be kept exclude each other: by a block that has the line, or where all are blank
  have hkept : Blank.trimChars line <:+:
        ((fill (blocks (Line.linesOf text.toList))).get s).toList ↔
      ∀ b, lastBlock? s (blocks after) = some b → Blank.trimChars line <:+: b.text.toList := by
    rw [hfill]
    cases lastBlock? s (blocks after) with
    | none => simp [trimChars_infix_text hown]
    | some b => simp
  simp only [read]
  by_cases hblank : (fill (blocks (Line.linesOf text.toList))).isEmpty = true
  · rw [if_pos hblank]
    by_cases hs : s = .summary
    · subst hs
      have hmem : line ∈ Line.linesOf text.toList := by simp [hlines]
      have htext : Blank.trimChars line <:+: (Blank.trim text).toList := by
        rw [Blank.trim, String.toList_ofList]
        exact Blank.trimChars_infix (Line.infix_of_mem_linesOf hmem)
      rw [Insights.get_set_self]
      exact iff_of_true htext (Or.inr ⟨rfl, (fill_isEmpty_iff _).mp hblank⟩)
    · rw [Insights.get_set_of_ne _ hs, hkept]
      refine ⟨Or.inl, ?_⟩
      rintro (h | ⟨h, -⟩)
      · exact h
      · exact absurd h hs
  · rw [if_neg hblank, hkept]
    refine ⟨Or.inl, ?_⟩
    rintro (h | ⟨-, h⟩)
    · exact h
    · exact absurd ((fill_isEmpty_iff _).mpr h) hblank

theorem line_kept_anomalies :
    Blank.trimChars "alpha".toList <:+:
      ((read "KEY TRENDS\nalpha\nANOMALIES\nbeta").get .trends).toList := by
  have hlines : Line.linesOf "KEY TRENDS\nalpha\nANOMALIES\nbeta".toList =
      [] ++ "KEY TRENDS".toList :: ([] ++ "alpha".toList :: ["ANOMALIES".toList, "beta".toList]) := by
    decide +kernel
  refine (line_kept_iff hlines ?_ ?_ ?_ ?_).mpr (Or.inl fun b hb => ?_)
  · decide +kernel
  · intro l hl
    cases hl
  · decide +kernel
  · decide +kernel
  · have hnone : lastBlock? .trends (blocks ["ANOMALIES".toList, "beta".toList]) = none := by
      decide +kernel
    rw [hnone] at hb
    cases hb

/-- A reply that opens a section twice and so loses the line under the first of the two headings. -/
theorem reopened_section_loses_line :
    Line.linesOf "KEY TRENDS\nalpha\nKEY TRENDS\nbeta".toList =
        ["KEY TRENDS".toList, "alpha".toList, "KEY TRENDS".toList, "beta".toList] ∧
      Heading.opens? "KEY TRENDS".toList = some .trends ∧ Heading.opens? "alpha".toList = none ∧
      isContent "alpha".toList = true ∧
      ¬ Blank.trimChars "alpha".toList <:+:
        ((read "KEY TRENDS\nalpha\nKEY TRENDS\nbeta").get .trends).toList := by
  refine ⟨?_, ?_, ?_, ?_, ?_⟩
  all_goals decide +kernel

end TableProfile.Reply
