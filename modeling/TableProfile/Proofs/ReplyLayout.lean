import Mathlib.Logic.Relation
import TableProfile.Proofs.HeadingWords
import TableProfile.Proofs.ReplyFallback
import TableProfile.Proofs.TextLines

/-!
# The layout of a reply

Blank lines and rules are no headings (`IsSpacer.opens?`), so the blocks of a reply
are those of its lines of content (`blocks_filter`). One edit of the layout (`Edit`) puts such a line
in, takes one out or changes the line endings. It leaves the lines of content as they are
(`content_of_edit`), and so does any number of edits (`content_of_relaid`).

White space at an end of a reply does more: it can make the first line or the last one longer. The first
line is in no block, since no heading stands before it; the last one may end a block, but the text of a
block is trimmed (`entries_concat_blanks`).

* `read_relaid`: a reply that is trimmed is read as before, and so is one of another layout, if some
  section has what stands under a heading of its own. Otherwise the whole reply is the summary, and its
  layout shows.
-/
namespace TableProfile

namespace Heading

theorem opens?_of_rule {line : List Char} (h : "---".toList <+: Blank.trimChars line) :
    opens? line = none := by
  obtain ⟨rest, hrest⟩ := h
  have hplain : Plain '-' := ⟨by decide, by decide, by decide⟩
  have hwords : words line = '-' :: ('-' :: '-' :: rest) := by
    rw [words_eq, ← hrest]
    have hnone : Decorated [] := ⟨[], [], [], [], rfl, by simp, by simp, by simp, by simp⟩
    refine strip_decorated hnone ?_
    rintro _ ⟨⟩
    exact hplain
  -- in the words of a heading the hyphen is a space, with which no opening begins
  rw [opens?, hwords, normal_cons]
  rfl

end Heading

namespace Reply

/-! ## Lines of content -/

theorem isContent_congr {line line' : List Char} (h : Blank.trimChars line = Blank.trimChars line') :
    isContent line = isContent line' := by
  rw [isContent, isContent, h]

/-- A blank line or a rule of hyphens. -/
def IsSpacer (line : List Char) : Prop :=
  Blank.trimChars line = [] ∨ "---".toList <+: Blank.trimChars line

theorem isSpacer_iff (line : List Char) : IsSpacer line ↔ isContent line ≠ true := by
  rw [Ne, isContent_iff, not_and_or, not_not, not_not, IsSpacer]

theorem IsSpacer.opens? {line : List Char} (h : IsSpacer line) : Heading.opens? line = none := by
  rcases h with hblank | hrule
  · exact Heading.opens?_eq_none hblank
  · exact Heading.opens?_of_rule hrule

theorem content_filter (lines : List (List Char)) : content (lines.filter isContent) = content lines := by
  induction lines with
  | nil => rfl
  | cons line rest ih =>
    by_cases hcontent : isContent line = true
    · rw [List.filter_cons_of_pos hcontent, content, content, ih]
    · have hspacer := (isSpacer_iff line).mpr hcontent
      rw [List.filter_cons_of_neg hcontent, ih, content, hspacer.opens?, if_neg hcontent]
      rfl

/-- The blocks of a reply are those of its lines of content. -/
theorem blocks_filter (lines : List (List Char)) : blocks (lines.filter isContent) = blocks lines := by
  induction lines with
  | nil => rfl
  | cons line rest ih =>
    by_cases hcontent : isContent line = true
    · rw [List.filter_cons_of_pos hcontent, blocks, blocks, content_filter, ih]
    · have hspacer := (isSpacer_iff line).mpr hcontent
      rw [List.filter_cons_of_neg hcontent, ih, blocks, hspacer.opens?]

/-! ## Edits of the layout -/

/-- A place where a line begins. -/
def AtLine (before : List Char) : Prop := before = [] ∨ ∃ lines, before = lines ++ ['\n']

/-- One edit of the layout of a text. -/
inductive Edit : List Char → List Char → Prop where
  | insert {before line : List Char} (after : List Char) (place : AtLine before) (one_line : '\n' ∉ line)
      (spacer : IsSpacer line) : Edit (before ++ after) (before ++ (line ++ '\n' :: after))
  | delete {before line : List Char} (after : List Char) (place : AtLine before) (one_line : '\n' ∉ line)
      (spacer : IsSpacer line) : Edit (before ++ (line ++ '\n' :: after)) (before ++ after)
  | returns {cs : List Char} (plain : '\r' ∉ cs) : Edit cs (Line.withReturns cs)

/-- The second text is the first one after any number of edits of its layout. -/
def Relaid : List Char → List Char → Prop := Relation.ReflTransGen Edit

/-- A line put in where a line begins is one more line. -/
theorem exists_linesOf_insert {before line : List Char} (hplace : AtLine before) (hline : '\n' ∉ line)
    (after : List Char) : ∃ lines, Line.linesOf (before ++ after) = lines ++ Line.linesOf after ∧
      Line.linesOf (before ++ (line ++ '\n' :: after)) =
        lines ++ Line.withoutReturn line :: Line.linesOf after := by
  rcases hplace with rfl | ⟨lines, rfl⟩
  · exact ⟨[], rfl, Line.linesOf_line hline after⟩
  · refine ⟨(Split.pieces '\n' [] lines).map Line.withoutReturn, ?_, ?_⟩
    · rw [List.append_assoc, List.singleton_append, Line.linesOf_append]
    · rw [List.append_assoc, List.singleton_append, Line.linesOf_append, Line.linesOf_line hline]

theorem filter_insert {before line : List Char} (hplace : AtLine before) (hline : '\n' ∉ line)
    (hspacer : IsSpacer line) (after : List Char) :
    (Line.linesOf (before ++ (line ++ '\n' :: after))).filter isContent =
      (Line.linesOf (before ++ after)).filter isContent := by
  obtain ⟨lines, hwithout, hwith⟩ := exists_linesOf_insert hplace hline after
  have hcontent : isContent (Line.withoutReturn line) ≠ true := by
    rw [isContent_congr (Line.trimChars_withoutReturn line)]
    exact (isSpacer_iff line).mp hspacer
  rw [hwithout, hwith, List.filter_append, List.filter_append, List.filter_cons_of_neg hcontent]

/-- An edit of the layout leaves the lines of content as they are. -/
theorem content_of_edit {cs ds : List Char} (h : Edit cs ds) :
    (Line.linesOf ds).filter isContent = (Line.linesOf cs).filter isContent := by
  cases h with
  | insert after place one_line spacer => exact filter_insert place one_line spacer after
  | delete after place one_line spacer => exact (filter_insert place one_line spacer after).symm
  | returns plain => rw [Line.linesOf_withReturns plain]

theorem content_of_relaid {cs ds : List Char} (h : Relaid cs ds) :
    (Line.linesOf ds).filter isContent = (Line.linesOf cs).filter isContent := by
  induction h with
  | refl => rfl
  | tail _ hedit ih => exact (content_of_edit hedit).trans ih

theorem blocks_of_relaid {cs ds : List Char} (h : Relaid cs ds) :
    blocks (Line.linesOf ds) = blocks (Line.linesOf cs) := by
  rw [← blocks_filter, content_of_relaid h, blocks_filter]

/-! ## White space at the ends -/

/-- What a block says: a section and its text. -/
def Block.entry (b : Block) : Section × String := (b.name, b.text)

/-- Only the texts of the blocks count. -/
theorem fill_congr {blocks blocks' : List Block}
    (h : blocks.map Block.entry = blocks'.map Block.entry) : fill blocks = fill blocks' := by
  have hfold (bs : List Block) :
      fill bs = (bs.map Block.entry).foldl (fun i e => i.set e.1 e.2) .empty := by
    rw [List.foldl_map]
    rfl
  rw [hfold, hfold, h]

/-- White space behind the last line of a block does not show in its text. -/
theorem text_concat_blanks (s : Section) (lines : List (List Char)) (line : List Char)
    {blanks : List Char} (h : ∀ c ∈ blanks, Blank.isBlank c = true) :
    (⟨s, lines ++ [line ++ blanks]⟩ : Block).text = (⟨s, lines ++ [line]⟩ : Block).text := by
  have hjoined : joined (lines ++ [line ++ blanks]) = joined (lines ++ [line]) ++ blanks := by
    rw [joined, joined, Line.intercalate_concat, Line.intercalate_concat, List.append_assoc]
  exact congrArg String.ofList (by rw [hjoined, Blank.trimChars_append_blank _ h])

/-- The last line belongs to the content or it does not, whatever white space it ends in. -/
theorem content_concat (lines : List (List Char)) (line : List Char) :
    (∀ x, Blank.trimChars x = Blank.trimChars line → content (lines ++ [x]) = content lines) ∨
      ∀ x, Blank.trimChars x = Blank.trimChars line → content (lines ++ [x]) = content lines ++ [x] := by
  induction lines with
  | nil =>
    by_cases hkept : Heading.opens? line = none ∧ isContent line = true
    · refine Or.inr fun x hx => ?_
      simp [content, Heading.opens?_congr hx, isContent_congr hx, hkept.1, hkept.2]
    · refine Or.inl fun x hx => ?_
      simp only [List.nil_append, content, Heading.opens?_congr hx, isContent_congr hx]
      cases hopens : Heading.opens? line with
      | some s => rfl
      | none =>
        have hcontent : isContent line ≠ true := fun h => hkept ⟨hopens, h⟩
        rw [if_neg hcontent]
        rfl
  | cons first rest ih =>
    simp only [List.cons_append, content]
    split
    · exact Or.inl fun _ _ => rfl
    · split
      · exact ih.imp (fun h x hx => by rw [h x hx]) fun h x hx => by rw [h x hx, List.cons_append]
      · exact ih

/-- White space behind the last line does not show in the texts of the blocks. -/
theorem entries_concat_blanks (lines : List (List Char)) (line : List Char) {blanks : List Char}
    (h : ∀ c ∈ blanks, Blank.isBlank c = true) :
    (blocks (lines ++ [line ++ blanks])).map Block.entry = (blocks (lines ++ [line])).map Block.entry := by
  have htrim := Blank.trimChars_append_blank line h
  induction lines with
  | nil => simp only [List.nil_append, blocks, Heading.opens?_congr htrim]
  | cons first rest ih =>
    rw [List.cons_append, List.cons_append, blocks, blocks]
    cases Heading.opens? first with
    | none => exact ih
    | some s =>
      have htext : (⟨s, content (rest ++ [line ++ blanks])⟩ : Block).entry =
          (⟨s, content (rest ++ [line])⟩ : Block).entry := by
        refine congrArg (Prod.mk s) ?_
        rcases content_concat rest line with hsame | hmore
        · rw [hsame _ htrim, hsame _ rfl]
        · rw [hmore _ htrim, hmore _ rfl]
          exact text_concat_blanks s _ line h
      rw [List.map_cons, List.map_cons, htext, ih]

theorem blocks_cons_blank {c : Char} (h : Blank.isBlank c = true) (cs : List Char) :
    blocks (Line.linesOf (c :: cs)) = blocks (Line.linesOf cs) := by
  rcases Line.linesOf_cons_blank h cs with ⟨line, hblank, hlines⟩ | ⟨line, line', rest, hself, hcons, htrim⟩
  · rw [hlines, blocks, Heading.opens?_eq_none hblank]
  · rw [hself, hcons, blocks, blocks, Heading.opens?_congr htrim]

theorem blocks_blank_append {blanks : List Char} (h : ∀ c ∈ blanks, Blank.isBlank c = true)
    (cs : List Char) : blocks (Line.linesOf (blanks ++ cs)) = blocks (Line.linesOf cs) := by
  induction blanks with
  | nil => rfl
  | cons c rest ih =>
    obtain ⟨hc, hrest⟩ := List.forall_mem_cons.mp h
    rw [List.cons_append, blocks_cons_blank hc, ih hrest]

theorem entries_concat_blank {c : Char} (h : Blank.isBlank c = true) (cs : List Char) :
    (blocks (Line.linesOf (cs ++ [c]))).map Block.entry =
      (blocks (Line.linesOf cs)).map Block.entry := by
  rcases Line.linesOf_concat_blank h cs with
    ⟨line, hblank, hlines⟩ | ⟨lines, line, line', blanks, hblanks, hends, hself, hconcat⟩
  · have hcontent : isContent line ≠ true := (isSpacer_iff line).mp (Or.inl hblank)
    rw [hlines, ← blocks_filter, List.filter_append, List.filter_cons_of_neg hcontent, List.filter_nil,
      List.append_nil, blocks_filter]
  · rw [hself, hconcat]
    rcases hends with rfl | rfl
    · exact entries_concat_blanks lines line hblanks
    · exact (entries_concat_blanks lines line' hblanks).symm

theorem entries_append_blank {blanks : List Char} (h : ∀ c ∈ blanks, Blank.isBlank c = true)
    (cs : List Char) : (blocks (Line.linesOf (cs ++ blanks))).map Block.entry =
      (blocks (Line.linesOf cs)).map Block.entry := by
  induction blanks generalizing cs with
  | nil => rw [List.append_nil]
  | cons c rest ih =>
    obtain ⟨hc, hrest⟩ := List.forall_mem_cons.mp h
    rw [List.append_cons, ih hrest, entries_concat_blank hc]

theorem fill_trimChars (cs : List Char) :
    fill (blocks (Line.linesOf (Blank.trimChars cs))) = fill (blocks (Line.linesOf cs)) := by
  obtain ⟨before, behind, hcs, hblank⟩ := Blank.exists_trimChars cs
  obtain ⟨hbefore, hbehind⟩ := List.forall_mem_append.mp hblank
  refine fill_congr ?_
  conv_rhs => rw [hcs, entries_append_blank hbehind, blocks_blank_append hbefore]

/-- A reply that is trimmed is read as before. -/
theorem read_trim (text : String) : read (Blank.trim text) = read text := by
  have hfill : fill (blocks (Line.linesOf (Blank.trim text).toList)) =
      fill (blocks (Line.linesOf text.toList)) := by
    rw [Blank.trim, String.toList_ofList, fill_trimChars]
  have htrim : Blank.trim (Blank.trim text) = Blank.trim text := by
    rw [Blank.trim, Blank.trim, String.toList_ofList, Blank.trimChars_trimChars]
  simp only [read]
  rw [hfill, htrim]

/-! ## Another layout -/

/-- The section has what stands under a heading of its own, and that is something. -/
def Received (text : String) (s : Section) : Prop :=
  ∃ before heading after, Line.linesOf text.toList = before ++ heading :: after ∧
    Heading.opens? heading = some s ∧ content after ≠ [] ∧
      (read text).get s = (⟨s, content after⟩ : Block).text

/-- Some section has what stands under a heading of its own exactly if the last block of some section
has a line. -/
theorem exists_received_iff (text : String) : (∃ s, Received text s) ↔ Filled text := by
  constructor
  · rintro ⟨s, before, heading, after, hlines, hheading, hcontent, hget⟩
    by_contra hfilled
    have hb : (⟨s, content after⟩ : Block) ∈ blocks (Line.linesOf text.toList) :=
      mem_blocks_iff.mpr ⟨before, heading, after, hlines, hheading, rfl⟩
    rw [read_get_of_not_filled hfilled] at hget
    split at hget
    · -- the whole reply has the characters of the heading too
      have hless := ink_text_lt hb
      rw [← hget, Blank.trim, String.toList_ofList, Blank.ink_trimChars, Line.ink_linesOf] at hless
      exact lt_irrefl _ hless
    · exact hcontent ((text_eq_empty_iff hb).mp hget.symm)
  · rintro ⟨s, b, hlast, hne⟩
    have hget := read_get_of_filled ⟨s, b, hlast, hne⟩ s
    obtain ⟨hb, rfl⟩ := mem_of_lastBlock? hlast
    obtain ⟨before, heading, after, hlines, hheading, hcontent⟩ := mem_blocks_iff.mp hb
    rw [hlast] at hget
    refine ⟨b.name, before, heading, after, hlines, hheading, ?_, ?_⟩
    · rwa [← hcontent]
    · rw [← hcontent]
      exact hget

/-- **The layout of a reply does not matter.** A reply is read as without the white space at its ends.
If some section has what stands under a heading of its own, then blank lines and rules between the lines
and the line endings do not count for any section. A section that is opened again has only what stands
under its last heading; where that leaves all sections without a text, the whole reply is the summary,
in the layout that it has. -/
theorem read_relaid (text : String) :
    read (Blank.trim text) = read text ∧
      ∀ text' : String, Relaid text.toList text'.toList →
        ((∃ s, Received text s) → read text' = read text) ∧
          ((¬ ∃ s, Received text s) →
            ∀ s, (read text').get s = if s = .summary then Blank.trim text' else "") := by
  refine ⟨read_trim text, fun text' hrelaid => ?_⟩
  have hblocks := blocks_of_relaid hrelaid
  rw [exists_received_iff]
  constructor
  · intro hfilled
    have hfill : (fill (blocks (Line.linesOf text.toList))).isEmpty ≠ true :=
      fun hempty => (isEmpty_fill_iff text).mp hempty hfilled
    simp only [read]
    rw [hblocks, if_neg hfill, if_neg hfill]
  · intro hfilled
    have hsame : Filled text' ↔ Filled text := by rw [Filled, Filled, hblocks]
    exact read_get_of_not_filled (mt hsame.mp hfilled)

theorem read_relaid_trends :
    let text := "KEY TRENDS\nup\nANOMALIES\nnone"
    let text' := "KEY TRENDS\r\n\r\nup\r\n---\r\nANOMALIES\r\nnone"
    Relaid text.toList text'.toList ∧ Received text .trends ∧ read text' = read text ∧
      (read text').get .trends = "up" ∧ (read text').get .anomalies = "none" := by
  intro text text'
  have hblank : Edit text.toList "KEY TRENDS\n\nup\nANOMALIES\nnone".toList := by
    simpa [text] using @Edit.insert "KEY TRENDS\n".toList [] "up\nANOMALIES\nnone".toList
      (Or.inr ⟨"KEY TRENDS".toList, by decide⟩) (by decide) (Or.inl rfl)
  have hrule : Edit "KEY TRENDS\n\nup\nANOMALIES\nnone".toList
      "KEY TRENDS\n\nup\n---\nANOMALIES\nnone".toList := by
    simpa using @Edit.insert "KEY TRENDS\n\nup\n".toList "---".toList "ANOMALIES\nnone".toList
      (Or.inr ⟨"KEY TRENDS\n\nup".toList, by decide⟩) (by decide) (Or.inr (by decide))
  have hreturns : Edit "KEY TRENDS\n\nup\n---\nANOMALIES\nnone".toList text'.toList := by
    simpa [text', Line.withReturns] using
      @Edit.returns "KEY TRENDS\n\nup\n---\nANOMALIES\nnone".toList (by decide)
  have hrelaid : Relaid text.toList text'.toList :=
    ((Relation.ReflTransGen.single hblank).tail hrule).tail hreturns
  have hreceived : Received text .trends :=
    ⟨[], "KEY TRENDS".toList, ["up".toList, "ANOMALIES".toList, "none".toList], by decide,
      by decide, by decide, by decide⟩
  have hread : read text' = read text :=
    ((read_relaid text).2 text' hrelaid).1 ⟨.trends, hreceived⟩
  refine ⟨hrelaid, hreceived, hread, ?_, ?_⟩
  · rw [hread]
    decide
  · rw [hread]
    decide

end Reply

end TableProfile
