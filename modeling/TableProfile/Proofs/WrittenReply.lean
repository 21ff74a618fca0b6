import TableProfile.Proofs.HeadingWords
import TableProfile.Proofs.ReplyFallback
import TableProfile.Proofs.TextLines

/-!
# Replies that are read as they are written

A reply is written as lines that open nothing, then sections, each a heading with a body (`Written`).
The heading has any decoration and spells any opening of its section; the body has lines of content
only, with no white space at its two ends. Every section is written at most once.

Such a reply is read back. Its lines are those that were written, but for carriage returns behind
headings and before them (`linesOf_intercalate`); every heading opens the block of its section, which
takes the whole body (`blocks_written`); and trimming has nothing to take off a body (`text_block`).

* `read_written`: each section written has its body, and each other section is empty.
-/
namespace TableProfile.Reply

/-- The line begins with a decoration and an opening of the section. -/
def IsHeadingOf (s : Section) (line : List Char) : Prop :=
  ∃ front words opening rest, line = front ++ (words ++ rest) ∧ Heading.Decorated front ∧
    (opening, s) ∈ Heading.openings ∧ Heading.Spells words opening.toList

theorem IsHeadingOf.opens? {s : Section} {line : List Char} (h : IsHeadingOf s line) :
    Heading.opens? line = some s := by
  obtain ⟨front, words, opening, rest, rfl, hfront, hopening, hwords⟩ := h
  exact Heading.opens?_of_spelled hfront hopening hwords rest

/-- A line that a body may have. -/
structure IsBodyLine (line : List Char) : Prop where
  one_line : '\n' ∉ line
  no_return : line.getLast? ≠ some '\r'
  not_blank : Blank.trimChars line ≠ []
  not_rule : ¬ "---".toList <+: Blank.trimChars line
  no_heading : Heading.opens? line = none

instance (line : List Char) : Decidable (IsBodyLine line) :=
  decidable_of_iff ('\n' ∉ line ∧ line.getLast? ≠ some '\r' ∧ Blank.trimChars line ≠ [] ∧
      ¬ "---".toList <+: Blank.trimChars line ∧ Heading.opens? line = none)
    ⟨fun ⟨hline, hreturn, hblank, hrule, hheading⟩ => ⟨hline, hreturn, hblank, hrule, hheading⟩,
      fun h => ⟨h.one_line, h.no_return, h.not_blank, h.not_rule, h.no_heading⟩⟩

theorem IsBodyLine.ne_nil {line : List Char} (h : IsBodyLine line) : line ≠ [] := by
  rintro rfl
  exact h.not_blank rfl

/-- A section as it is written. -/
structure Written where
  name : Section
  heading : List Char
  body : List (List Char)
  one_line : '\n' ∉ heading
  spelled : IsHeadingOf name heading
  ne_nil : body ≠ []
  lines_ok : ∀ line ∈ body, IsBodyLine line
  -- no white space at the two ends of the body
  first : ∀ line ∈ body.head?, ∀ c ∈ line.head?, Blank.isBlank c = false
  last : ∀ line ∈ body.getLast?, ∀ c ∈ line.getLast?, Blank.isBlank c = false

namespace Written

/-- The lines of a section as it is written. -/
def lines (w : Written) : List (List Char) := w.heading :: w.body

/-- The block that a section as written makes. -/
def block (w : Written) : Block := ⟨w.name, w.body⟩

variable (w : Written)

theorem mem_body_of_mem_getLast? : ∀ line ∈ w.lines.getLast?, line ∈ w.body := by
  intro line hline
  rw [lines, List.getLast?_cons_of_ne_nil w.ne_nil] at hline
  exact List.mem_of_getLast? hline

theorem map_withoutReturn_body : w.body.map Line.withoutReturn = w.body :=
  (List.map_congr_left fun line hline => Line.withoutReturn_eq (w.lines_ok line hline).no_return).trans
    (List.map_id _)

theorem opens?_heading : Heading.opens? (Line.withoutReturn w.heading) = some w.name :=
  (Heading.opens?_congr (Line.trimChars_withoutReturn _)).trans w.spelled.opens?

theorem content_body : content w.body = w.body := by
  have hopens : ∀ l ∈ w.body, Heading.opens? l = none := fun l hl => (w.lines_ok l hl).no_heading
  have hcontent : ∀ l ∈ w.body, isContent l = true := fun l hl =>
    (isContent_iff l).mpr ⟨(w.lines_ok l hl).not_blank, (w.lines_ok l hl).not_rule⟩
  have happend := content_append hopens []
  rwa [List.append_nil, List.filter_eq_self.mpr hcontent, content, List.append_nil] at happend

theorem blocks_body : blocks w.body = [] := by
  have happend := blocks_append_of_none (fun l hl => (w.lines_ok l hl).no_heading) []
  rwa [List.append_nil] at happend

/-- Trimming has nothing to take off a body. -/
theorem text_block : w.block.text = String.ofList (joined w.body) := by
  refine congrArg String.ofList ?_
  have hhead : ∀ c ∈ (joined w.body).head?, Blank.isBlank c = false := by
    obtain ⟨line, rest, hbody⟩ := List.exists_cons_of_ne_nil w.ne_nil
    obtain ⟨behind, hjoined⟩ := Line.exists_intercalate_cons ['\n'] rest
    have hline : line ≠ [] := (w.lines_ok line (by simp [hbody])).ne_nil
    rw [hbody, joined, hjoined, List.head?_append_of_ne_nil _ hline]
    exact w.first line (by simp [hbody])
  have hlast : ∀ c ∈ (joined w.body).getLast?, Blank.isBlank c = false := by
    obtain ⟨rest, line, hbody⟩ := (List.eq_nil_or_concat' w.body).resolve_left w.ne_nil
    have hline : line ≠ [] := (w.lines_ok line (by simp [hbody])).ne_nil
    rw [hbody, joined, Line.intercalate_concat, List.getLast?_append_of_ne_nil _ hline]
    exact w.last line (by simp [hbody])
  have htrim : Blank.trimChars ([] ++ joined w.body ++ []) = joined w.body :=
    Blank.trimChars_eq (by simp) hhead hlast
  rwa [List.append_nil] at htrim

end Written

/-! ## A written reply -/

/-- The lines of a reply as it is written. -/
def writtenLines (preamble : List (List Char)) (sections : List Written) : List (List Char) :=
  preamble ++ sections.flatMap Written.lines

section
variable {preamble : List (List Char)} {sections : List Written} {ending : List Char}

theorem linesOf_written (hpreamble : ∀ line ∈ preamble, '\n' ∉ line) (hsections : sections ≠ [])
    (hending : ending = [] ∨ ending = ['\n']) :
    Line.linesOf (joined (writtenLines preamble sections) ++ ending) =
      (writtenLines preamble sections).map Line.withoutReturn := by
  obtain ⟨before, w, hlast⟩ := (List.eq_nil_or_concat' sections).resolve_left hsections
  have hlines : writtenLines preamble sections =
      preamble ++ before.flatMap Written.lines ++ w.lines := by
    rw [writtenLines, hlast, List.flatMap_append, List.flatMap_singleton, List.append_assoc]
  have hne : w.lines ≠ [] := List.cons_ne_nil _ _
  refine Line.linesOf_intercalate ?_ ?_ ?_ hending
  · rw [hlines]
    exact List.append_ne_nil_of_right_ne_nil _ hne
  · refine List.forall_mem_append.mpr ⟨hpreamble, List.forall_mem_flatMap.mpr fun w _ => ?_⟩
    exact List.forall_mem_cons.mpr ⟨w.one_line, fun line hline => (w.lines_ok line hline).one_line⟩
  · rw [hlines, List.getLast?_append_of_ne_nil _ hne]
    intro line hline
    have hbody := w.lines_ok line (w.mem_body_of_mem_getLast? line hline)
    exact ⟨hbody.ne_nil, Line.withoutReturn_eq hbody.no_return⟩

/-- Each section as written makes a block of its body. -/
theorem blocks_written (hpreamble : ∀ line ∈ preamble, Heading.opens? line = none)
    (sections : List Written) :
    blocks ((writtenLines preamble sections).map Line.withoutReturn) = sections.map Written.block := by
  have hopens : ∀ line ∈ preamble.map Line.withoutReturn, Heading.opens? line = none := by
    refine List.forall_mem_map.mpr fun line hline => ?_
    rw [Heading.opens?_congr (Line.trimChars_withoutReturn line)]
    exact hpreamble line hline
  rw [writtenLines, List.map_append, blocks_append_of_none hopens]
  -- on the sections from the last one: a heading ends what is behind the headings before it
  induction sections using List.reverseRecOn with
  | nil => rfl
  | append_singleton before w ih =>
    rw [List.flatMap_append, List.flatMap_singleton, List.map_append, List.map_append, Written.lines,
      List.map_cons, w.map_withoutReturn_body, blocks_append _ w.opens?_heading, ih, w.content_body,
      w.blocks_body]
    rfl

end

/-! ## The block of a section -/

theorem lastBlock?_eq_none {s : Section} {blocks : List Block} (h : s ∉ blocks.map (·.name)) :
    lastBlock? s blocks = none := by
  rw [lastBlock?, List.getLast?_eq_none_iff, List.filter_eq_nil_iff]
  intro b hb hname
  exact h (List.mem_map.mpr ⟨b, hb, beq_iff_eq.mp hname⟩)

/-- A block whose section has no other block is the last one of that section. -/
theorem lastBlock?_of_nodup {blocks : List Block} (h : (blocks.map (·.name)).Nodup) {b : Block}
    (hb : b ∈ blocks) : lastBlock? b.name blocks = some b := by
  induction blocks with
  | nil => cases hb
  | cons first rest ih =>
    obtain ⟨hfirst, hrest⟩ := List.nodup_cons.mp h
    rw [lastBlock?_cons]
    rcases List.mem_cons.mp hb with rfl | hb
    · rw [lastBlock?_eq_none hfirst, if_pos rfl, Option.none_or]
    · rw [ih hrest hb, Option.some_or]

/-- **A reply is read as it is written.** Of whatever lines stand before the first heading, and in
whatever order the sections are written, each section has its body, line by line, and a section that
is not written is empty. -/
theorem read_written (preamble : List (List Char)) (sections : List Written) {ending : List Char}
    (hpreamble : ∀ line ∈ preamble, '\n' ∉ line ∧ Heading.opens? line = none)
    (hsections : sections ≠ []) (hnames : (sections.map (·.name)).Nodup)
    (hending : ending = [] ∨ ending = ['\n']) :
    let reply := read (String.ofList (joined (writtenLines preamble sections) ++ ending))
    (∀ w ∈ sections, reply.get w.name = String.ofList (joined w.body)) ∧
      ∀ s ∉ sections.map (·.name), reply.get s = "" := by
  intro reply
  have hblocks : blocks (Line.linesOf (joined (writtenLines preamble sections) ++ ending)) =
      sections.map Written.block := by
    rw [linesOf_written (fun line hline => (hpreamble line hline).1) hsections hending,
      blocks_written fun line hline => (hpreamble line hline).2]
  have hnames' : (sections.map Written.block).map (·.name) = sections.map (·.name) := by
    rw [List.map_map]
    rfl
  have hlast (w : Written) (hw : w ∈ sections) :
      lastBlock? w.name (sections.map Written.block) = some w.block :=
    lastBlock?_of_nodup (b := w.block) (by rwa [hnames']) (List.mem_map_of_mem hw)
  have hfilled : Filled (String.ofList (joined (writtenLines preamble sections) ++ ending)) := by
    obtain ⟨w, hw⟩ := List.exists_mem_of_ne_nil sections hsections
    refine ⟨w.name, w.block, ?_, w.ne_nil⟩
    rw [String.toList_ofList, hblocks, hlast w hw]
  have hget (s : Section) :
      reply.get s = ((lastBlock? s (sections.map Written.block)).map Block.text).getD "" := by
    rw [← hblocks]
    simpa only [String.toList_ofList] using read_get_of_filled hfilled s
  constructor
  · intro w hw
    rw [hget, hlast w hw]
    exact w.text_block
  · intro s hs
    rw [hget, lastBlock?_eq_none (by rwa [hnames'])]
    rfl

theorem isHeadingOf_numbered : IsHeadingOf .trends "## 2. key-Trends:".toList := by
  refine ⟨"## 2. ".toList, "key-Trends".toList, "KEY TRENDS", ":".toList, by decide,
    ⟨"## ".toList, "2".toList, ".".toList, " ".toList, ?_⟩, by decide, ?_⟩
  · simp [Heading.isMark, Heading.isStop, Heading.isInnerMark]
  · unfold Heading.Spells
    decide

theorem isHeadingOf_starred : IsHeadingOf .beginners "**Beginner-friendly**".toList := by
  refine ⟨"**".toList, "Beginner".toList, "BEGINNER", "-friendly**".toList, by decide,
    ⟨"**".toList, [], [], [], ?_⟩, by decide, ?_⟩
  · simp [Heading.isMark]
  · unfold Heading.Spells
    decide

/-- Trends under a number, and words for beginners under stars. -/
def trendsAndBeginners : List Written :=
  [{ name := .trends, heading := "## 2. key-Trends:".toList, body := ["- up".toList, "- down".toList]
     spelled := isHeadingOf_numbered
     one_line := by decide, ne_nil := by decide, lines_ok := by decide
     first := by simp [Blank.isBlank], last := by simp [Blank.isBlank] },
   { name := .beginners, heading := "**Beginner-friendly**".toList, body := ["It went up.".toList]
     spelled := isHeadingOf_starred
     one_line := by decide, ne_nil := by decide, lines_ok := by decide
     first := by simp [Blank.isBlank], last := by simp [Blank.isBlank] }]

theorem read_written_trends :
    let text := "Sure!\n## 2. key-Trends:\n- up\n- down\n**Beginner-friendly**\nIt went up.\n"
    String.ofList (joined (writtenLines ["Sure!".toList] trendsAndBeginners) ++ ['\n']) = text ∧
      (read text).get .trends = "- up\n- down" ∧ (read text).get .beginners = "It went up." ∧
      (read text).get .summary = "" := by
  intro text
  have htext : String.ofList (joined (writtenLines ["Sure!".toList] trendsAndBeginners) ++ ['\n']) =
      text := by
    decide
  obtain ⟨hbodies, hothers⟩ := read_written ["Sure!".toList] trendsAndBeginners (by decide)
    (by decide) (by decide) (Or.inr rfl)
  rw [htext] at hbodies hothers
  obtain ⟨htrends, hrest⟩ := List.forall_mem_cons.mp hbodies
  obtain ⟨hbeginners, -⟩ := List.forall_mem_cons.mp hrest
  exact ⟨htext, htrends, hbeginners, hothers .summary (by decide)⟩

end TableProfile.Reply
