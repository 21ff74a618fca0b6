import Mathlib.Data.List.Induction
import TableProfile.Proofs.TextPieces

/-!
# The lines of a text

A text is cut at its line feeds, so what stands behind a line feed is cut as a text of its own
(`linesOf_append`). A carriage return before the line feed is dropped; that may leave a line shorter by
white space, but never changes what trimming leaves of it.

* `linesOf_intercalate`: the lines of a text that is put together from lines.
* `exists_intercalate_cons`, `intercalate_concat`: the ends of such a text.
* `linesOf_withReturns`: a text in which carriage returns stand before the line feeds.
* `linesOf_cons_blank`, `linesOf_concat_blank`: what white space at an end of a text does to its lines.
-/
namespace TableProfile.Line

/-! ## Endings -/

theorem withoutReturn_concat (line : List Char) : withoutReturn (line ++ ['\r']) = line := by
  rw [withoutReturn, List.reverse_concat]
  exact List.reverse_reverse line

theorem withoutReturn_eq {line : List Char} (h : line.getLast? ≠ some '\r') : withoutReturn line = line := by
  unfold withoutReturn
  split
  · rename_i rest hrest
    rw [← List.head?_reverse, hrest] at h
    exact absurd rfl h
  · rfl

/-- A line is what is left of it and at most white space. -/
theorem exists_withoutReturn (line : List Char) :
    ∃ ending, line = withoutReturn line ++ ending ∧ ∀ c ∈ ending, Blank.isBlank c = true := by
  by_cases h : line.getLast? = some '\r'
  · obtain ⟨rest, rfl⟩ := List.getLast?_eq_some_iff.mp h
    refine ⟨['\r'], by rw [withoutReturn_concat], fun c hc => ?_⟩
    rw [List.mem_singleton.mp hc]
    decide
  · exact ⟨[], by rw [withoutReturn_eq h, List.append_nil], by simp⟩

theorem trimChars_withoutReturn (line : List Char) :
    Blank.trimChars (withoutReturn line) = Blank.trimChars line := by
  obtain ⟨ending, hline, hblank⟩ := exists_withoutReturn line
  calc Blank.trimChars (withoutReturn line) = Blank.trimChars (withoutReturn line ++ ending) :=
        (Blank.trimChars_append_blank _ hblank).symm
    _ = Blank.trimChars line := by rw [← hline]

/-! ## Line feeds -/

theorem ofPieces_append (pieces : List (List Char)) {rest : List (List Char)} (h : rest ≠ []) :
    ofPieces (pieces ++ rest) = pieces.map withoutReturn ++ ofPieces rest := by
  induction pieces with
  | nil => rfl
  | cons piece pieces ih =>
    rw [List.cons_append, ofPieces, ih, List.map_cons, List.cons_append]
    exact List.append_ne_nil_of_right_ne_nil _ h

theorem pieces_ne_nil (begun cs : List Char) : Split.pieces '\n' begun cs ≠ [] := by
  intro h
  have hlength : (Split.pieces '\n' begun cs).length = cs.count '\n' + 1 := Split.length_pieces begun cs
  rw [h] at hlength
  cases hlength

/-- What stands behind a line feed is cut as a text of its own. -/
theorem linesOf_append (before after : List Char) :
    linesOf (before ++ '\n' :: after) =
      (Split.pieces '\n' [] before).map withoutReturn ++ linesOf after := by
  rw [linesOf, Split.pieces_append, ofPieces_append _ (pieces_ne_nil [] after), linesOf]

theorem linesOf_line {line : List Char} (h : '\n' ∉ line) (rest : List Char) :
    linesOf (line ++ '\n' :: rest) = withoutReturn line :: linesOf rest := by
  rw [linesOf_append, Split.pieces_of_notMem h]
  rfl

theorem linesOf_last {line : List Char} (h : '\n' ∉ line) (hne : line ≠ []) : linesOf line = [line] := by
  rw [linesOf, Split.pieces_of_notMem h, List.reverse_nil, List.nil_append, ofPieces,
    if_neg (by simpa using hne)]

/-- The lines of a text that is put together from lines, with or without a line feed at its end. -/
theorem linesOf_intercalate {lines : List (List Char)} (hne : lines ≠ [])
    (hlines : ∀ line ∈ lines, '\n' ∉ line)
    (hlast : ∀ line ∈ lines.getLast?, line ≠ [] ∧ withoutReturn line = line) {ending : List Char}
    (hending : ending = [] ∨ ending = ['\n']) :
    linesOf (List.intercalate ['\n'] lines ++ ending) = lines.map withoutReturn := by
  induction lines with
  | nil => exact absurd rfl hne
  | cons line rest ih =>
    obtain ⟨hline, hrest⟩ := List.forall_mem_cons.mp hlines
    cases rest with
    | nil =>
      obtain ⟨hempty, hreturn⟩ := hlast line rfl
      rw [List.intercalate_singleton]
      rcases hending with rfl | rfl
      · rw [List.append_nil, linesOf_last hline hempty, List.map_singleton, hreturn]
      · rw [linesOf_line hline]
        rfl
    | cons next more =>
      rw [List.getLast?_cons_cons] at hlast
      rw [List.intercalate_cons_cons, List.append_assoc, List.append_assoc, List.singleton_append,
        linesOf_line hline, ih (List.cons_ne_nil _ _) hrest hlast]
      rfl

/-- The first of joined lines is at the front, whatever it is. -/
theorem exists_intercalate_cons (sep : List Char) (rest : List (List Char)) :
    ∃ behind, ∀ line, List.intercalate sep (line :: rest) = line ++ behind := by
  cases rest with
  | nil => exact ⟨[], fun line => by rw [List.intercalate_singleton, List.append_nil]⟩
  | cons next more =>
    exact ⟨sep ++ List.intercalate sep (next :: more),
      fun line => by rw [List.intercalate_cons_cons, List.append_assoc]⟩

theorem intercalate_concat (sep : List Char) (lines : List (List Char)) (line : List Char) :
    List.intercalate sep (lines ++ [line]) = lines.flatMap (· ++ sep) ++ line := by
  induction lines with
  | nil => exact List.intercalate_singleton
  | cons first rest ih =>
    rw [List.cons_append, List.intercalate_cons_of_ne_nil (by simp), ih, List.flatMap_cons,
      List.append_assoc, List.append_assoc, List.append_assoc]

/-! ## Carriage returns -/

/-- A text with a carriage return before every line feed. -/
def withReturns (cs : List Char) : List Char := cs.flatMap fun c => if c = '\n' then ['\r', '\n'] else [c]

theorem ofPieces_withReturns {begun cs : List Char} (hbegun : '\r' ∉ begun) (h : '\r' ∉ cs) :
    ofPieces (Split.pieces '\n' begun (withReturns cs)) = ofPieces (Split.pieces '\n' begun cs) := by
  induction cs generalizing begun with
  | nil => rfl
  | cons c rest ih =>
    obtain ⟨hc, hrest⟩ := not_or.mp (mt List.mem_cons.mpr h)
    by_cases hfeed : c = '\n'
    · have hlast : begun.reverse.getLast? ≠ some '\r' := by
        rw [List.getLast?_reverse]
        exact fun hhead => hbegun (List.mem_of_head? hhead)
      have hreturns : withReturns (c :: rest) = '\r' :: '\n' :: withReturns rest := by
        rw [withReturns, List.flatMap_cons, if_pos hfeed]
        rfl
      have hleft : Split.pieces '\n' begun ('\r' :: '\n' :: withReturns rest) =
          [begun.reverse ++ ['\r']] ++ Split.pieces '\n' [] (withReturns rest) := by
        simp [Split.pieces]
      have hright : Split.pieces '\n' begun (c :: rest) = [begun.reverse] ++ Split.pieces '\n' [] rest := by
        simp [Split.pieces, hfeed]
      rw [hreturns, hleft, hright, ofPieces_append _ (pieces_ne_nil _ _),
        ofPieces_append _ (pieces_ne_nil _ _), ih List.not_mem_nil hrest, List.map_singleton,
        List.map_singleton, withoutReturn_concat, withoutReturn_eq hlast]
    · have hreturns : withReturns (c :: rest) = c :: withReturns rest := by
        rw [withReturns, List.flatMap_cons, if_neg hfeed]
        rfl
      rw [hreturns, Split.pieces, Split.pieces, if_neg hfeed, if_neg hfeed]
      refine ih (fun hmem => ?_) hrest
      rcases List.mem_cons.mp hmem with heq | hmem
      · exact hc heq
      · exact hbegun hmem

/-- Carriage returns before the line feeds do not show in the lines. -/
theorem linesOf_withReturns {cs : List Char} (h : '\r' ∉ cs) : linesOf (withReturns cs) = linesOf cs :=
  ofPieces_withReturns List.not_mem_nil h

/-! ## White space at the ends -/

/-- White space in front of a text makes a blank line, or belongs to its first line. -/
theorem linesOf_cons_blank {c : Char} (h : Blank.isBlank c = true) (cs : List Char) :
    (∃ line, Blank.trimChars line = [] ∧ linesOf (c :: cs) = line :: linesOf cs) ∨
      ∃ line line' rest, linesOf cs = line :: rest ∧ linesOf (c :: cs) = line' :: rest ∧
        Blank.trimChars line' = Blank.trimChars line := by
  by_cases hfeed : c = '\n'
  · refine Or.inl ⟨[], rfl, ?_⟩
    rw [hfeed]
    exact @linesOf_line [] List.not_mem_nil cs
  · obtain ⟨first, others, -, hpieces⟩ := Split.exists_pieces '\n' cs
    have hself : linesOf cs = ofPieces (first :: others) := congrArg ofPieces (hpieces [])
    have hcons : linesOf (c :: cs) = ofPieces ((c :: first) :: others) := by
      rw [linesOf, Split.pieces, if_neg hfeed, hpieces]
      rfl
    have htrim : Blank.trimChars (c :: first) = Blank.trimChars first :=
      @Blank.trimChars_blank_append [c] (by simpa using h) first
    rw [hself, hcons]
    cases others with
    | cons next more =>
      refine Or.inr ⟨_, _, _, rfl, rfl, ?_⟩
      rw [trimChars_withoutReturn, trimChars_withoutReturn, htrim]
    | nil =>
      cases first with
      | nil => exact Or.inl ⟨[c], htrim, rfl⟩
      | cons d rest => exact Or.inr ⟨_, _, _, rfl, rfl, htrim⟩

/-- What is put behind a text goes on with what stands behind its last line feed. -/
theorem exists_linesOf_append (cs : List Char) :
    ∃ lines last, '\n' ∉ last ∧ ∀ behind, linesOf (cs ++ behind) = lines ++ linesOf (last ++ behind) := by
  induction cs using List.reverseRecOn with
  | nil => exact ⟨[], [], List.not_mem_nil, fun _ => rfl⟩
  | append_singleton cs c ih =>
    by_cases hfeed : c = '\n'
    · refine ⟨(Split.pieces '\n' [] cs).map withoutReturn, [], List.not_mem_nil, fun behind => ?_⟩
      rw [hfeed, List.append_assoc, List.singleton_append, linesOf_append, List.nil_append]
    · obtain ⟨lines, last, hlast, hbehind⟩ := ih
      refine ⟨lines, last ++ [c], ?_, fun behind => ?_⟩
      · simpa [hlast] using Ne.symm hfeed
      · rw [List.append_assoc, hbehind, List.append_assoc]

/-- White space behind a text makes a blank line, or belongs to its last line or ends it. -/
theorem linesOf_concat_blank {c : Char} (h : Blank.isBlank c = true) (cs : List Char) :
    (∃ line, Blank.trimChars line = [] ∧ linesOf (cs ++ [c]) = linesOf cs ++ [line]) ∨
      ∃ lines line line' blanks, (∀ c ∈ blanks, Blank.isBlank c = true) ∧
        (line' = line ++ blanks ∨ line = line' ++ blanks) ∧
          linesOf cs = lines ++ [line] ∧ linesOf (cs ++ [c]) = lines ++ [line'] := by
  obtain ⟨lines, last, hlast, hbehind⟩ := exists_linesOf_append cs
  have hself := hbehind []
  rw [List.append_nil, List.append_nil] at hself
  rw [hself, hbehind]
  by_cases hfeed : c = '\n'
  · have hended : linesOf (last ++ [c]) = [withoutReturn last] := by
      rw [hfeed, linesOf_line hlast]
      rfl
    rw [hended]
    by_cases hempty : last = []
    · refine Or.inl ⟨withoutReturn last, by rw [hempty]; rfl, ?_⟩
      rw [hempty]
      exact congrArg (· ++ _) (List.append_nil lines).symm
    · obtain ⟨ending, hline, hblank⟩ := exists_withoutReturn last
      exact Or.inr ⟨lines, last, withoutReturn last, ending, hblank, Or.inr hline,
        by rw [linesOf_last hlast hempty], rfl⟩
  · have hconcat : linesOf (last ++ [c]) = [last ++ [c]] :=
      linesOf_last (by simpa [hlast] using Ne.symm hfeed) (by simp)
    rw [hconcat]
    by_cases hempty : last = []
    · refine Or.inl ⟨[c], @Blank.trimChars_blank_append [c] (by simpa using h) [], ?_⟩
      rw [hempty]
      exact congrArg (· ++ _) (List.append_nil lines).symm
    · exact Or.inr ⟨lines, last, last ++ [c], [c], by simpa using h, Or.inl rfl,
        by rw [linesOf_last hlast hempty], rfl⟩

end TableProfile.Line
