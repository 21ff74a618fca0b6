import Mathlib.Data.List.TakeWhile
import TableProfile.Text.Character
import TableProfile.Text.Line

/-!
# Pieces of a text

A piece of a text is a run of its characters (`<:+:`). Trimming takes white space from the ends of a
text only, so what is left of a piece is a piece of what is left of the text.

* `exists_trimChars`, `trimChars_eq`: a text is what trimming leaves, between white space.
* `trimChars_around`: a word inside a text keeps its place.
* `trimChars_infix`: trimming keeps pieces.
* `infix_of_mem_linesOf`: the lines of a text are pieces of it.
* `splitAt_append`, `splitAt_eq_singleton_iff`: where a text that is put together is cut.
-/
namespace TableProfile

/-! ## Small and capital letters -/

theorem toNat_toLower (c : Char) :
    c.toLower.toNat = if 65 ≤ c.toNat ∧ c.toNat ≤ 90 then c.toNat + 32 else c.toNat := by
  unfold Char.toLower
  split
  · rename_i h
    have h' : 65 ≤ c.toNat ∧ c.toNat ≤ 90 := h
    rw [if_pos h']
    show (c.val + 32).toNat = c.val.toNat + 32
    rw [UInt32.toNat_add]
    have : c.val.toNat ≤ 90 := h'.2
    show (c.val.toNat + 32) % 2 ^ 32 = c.val.toNat + 32
    omega
  · rename_i h
    exact (if_neg h).symm

theorem toNat_toUpper (c : Char) :
    c.toUpper.toNat = if 97 ≤ c.toNat ∧ c.toNat ≤ 122 then c.toNat - 32 else c.toNat := by
  unfold Char.toUpper
  split
  · rename_i h
    have h' : 97 ≤ c.toNat ∧ c.toNat ≤ 122 := h
    rw [if_pos h']
    -- the distance between the two cases, taken off by wrapping round
    show (c.val + 4294967264).toNat = c.val.toNat - 32
    rw [UInt32.toNat_add]
    have hlow : 97 ≤ c.val.toNat := h'.1
    have hhigh : c.val.toNat ≤ 122 := h'.2
    show (c.val.toNat + 4294967264) % 2 ^ 32 = c.val.toNat - 32
    omega
  · rename_i h
    exact (if_neg h).symm

namespace Blank

/-! ## Trimming -/

theorem exists_dropWhile (p : Char → Bool) (cs : List Char) :
    ∃ before, cs = before ++ cs.dropWhile p ∧ ∀ c ∈ before, p c = true :=
  ⟨cs.takeWhile p, List.takeWhile_append_dropWhile.symm, fun _ h => List.mem_takeWhile_imp h⟩

/-- A text is what trimming leaves, with white space before and behind. -/
theorem exists_trimChars (cs : List Char) :
    ∃ before behind, cs = before ++ trimChars cs ++ behind ∧
      ∀ c ∈ before ++ behind, isBlank c = true := by
  obtain ⟨before, hcs, hbefore⟩ := exists_dropWhile isBlank cs
  obtain ⟨behind, hrest, hbehind⟩ := exists_dropWhile isBlank (trimStartChars cs).reverse
  refine ⟨before, behind.reverse, ?_, ?_⟩
  · have htrimmed : trimStartChars cs = trimChars cs ++ behind.reverse := by
      rw [← List.reverse_reverse (trimStartChars cs), hrest, List.reverse_append]
      rfl
    rw [List.append_assoc, ← htrimmed]
    exact hcs
  · intro c hc
    rcases List.mem_append.mp hc with hc | hc
    · exact hbefore c hc
    · exact hbehind c (List.mem_reverse.mp hc)

theorem dropWhile_eq {p : Char → Bool} {before rest : List Char} (hbefore : ∀ c ∈ before, p c = true)
    (hrest : ∀ c ∈ rest.head?, p c = false) : (before ++ rest).dropWhile p = rest := by
  rw [List.dropWhile_append_of_pos hbefore]
  cases rest with
  | nil => rfl
  | cons c more => rw [List.dropWhile_cons_of_neg (by simp [hrest c rfl])]

/-- Trimming leaves what stands between white space and has none at its ends. -/
theorem trimChars_eq {before word behind : List Char}
    (hblank : ∀ c ∈ before ++ behind, isBlank c = true)
    (hfirst : ∀ c ∈ word.head?, isBlank c = false) (hlast : ∀ c ∈ word.getLast?, isBlank c = false) :
    trimChars (before ++ word ++ behind) = word := by
  obtain ⟨hbefore, hbehind⟩ := List.forall_mem_append.mp hblank
  cases word with
  | nil =>
    have hstart : trimStartChars (before ++ [] ++ behind) = [] := by
      rw [List.append_nil, trimStartChars, List.dropWhile_eq_nil_iff]
      exact hblank
    rw [trimChars, hstart]
    rfl
  | cons c rest =>
    have hstart : trimStartChars (before ++ c :: rest ++ behind) = c :: rest ++ behind := by
      rw [List.append_assoc]
      exact dropWhile_eq hbefore hfirst
    have hend : (behind.reverse ++ (c :: rest).reverse).dropWhile isBlank = (c :: rest).reverse := by
      refine dropWhile_eq (fun c hc => hbehind c (List.mem_reverse.mp hc)) ?_
      rw [List.head?_reverse]
      exact hlast
    rw [trimChars, hstart, trimEndChars, List.reverse_append, hend, List.reverse_reverse]

theorem dropWhile_append_of_head {p : Char → Bool} (cs : List Char) {rest : List Char}
    (hrest : ∀ c ∈ rest.head?, p c = false) : (cs ++ rest).dropWhile p = cs.dropWhile p ++ rest := by
  have hstop : rest.dropWhile p = rest := @dropWhile_eq p [] rest (by simp) hrest
  rw [List.dropWhile_append, hstop]
  split
  · rename_i hempty
    rw [List.isEmpty_iff.mp hempty, List.nil_append]
  · rfl

/-- White space at the ends of a text does not count. -/
theorem trimChars_append_blank (cs : List Char) {blanks : List Char} (h : ∀ c ∈ blanks, isBlank c = true) :
    trimChars (cs ++ blanks) = trimChars cs := by
  have hend (ds : List Char) : trimEndChars (ds ++ blanks) = trimEndChars ds := by
    rw [trimEndChars, List.reverse_append,
      List.dropWhile_append_of_pos fun c hc => h c (List.mem_reverse.mp hc)]
    rfl
  rw [trimChars, trimStartChars, List.dropWhile_append]
  split
  · rename_i hempty
    rw [List.dropWhile_eq_nil_iff.mpr h, trimChars, trimStartChars, List.isEmpty_iff.mp hempty]
  · exact hend _

theorem trimChars_blank_append {blanks : List Char} (h : ∀ c ∈ blanks, isBlank c = true) (cs : List Char) :
    trimChars (blanks ++ cs) = trimChars cs := by
  rw [trimChars, trimStartChars, List.dropWhile_append_of_pos h]
  rfl

theorem trimChars_trimChars (cs : List Char) : trimChars (trimChars cs) = trimChars cs := by
  obtain ⟨before, behind, hcs, hblank⟩ := exists_trimChars cs
  obtain ⟨hbefore, hbehind⟩ := List.forall_mem_append.mp hblank
  calc trimChars (trimChars cs) = trimChars (before ++ trimChars cs ++ behind) := by
        rw [trimChars_append_blank _ hbehind, trimChars_blank_append hbefore]
    _ = trimChars cs := by rw [← hcs]

/-- White space alone is trimmed to nothing. -/
theorem trim_eq_empty_iff (text : String) :
    trim text = "" ↔ ∀ c ∈ text.toList, isBlank c = true := by
  have hempty : trim text = "" ↔ trimChars text.toList = [] := by
    rw [trim, String.ofList_eq_empty_iff]
  rw [hempty]
  constructor
  · intro h
    obtain ⟨before, behind, hcs, hblank⟩ := exists_trimChars text.toList
    rw [h, List.append_nil] at hcs
    rwa [hcs]
  · intro h
    have hstart : trimStartChars text.toList = [] := List.dropWhile_eq_nil_iff.mpr h
    rw [trimChars, hstart]
    rfl

/-- A word without white space at its ends keeps its place. -/
theorem trimChars_around (before : List Char) {word : List Char} (behind : List Char)
    (hne : word ≠ []) (hfirst : ∀ c ∈ word.head?, isBlank c = false)
    (hlast : ∀ c ∈ word.getLast?, isBlank c = false) :
    trimChars (before ++ (word ++ behind)) = trimStartChars before ++ (word ++ trimEndChars behind) := by
  have hhead : ∀ c ∈ (word ++ behind).head?, isBlank c = false := by
    rw [List.head?_append, List.head?_eq_some_head hne, Option.some_or, ← List.head?_eq_some_head hne]
    exact hfirst
  have hfoot : ∀ c ∈ (trimStartChars before ++ word).reverse.head?, isBlank c = false := by
    rw [List.head?_reverse, List.getLast?_append, List.getLast?_eq_some_getLast hne, Option.some_or,
      ← List.getLast?_eq_some_getLast hne]
    exact hlast
  have hstart : trimStartChars (before ++ (word ++ behind)) = trimStartChars before ++ word ++ behind := by
    rw [trimStartChars, dropWhile_append_of_head before hhead, List.append_assoc]
    rfl
  rw [trimChars, hstart, trimEndChars, List.reverse_append, dropWhile_append_of_head _ hfoot,
    List.reverse_append, List.reverse_reverse, List.append_assoc]
  rfl

/-! ## Pieces -/

theorem dropWhile_infix {p : Char → Bool} {piece cs : List Char} (h : piece <:+: cs) :
    piece.dropWhile p <:+: cs.dropWhile p := by
  obtain ⟨before, behind, rfl⟩ := h
  have hpiece : piece.dropWhile p <:+: (piece ++ behind).dropWhile p := by
    rw [List.dropWhile_append]
    split
    · rename_i hnone
      rw [List.isEmpty_iff.mp hnone]
      exact List.nil_infix
    · exact (List.prefix_append _ _).isInfix
  rw [List.append_assoc, List.dropWhile_append]
  split
  · exact hpiece
  · have hsuffix : (piece ++ behind).dropWhile p <:+ before.dropWhile p ++ (piece ++ behind) :=
      (List.dropWhile_suffix p).trans (List.suffix_append _ _)
    exact hpiece.trans hsuffix.isInfix

/-- What is left of a piece is a piece of what is left of the text. -/
theorem trimChars_infix {piece cs : List Char} (h : piece <:+: cs) :
    trimChars piece <:+: trimChars cs := by
  have hstart : trimStartChars piece <:+: trimStartChars cs := dropWhile_infix h
  have hend : (trimStartChars piece).reverse.dropWhile isBlank <:+:
      (trimStartChars cs).reverse.dropWhile isBlank :=
    dropWhile_infix (List.reverse_infix.mpr hstart)
  exact List.reverse_infix.mpr hend

end Blank

namespace Line

theorem infix_of_mem_pieces {sep : Char} {begun cs piece : List Char}
    (h : piece ∈ Split.pieces sep begun cs) : piece <:+: begun.reverse ++ cs := by
  induction cs generalizing begun with
  | nil =>
    rw [Split.pieces, List.mem_singleton] at h
    subst h
    exact (List.prefix_append _ _).isInfix
  | cons c rest ih =>
    rw [Split.pieces] at h
    split at h
    · rcases List.mem_cons.mp h with rfl | h
      · exact (List.prefix_append _ _).isInfix
      · have hrest : piece <:+: rest := ih h
        have hsuffix : rest <:+ begun.reverse ++ c :: rest :=
          (List.suffix_cons c rest).trans (List.suffix_append _ _)
        exact hrest.trans hsuffix.isInfix
    · have hbegun := ih h
      rw [List.reverse_cons, List.append_assoc] at hbegun
      exact hbegun

theorem withoutReturn_prefix (piece : List Char) : withoutReturn piece <+: piece := by
  unfold withoutReturn
  split
  · rename_i rest hrest
    have hpiece : piece = rest.reverse ++ ['\r'] := by
      rw [← List.reverse_cons, ← hrest, List.reverse_reverse]
    rw [hpiece]
    exact List.prefix_append _ _
  · exact List.prefix_refl _

theorem mem_ofPieces {pieces : List (List Char)} {line : List Char} (h : line ∈ ofPieces pieces) :
    ∃ piece ∈ pieces, line <+: piece := by
  induction pieces with
  | nil => cases h
  | cons piece rest ih =>
    cases rest with
    | nil =>
      rw [ofPieces] at h
      split at h
      · cases h
      · obtain rfl := List.mem_singleton.mp h
        exact ⟨line, List.mem_cons_self, List.prefix_refl _⟩
    | cons next more =>
      rw [ofPieces] at h
      · rcases List.mem_cons.mp h with rfl | h
        · exact ⟨piece, List.mem_cons_self, withoutReturn_prefix piece⟩
        · obtain ⟨p, hp, hline⟩ := ih h
          exact ⟨p, List.mem_cons_of_mem _ hp, hline⟩
      · exact List.cons_ne_nil next more

/-- The lines of a text are pieces of it. -/
theorem infix_of_mem_linesOf {cs line : List Char} (h : line ∈ linesOf cs) : line <:+: cs := by
  obtain ⟨piece, hpiece, hline⟩ := mem_ofPieces h
  exact hline.isInfix.trans (infix_of_mem_pieces hpiece)

/-- Joined lines have each of the lines as a piece. -/
theorem infix_intercalate {sep line : List Char} {lines : List (List Char)} (h : line ∈ lines) :
    line <:+: List.intercalate sep lines := by
  induction lines with
  | nil => cases h
  | cons first rest ih =>
    cases rest with
    | nil =>
      obtain rfl := List.mem_singleton.mp h
      refine ⟨[], [], ?_⟩
      rw [List.nil_append, List.append_nil, List.intercalate_singleton]
    | cons next more =>
      rw [List.intercalate_cons_cons, List.append_assoc]
      rcases List.mem_cons.mp h with rfl | h
      · exact (List.prefix_append _ _).isInfix
      · have hrest : line <:+: List.intercalate sep (next :: more) := ih h
        have hsuffix := (List.suffix_append sep (List.intercalate sep (next :: more))).trans
          (List.suffix_append first _)
        exact hrest.trans hsuffix.isInfix

end Line

/-! ## Texts that are joined -/

namespace Split

variable {sep : Char}

theorem pieces_append (begun before behind : List Char) :
    pieces sep begun (before ++ sep :: behind) = pieces sep begun before ++ pieces sep [] behind := by
  induction before generalizing begun with
  | nil => simp [pieces]
  | cons c rest ih =>
    simp only [List.cons_append, pieces]
    split
    · rw [ih, List.cons_append]
    · rw [ih]

theorem pieces_of_notMem {begun cs : List Char} (h : sep ∉ cs) :
    pieces sep begun cs = [begun.reverse ++ cs] := by
  induction cs generalizing begun with
  | nil => simp [pieces]
  | cons c rest ih =>
    obtain ⟨hc, hrest⟩ := not_or.mp (mt List.mem_cons.mpr h)
    rw [pieces, if_neg (Ne.symm hc), ih hrest]
    simp

theorem length_pieces (begun cs : List Char) : (pieces sep begun cs).length = cs.count sep + 1 := by
  induction cs generalizing begun with
  | nil => rfl
  | cons c rest ih =>
    rw [pieces]
    split
    · rename_i hc
      rw [List.length_cons, ih, hc, List.count_cons_self]
    · rename_i hc
      rw [ih, List.count_cons_of_ne hc]

/-- What is begun belongs to the first piece. -/
theorem exists_pieces (sep : Char) (cs : List Char) : ∃ first others, first <+: cs ∧
    ∀ begun, pieces sep begun cs = (begun.reverse ++ first) :: others := by
  induction cs with
  | nil => exact ⟨[], [], List.prefix_refl _, fun begun => by simp [pieces]⟩
  | cons c rest ih =>
    by_cases hc : c = sep
    · exact ⟨[], pieces sep [] rest, List.nil_prefix, fun begun => by simp [pieces, hc]⟩
    · obtain ⟨first, others, hfirst, hpieces⟩ := ih
      refine ⟨c :: first, others, List.cons_prefix_cons.mpr ⟨rfl, hfirst⟩, fun begun => ?_⟩
      rw [pieces, if_neg hc, hpieces]
      simp

theorem pieces_append_of_notMem {begun before cs : List Char} (h : sep ∉ before) :
    pieces sep begun (before ++ cs) = pieces sep (before.reverse ++ begun) cs := by
  induction before generalizing begun with
  | nil => rfl
  | cons c rest ih =>
    obtain ⟨hc, hrest⟩ := not_or.mp (mt List.mem_cons.mpr h)
    rw [List.cons_append, pieces, if_neg (Ne.symm hc), ih hrest]
    simp

theorem splitAt_append (before behind : String) :
    splitAt sep (before ++ String.singleton sep ++ behind) = splitAt sep before ++ splitAt sep behind := by
  simp [splitAt, pieces_append]

/-- A text is its only piece exactly if the separator does not occur in it. -/
theorem splitAt_eq_singleton_iff (s : String) : splitAt sep s = [s] ↔ sep ∉ s.toList := by
  constructor
  · intro h
    have hlength := congrArg List.length h
    rw [splitAt, List.length_map, length_pieces, List.length_singleton] at hlength
    exact List.count_eq_zero.mp (by omega)
  · intro h
    simp [splitAt, pieces_of_notMem h]

end Split

end TableProfile
