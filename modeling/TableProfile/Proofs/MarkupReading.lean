import TableProfile.Server.Markup

/-!
# Reading markup back

A page is read without regard to how it was made. A tag goes from a `<` to the next `>`, whatever stands
between them, and the page is cut behind each of its tags into spans: a text, in which entities stand for
characters, and the tag that ends it. So a text that was not escaped would show as a tag or as another text.

* `spans_write`: spans are read back as they were written, whatever their texts hold.
* `entities_escapeChars`: in an escaped text every ampersand begins an entity.
-/
namespace TableProfile.Markup

/-- A text and the tag behind it. -/
structure Span where
  text : String
  tag : String
  deriving DecidableEq, Repr

/-- Cuts characters into spans. The text so far and the tag begun, if there is one, are given last character
first. What stands behind the last tag is no span. -/
def spansFrom : (text : List Char) → (tag : Option (List Char)) → List Char → List Span
  | _, _, [] => []
  | text, none, c :: rest =>
    if c = '<' then spansFrom text (some ['<']) rest else spansFrom (c :: text) none rest
  | text, some begun, c :: rest =>
    if c = '>' then
      ⟨String.ofList (unescapeChars text.reverse), String.ofList (begun.reverse ++ ['>'])⟩
        :: spansFrom [] none rest
    else spansFrom text (some (c :: begun)) rest

/-- The spans of a page. -/
def spans (page : String) : List Span := spansFrom [] none page.toList

/-- The tags of a page. -/
def tags (page : String) : List String := (spans page).map Span.tag

/-! ## Spans that are written -/

/-- A span as it is written. -/
def Span.write (s : Span) : List Char := escapeChars s.text.toList ++ s.tag.toList

/-- Whether characters are one tag and nothing else. -/
def isTag : List Char → Bool
  | '<' :: rest => rest.takeWhile (· != '>') ++ ['>'] == rest
  | _ => false

theorem exists_name_of_isTag {cs : List Char} (h : isTag cs = true) :
    ∃ name, cs = '<' :: (name ++ ['>']) ∧ '>' ∉ name := by
  unfold isTag at h
  split at h
  · rename_i rest
    refine ⟨rest.takeWhile (· != '>'), ?_, ?_⟩
    · rw [eq_of_beq h]
    · intro hmem
      have hall : (rest.takeWhile (· != '>')).all (· != '>') = true := List.all_takeWhile
      simpa using List.all_eq_true.mp hall _ hmem
  · cases h

/-- The texts that stand for the characters that mean something in markup. -/
def entities : List String := ["&amp;", "&lt;", "&gt;", "&quot;", "&#39;"]

/-- The characters that mean something in markup, the ampersand apart. -/
def marks : List Char := ['<', '>', '"', '\'']

/-- Each character that means something in markup has its entity. -/
theorem entities_eq : entities = ('&' :: marks).map fun c => String.ofList (escapeChar c) := rfl

/-- A character is written as an entity if it means something in markup, and otherwise as it is. -/
theorem escapeChar_cases (c : Char) :
    (c ∈ '&' :: marks ∧ ∃ e ∈ entities, escapeChar c = e.toList) ∨
      (c ∉ '&' :: marks ∧ escapeChar c = [c]) := by
  unfold escapeChar
  split
  case h_6 hamp hlt hgt hquot hapos =>
    refine .inr ⟨?_, rfl⟩
    simp only [marks, List.mem_cons, List.not_mem_nil, or_false, not_or]
    exact ⟨hamp, hlt, hgt, hquot, hapos⟩
  all_goals exact .inl ⟨by decide, _, by decide, rfl⟩

theorem not_mem_escapeChars {c : Char} (h : c ∈ marks) (cs : List Char) : c ∉ escapeChars cs := by
  intro hmem
  obtain ⟨d, -, hd⟩ := List.mem_flatMap.mp hmem
  rcases escapeChar_cases d with ⟨-, e, he, hentity⟩ | ⟨hplain, hself⟩
  · have hnone : ∀ e ∈ entities, ∀ c ∈ marks, c ∉ e.toList := by simp [entities, marks]
    exact hnone e he c h (hentity ▸ hd)
  · rw [hself, List.mem_singleton] at hd
    exact hplain (List.mem_cons_of_mem _ (hd ▸ h))

theorem spansFrom_text {cs : List Char} (h : '<' ∉ cs) (text rest : List Char) :
    spansFrom text none (cs ++ rest) = spansFrom (cs.reverse ++ text) none rest := by
  induction cs generalizing text with
  | nil => rfl
  | cons c cs ih =>
    simp only [List.mem_cons, not_or] at h
    rw [List.cons_append, spansFrom, if_neg (Ne.symm h.1), ih h.2]
    simp

theorem spansFrom_tag {name : List Char} (h : '>' ∉ name) (text begun rest : List Char) :
    spansFrom text (some begun) (name ++ '>' :: rest) =
      ⟨String.ofList (unescapeChars text.reverse), String.ofList (begun.reverse ++ (name ++ ['>']))⟩
        :: spansFrom [] none rest := by
  induction name generalizing begun with
  | nil => rw [List.nil_append, spansFrom, if_pos rfl, List.nil_append]
  | cons c name ih =>
    simp only [List.mem_cons, not_or] at h
    rw [List.cons_append, spansFrom, if_neg (Ne.symm h.1), ih h.2]
    simp

/-- One span is read back, whatever follows it. -/
theorem spansFrom_write {s : Span} (h : isTag s.tag.toList = true) (rest : List Char) :
    spansFrom [] none (s.write ++ rest) = s :: spansFrom [] none rest := by
  obtain ⟨name, hname, hclose⟩ := exists_name_of_isTag h
  have htag : String.ofList ('<' :: (name ++ ['>'])) = s.tag := by
    rw [← hname, String.ofList_toList]
  unfold Span.write
  rw [hname, List.append_assoc, spansFrom_text (not_mem_escapeChars (by decide) _), List.cons_append,
    List.append_assoc, List.singleton_append, spansFrom, if_pos rfl, spansFrom_tag hclose]
  simp [unescape_escape, htag]

/-- Spans are read back as they were written. -/
theorem spans_write {ss : List Span} (h : ∀ s ∈ ss, isTag s.tag.toList = true) {behind : List Char}
    (hbehind : '<' ∉ behind) : spansFrom [] none (ss.flatMap Span.write ++ behind) = ss := by
  induction ss with
  | nil =>
    have hrest := spansFrom_text hbehind [] []
    rw [List.append_nil] at hrest
    rw [List.flatMap_nil, List.nil_append, hrest, spansFrom]
  | cons s ss ih =>
    rw [List.flatMap_cons, List.append_assoc, spansFrom_write (h s List.mem_cons_self),
      ih fun t ht => h t (List.mem_cons_of_mem _ ht)]

/-! ## Ampersands -/

/-- Every ampersand among characters begins an entity. -/
def Entities (cs : List Char) : Prop :=
  ∀ before behind, cs = before ++ '&' :: behind → ∃ e ∈ entities, e.toList <+: '&' :: behind

theorem Entities.of_not_mem {cs : List Char} (h : '&' ∉ cs) : Entities cs := by
  rintro before behind rfl
  simp at h

/-- An entity does not reach beyond the characters that it stands in, so they may be put together. -/
theorem Entities.append {cs ds : List Char} (hc : Entities cs) (hd : Entities ds) :
    Entities (cs ++ ds) := by
  intro before behind h
  rcases List.append_eq_append_iff.mp h with ⟨more, rfl, hds⟩ | ⟨more, hcs, hds⟩
  · exact hd more behind hds
  · cases more with
    | nil =>
      rw [List.nil_append] at hds
      exact hd [] behind hds.symm
    | cons c more =>
      obtain ⟨rfl, rfl⟩ := List.cons.inj hds
      obtain ⟨e, he, hprefix⟩ := hc before more hcs
      exact ⟨e, he, hprefix.trans (List.prefix_append _ ds)⟩

theorem Entities.flatMap {α : Type} {f : α → List Char} {xs : List α}
    (h : ∀ x ∈ xs, Entities (f x)) : Entities (xs.flatMap f) := by
  induction xs with
  | nil => exact .of_not_mem (by simp)
  | cons x xs ih =>
    rw [List.flatMap_cons]
    exact (h x List.mem_cons_self).append (ih fun y hy => h y (List.mem_cons_of_mem _ hy))

/-- An entity holds one ampersand, its first character. -/
theorem entities_of_mem {e : String} (he : e ∈ entities) : Entities e.toList := by
  have hrest : '&' ∉ e.toList.tail ∧ '&' :: e.toList.tail = e.toList := by
    revert e
    decide
  intro before behind h
  cases before with
  | nil =>
    rw [List.nil_append] at h
    exact ⟨e, he, h ▸ List.prefix_refl _⟩
  | cons c before =>
    rw [h] at hrest
    simp at hrest

theorem entities_escapeChar (c : Char) : Entities (escapeChar c) := by
  rcases escapeChar_cases c with ⟨-, e, he, hentity⟩ | ⟨hplain, hself⟩
  · rw [hentity]
    exact entities_of_mem he
  · have hamp : c ≠ '&' := List.ne_of_not_mem_cons hplain
    rw [hself]
    exact .of_not_mem (by simpa using hamp.symm)

/-- In an escaped text every ampersand begins an entity. -/
theorem entities_escapeChars (cs : List Char) : Entities (escapeChars cs) :=
  .flatMap fun c _ => entities_escapeChar c

theorem entities_write {s : Span} (h : '&' ∉ s.tag.toList) : Entities s.write :=
  (entities_escapeChars _).append (.of_not_mem h)

end TableProfile.Markup
