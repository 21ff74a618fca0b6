import Mathlib.Logic.Function.Basic
import TableProfile.Proofs.MarkupReading

/-!
# Escaped texts

A text is escaped one character at a time, and entities are read back in one pass from the left. The pass stays
in step: what a character is written as is read as that character, whatever follows. So a text that itself
looks like an entity, or ends where one begins, comes back unchanged.

The escaped texts are the clean ones: those that hold no character with a meaning in markup but ampersands
that begin an entity. For what a clean text begins with, an entity or a character without a meaning, is what
some character is written as, and what stands behind it is clean again.

* `clean_escapeChars`: escaped characters are clean.
* `Clean.exists_escapeChars`: clean characters are escaped ones.
* `escape_eq_iff`: the escaped form of a text is the one clean text that is read back as it.
-/
namespace TableProfile.Markup

/-- A text with its entities read back, in one pass from the left. -/
def unescape (t : String) : String := String.ofList (unescapeChars t.toList)

/-- Among characters there is none with a meaning in markup, but for ampersands that begin an entity. -/
structure Clean (cs : List Char) : Prop where
  marks_not_mem : ∀ c ∈ marks, c ∉ cs
  ampersands : Entities cs

theorem escapeChar_ne_nil (c : Char) : escapeChar c ≠ [] := by
  unfold escapeChar
  split <;> simp

theorem clean_escapeChars (cs : List Char) : Clean (escapeChars cs) :=
  ⟨fun _ hc => not_mem_escapeChars hc cs, entities_escapeChars cs⟩

namespace Clean

/-- What stands behind some of clean characters is clean. -/
theorem of_append {cs ds : List Char} (h : Clean (cs ++ ds)) : Clean ds := by
  refine ⟨fun c hc hmem => h.marks_not_mem c hc (List.mem_append_right cs hmem), fun before behind hds => ?_⟩
  refine h.ampersands (cs ++ before) behind ?_
  rw [hds, List.append_assoc]

/-- Clean characters begin with what some character is written as. -/
theorem exists_first {c : Char} {rest : List Char} (h : Clean (c :: rest)) :
    ∃ d behind, c :: rest = escapeChar d ++ behind := by
  rcases escapeChar_cases c with ⟨hmeaning, -⟩ | ⟨-, hself⟩
  · rcases List.mem_cons.mp hmeaning with rfl | hmark
    · obtain ⟨e, he, behind, hbehind⟩ := h.ampersands [] rest rfl
      rw [entities_eq] at he
      obtain ⟨d, -, rfl⟩ := List.mem_map.mp he
      rw [String.toList_ofList] at hbehind
      exact ⟨d, behind, hbehind.symm⟩
    · exact absurd List.mem_cons_self (h.marks_not_mem c hmark)
  · exact ⟨c, rest, by rw [hself, List.singleton_append]⟩

/-- Clean characters are escaped ones. -/
theorem exists_escapeChars {cs : List Char} (h : Clean cs) : ∃ ds, cs = escapeChars ds := by
  induction hlength : cs.length using Nat.strongRecOn generalizing cs with
  | ind n ih =>
    cases cs with
    | nil => exact ⟨[], rfl⟩
    | cons c rest =>
      obtain ⟨d, behind, hcs⟩ := h.exists_first
      rw [hcs] at h hlength ⊢
      have hshorter : behind.length < n := by
        have hpos := List.length_pos_iff.mpr (escapeChar_ne_nil d)
        rw [List.length_append] at hlength
        omega
      obtain ⟨ds, rfl⟩ := ih behind.length hshorter h.of_append rfl
      exact ⟨d :: ds, by rw [escapeChars, escapeChars, List.flatMap_cons]⟩

end Clean

theorem unescape_escape_text (s : String) : unescape (escape s) = s := by
  rw [unescape, escape, String.toList_ofList, unescape_escape, String.ofList_toList]

/-- **Escaping.** The escaped form of a text is the one text in which no character means anything in markup,
but for ampersands that begin an entity, and from which one pass over its entities gives the text back. So
different texts have different escaped forms. -/
theorem escape_eq_iff :
    (∀ s t, escape s = t ↔ Clean t.toList ∧ unescape t = s) ∧ Function.Injective escape := by
  refine ⟨fun s t => ⟨?_, ?_⟩, Function.LeftInverse.injective unescape_escape_text⟩
  · rintro rfl
    refine ⟨?_, unescape_escape_text s⟩
    rw [escape, String.toList_ofList]
    exact clean_escapeChars s.toList
  · rintro ⟨hclean, rfl⟩
    obtain ⟨ds, hds⟩ := hclean.exists_escapeChars
    rw [escape, unescape, String.toList_ofList, hds, unescape_escape, ← hds, String.ofList_toList]

example : escape "&lt; &am" = "&amp;lt; &amp;am" ∧ unescape "&amp;lt; &am" = "&lt; &am" := by decide

end TableProfile.Markup
