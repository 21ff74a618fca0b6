import Mathlib.Data.List.Nodup
import TableProfile.Profile.Frequency
import TableProfile.Table.Column

/-!
# What a tally holds

`tallyFrom` walks the rows of a column once and keeps one entry for each value it has seen. `Tallied` says
what the entries tell of the rows seen so far: one entry for each value, with its occurrences and the row
of the first. A row keeps it (`Tallied.value`, `Tallied.missing`), and so do all rows together.

* `tallied_tally`: what the tally of a column tells of the column.
-/
namespace TableProfile.Frequency

/-- Entries for the values seen, each value once, with its occurrences and the row of the first. -/
structure Tallied (seen : List (Option String)) (entries : List Entry) : Prop where
  nodup : (entries.map Entry.value).Nodup
  mem : ∀ v, v ∈ entries.map Entry.value ↔ some v ∈ seen
  count : ∀ e ∈ entries, e.count = seen.count (some e.value)
  first : ∀ e ∈ entries, e.first = seen.idxOf (some e.value)
  /-- Every present cell is an occurrence of one value. -/
  sum : total (entries.map Entry.count) = seen.countP Option.isSome

/-! ## One more occurrence -/

theorem bump_values (row : Nat) (v : String) (entries : List Entry) :
    (bump row v entries).map Entry.value =
      if v ∈ entries.map Entry.value then entries.map Entry.value else entries.map Entry.value ++ [v] := by
  induction entries with
  | nil => rfl
  | cons e rest ih =>
    by_cases h : e.value = v
    · simp [bump, h]
    · have hcons : v ∈ (e :: rest).map Entry.value ↔ v ∈ rest.map Entry.value := by
        simp [Ne.symm h]
      rw [bump, if_neg h, List.map_cons, ih]
      by_cases hrest : v ∈ rest.map Entry.value
      · rw [if_pos hrest, if_pos (hcons.mpr hrest), List.map_cons]
      · rw [if_neg hrest, if_neg (mt hcons.mp hrest), List.map_cons, List.cons_append]

theorem bump_sum (row : Nat) (v : String) (entries : List Entry) :
    total ((bump row v entries).map Entry.count) = total (entries.map Entry.count) + 1 := by
  induction entries with
  | nil => rfl
  | cons e rest ih =>
    rw [bump]
    split
    · simp only [List.map_cons, total, List.foldr_cons]
      omega
    · rw [total] at ih
      simp only [List.map_cons, total, List.foldr_cons, ih]
      omega

/-- An entry after one more occurrence: of another value, the one that was counted up, or a new one. -/
theorem mem_bump {row : Nat} {v : String} {entries : List Entry} {e : Entry}
    (hnodup : (entries.map Entry.value).Nodup) (h : e ∈ bump row v entries) :
    (e ∈ entries ∧ e.value ≠ v) ∨
      (∃ old ∈ entries, old.value = v ∧ e = { old with count := old.count + 1 }) ∨
      (v ∉ entries.map Entry.value ∧ e = ⟨v, 1, row⟩) := by
  induction entries with
  | nil => exact Or.inr (Or.inr ⟨List.not_mem_nil, List.mem_singleton.mp h⟩)
  | cons first rest ih =>
    obtain ⟨hfirst, hrest⟩ := List.nodup_cons.mp hnodup
    rw [bump] at h
    split at h
    · rename_i heq
      rcases List.mem_cons.mp h with rfl | h
      · exact Or.inr (Or.inl ⟨first, List.mem_cons_self, heq, rfl⟩)
      · refine Or.inl ⟨List.mem_cons_of_mem _ h, fun hv => hfirst ?_⟩
        rw [heq, ← hv]
        exact List.mem_map_of_mem h
    · rename_i hne
      rcases List.mem_cons.mp h with rfl | h
      · exact Or.inl ⟨List.mem_cons_self, hne⟩
      · rcases ih hrest h with ⟨hmem, hv⟩ | ⟨old, hold, hv, rfl⟩ | ⟨hnew, rfl⟩
        · exact Or.inl ⟨List.mem_cons_of_mem _ hmem, hv⟩
        · exact Or.inr (Or.inl ⟨old, List.mem_cons_of_mem _ hold, hv, rfl⟩)
        · refine Or.inr (Or.inr ⟨?_, rfl⟩)
          rw [List.map_cons, List.mem_cons]
          rintro (heq | hmem)
          · exact hne heq.symm
          · exact hnew hmem

namespace Tallied

variable {seen : List (Option String)} {entries : List Entry}

/-! ## One more row -/

theorem missing (h : Tallied seen entries) : Tallied (seen ++ [none]) entries where
  nodup := h.nodup
  mem v := by simp [h.mem v]
  count e he := by simp [h.count e he]
  first e he := by
    have hmem : some e.value ∈ seen := (h.mem e.value).mp (List.mem_map_of_mem he)
    rw [h.first e he, List.idxOf_append, if_pos hmem]
  sum := by simp [h.sum]

theorem value (h : Tallied seen entries) (v : String) :
    Tallied (seen ++ [some v]) (bump seen.length v entries) where
  nodup := by
    rw [bump_values]
    split
    · exact h.nodup
    · rename_i hnew
      refine List.nodup_append.mpr ⟨h.nodup, List.nodup_singleton v, fun a ha b hb heq => hnew ?_⟩
      rw [← List.mem_singleton.mp hb, ← heq]
      exact ha
  mem w := by
    rw [bump_values]
    split
    · rename_i hold
      have hv := (h.mem v).mp hold
      rw [h.mem w, List.mem_append, List.mem_singleton]
      refine ⟨Or.inl, ?_⟩
      rintro (hw | hw)
      · exact hw
      · rw [hw]
        exact hv
    · simp [h.mem w]
  count e he := by
    rw [List.count_append]
    rcases mem_bump h.nodup he with ⟨hmem, hv⟩ | ⟨old, hold, hv, rfl⟩ | ⟨hnew, rfl⟩
    · simp [h.count e hmem, Ne.symm hv]
    · simp [h.count old hold, hv]
    · have hnone : some v ∉ seen := fun hmem => hnew ((h.mem v).mpr hmem)
      simp [List.count_eq_zero_of_not_mem hnone]
  first e he := by
    rw [List.idxOf_append]
    rcases mem_bump h.nodup he with ⟨hmem, hv⟩ | ⟨old, hold, hv, rfl⟩ | ⟨hnew, rfl⟩
    · rw [if_pos ((h.mem e.value).mp (List.mem_map_of_mem hmem)), h.first e hmem]
    · rw [if_pos ((h.mem old.value).mp (List.mem_map_of_mem hold))]
      exact h.first old hold
    · have hnone : some v ∉ seen := fun hmem => hnew ((h.mem v).mpr hmem)
      simp [hnone]
  sum := by
    rw [bump_sum, h.sum, List.countP_append]
    rfl

/-! ## All rows -/

theorem rows (h : Tallied seen entries) (cells : List (Option String)) :
    Tallied (seen ++ cells) (tallyFrom seen.length entries cells) := by
  induction cells generalizing seen entries with
  | nil => simpa [tallyFrom] using h
  | cons cell rest ih =>
    cases cell with
    | none =>
      have hrest := ih h.missing
      rw [List.length_append, List.append_assoc] at hrest
      exact hrest
    | some v =>
      have hrest := ih (h.value v)
      rw [List.length_append, List.append_assoc] at hrest
      exact hrest

end Tallied

theorem tallied_nil : Tallied [] [] where
  nodup := List.nodup_nil
  mem v := by simp
  count e he := by cases he
  first e he := by cases he
  sum := rfl

/-- **A tally tells the values of a column.** -/
theorem tallied_tally (cells : List (Option String)) : Tallied cells (tally cells) :=
  tallied_nil.rows cells

end TableProfile.Frequency
