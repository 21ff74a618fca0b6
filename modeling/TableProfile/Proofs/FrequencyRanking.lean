import Mathlib.Data.Finset.Card
import Mathlib.Data.List.ReduceOption
import TableProfile.Proofs.Tally

/-!
# The order of the most frequent values

A profile lists the first five entries of the tally by rank. What counts the values may hand them out in
any order. That order does not show: two entries of a tally have different first rows, so of each two of
them `before` lets only one stand in front (`Tallied.eq_of_before`), and entries in that order are
determined by what they are (`ranked_eq`).

`Ranking` says the same of the values themselves: each value of the column once, the more frequent one
first, and of equally frequent ones the one that occurs first. A column has one ranking.

* `ranked_eq`: ranks do not depend on the order in which entries are given.
* `Ranking.unique`: a column has at most one ranking.
* `frequencies_ranking`: a profile lists the first five values of the ranking.
-/
namespace TableProfile

namespace Frequency

/-! ## Ranks of entries -/

theorem before_iff (a b : Entry) :
    before a b = true ↔ b.count < a.count ∨ a.count = b.count ∧ a.first ≤ b.first := by
  simp [before]

theorem before_trans {a b c : Entry} (hab : before a b = true) (hbc : before b c = true) :
    before a c = true := by
  rw [before_iff] at hab hbc ⊢
  omega

theorem before_total (a b : Entry) : (before a b || before b a) = true := by
  rw [Bool.or_eq_true, before_iff, before_iff]
  omega

theorem ranked_perm (entries : List Entry) : (ranked entries).Perm entries :=
  List.mergeSort_perm entries before

theorem ranked_pairwise (entries : List Entry) : (ranked entries).Pairwise (before · ·) := by
  refine List.pairwise_mergeSort ?_ before_total entries
  intro a b c
  exact before_trans

namespace Tallied

variable {cells : List (Option String)} {entries : List Entry}

/-- No two entries have one first row. -/
theorem eq_of_first (h : Tallied cells entries) {a b : Entry} (ha : a ∈ entries) (hb : b ∈ entries)
    (hfirst : a.first = b.first) : a = b := by
  rw [h.first a ha, h.first b hb] at hfirst
  have hmem : some a.value ∈ cells := (h.mem a.value).mp (List.mem_map_of_mem ha)
  have hvalue : a.value = b.value := Option.some.inj (List.idxOf_inj hmem |>.mp hfirst)
  exact List.inj_on_of_nodup_map h.nodup ha hb hvalue

theorem eq_of_before (h : Tallied cells entries) {a b : Entry} (ha : a ∈ entries) (hb : b ∈ entries)
    (hab : before a b = true) (hba : before b a = true) : a = b := by
  rw [before_iff] at hab hba
  exact h.eq_of_first ha hb (by omega)

end Tallied

/-- Entries of a tally have the same ranks in whatever order they are given. -/
theorem ranked_eq {cells : List (Option String)} {entries : List Entry}
    (h : entries.Perm (tally cells)) : ranked entries = ranked (tally cells) := by
  have hperm : (ranked entries).Perm (ranked (tally cells)) :=
    (ranked_perm entries).trans (h.trans (ranked_perm (tally cells)).symm)
  refine hperm.eq_of_pairwise ?_ (ranked_pairwise entries) (ranked_pairwise (tally cells))
  intro a b ha hb hab hba
  have ha' : a ∈ tally cells := h.mem_iff.mp ((ranked_perm entries).mem_iff.mp ha)
  have hb' : b ∈ tally cells := (ranked_perm (tally cells)).mem_iff.mp hb
  exact (tallied_tally cells).eq_of_before ha' hb' hab hba

end Frequency

open Frequency (Entry tally ranked ranked_perm ranked_pairwise ranked_eq tallied_tally before_iff)

/-! ## Ranks of values -/

/-- The one value occurs more often than the other, or as often and its first occurrence is earlier. -/
def Precedes (cells : List (Option String)) (v w : String) : Prop :=
  cells.count (some w) < cells.count (some v) ∨
    cells.count (some v) = cells.count (some w) ∧ cells.idxOf (some v) < cells.idxOf (some w)

instance (cells : List (Option String)) (v w : String) : Decidable (Precedes cells v w) :=
  inferInstanceAs (Decidable (_ ∨ _))

/-- The values of a column, each one in front of those that it precedes. -/
structure Ranking (cells : List (Option String)) (values : List String) : Prop where
  mem : ∀ v, v ∈ values ↔ some v ∈ cells
  ordered : values.Pairwise (Precedes cells)

namespace Ranking

variable {cells : List (Option String)} {values : List String}

theorem nodup (h : Ranking cells values) : values.Nodup := by
  refine h.ordered.imp fun {v w} hvw heq => ?_
  subst heq
  rcases hvw with hcount | ⟨-, hfirst⟩
  · exact lt_irrefl _ hcount
  · exact lt_irrefl _ hfirst

/-- A column has at most one ranking. -/
theorem unique (h : Ranking cells values) {values' : List String} (h' : Ranking cells values') :
    values = values' := by
  have hperm : values.Perm values' :=
    (List.perm_ext_iff_of_nodup h.nodup h'.nodup).mpr fun v => by rw [h.mem, h'.mem]
  refine hperm.eq_of_pairwise (fun v w _ _ hvw hwv => ?_) h.ordered h'.ordered
  unfold Precedes at hvw hwv
  omega

theorem length_eq (h : Ranking cells values) : values.length = cells.reduceOption.toFinset.card := by
  rw [← List.toFinset_card_of_nodup h.nodup]
  congr 1
  ext v
  rw [List.mem_toFinset, List.mem_toFinset, List.reduceOption_mem_iff, h.mem]

/-- A value that is not among the first ones is preceded by each of them. -/
theorem precedes_of_not_mem_take (h : Ranking cells values) {n : Nat} {v w : String}
    (hv : some v ∈ cells) (hout : v ∉ values.take n) (hw : w ∈ values.take n) : Precedes cells w v := by
  have hvalues : values.take n ++ values.drop n = values := List.take_append_drop n values
  have hdrop : v ∈ values.drop n := by
    have hmem := (h.mem v).mpr hv
    rw [← hvalues] at hmem
    exact (List.mem_append.mp hmem).resolve_left hout
  have hordered := h.ordered
  rw [← hvalues] at hordered
  exact (List.pairwise_append.mp hordered).2.2 w hw v hdrop

end Ranking

/-- The ranked entries of a tally have the values of a column in the order of their ranking. -/
theorem ranking_ranked (cells : List (Option String)) :
    Ranking cells ((ranked (tally cells)).map Entry.value) where
  mem v := by
    rw [((ranked_perm (tally cells)).map Entry.value).mem_iff]
    exact (tallied_tally cells).mem v
  ordered := by
    have htally := tallied_tally cells
    rw [List.pairwise_map]
    have hnodup : (ranked (tally cells)).Nodup :=
      (ranked_perm (tally cells)).nodup_iff.mpr (List.Nodup.of_map Entry.value htally.nodup)
    refine ((ranked_pairwise (tally cells)).and hnodup).imp_of_mem fun {a b} ha hb hab => ?_
    obtain ⟨hbefore, hne⟩ := hab
    have ha' := (ranked_perm (tally cells)).mem_iff.mp ha
    have hb' := (ranked_perm (tally cells)).mem_iff.mp hb
    have hfirst : a.first ≠ b.first := fun heq => hne (htally.eq_of_first ha' hb' heq)
    rw [before_iff] at hbefore
    unfold Precedes
    rw [← htally.count a ha', ← htally.count b hb', ← htally.first a ha', ← htally.first b hb']
    omega

/-! ## Profiles -/

/-- The profile of a column whose counted values are handed out as `entries`. -/
def frequenciesOf (column : String) (cells : List (Option String)) (entries : List Entry) :
    CategoryProfile :=
  { frequencies column cells with
    distinct := entries.length
    mostFrequent := ((ranked entries).take topValues).map fun e => ⟨e.value, e.count⟩ }

theorem frequenciesOf_tally (column : String) (cells : List (Option String)) :
    frequenciesOf column cells (tally cells) = frequencies column cells := rfl

theorem mostFrequent_eq {cells : List (Option String)} {values : List String}
    (h : Ranking cells values) (column : String) :
    (frequencies column cells).mostFrequent =
      (values.take topValues).map fun v => ⟨v, cells.count (some v)⟩ := by
  have hvalues := h.unique (ranking_ranked cells)
  rw [hvalues, ← List.map_take, List.map_map]
  refine List.map_congr_left fun e he => ?_
  have hmem : e ∈ tally cells := (ranked_perm (tally cells)).mem_iff.mp (List.mem_of_mem_take he)
  rw [Function.comp_apply, ← (tallied_tally cells).count e hmem]

/-- **A profile lists the first values of the ranking**, in whatever order the counted values are handed
out: as many as there are, five at most, each with its occurrences. A value that is not listed occurs at
most as often as each listed one, and if as often, it occurs first later. -/
theorem frequencies_ranking (column : String) (cells : List (Option String)) {entries : List Entry}
    (h : entries.Perm (tally cells)) :
    ∃ values, Ranking cells values ∧ (∀ values', Ranking cells values' → values' = values) ∧
      let p := frequenciesOf column cells entries
      p = frequencies column cells ∧ p.distinct = cells.reduceOption.toFinset.card ∧
        p.nullCount = cells.count none ∧
        p.mostFrequent = (values.take (min 5 p.distinct)).map (fun v => ⟨v, cells.count (some v)⟩) ∧
        ∀ v, some v ∈ cells → v ∉ p.mostFrequent.map ValueCount.value → ∀ w ∈ p.mostFrequent,
          cells.count (some v) ≤ w.count ∧
            (cells.count (some v) = w.count → cells.idxOf (some w.value) < cells.idxOf (some v)) := by
  have hranking := ranking_ranked cells
  have hsame : frequenciesOf column cells entries = frequencies column cells := by
    rw [frequenciesOf, ranked_eq h, h.length_eq, ← frequenciesOf_tally]
    rfl
  have hdistinct : (frequencies column cells).distinct = cells.reduceOption.toFinset.card := by
    rw [← hranking.length_eq, List.length_map, (ranked_perm (tally cells)).length_eq]
    rfl
  have hlisted := mostFrequent_eq hranking column
  refine ⟨_, hranking, fun _ h' => h'.unique hranking, ?_⟩
  dsimp only
  rw [hsame]
  refine ⟨rfl, hdistinct, ?_, ?_, ?_⟩
  · exact List.countP_congr fun cell _ => by cases cell <;> simp
  · rw [hlisted, hdistinct, ← hranking.length_eq, ← List.take_take, List.take_length]
    rfl
  · intro v hv hout w hw
    rw [hlisted] at hout hw
    obtain ⟨u, hu, rfl⟩ := List.mem_map.mp hw
    have hvalues : ((((ranked (tally cells)).map Entry.value).take topValues).map
        fun u => (⟨u, cells.count (some u)⟩ : ValueCount)).map ValueCount.value =
          ((ranked (tally cells)).map Entry.value).take topValues := by
      rw [List.map_map]
      exact List.map_id _
    rw [hvalues] at hout
    have hprecedes := hranking.precedes_of_not_mem_take hv hout hu
    unfold Precedes at hprecedes
    dsimp only
    omega

theorem frequencies_ranking_reversed :
    let cells := ["b", "a", "c", "a", "b", "d", "e", "f"].map some ++ [none]
    let entries := (tally cells).reverse
    entries ≠ tally cells ∧ entries.Perm (tally cells) ∧ (frequenciesOf "c" cells entries).distinct = 6 ∧
      (frequenciesOf "c" cells entries).mostFrequent =
        [⟨"b", 2⟩, ⟨"a", 2⟩, ⟨"c", 1⟩, ⟨"d", 1⟩, ⟨"e", 1⟩] := by
  intro cells entries
  have hperm : entries.Perm (tally cells) := List.reverse_perm _
  have hranking : Ranking cells ["b", "a", "c", "d", "e", "f"] :=
    ⟨fun v => by
      simp [cells]
      tauto, by decide⟩
  obtain ⟨values, -, hunique, -, hdistinct, -, hlisted, -⟩ := frequencies_ranking "c" cells hperm
  rw [← hunique _ hranking, hdistinct, ← hranking.length_eq] at hlisted
  refine ⟨by decide, hperm, ?_, hlisted.trans (by decide)⟩
  rw [hdistinct, ← hranking.length_eq]
  rfl

end TableProfile
