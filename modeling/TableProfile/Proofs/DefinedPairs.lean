import Mathlib.Data.List.Forall2
import TableProfile.Proofs.Correlations

/-!
# The pairs of a correlation table

Which pairs a table holds is said by the places of their columns. `places` lists the places of any two
columns whose correlation is defined; it follows the recursion of `pairsOf`, a row for each column and
behind it the rows of the later columns, whose places are one further on. So the order of the pairs is
that of their places (`pairwise_places`), and each of them is there once.

* `ofColumns_defined`: the pairs of a table and what is looked up in it.
-/
namespace TableProfile

/-! ## Coefficients -/

theorem clampUnit_mem {r : Float} (h : r.isFinite = true) :
    Number.ofInt (-1) ≤ clampUnit r ∧ clampUnit r ≤ Number.ofInt 1 := by
  have hr : r.isNaN = false := Double.isNaN_of_isFinite h
  unfold clampUnit
  split
  · decide +kernel
  · rename_i hlow
    split
    · decide +kernel
    · rename_i hhigh
      exact ⟨Double.le_of_not_lt hr (by decide +kernel) hlow,
        Double.le_of_not_lt (by decide +kernel) hr hhigh⟩

theorem CrossSums.coefficient_mem {s : CrossSums} {r : Float} (h : s.coefficient = some r) :
    Number.ofInt (-1) ≤ r ∧ r ≤ Number.ofInt 1 := by
  simp only [coefficient] at h
  split at h
  · cases h
  · split at h
    · rename_i hfinite
      cases h
      exact clampUnit_mem hfinite
    · cases h

/-- A defined correlation lies between -1 and 1. -/
theorem pearson_mem {x y : List (Option Float)} {r : Float} (h : pearson x y = some r) :
    Number.ofInt (-1) ≤ r ∧ r ≤ Number.ofInt 1 := by
  simp only [pearson] at h
  split at h
  · cases h
  · split at h
    · cases h
    · exact CrossSums.coefficient_mem h

namespace CorrelationTable

/-! ## Places -/

/-- Whether two columns have a correlation. -/
def correlated (c d : NumericColumn) : Bool := (pearson c.cells d.cells).isSome

/-- The places of two columns that have a correlation, the earlier column first. -/
def places : List NumericColumn → List (Nat × Nat)
  | [] => []
  | c :: later =>
    (later.findIdxs (correlated c)).map (fun k => (0, k + 1))
      ++ (places later).map (fun place => (place.1 + 1, place.2 + 1))

/-- Two places, the earlier one first, of columns that have a correlation. -/
def CorrelatedAt (columns : List NumericColumn) (i j : Nat) : Prop :=
  i < j ∧ ∃ x y, columns[i]? = some x ∧ columns[j]? = some y ∧ (pearson x.cells y.cells).isSome

/-- A pair holds the names and the correlation of the columns at two places. -/
def PairAt (columns : List NumericColumn) (place : Nat × Nat) (p : CorrelationPair) : Prop :=
  ∃ x y, columns[place.1]? = some x ∧ columns[place.2]? = some y ∧
    p.left = x.name ∧ p.right = y.name ∧ pearson x.cells y.cells = some p.coefficient

theorem mem_findIdxs_correlated {c : NumericColumn} {later : List NumericColumn} {k : Nat} :
    k ∈ later.findIdxs (correlated c) ↔
      ∃ d, later[k]? = some d ∧ (pearson c.cells d.cells).isSome := by
  rw [List.mem_findIdxs_iff_exists_getElem_pos]
  constructor
  · rintro ⟨hk, hd⟩
    exact ⟨later[k], List.getElem?_eq_getElem hk, hd⟩
  · rintro ⟨d, hd, hdefined⟩
    obtain ⟨hk, rfl⟩ := List.getElem?_eq_some_iff.mp hd
    exact ⟨hk, hdefined⟩

/-- The places are those of columns that have a correlation. -/
theorem mem_places {columns : List NumericColumn} {i j : Nat} :
    (i, j) ∈ places columns ↔ CorrelatedAt columns i j := by
  induction columns generalizing i j with
  | nil => simp [places, CorrelatedAt]
  | cons c later ih =>
    rw [places, List.mem_append, List.mem_map, List.mem_map]
    constructor
    · rintro (⟨k, hk, hplace⟩ | ⟨place, hmem, hplace⟩)
      · cases hplace
        obtain ⟨d, hd, hdefined⟩ := mem_findIdxs_correlated.mp hk
        exact ⟨Nat.succ_pos k, c, d, rfl, hd, hdefined⟩
      · cases hplace
        obtain ⟨hlt, x, y, hx, hy, hdefined⟩ := ih.mp hmem
        exact ⟨Nat.succ_lt_succ hlt, x, y, hx, hy, hdefined⟩
    · rintro ⟨hlt, x, y, hx, hy, hdefined⟩
      obtain ⟨k, rfl⟩ : ∃ k, j = k + 1 := ⟨j - 1, by omega⟩
      cases i with
      | zero =>
        cases hx
        exact Or.inl ⟨k, mem_findIdxs_correlated.mpr ⟨y, hy, hdefined⟩, rfl⟩
      | succ i =>
        have hrest : CorrelatedAt later i k := ⟨Nat.lt_of_succ_lt_succ hlt, x, y, hx, hy, hdefined⟩
        exact Or.inr ⟨(i, k), ih.mpr hrest, rfl⟩

/-- The places are in order of the earlier and then of the later column, and so each is there once. -/
theorem pairwise_places (columns : List NumericColumn) :
    (places columns).Pairwise (Prod.Lex (· < ·) (· < ·)) := by
  induction columns with
  | nil => exact List.Pairwise.nil
  | cons c later ih =>
    refine List.pairwise_append.mpr ⟨?_, ?_, ?_⟩
    · exact List.pairwise_map.mpr (List.pairwise_findIdxs.imp fun h =>
        Prod.Lex.right 0 (Nat.succ_lt_succ h))
    · refine List.pairwise_map.mpr (ih.imp fun {p q} h => ?_)
      rcases Prod.lex_def.mp h with hfirst | ⟨hfirst, hsecond⟩
      · exact Prod.lex_def.mpr (Or.inl (Nat.succ_lt_succ hfirst))
      · exact Prod.lex_def.mpr (Or.inr ⟨congrArg Nat.succ hfirst, Nat.succ_lt_succ hsecond⟩)
    · intro p hp q hq
      obtain ⟨k, -, rfl⟩ := List.mem_map.mp hp
      obtain ⟨place, -, rfl⟩ := List.mem_map.mp hq
      exact Prod.Lex.left _ _ (Nat.succ_pos place.1)

/-! ## Pairs -/

theorem PairAt.cons {c : NumericColumn} {columns : List NumericColumn} {place : Nat × Nat}
    {p : CorrelationPair} (h : PairAt columns place p) :
    PairAt (c :: columns) (place.1 + 1, place.2 + 1) p := h

/-- The pairs of a column with later ones are at the places where there is a correlation. -/
theorem pairsWith_places (c : NumericColumn) (later : List NumericColumn) :
    List.Forall₂ (fun k => PairAt (c :: later) (0, k + 1)) (later.findIdxs (correlated c))
      (pairsWith c later) := by
  induction later with
  | nil => exact .nil
  | cons d later ih =>
    have hlater : List.Forall₂ (fun k => PairAt (c :: d :: later) (0, k + 1))
        ((later.findIdxs (correlated c)).map (· + 1)) (pairsWith c later) :=
      List.forall₂_map_left_iff.mpr (ih.imp fun k p h => h)
    rw [List.findIdxs_cons, List.findIdxs_start]
    cases hr : pearson c.cells d.cells with
    | none =>
      have hpairs : pairsWith c (d :: later) = pairsWith c later := by simp [pairsWith, hr]
      rw [if_neg (by simp [correlated, hr]), hpairs]
      exact hlater
    | some r =>
      have hpairs : pairsWith c (d :: later) = ⟨c.name, d.name, r⟩ :: pairsWith c later := by
        simp [pairsWith, hr]
      rw [if_pos (by simp [correlated, hr]), hpairs]
      exact .cons ⟨c, d, rfl, rfl, rfl, rfl, hr⟩ hlater

/-- The pairs of a table stand in the order of their places. -/
theorem pairsOf_places (columns : List NumericColumn) :
    List.Forall₂ (PairAt columns) (places columns) (pairsOf columns) := by
  induction columns with
  | nil => exact .nil
  | cons c later ih =>
    refine List.rel_append (R := PairAt (c :: later)) ?_ ?_
    · exact List.forall₂_map_left_iff.mpr (pairsWith_places c later)
    · exact List.forall₂_map_left_iff.mpr (ih.imp fun place p h => h.cons)

/-! ## Looking pairs up -/

theorem joins_comm (a b : String) (p : CorrelationPair) : joins a b p = joins b a p := by
  rw [joins, joins, Bool.or_comm]

theorem get?_comm (t : CorrelationTable) (a b : String) : t.get? a b = t.get? b a := by
  rw [get?_eq, get?_eq, funext (joins_comm a b)]

/-- Under distinct names columns at two places are different. -/
theorem ne_of_places {columns : List NumericColumn} (hnames : (columns.map (·.name)).Nodup)
    {i j : Nat} {x y : NumericColumn} (hij : i < j) (hx : columns[i]? = some x)
    (hy : columns[j]? = some y) : x ≠ y := by
  rintro rfl
  have hnodup : columns.Nodup := hnames.of_map
  obtain ⟨hi, hxi⟩ := List.getElem?_eq_some_iff.mp hx
  obtain ⟨hj, hxj⟩ := List.getElem?_eq_some_iff.mp hy
  have hsame : i = j := hnodup.getElem_inj_iff.mp (hxi.trans hxj.symm)
  omega

/-- A name that no column has is in no pair. -/
theorem get?_of_not_mem {columns : List NumericColumn} {a : String}
    (h : a ∉ columns.map (·.name)) (b : String) : (ofColumns columns).get? a b = none := by
  rw [get?_eq, Option.map_eq_none_iff, List.find?_eq_none]
  intro p hp hjoins
  obtain ⟨c, hc, d, hd, hleft, hright, -⟩ := pair_of_mem hp
  rcases (joins_iff a b p).mp hjoins with ⟨ha, -⟩ | ⟨-, ha⟩
  · exact h (List.mem_map.mpr ⟨c, hc, hleft.symm.trans ha⟩)
  · exact h (List.mem_map.mpr ⟨d, hd, hright.symm.trans ha⟩)

/-- **The table holds the defined correlations.** Its pairs are those of columns that have a correlation,
each once, in order of the earlier and then the later column. Under distinct names two names look up the
correlation of their columns, in either order; no name has one with itself, and none has a name of no
column. A correlation lies between -1 and 1. -/
theorem ofColumns_defined {columns : List NumericColumn} (hnames : (columns.map (·.name)).Nodup) :
    (∃ places : List (Nat × Nat), places.Pairwise (Prod.Lex (· < ·) (· < ·)) ∧
      (∀ i j, (i, j) ∈ places ↔ CorrelatedAt columns i j) ∧
      List.Forall₂ (PairAt columns) places (ofColumns columns).pairs) ∧
    (∀ a b, (ofColumns columns).get? a b = (ofColumns columns).get? b a) ∧
    (∀ (i j : Nat) (x y : NumericColumn), i < j → columns[i]? = some x → columns[j]? = some y →
      (ofColumns columns).get? x.name y.name = pearson x.cells y.cells) ∧
    (∀ a, (ofColumns columns).get? a a = none) ∧
    (∀ a b, a ∉ columns.map (·.name) → (ofColumns columns).get? a b = none) ∧
    ∀ p ∈ (ofColumns columns).pairs,
      Number.ofInt (-1) ≤ p.coefficient ∧ p.coefficient ≤ Number.ofInt 1 := by
  refine ⟨⟨places columns, pairwise_places columns, fun i j => mem_places, pairsOf_places columns⟩,
    get?_comm _, ?_, get?_self hnames, fun a b ha => get?_of_not_mem ha b, ?_⟩
  · intro i j x y hij hx hy
    have hne : x ≠ y := ne_of_places hnames hij hx hy
    exact get?_ofColumns hnames (List.mem_of_getElem? hx) (List.mem_of_getElem? hy) hne
  · intro p hp
    obtain ⟨c, -, d, -, -, -, hr⟩ := pair_of_mem hp
    exact pearson_mem hr

theorem ofColumns_defined_constant :
    let a : NumericColumn := ⟨"a", [some (Number.ofInt 1), none, some (Number.ofInt 3)]⟩
    let b : NumericColumn := ⟨"b", [some (Number.ofInt 4), some (Number.ofInt 9), some (Number.ofInt 2)]⟩
    let c : NumericColumn := ⟨"c", [some (Number.ofInt 5), some (Number.ofInt 7), some (Number.ofInt 5)]⟩
    ([a, b, c].map (·.name)).Nodup ∧ (ofColumns [a, b, c]).get? "a" "b" = pearson a.cells b.cells ∧
      (ofColumns [a, b, c]).get? "c" "a" = none ∧ (ofColumns [a, b, c]).get? "a" "a" = none := by
  intro a b c
  have hnames : ([a, b, c].map (·.name)).Nodup := by decide
  obtain ⟨-, hcomm, hget, hself, -⟩ := ofColumns_defined hnames
  refine ⟨hnames, hget 0 1 a b (by decide) rfl rfl, ?_, hself "a"⟩
  have hconstant : pearson a.cells c.cells = none := by decide +kernel
  rw [hcomm, ← hconstant]
  exact hget 0 2 a c (by decide) rfl rfl

end CorrelationTable

end TableProfile
