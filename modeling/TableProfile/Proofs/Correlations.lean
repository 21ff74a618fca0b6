import Mathlib.Data.List.Nodup
import TableProfile.Profile.Correlation
import TableProfile.Proofs.Doubles

/-!
# Correlations of pairs of columns

A correlation is of two columns, not of a pair in some order: exchanging the columns exchanges the two
sums of squares and the two factors of every product (`crossSums_swap`), and products of doubles commute.
So although the table holds each pair once, by the earlier column, looking it up by two names gives the
correlation of the two columns in either order.

* `pearson_comm`: the order of two columns does not matter.
* `get?_ofColumns`: what is looked up by the names of two columns.
-/
namespace TableProfile

/-! ## The order of two columns -/

theorem completeRows_swap (x y : List (Option Float)) :
    completeRows y x = (completeRows x y).map Prod.swap := by
  induction x generalizing y with
  | nil =>
    cases y with
    | nil => rfl
    | cons b ys => cases b <;> rfl
  | cons a xs ih =>
    cases y with
    | nil => cases a <;> rfl
    | cons b ys =>
      cases a with
      | none => cases b <;> exact ih ys
      | some v =>
        cases b with
        | none => exact ih ys
        | some w =>
          simp only [completeRows, List.map_cons, ih ys]
          rfl

/-- The sums with the columns exchanged. -/
def CrossSums.swap (s : CrossSums) : CrossSums := ⟨s.xy, s.yy, s.xx⟩

theorem CrossSums.step_swap (meanX meanY : Float) (s : CrossSums) (row : Float × Float) :
    s.swap.step meanY meanX row.swap = (s.step meanX meanY row).swap := by
  simp only [step, swap, Prod.fst_swap, Prod.snd_swap, Double.mul_comm (row.2 - meanY)]

theorem CrossSums.foldl_swap (meanX meanY : Float) (s : CrossSums) (rows : List (Float × Float)) :
    (rows.map Prod.swap).foldl (step meanY meanX) s.swap =
      (rows.foldl (step meanX meanY) s).swap := by
  induction rows generalizing s with
  | nil => rfl
  | cons row rest ih =>
    rw [List.map_cons, List.foldl_cons, List.foldl_cons, step_swap, ih]

theorem map_fst_swap (rows : List (Float × Float)) :
    (rows.map Prod.swap).map (·.1) = rows.map (·.2) := by
  rw [List.map_map]
  rfl

theorem map_snd_swap (rows : List (Float × Float)) :
    (rows.map Prod.swap).map (·.2) = rows.map (·.1) := by
  rw [List.map_map]
  rfl

theorem crossSums_swap (rows : List (Float × Float)) :
    crossSums (rows.map Prod.swap) = (crossSums rows).swap := by
  rw [crossSums, map_fst_swap, map_snd_swap]
  exact CrossSums.foldl_swap _ _ ⟨Number.ofNat 0, Number.ofNat 0, Number.ofNat 0⟩ rows

theorem CrossSums.coefficient_swap (s : CrossSums) : s.swap.coefficient = s.coefficient := by
  simp only [coefficient, swap, Bool.or_comm (s.yy == _), Double.mul_comm s.yy.sqrt]

/-- The order of two columns does not matter. -/
theorem pearson_comm (x y : List (Option Float)) : pearson x y = pearson y x := by
  simp only [pearson]
  rw [completeRows_swap y x, map_fst_swap, map_snd_swap, crossSums_swap, CrossSums.coefficient_swap,
    List.length_map, Bool.or_comm]

namespace CorrelationTable

/-! ## The pairs of a table -/

/-- Whether a pair is of two columns, in either order. -/
def joins (a b : String) (p : CorrelationPair) : Bool :=
  (p.left == a && p.right == b) || (p.left == b && p.right == a)

theorem joins_iff (a b : String) (p : CorrelationPair) :
    joins a b p = true ↔ p.left = a ∧ p.right = b ∨ p.left = b ∧ p.right = a := by
  simp [joins]

theorem mem_pairsWith {c : NumericColumn} {later : List NumericColumn} {p : CorrelationPair} :
    p ∈ pairsWith c later ↔
      ∃ d ∈ later, ∃ r, pearson c.cells d.cells = some r ∧ p = ⟨c.name, d.name, r⟩ := by
  simp only [pairsWith, List.mem_filterMap, Option.map_eq_some_iff]
  constructor
  · rintro ⟨d, hd, r, hr, rfl⟩
    exact ⟨d, hd, r, hr, rfl⟩
  · rintro ⟨d, hd, r, hr, rfl⟩
    exact ⟨d, hd, r, hr, rfl⟩

/-- A pair is of two columns of the table and holds their correlation. -/
theorem pair_of_mem {columns : List NumericColumn} {p : CorrelationPair} (h : p ∈ pairsOf columns) :
    ∃ c ∈ columns, ∃ d ∈ columns, p.left = c.name ∧ p.right = d.name ∧
      pearson c.cells d.cells = some p.coefficient := by
  induction columns with
  | nil => cases h
  | cons c later ih =>
    rcases List.mem_append.mp h with h | h
    · obtain ⟨d, hd, r, hr, rfl⟩ := mem_pairsWith.mp h
      exact ⟨c, List.mem_cons_self, d, List.mem_cons_of_mem _ hd, rfl, rfl, hr⟩
    · obtain ⟨a, ha, b, hb, hp⟩ := ih h
      exact ⟨a, List.mem_cons_of_mem _ ha, b, List.mem_cons_of_mem _ hb, hp⟩

theorem left_ne_right {columns : List NumericColumn} (hnames : (columns.map (·.name)).Nodup)
    {p : CorrelationPair} (h : p ∈ pairsOf columns) : p.left ≠ p.right := by
  induction columns with
  | nil => cases h
  | cons c later ih =>
    obtain ⟨hc, hlater⟩ := List.nodup_cons.mp hnames
    rcases List.mem_append.mp h with h | h
    · obtain ⟨d, hd, r, -, rfl⟩ := mem_pairsWith.mp h
      intro heq
      exact hc (List.mem_map.mpr ⟨d, hd, heq.symm⟩)
    · exact ih hlater h

/-- Two columns that have a correlation have a pair. -/
theorem exists_pair {columns : List NumericColumn} {x y : NumericColumn} (hx : x ∈ columns)
    (hy : y ∈ columns) (hne : x ≠ y) {r : Float} (hr : pearson x.cells y.cells = some r) :
    ∃ p ∈ pairsOf columns, joins x.name y.name p = true := by
  induction columns with
  | nil => cases hx
  | cons c later ih =>
    rw [pairsOf]
    rcases List.mem_cons.mp hx with rfl | hlater
    · rcases List.mem_cons.mp hy with rfl | hy
      · exact absurd rfl hne
      · refine ⟨⟨x.name, y.name, r⟩, List.mem_append_left _ ?_, ?_⟩
        · exact mem_pairsWith.mpr ⟨y, hy, r, hr, rfl⟩
        · exact (joins_iff _ _ _).mpr (Or.inl ⟨rfl, rfl⟩)
    · rcases List.mem_cons.mp hy with rfl | hy
      · rw [pearson_comm] at hr
        refine ⟨⟨y.name, x.name, r⟩, List.mem_append_left _ ?_, ?_⟩
        · exact mem_pairsWith.mpr ⟨x, hlater, r, hr, rfl⟩
        · exact (joins_iff _ _ _).mpr (Or.inr ⟨rfl, rfl⟩)
      · obtain ⟨p, hp, hjoins⟩ := ih hlater hy
        exact ⟨p, List.mem_append_right _ hp, hjoins⟩

/-! ## Looking a pair up -/

theorem get?_eq (t : CorrelationTable) (a b : String) :
    t.get? a b = (t.pairs.find? (joins a b)).map (·.coefficient) := rfl

/-- No pair is of one column with itself. -/
theorem get?_self {columns : List NumericColumn} (hnames : (columns.map (·.name)).Nodup)
    (a : String) : (ofColumns columns).get? a a = none := by
  rw [get?_eq, Option.map_eq_none_iff, List.find?_eq_none]
  intro p hp hjoins
  rcases (joins_iff a a p).mp hjoins with ⟨hleft, hright⟩ | ⟨hleft, hright⟩
  · exact left_ne_right hnames hp (hleft.trans hright.symm)
  · exact left_ne_right hnames hp (hleft.trans hright.symm)

/-- Where names are distinct, two names look up the correlation of the two columns. -/
theorem get?_ofColumns {columns : List NumericColumn} (hnames : (columns.map (·.name)).Nodup)
    {x y : NumericColumn} (hx : x ∈ columns) (hy : y ∈ columns) (hne : x ≠ y) :
    (ofColumns columns).get? x.name y.name = pearson x.cells y.cells := by
  have hinj := List.inj_on_of_nodup_map hnames
  rw [get?_eq]
  cases hfind : (ofColumns columns).pairs.find? (joins x.name y.name) with
  | none =>
    cases hr : pearson x.cells y.cells with
    | none => rfl
    | some r =>
      obtain ⟨p, hp, hjoins⟩ := exists_pair hx hy hne hr
      exact absurd hjoins (List.find?_eq_none.mp hfind p hp)
  | some p =>
    obtain ⟨c, hc, d, hd, hleft, hright, hr⟩ := pair_of_mem (List.mem_of_find?_eq_some hfind)
    rcases (joins_iff _ _ _).mp (List.find?_some hfind) with ⟨ha, hb⟩ | ⟨ha, hb⟩
    · obtain rfl := hinj hc hx (hleft.symm.trans ha)
      obtain rfl := hinj hd hy (hright.symm.trans hb)
      exact hr.symm
    · obtain rfl := hinj hc hy (hleft.symm.trans ha)
      obtain rfl := hinj hd hx (hright.symm.trans hb)
      rw [pearson_comm, hr]
      rfl

end CorrelationTable

end TableProfile
