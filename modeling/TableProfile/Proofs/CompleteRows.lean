import Mathlib.Logic.Relation
import TableProfile.Proofs.Correlations

/-!
# Complete rows

A correlation is computed from the rows where both columns have a value (`completeRows`). So where one
column has no value, be it missing or past its end, what the other one holds does not count, and such a
position may be taken out of both columns. `Edit` is a change of this kind to a pair of columns, and the
correlation is the same before and after any number of them. Nothing of the arithmetic is used for this;
that the two columns may be exchanged rests on commutativity of products alone.

* `completeRows_eq`: the complete rows, position by position.
* `completeRows_of_edit`: one edit leaves the complete rows as they are.
* `pearson_complete_rows`: correlations are symmetric, and the same after any edits.
-/
namespace TableProfile

namespace Correlation

/-- The value of a column at a position, if it is neither missing nor past the end. -/
def valueAt (cells : List (Option Float)) (i : ℕ) : Option Float := cells[i]?.join

/-- The row at a position, if both columns have a value there. -/
def rowAt (x y : List (Option Float)) (i : ℕ) : Option (Float × Float) :=
  match valueAt x i, valueAt y i with
  | some a, some b => some (a, b)
  | _, _ => none

/-- A change to two columns where a value is missing: to the one where the other has none, or to both by
taking out a position. -/
inductive Edit : List (Option Float) × List (Option Float) →
    List (Option Float) × List (Option Float) → Prop
  | left {x x' y : List (Option Float)} (same : ∀ i, valueAt y i ≠ none → valueAt x' i = valueAt x i) :
      Edit (x, y) (x', y)
  | right {x y y' : List (Option Float)} (same : ∀ i, valueAt x i ≠ none → valueAt y' i = valueAt y i) :
      Edit (x, y) (x, y')
  | remove {x y : List (Option Float)} (i : ℕ) (absent : valueAt x i = none ∨ valueAt y i = none) :
      Edit (x, y) (x.eraseIdx i, y.eraseIdx i)

variable {x y x' y' : List (Option Float)}

theorem completeRows_nil_left (y : List (Option Float)) : completeRows [] y = [] := by
  cases y <;> rfl

theorem completeRows_nil_right (x : List (Option Float)) : completeRows x [] = [] := by
  rcases x with _ | ⟨_ | a, xs⟩ <;> rfl

theorem rowAt_nil_left (y : List (Option Float)) (i : ℕ) : rowAt [] y i = none := rfl

/-- The complete rows, position by position. -/
theorem completeRows_eq (x y : List (Option Float)) :
    completeRows x y = (List.range y.length).filterMap (rowAt x y) := by
  induction y generalizing x with
  | nil => exact completeRows_nil_right x
  | cons b ys ih =>
    cases x with
    | nil =>
      rw [completeRows_nil_left]
      exact (List.filterMap_eq_nil_iff.mpr fun i _ => rowAt_nil_left _ i).symm
    | cons a xs =>
      have hrest : completeRows xs ys =
          (List.range ys.length).filterMap fun i => rowAt (a :: xs) (b :: ys) (i + 1) := ih xs
      rw [List.length_cons, List.range_succ_eq_map, List.filterMap_cons, List.filterMap_map]
      cases a with
      | none => exact hrest
      | some v =>
        cases b with
        | none => exact hrest
        | some w => exact congrArg ((v, w) :: ·) hrest

/-! ## Edits -/

/-- What a column holds where the other one has no value does not count. -/
theorem completeRows_congr_left (h : ∀ i, valueAt y i ≠ none → valueAt x' i = valueAt x i) :
    completeRows x' y = completeRows x y := by
  have hrow (i : ℕ) : rowAt x' y i = rowAt x y i := by
    cases hy : valueAt y i with
    | none =>
      have hnone (z : List (Option Float)) : rowAt z y i = none := by
        rw [rowAt, hy]
        cases valueAt z i <;> rfl
      rw [hnone, hnone]
    | some b => rw [rowAt, rowAt, h i (by rw [hy]; exact Option.some_ne_none b)]
  rw [completeRows_eq, completeRows_eq]
  exact List.filterMap_congr fun i _ => hrow i

theorem completeRows_congr_right (h : ∀ i, valueAt x i ≠ none → valueAt y' i = valueAt y i) :
    completeRows x y' = completeRows x y := by
  rw [completeRows_swap y' x, completeRows_swap y x, completeRows_congr_left h]

/-- A position where a value is missing may be taken out of both columns. -/
theorem completeRows_eraseIdx {i : ℕ} (h : valueAt x i = none ∨ valueAt y i = none) :
    completeRows (x.eraseIdx i) (y.eraseIdx i) = completeRows x y := by
  induction i generalizing x y with
  | zero =>
    cases x with
    | nil => rw [List.eraseIdx_nil, completeRows_nil_left, completeRows_nil_left]
    | cons a xs =>
      cases y with
      | nil => rw [List.eraseIdx_nil, completeRows_nil_right, completeRows_nil_right]
      | cons b ys =>
        -- one of the two that are taken out is missing, so they are no complete row
        rcases h with ha | hb
        · obtain rfl : a = none := ha
          rfl
        · obtain rfl : b = none := hb
          cases a <;> rfl
  | succ i ih =>
    cases x with
    | nil => rw [List.eraseIdx_nil, completeRows_nil_left, completeRows_nil_left]
    | cons a xs =>
      cases y with
      | nil => rw [List.eraseIdx_nil, completeRows_nil_right, completeRows_nil_right]
      | cons b ys =>
        have hrest : completeRows (xs.eraseIdx i) (ys.eraseIdx i) = completeRows xs ys := ih h
        rw [List.eraseIdx_cons_succ, List.eraseIdx_cons_succ]
        cases a with
        | none => exact hrest
        | some v =>
          cases b with
          | none => exact hrest
          | some w => exact congrArg ((v, w) :: ·) hrest

/-- One edit leaves the complete rows as they are. -/
theorem completeRows_of_edit {p q : List (Option Float) × List (Option Float)} (h : Edit p q) :
    completeRows q.1 q.2 = completeRows p.1 p.2 := by
  cases h with
  | left same => exact completeRows_congr_left same
  | right same => exact completeRows_congr_right same
  | remove i absent => exact completeRows_eraseIdx absent

/-- And so do any number of edits, made or undone. -/
theorem completeRows_of_edits {p q : List (Option Float) × List (Option Float)}
    (h : Relation.EqvGen Edit p q) : completeRows q.1 q.2 = completeRows p.1 p.2 := by
  induction h with
  | rel _ _ hedit => exact completeRows_of_edit hedit
  | refl _ => rfl
  | symm _ _ _ ih => exact ih.symm
  | trans _ _ _ _ _ ihfirst ihsecond => exact ihsecond.trans ihfirst

end Correlation

open Correlation

/-- **A correlation is symmetric and uses complete rows only.** It does not depend on the order of the two
columns: either both are absent, or they are one double. And it is the same after any edits where one of
the columns has no value: to the other column there, which may become shorter or longer by it, or to both
by taking out the position. Products commute (`Double.mul_comm`), and nothing else is used of the
arithmetic. -/
theorem pearson_complete_rows :
    (∀ x y, pearson x y = pearson y x) ∧
      ∀ x y x' y', Relation.EqvGen Edit (x, y) (x', y') → pearson x' y' = pearson x y := by
  refine ⟨pearson_comm, fun x y x' y' h => ?_⟩
  have hrows : completeRows x' y' = completeRows x y := completeRows_of_edits h
  rw [pearson, pearson, hrows]

/-- A value where the other column has none, one past the end of the other column, and a position that is
taken out. -/
theorem pearson_complete_rows_three :
    let a := some (Number.ofInt 1)
    let b := some (Number.ofInt 2)
    pearson [a, b, b, a] [b, none, a] = pearson [a, b] [b, a] ∧
      pearson [a, b] [b, a] = pearson [b, a] [a, b] := by
  intro a b
  have hchanged : Edit ([a, b, b, a], [b, none, a]) ([a, none, b], [b, none, a]) := by
    refine .left fun i hi => ?_
    match i with
    | 0 | 2 => rfl
    | 1 => exact absurd rfl hi
    | _ + 3 => exact absurd rfl hi
  have hremoved : Edit ([a, none, b], [b, none, a]) ([a, b], [b, a]) := .remove 1 (Or.inl rfl)
  have hedits := Relation.EqvGen.trans _ _ _ (.rel _ _ hchanged) (.rel _ _ hremoved)
  exact ⟨(pearson_complete_rows.2 _ _ _ _ hedits).symm, pearson_complete_rows.1 _ _⟩

end TableProfile
