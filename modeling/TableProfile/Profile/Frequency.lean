import TableProfile.Profile.Numeric

/-!
# The profile of a column that is not numeric

`tally` counts the distinct values in the order of their first occurrence. `ranked` puts the counts in
order: the more frequent value first, and of equally frequent ones the one that occurs first. A profile
keeps the first five.
-/
namespace TableProfile

/-- How many values a profile lists. -/
def topValues : Nat := 5

structure ValueCount where
  value : String
  count : Nat
  deriving DecidableEq, Repr

/-- Counts of a column that is not numeric. -/
structure CategoryProfile where
  column : String
  distinct : Nat
  nullCount : Nat
  nullPercentage : Float
  mostFrequent : List ValueCount
  deriving DecidableEq, Repr

namespace Frequency

/-- A distinct value, how often it occurs, and the row of its first occurrence. -/
structure Entry where
  value : String
  count : Nat
  first : Nat
  deriving DecidableEq, Repr

/-- One more occurrence of a value, in row `row`. -/
def bump (row : Nat) (value : String) : List Entry → List Entry
  | [] => [⟨value, 1, row⟩]
  | e :: rest =>
    if e.value = value then { e with count := e.count + 1 } :: rest else e :: bump row value rest

/-- The entries of the values seen from row `row` on, behind those already there. -/
def tallyFrom : (row : Nat) → List Entry → List (Option String) → List Entry
  | _, entries, [] => entries
  | row, entries, none :: cells => tallyFrom (row + 1) entries cells
  | row, entries, some value :: cells => tallyFrom (row + 1) (bump row value entries) cells

/-- The distinct values of a column, each with its count and its first row. -/
def tally (cells : List (Option String)) : List Entry := tallyFrom 0 [] cells

/-- Whether one entry may stand before another: it is more frequent, or as frequent and no later. -/
def before (a b : Entry) : Bool := b.count < a.count || (a.count == b.count && a.first ≤ b.first)

/-- Entries by rank. No two entries have one first row, so their given order does not matter. -/
def ranked (entries : List Entry) : List Entry := entries.mergeSort before

end Frequency

/-- The profile of a column that is not numeric. -/
def frequencies (column : String) (cells : List (Option String)) : CategoryProfile :=
  let entries := Frequency.tally cells
  let nulls := cells.countP Option.isNone
  { column
    distinct := entries.length
    nullCount := nulls
    nullPercentage := nullPercentage nulls cells.length
    mostFrequent := (Frequency.ranked entries |>.take topValues).map fun e => ⟨e.value, e.count⟩ }

end TableProfile
