import TableProfile.Number.Binary

/-!
# The profile of a numeric column

`describe` gives mean, median, deviation, least and greatest of the values that are present. Sums run
from left to right and begin at minus zero. The values are put in order by a stable sort that takes
values no comparison separates as equal, so -0.0 and 0.0 keep their order. An undefined number compares
with nothing; where there is one, each value in turn moves in front of the larger ones right before it.

The deviation is that of a sample, computed in one pass: after the `i`-th value `x`, with `s` the sum so
far, the sum of squares grows by `(i·x - s)² / (i·(i-1))`. It is absent if it is not finite, as it is for
fewer than two values.
-/
namespace TableProfile

/-- Figures of a numeric column; absent where there are no values to take them from. -/
structure NumericProfile where
  column : String
  mean : Option Float
  median : Option Float
  deviation : Option Float
  least : Option Float
  greatest : Option Float
  count : Nat
  nullCount : Nat
  nullPercentage : Float
  deriving DecidableEq, Repr

/-- The share of missing cells in percent, zero for an empty column. -/
def nullPercentage (nulls rows : Nat) : Float :=
  if rows = 0 then Number.ofNat 0 else Number.ofNat nulls / Number.ofNat rows * Number.ofNat 100

namespace Numeric

/-- The sum from left to right, from -0.0. -/
def sum (xs : List Float) : Float := xs.foldl (· + ·) (Number.encode true 0 (-1074))

/-- Whether `x` may stand before `y`: unless `y` is less. -/
def before (x y : Float) : Bool := !decide (y < x)

/-- Adds a value behind values that are given last first, in front of the larger ones right before it. -/
def insertBehind (x : Float) : List Float → List Float
  | [] => [x]
  | y :: rest => if x < y then y :: insertBehind x rest else x :: y :: rest

/-- The values in order, equal ones in their given order. -/
def sorted (xs : List Float) : List Float :=
  if xs.any Float.isNaN then (xs.foldl (fun placed x => insertBehind x placed) []).reverse
  else xs.mergeSort before

/-- The mean of the values. -/
def mean (xs : List Float) : Float := sum xs / Number.ofNat xs.length

/-- The middle value of sorted values, or the mean of the two middle ones. -/
def medianOf (sorted : List Float) : Option Float :=
  let n := sorted.length
  if n % 2 = 1 then sorted[n / 2]?
  else
    match sorted[n / 2 - 1]?, sorted[n / 2]? with
    | some a, some b => some ((a + b) / Number.ofNat 2)
    | _, _ => none

/-- One pass over the values: how many, their sum, and their sum of squared deviations. -/
structure Pass where
  count : Float
  sum : Float
  squares : Float
  deriving DecidableEq, Repr

def Pass.step (p : Pass) (x : Float) : Pass :=
  let i := p.count + Number.ofNat 1
  let s := p.sum + x
  let d := i * x - s
  ⟨i, s, p.squares + d * d / (i * (i - Number.ofNat 1))⟩

/-- The sample deviation, if there are two values or more. -/
def rawDeviation : List Float → Option Float
  | [] | [_] => none
  | x :: rest =>
    let p := rest.foldl Pass.step ⟨Number.ofNat 1, x, Number.ofNat 0⟩
    some (p.squares / (p.count - Number.ofNat 1)).sqrt

/-- The sample deviation, if it is finite. -/
def deviation (xs : List Float) : Option Float := (rawDeviation xs).filter Float.isFinite

end Numeric

/-- The values that are present, in row order. -/
def present (cells : List (Option Float)) : List Float := cells.filterMap id

/-- The profile of a numeric column. -/
def describe (column : String) (cells : List (Option Float)) : NumericProfile :=
  let values := present cells
  let sorted := Numeric.sorted values
  let nulls := cells.length - values.length
  { column
    mean := if values.isEmpty then none else some (Numeric.mean values)
    median := Numeric.medianOf sorted
    deviation := Numeric.deviation values
    least := sorted.head?
    greatest := sorted.getLast?
    count := values.length
    nullCount := nulls
    nullPercentage := nullPercentage nulls cells.length }

end TableProfile
