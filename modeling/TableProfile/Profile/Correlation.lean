import TableProfile.Profile.Numeric

/-!
# Correlation of numeric columns

`pearson` is the correlation of two columns over the rows where both have a value. It is undefined for
fewer than two such rows, for a column that is constant on them, and where the arithmetic leaves the range
of doubles. `CorrelationTable.ofColumns` holds the defined correlations of all pairs of columns, the
earlier column on the left.
-/
namespace TableProfile

/-- The rows where both columns have a value. -/
def completeRows : List (Option Float) → List (Option Float) → List (Float × Float)
  | some a :: xs, some b :: ys => (a, b) :: completeRows xs ys
  | _ :: xs, _ :: ys => completeRows xs ys
  | _, _ => []

/-- Whether all values equal the first one as numbers. -/
def isConstant : List Float → Bool
  | [] => true
  | x :: rest => rest.all (· == x)

/-- A double between -1 and 1: itself, or the nearer bound. -/
def clampUnit (r : Float) : Float :=
  if r < Number.ofInt (-1) then Number.ofInt (-1)
  else if Number.ofInt 1 < r then Number.ofInt 1
  else r

/-- Sums of products of deviations from the two means. -/
structure CrossSums where
  xy : Float
  xx : Float
  yy : Float
  deriving DecidableEq, Repr

def CrossSums.step (meanX meanY : Float) (s : CrossSums) (row : Float × Float) : CrossSums :=
  let dx := row.1 - meanX
  let dy := row.2 - meanY
  ⟨s.xy + dx * dy, s.xx + dx * dx, s.yy + dy * dy⟩

/-- The sums over rows, whose means are taken over the same rows. -/
def crossSums (rows : List (Float × Float)) : CrossSums :=
  let zero := Number.ofNat 0
  rows.foldl (CrossSums.step (Numeric.mean (rows.map (·.1))) (Numeric.mean (rows.map (·.2))))
    ⟨zero, zero, zero⟩

/-- The correlation that the sums give. The roots are taken before the product, which would overflow. -/
def CrossSums.coefficient (s : CrossSums) : Option Float :=
  if s.xx == Number.ofNat 0 || s.yy == Number.ofNat 0 then none
  else
    let r := s.xy / (s.xx.sqrt * s.yy.sqrt)
    if r.isFinite then some (clampUnit r) else none

/-- The correlation of two columns, if it is defined. -/
def pearson (x y : List (Option Float)) : Option Float :=
  let rows := completeRows x y
  if rows.length < 2 then none
  else if isConstant (rows.map (·.1)) || isConstant (rows.map (·.2)) then none
  else (crossSums rows).coefficient

/-- A defined correlation of two columns. -/
structure CorrelationPair where
  left : String
  right : String
  coefficient : Float
  deriving DecidableEq, Repr

/-- A numeric column by its name and its values. -/
structure NumericColumn where
  name : String
  cells : List (Option Float)
  deriving DecidableEq, Repr

structure CorrelationTable where
  columns : List String
  pairs : List CorrelationPair
  deriving DecidableEq, Repr

namespace CorrelationTable

/-- The defined correlations of a column with those behind it. -/
def pairsWith (c : NumericColumn) (later : List NumericColumn) : List CorrelationPair :=
  later.filterMap fun d => (pearson c.cells d.cells).map fun r => ⟨c.name, d.name, r⟩

/-- The defined correlations of all pairs, by the earlier and then the later column. -/
def pairsOf : List NumericColumn → List CorrelationPair
  | [] => []
  | c :: later => pairsWith c later ++ pairsOf later

def ofColumns (columns : List NumericColumn) : CorrelationTable :=
  ⟨columns.map (·.name), pairsOf columns⟩

/-- The correlation of two columns by name, in either order. -/
def get? (t : CorrelationTable) (a b : String) : Option Float :=
  (t.pairs.find? fun p => (p.left == a && p.right == b) || (p.left == b && p.right == a)).map
    (·.coefficient)

end CorrelationTable

end TableProfile
