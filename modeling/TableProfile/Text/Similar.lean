import TableProfile.Number.Binary

/-!
# Similar words

`score` says how alike two words are, from 0 to 1. A character of the one word pairs with the first free
equal character of the other that stands not too far from its place; the score is the mean of the paired
share of either word and of the share of pairs that keep their order. `among` lists the candidates for a
word, the most similar last.
-/
namespace TableProfile.Similar

/-- How far apart paired characters may stand. -/
def range (m n : Nat) : Nat := max m n / 2 - 1

/-- The first place of `word` between `low` and before `high` that holds `c` and is not taken. -/
def place? (word : List Char) (taken : List Nat) (low high : Nat) (c : Char) : Option Nat :=
  (List.range (min high word.length)).find? fun j =>
    low ≤ j && word[j]? == some c && !taken.contains j

/-- The pairs of `a` and `b` by character of `a` and place in `b`, the last first. -/
def pairs (a b : List Char) : List (Char × Nat) :=
  let far := range a.length b.length
  a.zipIdx.foldl
    (fun found (c, i) =>
      match place? b (found.map (·.2)) (i - far) (i + far + 1) c with
      | some j => (c, j) :: found
      | none => found)
    []

/-- How many of the paired characters stand elsewhere in the order of the other word. -/
def displaced (b : List Char) (found : List (Char × Nat)) : Nat :=
  let inOrder := ((List.range b.length).filter fun j => found.any (·.2 == j)).filterMap (b[·]?)
  ((found.reverse.map (·.1)).zip inOrder).countP fun (c, d) => c != d

def share (m n : Nat) : Float := Number.ofNat m / Number.ofNat n

/-- How alike two words are. -/
def score (a b : List Char) : Float :=
  let found := pairs a b
  let m := found.length
  if a.isEmpty && b.isEmpty then 1
  else if m = 0 then 0
  else (share m a.length + share m b.length + share (m - displaced b found / 2) m) / 3

/-- The candidates that resemble a word, from the least to the most similar. -/
def among (word : String) (candidates : List String) : List String :=
  let scored := candidates.map fun c => (score word.toList c.toList, c)
  ((scored.filter fun s => (0.7 : Float) < s.1).mergeSort fun s t => s.1 ≤ t.1).map (·.2)

end TableProfile.Similar
