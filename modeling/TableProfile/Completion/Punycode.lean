/-!
# Names of hosts beyond ASCII

A label of a host's name that is not ASCII is written in ASCII: first the characters that are ASCII, then,
in ascending order of the others, the distance from each one to the next. A distance counts the steps
`(character, place)` that lie between two insertions. It is written with digits of base 36, the least
first; a digit below a threshold is the last, and thresholds adapt to the distances seen so far.

`encode` writes a label, `decode?` reads one.
-/
namespace TableProfile.Punycode

/-- The place where the label's first insertion is looked for, and the first bias. -/
def firstCode : Nat := 128

def firstBias : Nat := 72

/-- The least value of the digit at position `k` (36, 72, …) that more digits follow. -/
def threshold (k bias : Nat) : Nat := min 26 (max 1 (k - bias))

/-- The bias of a distance that is small enough; each division adds a digit. -/
def settle (k distance : Nat) : Nat :=
  if 455 < distance then settle (k + 36) (distance / 35)
  else k + 36 * distance / (distance + 38)
termination_by distance
decreasing_by omega

/-- The bias after an insertion that leaves `size` characters. -/
def adapt (isFirst : Bool) (distance size : Nat) : Nat :=
  let damped := if isFirst then distance / 700 else distance / 2
  settle 0 (damped + damped / size)

/-! ## Writing -/

def digit (n : Nat) : Char := Char.ofNat (if n < 26 then 'a'.toNat + n else '0'.toNat + (n - 26))

/-- A distance in digits; `fuel` is more than the distance. -/
def writeDistance (bias : Nat) : (fuel k n : Nat) → List Char
  | 0, _, _ => []
  | fuel + 1, k, n =>
    let t := threshold k bias
    if n < t then [digit n]
    else digit (t + (n - t) % (36 - t)) :: writeDistance bias fuel (k + 36) ((n - t) / (36 - t))

/-- What has been written of a label: the distance since the last insertion, how many characters are
there, and how many of them were there from the start. -/
structure Writer where
  written : List Char
  distance : Nat
  bias : Nat
  size : Nat
  basic : Nat

/-- One step over the label for the insertions of the character `m`. -/
def Writer.step (m : Nat) (w : Writer) (c : Char) : Writer :=
  if c.toNat < m then { w with distance := w.distance + 1 }
  else if c.toNat = m then
    { w with
      written := w.written ++ writeDistance w.bias (w.distance + 1) 36 w.distance
      distance := 0
      bias := adapt (w.size == w.basic) w.distance (w.size + 1)
      size := w.size + 1 }
  else w

def writeFrom (label : List Char) (n : Nat) (w : Writer) : (codes : List Nat) → List Char
  | [] => w.written
  | m :: codes =>
    let w := label.foldl (Writer.step m) { w with distance := w.distance + (m - n) * (w.size + 1) }
    writeFrom label (m + 1) { w with distance := w.distance + 1 } codes

/-- A label in ASCII. -/
def encode (label : List Char) : List Char :=
  let basic := label.filter fun c => c.toNat < firstCode
  let codes := ((label.map Char.toNat).filter (firstCode ≤ ·)).eraseDups.mergeSort
  basic ++ (if basic.isEmpty then [] else ['-'])
    ++ writeFrom label firstCode ⟨[], 0, firstBias, basic.length, basic.length⟩ codes

/-! ## Reading -/

def digitValue? (c : Char) : Option Nat :=
  if 'a' ≤ c && c ≤ 'z' then some (c.toNat - 'a'.toNat)
  else if c.isDigit then some (c.toNat - '0'.toNat + 26)
  else none

/-- The distance at the front of a text. -/
def readDistance? (bias : Nat) : (k weight done : Nat) → List Char → Option (Nat × List Char)
  | _, _, _, [] => none
  | k, weight, done, c :: rest =>
    (digitValue? c).bind fun d =>
      let t := threshold k bias
      if d < t then some (done + d * weight, rest)
      else readDistance? bias (k + 36) (weight * (36 - t)) (done + d * weight) rest

/-- The label with the insertions that a text tells; `fuel` is its length. -/
def insertFrom? : (fuel n place bias : Nat) → (label : List Char) → List Char → Option (List Char)
  | _, _, _, _, label, [] => some label
  | 0, _, _, _, _, _ => none
  | fuel + 1, n, place, bias, label, cs =>
    (readDistance? bias 36 1 0 cs).bind fun (distance, rest) =>
      let size := label.length + 1
      let code := n + (place + distance) / size
      let spot := (place + distance) % size
      if code < 0xD800 || (0xE000 ≤ code && code < 0x110000) then
        insertFrom? fuel code (spot + 1) (adapt (place == 0) distance size)
          (label.insertIdx spot (Char.ofNat code)) rest
      else none

/-- The label that an ASCII text writes, in lower case. -/
def decode? (cs : List Char) : Option (List Char) :=
  let told := (cs.reverse.takeWhile (· != '-')).reverse
  let basic := cs.take (cs.length - told.length - 1)
  if basic.isEmpty then insertFrom? cs.length firstCode 0 firstBias [] cs
  else insertFrom? told.length firstCode 0 firstBias basic told

end TableProfile.Punycode
