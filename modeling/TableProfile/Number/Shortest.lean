import TableProfile.Number.Binary

/-!
# The fewest digits that read back

The decimal text of a finite double has the fewest significant digits that still read back as the
same double, and of those the nearest to it. All reals that round to `m · 2^e` form an interval, whose
ends belong to it exactly when `m` is even. For one digit, two digits and so on, the value's two
neighbours on that decimal grid are tested; the first grid with a hit wins, and of two hits the nearer.

* `shortest` gives the digits and the place of the decimal point.
* `plain` writes them positionally.
-/
namespace TableProfile.Number

/-- A positive decimal number `0.d₁d₂… · 10^point`, first and last digit not zero. -/
structure Digits where
  digits : List Char
  point : Int
  deriving DecidableEq, Repr

/-- `num / den < 10^p`. -/
def belowPowerOfTen (num den : Nat) (p : Int) : Bool :=
  if p < 0 then num * Nat.pow 10 (-p).toNat < den else num < den * Nat.pow 10 p.toNat

/-- The number of digits before the decimal point of `num / den`, negative below a tenth: the least `p`
with `num / den < 10^p`. The estimate from the binary lengths is at most one off. -/
def pointOf (num den : Nat) : Int :=
  let guess := ((num.log2 : Int) - den.log2) * 30103 / 100000
  if belowPowerOfTen num den guess then
    if belowPowerOfTen num den (guess - 1) then guess - 1 else guess
  else if belowPowerOfTen num den (guess + 1) then guess + 1
  else guess + 2

/-- The interval of reals that round to `m · 2^e`, as numerators over one denominator. -/
structure Interval where
  low : Nat
  value : Nat
  high : Nat
  den : Nat
  closed : Bool
  deriving DecidableEq, Repr

def roundingInterval (m : Nat) (e : Int) : Interval :=
  let below := if m = Nat.pow 2 52 ∧ e > -1074 then 1 else 2
  let (unit, den) := scaled 1 1 (2 - e)
  ⟨(4 * m - below) * unit, 4 * m * unit, (4 * m + 2) * unit, den, m % 2 == 0⟩

/-- Whether the grid point `c · num / den` lies in the interval; `num / den` is the grid's width. -/
def Interval.holds (i : Interval) (c num den : Nat) : Bool :=
  let point := c * num * i.den
  if i.closed then i.low * den ≤ point && point ≤ i.high * den
  else i.low * den < point && point < i.high * den

/-- The point of the grid of width `num / den` that the interval holds, the nearer one of two. -/
def Interval.pick (i : Interval) (num den : Nat) : Option Nat :=
  let c := i.value * den / (i.den * num)
  let below := i.holds c num den && c != 0
  let above := i.holds (c + 1) num den
  let twiceRest := 2 * (i.value * den - c * num * i.den)
  if below && (!above || twiceRest ≤ num * i.den) then some c
  else if above then some (c + 1)
  else none

/-- The first grid, from `n` digits on, that has a point in the interval. -/
def Interval.search (i : Interval) (point : Int) : (fuel n : Nat) → Nat × Int
  | 0, n => (i.value * Nat.pow 10 n / i.den, point)
  | fuel + 1, n =>
    let width := point - n
    let (num, den) := if width < 0 then (1, Nat.pow 10 (-width).toNat) else (Nat.pow 10 width.toNat, 1)
    match i.pick num den with
    | some c => (c, width)
    | none => i.search point fuel (n + 1)

/-- The shortest digits that read back as `m · 2^e`, for `m > 0`. Seventeen digits always do. -/
def shortest (m : Nat) (e : Int) : Digits :=
  let i := roundingInterval m e
  let (c, width) := i.search (pointOf i.value i.den) 17 1
  let text := Nat.toDigits 10 c
  let kept := (text.reverse.dropWhile (· == '0')).reverse
  ⟨kept, width + text.length⟩

/-- The positional text of a decimal number, without an exponent. -/
def Digits.plain (d : Digits) : List Char :=
  if d.point ≤ 0 then '0' :: '.' :: (List.replicate (-d.point).toNat '0' ++ d.digits)
  else
    let n := d.point.toNat
    if d.digits.length ≤ n then d.digits ++ List.replicate (n - d.digits.length) '0'
    else d.digits.take n ++ '.' :: d.digits.drop n

/-- A double in positional notation: whole numbers have no point. -/
def plain (x : Float) : String :=
  match decode x with
  | .notANumber => "NaN"
  | .infinite negative => if negative then "-inf" else "inf"
  | .finite negative m e =>
    let body := if m = 0 then ['0'] else (shortest m e).plain
    String.ofList (if negative then '-' :: body else body)

end TableProfile.Number
