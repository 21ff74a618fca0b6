/-!
# Binary floating-point numbers as exact values

A finite double is `± m · 2^e` with `m` and `e` integers. This module takes a double apart
(`decode`), puts one together (`encode`) and rounds an exact quotient of natural numbers to the
nearest double (`nearest`), ties to the even mantissa. Everything is integer arithmetic, so all of it
evaluates in the kernel.

* `Format` is the shape of a binary format: how many bits a mantissa has and which exponents exist.
* `roundQuotient` is division rounded to the nearest integer, ties to even.
-/
namespace TableProfile.Number

/-- What a double stands for. -/
inductive Decoded where
  | finite (negative : Bool) (mantissa : Nat) (exponent : Int)
  | infinite (negative : Bool)
  | notANumber
  deriving DecidableEq, Repr

/-- A binary format: `digits` bits of mantissa, least exponent `least` of a mantissa's last bit, and
greatest exponent `greatest` of the last bit of a full mantissa. -/
structure Format where
  digits : Nat
  least : Int
  greatest : Int
  deriving DecidableEq, Repr

def double : Format := ⟨53, -1074, 971⟩

def single : Format := ⟨24, -149, 104⟩

/-- Takes a double apart: 52 bits of fraction, 11 bits of exponent, a sign. -/
def decode (x : Float) : Decoded :=
  let bits : Nat := x.toBits.toNat
  let negative := bits / Nat.pow 2 63 == 1
  let field : Nat := bits / Nat.pow 2 52 % Nat.pow 2 11
  let fraction : Nat := bits % Nat.pow 2 52
  if field == 2047 then
    if fraction == 0 then .infinite negative else .notANumber
  else if field == 0 then .finite negative fraction (-1074)
  else .finite negative (Nat.pow 2 52 + fraction) ((field : Int) - 1075)

/-- The double of sign `negative` and value `m · 2^e`, for `m ≤ 2^53` and `e ≥ -1074`, where a mantissa
shorter than 53 bits has the least exponent. Too large a value is infinite. -/
def encode (negative : Bool) (m : Nat) (e : Int) : Float :=
  let sign := if negative then Nat.pow 2 63 else 0
  let field := (e + 1075).toNat
  let magnitude := if m < Nat.pow 2 52 then m else field * Nat.pow 2 52 + (m - Nat.pow 2 52)
  let capped := if magnitude < 2047 * Nat.pow 2 52 then magnitude else 2047 * Nat.pow 2 52
  Float.ofBits (UInt64.ofNat (sign + capped))

/-- The integer nearest to `num / den`, the even one of two. -/
def roundQuotient (num den : Nat) : Nat :=
  let q := num / den
  let twice := 2 * (num % den)
  if twice < den then q
  else if den < twice then q + 1
  else q + q % 2

/-- The quotient `num / den` scaled by `2^(-e)`, as a numerator and a denominator. -/
def scaled (num den : Nat) (e : Int) : Nat × Nat :=
  if e < 0 then (num * Nat.pow 2 (-e).toNat, den) else (num, den * Nat.pow 2 e.toNat)

/-- The exponent of the last mantissa bit that format `f` gives the positive quotient `num / den`. -/
def lastBit (f : Format) (num den : Nat) : Int :=
  let guess := max ((num.log2 : Int) - den.log2 - f.digits) f.least
  let (n, d) := scaled num den guess
  if n / d < Nat.pow 2 f.digits then guess else guess + 1

/-- Mantissa and exponent of the number of format `f` nearest to `num / den`. -/
def roundTo (f : Format) (num den : Nat) : Nat × Int :=
  if num = 0 then (0, f.least)
  else
    let e := lastBit f num den
    let (n, d) := scaled num den e
    (roundQuotient n d, e)

/-- The double nearest to `± num / den`. -/
def nearest (negative : Bool) (num den : Nat) : Float :=
  let (m, e) := roundTo double num den
  encode negative m e

/-- The number of format `single` nearest to `± num / den`, as a double, which holds it exactly. -/
def nearestSingle (negative : Bool) (num den : Nat) : Float :=
  let (m, e) := roundTo single num den
  let (num', den') := scaled m 1 (-e)
  if m ≥ Nat.pow 2 24 ∧ e ≥ 104 ∨ e > 104 then encode negative (Nat.pow 2 53) 2000
  else nearest negative num' den'

/-- The double nearest to an integer. -/
def ofInt (n : Int) : Float := nearest (n < 0) n.natAbs 1

/-- The double nearest to a natural number. -/
def ofNat (n : Nat) : Float := nearest false n 1

def infinity (negative : Bool) : Float := encode negative (Nat.pow 2 53) 2000

def undefined : Float := Float.ofBits 0x7ff8000000000000

end TableProfile.Number
