import TableProfile.Number.Binary

/-!
# Reading decimal text

`readDecimal` reads the decimal numerals of data files: an optional sign, digits with an optional
point, an optional exponent, or a name of infinity or of the undefined value in any case. The result
is the nearest double, ties to even, however many digits there are.

A numeral is first taken apart into `Numeral`, whose value is `± digits · 10^exponent`, and only then
rounded, so reading in another precision (`Numeral.toSingle`) rounds once.
-/
namespace TableProfile.Number

/-- The value of a digit character in base ten. -/
def digitValue (c : Char) : Nat := c.toNat - '0'.toNat

/-- The number that a list of digits spells, after the digits already in `start`. -/
def digitsValue (start : Nat) (cs : List Char) : Nat :=
  cs.foldl (fun n c => 10 * n + digitValue c) start

/-- A numeral, or one of the two names. -/
inductive Numeral where
  | decimal (negative : Bool) (digits : Nat) (exponent : Int)
  | infinite (negative : Bool)
  | notANumber (negative : Bool)
  deriving DecidableEq, Repr

/-- `digits · 10^exponent` as a quotient. -/
def quotientOf (digits : Nat) (exponent : Int) : Nat × Nat :=
  if exponent < 0 then (digits, Nat.pow 10 (-exponent).toNat) else (digits * Nat.pow 10 exponent.toNat, 1)

/-- Whether a numeral is nearer to zero than to any other number of a format. An exponent far out of range
decides it without the power of ten being computed. -/
def isTiny (digits : Nat) (exponent : Int) : Bool :=
  digits == 0 || decide ((digits.log2 : Int) * 30103 / 100000 + exponent < -350)

/-- Whether a positive numeral is above every number of a format, judged in the same way. -/
def isHuge (digits : Nat) (exponent : Int) : Bool := decide (320 < (digits.log2 : Int) * 3 / 10 + exponent)

/-- The nearest double. -/
def Numeral.toDouble : Numeral → Float
  | .decimal negative digits exponent =>
    if isTiny digits exponent then encode negative 0 (-1074)
    else if isHuge digits exponent then infinity negative
    else
      let (num, den) := quotientOf digits exponent
      nearest negative num den
  | .infinite negative => infinity negative
  | .notANumber _ => undefined

/-- The nearest number of single precision. -/
def Numeral.toSingle : Numeral → Float
  | .decimal negative digits exponent =>
    if isTiny digits exponent then encode negative 0 (-1074)
    else if isHuge digits exponent then infinity negative
    else
      let (num, den) := quotientOf digits exponent
      nearestSingle negative num den
  | .infinite negative => infinity negative
  | .notANumber _ => undefined

/-- The text without its sign, and whether the sign was a minus. -/
def takeSign : List Char → Bool × List Char
  | '-' :: rest => (true, rest)
  | '+' :: rest => (false, rest)
  | cs => (false, cs)

/-- The exponent part of a numeral, all of it: a letter `e`, a sign, at least one digit. -/
def readExponent : List Char → Option Int
  | [] => some 0
  | c :: rest =>
    if c == 'e' || c == 'E' then
      let (negative, ds) := takeSign rest
      if ds.isEmpty || !ds.all Char.isDigit then none
      else
        let n : Int := digitsValue 0 ds
        some (if negative then -n else n)
    else none

/-- A numeral without sign: digits, an optional point with digits, at least one digit in all. -/
def readMagnitude (negative : Bool) (cs : List Char) : Option Numeral :=
  let whole := cs.takeWhile Char.isDigit
  let rest := cs.dropWhile Char.isDigit
  let (fraction, rest) := match rest with
    | '.' :: more => (more.takeWhile Char.isDigit, more.dropWhile Char.isDigit)
    | _ => ([], rest)
  if whole.isEmpty && fraction.isEmpty then none
  else
    (readExponent rest).map fun e =>
      .decimal negative (digitsValue (digitsValue 0 whole) fraction) (e - fraction.length)

/-- Reads a numeral that is the whole text. -/
def readNumeral (cs : List Char) : Option Numeral :=
  let (negative, body) := takeSign cs
  let lower := String.ofList (body.map Char.toLower)
  if lower == "inf" || lower == "infinity" then some (.infinite negative)
  else if lower == "nan" then some (.notANumber negative)
  else readMagnitude negative body

/-- Reads decimal text as the nearest double. -/
def readDecimal (cs : List Char) : Option Float := (readNumeral cs).map Numeral.toDouble

end TableProfile.Number
