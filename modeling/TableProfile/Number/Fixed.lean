import TableProfile.Number.Binary

/-!
# Numbers with a fixed number of decimals, and counts in groups of three

* `fixed places x` is the exact value of `x` rounded to `places` decimals, a half to the even digit;
  the sign stays on a number that rounds to zero.
* `grouped n` is the numeral of `n` with a comma before every third digit from the right.
-/
namespace TableProfile.Number

/-- A natural number of units of `10^(-places)`, written with a decimal point. -/
def pointed (places units : Nat) : List Char :=
  let whole := Nat.toDigits 10 (units / Nat.pow 10 places)
  let rest := Nat.toDigits 10 (units % Nat.pow 10 places)
  whole ++ '.' :: (List.replicate (places - rest.length) '0' ++ rest)

/-- The exact value of `x` with `places` decimals. -/
def fixed (places : Nat) (x : Float) : String :=
  match decode x with
  | .notANumber => "NaN"
  | .infinite negative => if negative then "-inf" else "inf"
  | .finite negative m e =>
    let (num, den) := scaled (m * Nat.pow 10 places) 1 (-e)
    let body := pointed places (roundQuotient num den)
    String.ofList (if negative then '-' :: body else body)

/-- The digits of a numeral, last first, with a comma after every third one that is not the last. -/
def groupReversed : List Char → List Char
  | a :: b :: c :: d :: rest => a :: b :: c :: ',' :: groupReversed (d :: rest)
  | few => few

/-- A count with thousands separators. -/
def grouped (n : Nat) : String :=
  String.ofList (groupReversed (Nat.toDigits 10 n).reverse).reverse

end TableProfile.Number
