import TableProfile.Settings.Toml.Text
import TableProfile.Number.Read

/-!
# Numbers and dates in a settings file

Integers are decimal with a sign, or hexadecimal, octal or binary without one; they fit 64 bits. Doubles
have a fraction or an exponent. Underscores may stand between digits. Dates and times are checked against
the calendar; nothing else of them is kept.
-/
namespace TableProfile.Toml

open Reader

/-! ## Digits -/

def isSign (c : Char) : Bool := c == '+' || c == '-'

/-- Digits with single underscores between them, as digits alone. -/
def digits (isDigit : Char → Bool) : Reader (List Char) := do
  let first ← oneOf isDigit
  let more ← many (orElse (oneOf isDigit) (one '_' *> expecting ["digit"] (firmly (oneOf isDigit))))
  return first :: more

def decimalDigits : Reader (List Char) := digits Char.isDigit

/-- A sign, if there is one: a plus sign says nothing. -/
def sign : Reader (List Char) := do
  return (← optional (oneOf isSign)).toList.filter (· == '-')

/-- A sign and digits that do not begin with a zero, unless it stands alone. -/
def whole : Reader (List Char) :=
  named "integer" (do
    let minus ← sign
    let body ← orElse (one '0' *> pure ['0']) decimalDigits
    return minus ++ body)

/-! ## Integers -/

/-- An integer that fits 64 bits. -/
def fitted (n : Int) : Except Complaint Int :=
  if n < -(Nat.pow 2 63 : Int) then .error (.ofCause "number too small to fit in target type")
  else if (Nat.pow 2 63 : Int) ≤ n then .error (.ofCause "number too large to fit in target type")
  else .ok n

def decimalValue (word : List Char) : Int :=
  match word with
  | '-' :: body => -(Number.digitsValue 0 body : Int)
  | body => Number.digitsValue 0 body

/-- An integer in another base behind its mark. -/
def based (base : Nat) (mark : Char) (name : String) : Reader Int :=
  let value (word : List Char) : Int :=
    ((word.filterMap Json.hexValue).foldl (fun n d => base * n + d) 0 : Nat)
  passing true (fun word => fitted (value word))
    (named name
      (firmly (exactly ['0', mark] *> digits fun c => (Json.hexValue c).any (· < base))))

def integer : Reader Int := fun cs =>
  match cs with
  | '0' :: 'x' :: _ => based 16 'x' "hexadecimal integer" cs
  | '0' :: 'o' :: _ => based 8 'o' "octal integer" cs
  | '0' :: 'b' :: _ => based 2 'b' "binary integer" cs
  | _ => passing true (fun word => fitted (decimalValue word)) whole cs

/-! ## Doubles -/

def exponent : Reader (List Char) := do
  discard (oneOf fun c => c == 'e' || c == 'E')
  let minus ← sign
  let body ← firmly decimalDigits
  return 'e' :: (minus ++ body)

def fraction : Reader (List Char) := do
  discard (one '.')
  let body ← expecting ["digit"] (firmly decimalDigits)
  return '.' :: body

/-- An integer with a fraction or an exponent. -/
def pointed : Reader (List Char) := do
  let before ← whole
  let tail ← orElse exponent (do
    let places ← fraction
    return places ++ (← optional exponent).getD [])
  return before ++ tail

/-- A double in figures; one that is too large is none. -/
def figures : Reader Float :=
  passing true (fun word =>
      match Number.readDecimal word with
      | some x => if x == Number.infinity false then .error .none else .ok x
      | none => .error .none)
    pointed

/-- An infinity or the undefined number, by name. -/
def word : Reader Float := do
  let minus ← sign
  orElse (exactly "inf".toList *> pure (Number.infinity !minus.isEmpty))
    (exactly "nan".toList *> pure Number.undefined)

def double : Reader Float := named "floating-point number" (orElse figures word)

/-! ## Dates and times -/

/-- Two digits of a number between bounds. -/
def twoDigits (least greatest : Nat) : Reader Nat :=
  passing false (fun figures =>
      let n := Number.digitsValue 0 figures
      if least ≤ n && n ≤ greatest then .ok n else .error .outOfRange)
    (countOf 2 Char.isDigit)

def daysIn (year month : Nat) : Nat :=
  if month = 2 then if year % 4 = 0 && (year % 100 != 0 || year % 400 = 0) then 29 else 28
  else if [4, 6, 9, 11].contains month then 30
  else 31

def date : Reader Unit := do
  let year ← countOf 4 Char.isDigit
  discard (one '-')
  firmly (do
    let month ← twoDigits 1 12
    discard (one '-')
    discard (passing true (fun day =>
        if day ≤ daysIn (Number.digitsValue 0 year) month then .ok day else .error .outOfRange)
      (twoDigits 1 31)))

def timeOfDay : Reader Unit := do
  discard (twoDigits 0 23)
  discard (one ':')
  firmly (do
    discard (twoDigits 0 59)
    discard (one ':')
    discard (twoDigits 0 60)
    discard (optional (one '.' *> someOf Char.isDigit)))

/-- The distance from universal time. -/
def timeOffset : Reader Unit :=
  named "time offset" (orElse (discard (oneOf fun c => c == 'Z' || c == 'z')) (do
    discard (oneOf isSign)
    firmly (do
      discard (twoDigits 0 23)
      discard (one ':')
      discard (twoDigits 0 59))))

/-- A date, a time of day, or both. -/
def dateTime : Reader Unit :=
  orElse
    (named "date-time" (do
      date
      discard (optional (do
        discard (oneOf fun c => c == 'T' || c == 't' || c == ' ')
        timeOfDay
        discard (optional timeOffset)))))
    (named "time" timeOfDay)

end TableProfile.Toml
