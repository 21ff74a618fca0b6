import TableProfile.Csv.Schema
import TableProfile.Number.Read

/-!
# Reading a cell

A field is read as the type of its column or refused; no field turns into a missing cell because it
does not fit. An empty field is a missing cell, and so is a number that is all blanks and tabs. Quotes
around a field are not part of it: in text a quoted quote is written twice, and an empty quoted text is
the empty text.
-/
namespace TableProfile.Csv

/-- A cell of any type. -/
inductive Value where
  | missing
  | int (n : Int)
  | float (x : Float)
  | bool (b : Bool)
  | text (s : String)
  deriving DecidableEq, Repr

/-- Why a field is no cell of its column. -/
inductive CellFault where
  /-- A quoted text that does not end in a quote. -/
  | notEscaped (field : String)
  /-- A text that is no truth value. -/
  | notBool (text : String)
  /-- A text that is no number of the column's type. -/
  | notNumber
  deriving DecidableEq, Repr

def CellFault.message : CellFault → String
  | .notEscaped field => "invalid csv file\n\nField `" ++ field ++ "` is not properly escaped."
  | .notBool text => "error while parsing value " ++ text ++ " as boolean"
  | .notNumber => "remaining bytes non-empty"

/-- Drops the quotes of a text: of two in a row one stays, a single one goes. `done` is what has been read
so far, last byte first. -/
def unquoteOnto (done : Bytes) (seen : Bool) : Bytes → Bytes
  | [] => done.reverse
  | b :: rest =>
    if b == quote then
      if seen then unquoteOnto (b :: done) false rest else unquoteOnto done true rest
    else unquoteOnto (b :: done) false rest

def readText (f : Field) : Except CellFault Value :=
  if f.raw.isEmpty then .ok .missing
  else if f.quoted then
    if 1 < f.raw.length && f.raw.getLast? == some quote then
      .ok (.text (Utf8.decodeLossy (unquoteOnto [] false f.inner)))
    else .error (.notEscaped (Utf8.decodeLossy f.raw))
  else .ok (.text (Utf8.decodeLossy f.raw))

def asciiLower (b : UInt8) : UInt8 := if 65 ≤ b && b ≤ 90 then b + 32 else b

def readBool (f : Field) : Except CellFault Value :=
  if f.raw.isEmpty then .ok .missing
  else
    let inner := f.inner
    let lower := inner.map asciiLower
    if lower == Utf8.encode "false" then .ok (.bool false)
    else if lower == Utf8.encode "true" then .ok (.bool true)
    else if inner.isEmpty then .ok .missing
    else .error (.notBool (Utf8.decodeLossy inner))

/-- The characters of ASCII bytes; any other byte becomes one that no number contains. -/
def numeral (bytes : Bytes) : List Char :=
  bytes.map fun b => if b < 128 then Char.ofNat b.toNat else '?'

/-- A decimal integer with an optional sign that fits 64 bits. -/
def readInteger (cs : List Char) : Option Int :=
  let (negative, digits) := Number.takeSign cs
  if digits.isEmpty || !digits.all Char.isDigit then none
  else
    let n : Int := Number.digitsValue 0 digits
    let signed := if negative then -n else n
    if IntType.i64.holds signed then some signed else none

def isPad (b : UInt8) : Bool := b == 32 || b == 9

/-- A number, read by `read`; if it cannot be read as it stands, blanks and tabs before it are
dropped, and if nothing is left the cell is missing. -/
def readNumber (read : List Char → Option Value) (f : Field) : Except CellFault Value :=
  if f.raw.isEmpty then .ok .missing
  else
    let inner := f.inner
    match read (numeral inner) with
    | some v => .ok v
    | none =>
      if inner.isEmpty then .ok .missing
      else
        let rest := inner.dropWhile isPad
        if rest.length = inner.length then .error .notNumber
        else if rest.isEmpty then .ok .missing
        else
          match read (numeral rest) with
          | some v => .ok v
          | none => .error .notNumber

/-- Reads a field as a cell of a type. -/
def CellType.read : CellType → Field → Except CellFault Value
  | .int => readNumber fun cs => (readInteger cs).map .int
  | .float => readNumber fun cs => (Number.readDecimal cs).map .float
  | .bool => readBool
  | .text => readText

end TableProfile.Csv
