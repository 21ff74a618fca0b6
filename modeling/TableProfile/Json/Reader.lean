import TableProfile.Json.Value
import TableProfile.Number.Read

/-!
# Reading JSON

`Json.read?` reads a text that is one JSON value with blanks around it, and refuses everything else:
control characters inside strings, lone surrogate escapes, leading zeros, numbers beyond the range of a
double, and values nested more than 127 deep.

An integer that fits 64 bits, signed or unsigned, is read exactly; any other number is the nearest
double. Each step of the reader takes at least one character, so the number of characters bounds the
number of steps (`fuel`).
-/
namespace TableProfile.Json

def isSpace (c : Char) : Bool := c == ' ' || c == '\t' || c == '\n' || c == '\r'

def skipBlanks (cs : List Char) : List Char := cs.dropWhile isSpace

def hexValue (c : Char) : Option Nat :=
  if c.isDigit then some (c.toNat - '0'.toNat)
  else if 'a' ≤ c && c ≤ 'f' then some (c.toNat - 'a'.toNat + 10)
  else if 'A' ≤ c && c ≤ 'F' then some (c.toNat - 'A'.toNat + 10)
  else none

/-- Four hexadecimal digits. -/
def readUnit : List Char → Option (Nat × List Char)
  | a :: b :: c :: d :: rest => do
    let a ← hexValue a
    let b ← hexValue b
    let c ← hexValue c
    let d ← hexValue d
    some (((a * 16 + b) * 16 + c) * 16 + d, rest)
  | _ => none

/-- The character of a `\u` escape; a high surrogate needs the escape of a low one behind it. -/
def readEscapedUnit (cs : List Char) : Option (Char × List Char) := do
  let (high, rest) ← readUnit cs
  if 0xD800 ≤ high ∧ high < 0xDC00 then
    match rest with
    | '\\' :: 'u' :: more =>
      let (low, rest) ← readUnit more
      if 0xDC00 ≤ low ∧ low < 0xE000 then
        some (Char.ofNat (0x10000 + (high - 0xD800) * 0x400 + (low - 0xDC00)), rest)
      else none
    | _ => none
  else if 0xDC00 ≤ high ∧ high < 0xE000 then none
  else some (Char.ofNat high, rest)

/-- The character that a backslash stands before. -/
def simpleEscape : Char → Option Char
  | '"' => some '"'
  | '\\' => some '\\'
  | '/' => some '/'
  | 'b' => some '\x08'
  | 'f' => some '\x0c'
  | 'n' => some '\n'
  | 'r' => some '\r'
  | 't' => some '\t'
  | _ => none

/-- The rest of a string, up to its closing quote. -/
def readString : (fuel : Nat) → (done : List Char) → List Char → Option (String × List Char)
  | 0, _, _ => none
  | fuel + 1, done, cs =>
    match cs with
    | '"' :: rest => some (String.ofList done.reverse, rest)
    | '\\' :: 'u' :: rest =>
      match readEscapedUnit rest with
      | some (c, rest) => readString fuel (c :: done) rest
      | none => none
    | '\\' :: c :: rest =>
      match simpleEscape c with
      | some c => readString fuel (c :: done) rest
      | none => none
    | c :: rest => if c.toNat < 0x20 then none else readString fuel (c :: done) rest
    | [] => none

/-- A double that is a number. -/
def finite? (x : Float) : Option Float := if x.isFinite then some x else none

/-- Digits with a needless zero in front. -/
def hasLeadingZero : List Char → Bool
  | '0' :: _ :: _ => true
  | _ => false

/-- A point without a digit behind it. -/
def hasBarePoint : List Char → Bool
  | '.' :: more => (more.takeWhile Char.isDigit).isEmpty
  | _ => false

/-- A number behind its sign; `body` is all of it. -/
def readUnsigned (negative : Bool) (body : List Char) : Option Json :=
  let whole := body.takeWhile Char.isDigit
  let rest := body.dropWhile Char.isDigit
  if whole.isEmpty || hasLeadingZero whole || hasBarePoint rest then none
  else if rest.isEmpty then
    let n := Number.digitsValue 0 whole
    if negative then
      if n = 0 then some (.float (Number.encode true 0 (-1074)))
      else if n ≤ Nat.pow 2 63 then some (.int (-(n : Int)))
      else (finite? (Number.nearest true n 1)).map .float
    else if n < Nat.pow 2 64 then some (.int n)
    else (finite? (Number.nearest false n 1)).map .float
  else
    (Number.readMagnitude negative body).bind fun numeral =>
      (finite? numeral.toDouble).map .float

/-- A number; the text is all of it. -/
def readNumberText : List Char → Option Json
  | '-' :: body => readUnsigned true body
  | body => readUnsigned false body

def isNumberChar (c : Char) : Bool :=
  c.isDigit || c == '-' || c == '+' || c == '.' || c == 'e' || c == 'E'

def readNumber (cs : List Char) : Option (Json × List Char) :=
  (readNumberText (cs.takeWhile isNumberChar)).map (·, cs.dropWhile isNumberChar)

mutual

/-- A value with blanks before it, at most `depth` levels of nesting. -/
def readValue (depth : Nat) : (fuel : Nat) → List Char → Option (Json × List Char)
  | 0, _ => none
  | fuel + 1, cs =>
    match skipBlanks cs with
    | 'n' :: 'u' :: 'l' :: 'l' :: rest => some (.null, rest)
    | 't' :: 'r' :: 'u' :: 'e' :: rest => some (.bool true, rest)
    | 'f' :: 'a' :: 'l' :: 's' :: 'e' :: rest => some (.bool false, rest)
    | '"' :: rest => (readString (rest.length + 1) [] rest).map fun (s, rest) => (.str s, rest)
    | '[' :: rest =>
      if depth = 0 then none
      else
        match skipBlanks rest with
        | ']' :: rest => some (.arr [], rest)
        | _ => readItems (depth - 1) fuel [] rest
    | '\x7b' :: rest =>
      if depth = 0 then none
      else
        match skipBlanks rest with
        | '\x7d' :: rest => some (.obj [], rest)
        | _ => readFields (depth - 1) fuel [] rest
    | rest => readNumber rest

/-- The items of an array, from the one at hand to the closing bracket. -/
def readItems (depth : Nat) : (fuel : Nat) → List Json → List Char → Option (Json × List Char)
  | 0, _, _ => none
  | fuel + 1, done, cs =>
    match readValue depth fuel cs with
    | none => none
    | some (v, rest) =>
      match skipBlanks rest with
      | ',' :: rest => readItems depth fuel (v :: done) rest
      | ']' :: rest => some (.arr (v :: done).reverse, rest)
      | _ => none

/-- The fields of an object, from the one at hand to the closing brace. -/
def readFields (depth : Nat) :
    (fuel : Nat) → List (String × Json) → List Char → Option (Json × List Char)
  | 0, _, _ => none
  | fuel + 1, done, cs =>
    match skipBlanks cs with
    | '"' :: rest =>
      match readString (rest.length + 1) [] rest with
      | none => none
      | some (key, rest) =>
        match skipBlanks rest with
        | ':' :: rest =>
          match readValue depth fuel rest with
          | none => none
          | some (v, rest) =>
            match skipBlanks rest with
            | ',' :: rest => readFields depth fuel ((key, v) :: done) rest
            | '\x7d' :: rest => some (.ofFields ((key, v) :: done).reverse, rest)
            | _ => none
        | _ => none
    | _ => none

end

/-- The value that a text writes. -/
def read? (text : String) : Option Json :=
  let cs := text.toList
  match readValue 127 (2 * cs.length + 2) cs with
  | some (v, rest) => if (skipBlanks rest).isEmpty then some v else none
  | none => none

end TableProfile.Json
