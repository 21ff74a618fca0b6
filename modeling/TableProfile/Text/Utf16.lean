import TableProfile.Text.Utf8

/-!
# UTF-16

Two bytes make a unit, in one of two orders. A unit is a character, but for the surrogates: of these a high
one and a low one behind it make one character.

`scan` lists what units hold: characters, and `none` for a surrogate without the other half. What is begun at
the end (a high surrogate, half a unit, or both) counts as one `none`.
-/
namespace TableProfile.Utf16

/-- The units of the bytes; a byte left over at the end is in none of them. -/
def units (bigEndian : Bool) : Bytes → List Nat
  | a :: b :: rest =>
    (if bigEndian then a.toNat * 256 + b.toNat else b.toNat * 256 + a.toNat) :: units bigEndian rest
  | _ => []

def isHigh (unit : Nat) : Bool := 0xD800 ≤ unit && unit < 0xDC00

def isLow (unit : Nat) : Bool := 0xDC00 ≤ unit && unit < 0xE000

/-- The character of a high and a low surrogate. -/
def pair (high low : Nat) : Char := Char.ofNat (0x10000 + (high - 0xD800) * 0x400 + (low - 0xDC00))

/-- What the units hold behind a high surrogate, if one is begun; `half` if half a unit is left over. -/
def scan (half : Bool) : (high : Option Nat) → List Nat → List (Option Char)
  | high, [] => if high.isSome || half then [none] else []
  | none, unit :: rest =>
    if isHigh unit then scan half (some unit) rest
    else if isLow unit then none :: scan half none rest
    else some (Char.ofNat unit) :: scan half none rest
  | some high, unit :: rest =>
    if isLow unit then some (pair high unit) :: scan half none rest
    else if isHigh unit then none :: scan half (some unit) rest
    else none :: some (Char.ofNat unit) :: scan half none rest

/-- The text of the bytes, with U+FFFD for what makes no character. -/
def decodeLossy (bigEndian : Bool) (bytes : Bytes) : String :=
  String.ofList ((scan (bytes.length % 2 == 1) none (units bigEndian bytes)).map (·.getD '\uFFFD'))

end TableProfile.Utf16
