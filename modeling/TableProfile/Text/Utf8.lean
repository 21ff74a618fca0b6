/-!
# UTF-8

Bytes are read one at a time. Between bytes the reader remembers what the character begun so far still
owes: how many continuation bytes, and the least and greatest byte the next one may be (the second byte
of a character is restricted so that no character has two forms and no surrogate is written).

`scan` lists what the bytes hold: characters, and `none` for each longest run of bytes that begins a
character without completing it, or that cannot begin one.

* `decodeLossy` puts U+FFFD for each such run.
* `isValid` says that there is none.
-/
namespace TableProfile

/-- Raw content: the bytes of a file, of a field, of a request body. -/
abbrev Bytes := List UInt8

namespace Utf8

/-- A character begun: `left` continuation bytes are owed, the next between `low` and `high`. -/
structure Owed where
  left : Nat
  low : Nat
  high : Nat
  value : Nat
  deriving DecidableEq, Repr

/-- What a first byte begins. -/
inductive Start where
  | single
  | leads (owed : Owed)
  | malformed
  deriving DecidableEq, Repr

def start (b : Nat) : Start :=
  if b < 0x80 then .single
  else if b < 0xC2 then .malformed
  else if b < 0xE0 then .leads ⟨1, 0x80, 0xBF, b - 0xC0⟩
  else if b = 0xE0 then .leads ⟨2, 0xA0, 0xBF, 0⟩
  else if b = 0xED then .leads ⟨2, 0x80, 0x9F, 0xD⟩
  else if b < 0xF0 then .leads ⟨2, 0x80, 0xBF, b - 0xE0⟩
  else if b = 0xF0 then .leads ⟨3, 0x90, 0xBF, 0⟩
  else if b < 0xF4 then .leads ⟨3, 0x80, 0xBF, b - 0xF0⟩
  else if b = 0xF4 then .leads ⟨3, 0x80, 0x8F, 4⟩
  else .malformed

/-- The reader between bytes: what is owed, and what has been read, last first. -/
structure Reader where
  owed : Option Owed
  read : List (Option Char)

/-- A byte read where nothing is owed. -/
def first (read : List (Option Char)) (b : Nat) : Reader :=
  match start b with
  | .single => ⟨none, some (Char.ofNat b) :: read⟩
  | .leads owed => ⟨some owed, read⟩
  | .malformed => ⟨none, none :: read⟩

def step (r : Reader) (byte : UInt8) : Reader :=
  let b := byte.toNat
  match r.owed with
  | none => first r.read b
  | some o =>
    if o.low ≤ b ∧ b ≤ o.high then
      let value := o.value * 64 + (b - 0x80)
      if o.left = 1 then ⟨none, some (Char.ofNat value) :: r.read⟩
      else ⟨some ⟨o.left - 1, 0x80, 0xBF, value⟩, r.read⟩
    else first (none :: r.read) b

/-- What the bytes hold, in order; `none` is a malformed run. -/
def scan (bytes : Bytes) : List (Option Char) :=
  let r := bytes.foldl step ⟨none, []⟩
  (if r.owed.isSome then none :: r.read else r.read).reverse

def isValid (bytes : Bytes) : Bool := (scan bytes).all Option.isSome

/-- The text of the bytes, with U+FFFD for each malformed run. -/
def decodeLossy (bytes : Bytes) : String :=
  String.ofList ((scan bytes).map (·.getD '\uFFFD'))

/-- The text of the bytes, if they are well-formed. -/
def decode? (bytes : Bytes) : Option String :=
  if isValid bytes then some (decodeLossy bytes) else none

/-- The content behind a byte order mark. -/
def withoutMark : Bytes → Bytes
  | 0xEF :: 0xBB :: 0xBF :: rest => rest
  | bytes => bytes

/-- The bytes of a text. -/
def encode (s : String) : Bytes := s.toUTF8.toList

end Utf8

end TableProfile
