import TableProfile.Completion.Punycode
import TableProfile.Json.Reader
import TableProfile.Text.Alphanumeric
import TableProfile.Text.Line
import TableProfile.Text.Upper
import TableProfile.Text.Utf8
import TableProfile.Text.Visible

/-!
# Hosts of web addresses

A host is a name or an address of 32 or 128 bits. `readWeb?` reads the host of an address on the web: a
name whose last label is a number must be an address of 32 bits, in up to four numbers of base 10, 8 or
16, and labels beyond ASCII are written in ASCII. `readOther?` reads the host of any other address, where
a name is only a text without certain characters. In brackets stand the pieces of 128 bits.
-/
namespace TableProfile

inductive Host where
  | name (labels : String)
  | four (address : Nat)
  | six (pieces : List Nat)
  deriving DecidableEq, Repr

namespace Host

/-! ## 32 bits -/

/-- A number in base 16 behind `0x`, in base 8 behind `0`, else in base 10. -/
def readNumber? (cs : List Char) : Option Nat :=
  let (base, digits) := match cs with
    | '0' :: 'x' :: rest | '0' :: 'X' :: rest => (16, rest)
    | '0' :: c :: rest => (8, c :: rest)
    | cs => (10, cs)
  if cs.isEmpty then none
  else
    (digits.mapM fun c => (Json.hexValue c).filter (· < base)).map fun values =>
      values.foldl (fun n d => base * n + d) 0

/-- The labels of a name; a point may stand behind the last. -/
def labels (cs : List Char) : List (List Char) :=
  let all := Split.pieces '.' [] cs
  if all.getLast? == some [] then all.dropLast else all

/-- Whether a name can only be an address of 32 bits. -/
def endsInNumber (cs : List Char) : Bool :=
  match (labels cs).getLast? with
  | some last => (!last.isEmpty && last.all Char.isDigit) || (readNumber? last).isSome
  | none => false

/-- An address of 32 bits: all numbers but the last are bytes, the last has the bytes that are left. -/
def readFour? (cs : List Char) : Option Nat :=
  let parts := labels cs
  if 4 < parts.length then none
  else
    (parts.mapM readNumber?).bind fun numbers =>
      let front := numbers.dropLast
      let last := numbers.getLastD 0
      if front.any (255 < ·) || Nat.pow 256 (4 - front.length) ≤ last then none
      else some (front.foldl (fun n b => 256 * n + b) 0 * Nat.pow 256 (4 - front.length) + last)

def fourText (n : Nat) : String :=
  String.intercalate "." ([16777216, 65536, 256, 1].map fun unit => toString (n / unit % 256))

/-! ## 128 bits -/

/-- Four decimal bytes as two pieces. -/
def readTail? (cs : List Char) : Option (List Nat) :=
  let parts := Split.pieces '.' [] cs
  let isByte (p : List Char) : Bool :=
    !p.isEmpty && p.length ≤ 3 && p.all Char.isDigit && (p.length = 1 || p.head? != some '0')
  if parts.length = 4 && parts.all isByte then
    match parts.map (·.foldl (fun n c => 10 * n + (c.toNat - '0'.toNat)) 0) with
    | [a, b, c, d] =>
      if [a, b, c, d].all (· < 256) then some [256 * a + b, 256 * c + d] else none
    | _ => none
  else none

/-- A piece of 16 bits in up to four digits. -/
def readPiece? (cs : List Char) : Option Nat :=
  if cs.isEmpty || 4 < cs.length then none
  else (cs.mapM Json.hexValue).map fun values => values.foldl (fun n d => 16 * n + d) 0

/-- Pieces with colons between them; the last two may be written as four bytes. -/
def readPieces? (cs : List Char) : Option (List Nat) :=
  if cs.isEmpty then some []
  else
    let parts := Split.pieces ':' [] cs
    let last := parts.getLastD []
    if last.contains '.' then
      (parts.dropLast.mapM readPiece?).bind fun front => (readTail? last).map (front ++ ·)
    else parts.mapM readPiece?

/-- What stands before and behind the first two colons in a row. -/
def splitGap (begun : List Char) : List Char → Option (List Char × List Char)
  | ':' :: ':' :: rest => some (begun.reverse, rest)
  | c :: rest => splitGap (c :: begun) rest
  | [] => none

/-- An address of 128 bits; two colons in a row stand for all pieces that are not written. -/
def readSix? (cs : List Char) : Option (List Nat) :=
  match splitGap [] cs with
  | none => (readPieces? cs).filter (·.length = 8)
  | some (before, behind) =>
    if before.contains '.' then none
    else
      (readPieces? before).bind fun front => (readPieces? behind).bind fun back =>
        let written := front.length + back.length
        if 7 < written then none else some (front ++ List.replicate (8 - written) 0 ++ back)

/-- Start and length of the longest run of zeros, the first of several. -/
def longestGap (pieces : List Nat) : Nat × Nat :=
  (List.range pieces.length).foldl (fun best start =>
    let run := ((pieces.drop start).takeWhile (· = 0)).length
    if best.2 < run then (start, run) else best) (0, 0)

def hexText (n : Nat) : String := String.ofList (Nat.toDigits 16 n)

def sixText (pieces : List Nat) : String :=
  let (start, run) := longestGap pieces
  let written (ps : List Nat) : String := String.intercalate ":" (ps.map hexText)
  if run < 2 then written pieces
  else written (pieces.take start) ++ "::" ++ written (pieces.drop (start + run))

/-- The host in brackets. -/
def readBracketed? (cs : List Char) : Option Host :=
  if cs.getLast? == some ']' then (readSix? (cs.drop 1).dropLast).map six else none

/-! ## Names -/

/-- A character that no name may have. -/
def isForbidden (c : Char) : Bool :=
  c.toNat ≤ 0x20 || c.toNat == 0x7F || "%#/:<>?@[\\]^|".toList.contains c

/-- The bytes of a text in which a percent and two digits stand for a byte. -/
def percentDecode : List Char → Bytes
  | '%' :: a :: b :: rest =>
    match Json.hexValue a, Json.hexValue b with
    | some high, some low => UInt8.ofNat (16 * high + low) :: percentDecode rest
    | _, _ => Utf8.encode "%" ++ percentDecode (a :: b :: rest)
  | c :: rest => Utf8.encode (String.singleton c) ++ percentDecode rest
  | [] => []

/-- The small letter whose capital a character is: the nearest of those that have it. -/
def small (c : Char) : Char :=
  if c.toNat < 0x80 then c.toLower
  else
    let n := c.toNat
    let found := Upper.runs.filterMap fun (first, last, step, target) =>
      if target ≤ n && first + (n - target) ≤ last && (n - target) % step = 0 then
        some (first + (n - target))
      else none
    let distance (m : Nat) : Nat := (m - n) + (n - m)
    match found with
    | [] => c
    | m :: more => Char.ofNat (more.foldl (fun best m => if distance m < distance best then m else best) m)

/-- The characters that a character of a name counts as. Forms of full width count as the plain ones,
other full stops as a point; what only joins or parts its neighbours does not count. -/
def folded (c : Char) : List Char :=
  let n := c.toNat
  if 0xFF01 ≤ n && n ≤ 0xFF5E then [(Char.ofNat (n - 0xFEE0)).toLower]
  else if n = 0x3002 || n = 0xFF61 then ['.']
  else if n = 0xAD || n = 0x200B || n = 0x2060 || n = 0xFEFF || (0xFE00 ≤ n && n ≤ 0xFE0F) then []
  else [small c]

/-- A character beyond ASCII that a label may have. -/
def isLabelChar (c : Char) : Bool :=
  c.toNat < 0x80 || (small c == c && (Alphanumeric.isAlphanumeric c || !Visible.isHidden c))

def isAscii (cs : List Char) : Bool := cs.all fun c => c.toNat < 0x80

/-- A label in ASCII. What is marked as a label beyond ASCII must be one. -/
def labelInAscii? (label : List Char) : Option (List Char) :=
  let mark := "xn--".toList
  if !isAscii label then
    if label.all isLabelChar then some (mark ++ Punycode.encode label) else none
  else if mark.isPrefixOf label then
    match Punycode.decode? (label.drop mark.length) with
    | some told => if isAscii told || !told.all isLabelChar then none else some label
    | none => none
  else some label

/-- A name in ASCII, in small letters. -/
def nameInAscii? (cs : List Char) : Option (List Char) :=
  (Utf8.decode? (percentDecode cs)).bind fun text =>
    ((Split.pieces '.' [] (text.toList.flatMap folded)).mapM labelInAscii?).bind fun labels =>
      let name := List.intercalate ['.'] labels
      if name.isEmpty || name.any isForbidden then none else some name

/-! ## Hosts -/

/-- The host of an address on the web. -/
def readWeb? (cs : List Char) : Option Host :=
  if cs.head? == some '[' then readBracketed? cs
  else
    (nameInAscii? cs).bind fun written =>
      if endsInNumber written then (readFour? written).map four
      else some (name (String.ofList written))

def upperHex (n : Nat) : Char := "0123456789ABCDEF".toList.getD n '0'

/-- A byte as a percent and two digits. -/
def percent (b : UInt8) : List Char := ['%', upperHex (b.toNat / 16), upperHex (b.toNat % 16)]

/-- A text in which bytes outside ASCII, control characters and the given ones are percent-encoded. -/
def percentEncode (special : List Char) (cs : List Char) : List Char :=
  (Utf8.encode (String.ofList cs)).flatMap fun b =>
    let c := Char.ofNat b.toNat
    if b < 0x20 || 0x7E < b || special.contains c then percent b else [c]

/-- The host of an address that is not on the web; there may be none. -/
def readOther? (cs : List Char) : Option Host :=
  if cs.head? == some '[' then readBracketed? cs
  else if cs.any fun c => "\x00\t\n\r #/:<>?@[\\]^|".toList.contains c then none
  else some (name (String.ofList (percentEncode [] cs)))

def text : Host → String
  | name s => s
  | four n => fourText n
  | six pieces => "[" ++ sixText pieces ++ "]"

end Host

end TableProfile
