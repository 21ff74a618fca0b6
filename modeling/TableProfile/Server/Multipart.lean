import TableProfile.Server.Disposition

/-!
# Bodies in parts

A body in parts is cut by a boundary. Each part has header lines, an empty line and a content, and a
boundary line follows: `--boundary` before another part, `--boundary--` behind the last.

`Upload` is what reading a body gives: the parts in order, each with its content in the chunks in which
it arrived, and the fault that ends the reading, if any. With a fault the last part may be incomplete.
-/
namespace TableProfile

/-- Why a body in parts cannot be read. -/
inductive MultipartFault where
  | noContentType
  | badContentType
  | otherContentType
  /-- The boundary is not given, or not where it should be. -/
  | noBoundary
  | incomplete
  /-- The headers of a part are malformed or too many. -/
  | badHeader
  /-- A part of a form has no proper disposition. -/
  | noDisposition
  | nested
  /-- A part does not say properly how long it is. -/
  | badLength
  deriving DecidableEq, Repr

namespace MultipartFault

def message : MultipartFault → String
  | noContentType => "Could not find Content-Type header"
  | badContentType => "Could not parse Content-Type header"
  | otherContentType => "ContentTypeIncompatible"
  | noBoundary => "Multipart boundary is not found"
  | incomplete => "Multipart stream is incomplete"
  | badHeader => "Error during field parsing"
  | noDisposition => "Content-Disposition header was not found when parsing a \"form-data\" field"
  | nested => "Nested multipart is not supported"
  | badLength => "Payload error"

def status : MultipartFault → Nat
  | otherContentType => 415
  | _ => 400

end MultipartFault

/-- A part of a body. -/
structure Part where
  name : Option String
  fileName : Option String
  chunks : List Bytes
  deriving DecidableEq, Repr

def Part.content (p : Part) : Bytes := p.chunks.flatten

structure Upload where
  parts : List Part
  fault : Option MultipartFault
  deriving DecidableEq, Repr

namespace Multipart

def lineFeed : UInt8 := 10

def carriageReturn : UInt8 := 13

def hyphens : Bytes := [45, 45]

def lineEnd : Bytes := [carriageReturn, lineFeed]

/-- The first line with its line feed, and what stands behind it. -/
def line? (bytes : Bytes) : Option (Bytes × Bytes) :=
  let body := bytes.takeWhile (· != lineFeed)
  match bytes.dropWhile (· != lineFeed) with
  | [] => none
  | b :: rest => some (body ++ [b], rest)

/-! ## Boundaries -/

/-- What a line is, between parts. -/
inductive Delimiter where
  | next | last | none
  deriving DecidableEq, Repr

/-- A line before the first part: the boundary between hyphens and a line end opens it, the bare boundary
with hyphens behind it says that there is no part. -/
def opening (boundary line : Bytes) : Delimiter :=
  let inner := line.drop 2
  if hyphens.isPrefixOf line && inner.take (inner.length - 2) == boundary then .next
  else if (boundary ++ hyphens).isPrefixOf line then .last
  else .none

/-- The boundary line behind a part. -/
def closing (boundary line : Bytes) : Delimiter :=
  let marker := hyphens ++ boundary
  if line == marker ++ lineEnd then .next
  else if line == marker ++ hyphens || line == marker ++ hyphens ++ lineEnd then .last
  else .none

/-- Skips lines up to the one that opens the first part: what follows it, or `none` if there is no
part. Each step takes a line, so `fuel` is the number of bytes. -/
def skipTo (boundary : Bytes) : (fuel : Nat) → Bytes → Except MultipartFault (Option Bytes)
  | 0, _ => .error .incomplete
  | fuel + 1, bytes =>
    match line? bytes with
    | none => .error .incomplete
    | some (line, rest) =>
      match opening boundary line with
      | .next => .ok (some rest)
      | .last => .ok none
      | .none => skipTo boundary fuel rest

/-! ## Headers -/

/-- A header: its name in lower case and its value. -/
structure Header where
  name : String
  value : Bytes
  deriving DecidableEq, Repr

/-- The bytes up to an empty line, and what stands behind it. -/
def head? (done : Bytes) : Bytes → Option (Bytes × Bytes)
  | 13 :: 10 :: 13 :: 10 :: rest => some (done.reverse ++ [13, 10, 13, 10], rest)
  | b :: rest => head? (b :: done) rest
  | [] => none

def isNameByte (b : UInt8) : Bool := b < 128 && MediaType.isTokenChar (Char.ofNat b.toNat)

def isBlankByte (b : UInt8) : Bool := b == 32 || b == 9

/-- A byte of a header's value: no control character but a tab. -/
def isValueByte (b : UInt8) : Bool := b == 9 || (32 ≤ b && b != 127)

/-- The bytes without blanks and tabs at their ends. -/
def trimBytes (bytes : Bytes) : Bytes :=
  ((bytes.dropWhile isBlankByte).reverse.dropWhile isBlankByte).reverse

/-- One header line without its line end. -/
def header? (line : Bytes) : Option Header :=
  let name := line.takeWhile isNameByte
  match line.dropWhile isNameByte with
  | 58 :: value =>
    if name.isEmpty || !value.all isValueByte then none
    else some ⟨MediaType.lower (Utf8.decodeLossy name).toList, trimBytes value⟩
  | _ => none

/-- A line without its line end. -/
def bare (line : Bytes) : Bytes :=
  match line.reverse with
  | 10 :: 13 :: rest => rest.reverse
  | 10 :: rest => rest.reverse
  | _ => line

/-- The most headers that a part may have. -/
def headerLimit : Nat := 32

/-- Header lines up to an empty one; `fuel` is the number of bytes. -/
def headers (done : List Header) : (fuel : Nat) → Bytes → Except MultipartFault (List Header)
  | 0, _ => .error .badHeader
  | fuel + 1, bytes =>
    match line? bytes with
    | none => .error .badHeader
    | some (line, rest) =>
      if (bare line).isEmpty then .ok done.reverse
      else if done.length = headerLimit then .error .badHeader
      else
        match header? (bare line) with
        | none => .error .badHeader
        | some h => headers (h :: done) fuel rest

def value? (hs : List Header) (name : String) : Option Bytes :=
  (hs.find? (·.name == name)).map (·.value)

/-- The name and the file name that headers give a part. In a form a part must be called a part of a form
and have a name; elsewhere what is not so called is nameless. -/
def disposition? (isForm : Bool) (hs : List Header) :
    Except MultipartFault (Option String × Option String) :=
  match (value? hs "content-disposition").bind Disposition.ofHeader? with
  | some d =>
    if d.type != "form-data" then if isForm then .error .noDisposition else .ok (none, none)
    else if isForm && (d.parameter? "name").isNone then .error .noDisposition
    else .ok (d.parameter? "name", d.parameter? "filename")
  | none => if isForm then .error .noDisposition else .ok (none, none)

/-- Whether headers say that the content is itself in parts. -/
def isNested (hs : List Header) : Bool :=
  match (value? hs "content-type").bind MediaType.ofHeader? with
  | some m => m.type == "multipart"
  | none => false

/-- The length that headers give the content. -/
def length? (hs : List Header) : Except MultipartFault (Option Nat) :=
  match value? hs "content-length" with
  | none => .ok none
  | some value =>
    let digits := match value with
      | 43 :: rest => rest
      | _ => value
    let n := digits.foldl (fun n b => 10 * n + (b.toNat - 48)) 0
    if !digits.isEmpty && (digits.all fun b => 48 ≤ b && b ≤ 57) && n < Nat.pow 2 64 then .ok (some n)
    else .error .badLength

/-! ## Contents -/

/-- Whether a boundary begins here; it is looked for only where more than four bytes are left. -/
def atBoundary (boundary : Bytes) : Bytes → Bool
  | 13 :: 10 :: 45 :: 45 :: rest => !rest.isEmpty && boundary.isPrefixOf rest
  | 13 :: 45 :: 45 :: rest => 1 < rest.length && boundary.isPrefixOf rest
  | _ => false

/-- The content up to where a boundary begins, and what stands from there on. -/
def untilBoundary (boundary : Bytes) (done : Bytes) : Bytes → Bytes × Option Bytes
  | [] => (done.reverse, none)
  | b :: rest =>
    if atBoundary boundary (b :: rest) then (done.reverse, some (b :: rest))
    else untilBoundary boundary (b :: done) rest

/-- The content of a part and what stands behind it, `none` if the content is cut short. -/
def content (boundary : Bytes) (length : Option Nat) (bytes : Bytes) : Bytes × Option Bytes :=
  match length with
  | some n => (bytes.take n, if bytes.length < n then none else some (bytes.drop n))
  | none => untilBoundary boundary [] bytes

/-- A content as one chunk; an empty one has none. -/
def chunksOf (bytes : Bytes) : List Bytes := if bytes.isEmpty then [] else [bytes]

/-! ## Parts -/

/-- What a body is read with: its boundary, and whether it is a form. -/
structure Frame where
  boundary : Bytes
  isForm : Bool
  deriving DecidableEq, Repr

/-- The headers of a part, read: name, file name and length. -/
structure PartHead where
  name : Option String
  fileName : Option String
  length : Option Nat
  deriving DecidableEq, Repr

/-- The headers of the part that begins here, and what stands behind them. -/
def partHead (f : Frame) (bytes : Bytes) : Except MultipartFault (PartHead × Bytes) := do
  match head? [] bytes with
  | none => .error .incomplete
  | some (head, rest) =>
    let hs ← headers [] head.length head
    let (name, fileName) ← disposition? f.isForm hs
    if isNested hs then .error .nested
    else
      let length ← length? hs
      .ok (⟨name, fileName, length⟩, rest)

/-- Whether another part follows a content: what stands behind the boundary, or `none` at the end. The
rest of the content's last line is passed over. -/
def behindPart (f : Frame) (bytes : Bytes) : Except MultipartFault (Option Bytes) :=
  match line? bytes with
  | none => .error .incomplete
  | some (_, rest) =>
    let (line, behind) := (line? rest).getD (rest, [])
    match closing f.boundary line with
    | .next => .ok (some behind)
    | .last => .ok none
    | .none => .error .noBoundary

/-- Reads parts, those done last first. Each step takes a head, so `fuel` is the number of bytes. -/
def readParts (f : Frame) : (fuel : Nat) → List Part → Bytes → Upload
  | 0, done, _ => ⟨done.reverse, some .incomplete⟩
  | fuel + 1, done, bytes =>
    match partHead f bytes with
    | .error e => ⟨done.reverse, some e⟩
    | .ok (head, rest) =>
      let (held, behind) := content f.boundary head.length rest
      let done := ⟨head.name, head.fileName, chunksOf held⟩ :: done
      match behind with
      | none => ⟨done.reverse, some .incomplete⟩
      | some rest =>
        match behindPart f rest with
        | .error e => ⟨done.reverse, some e⟩
        | .ok none => ⟨done.reverse, none⟩
        | .ok (some rest) => readParts f fuel done rest

/-- How a body with a content type is to be read. -/
def frame? (contentType : Option Bytes) : Except MultipartFault Frame :=
  match contentType with
  | none => .error .noContentType
  | some value =>
    match MediaType.ofHeader? value with
    | none => .error .badContentType
    | some m =>
      if m.type != "multipart" then .error .otherContentType
      else
        match m.parameter? "boundary" with
        | none => .error .noBoundary
        | some boundary => .ok ⟨Utf8.encode boundary, m.baseSubtype == "form-data"⟩

/-- Reads a body in parts. -/
def read (contentType : Option Bytes) (body : Bytes) : Upload :=
  match frame? contentType with
  | .error e => ⟨[], some e⟩
  | .ok f =>
    match skipTo f.boundary (body.length + 1) body with
    | .error e => ⟨[], some e⟩
    | .ok none => ⟨[], none⟩
    | .ok (some rest) => readParts f (rest.length + 1) [] rest

end Multipart

end TableProfile
