import TableProfile.Text.Utf8

/-!
# Media types

A media type is a type, a subtype and parameters, such as `multipart/form-data; boundary=x`. Type,
subtype and names of parameters are the same in any case. A value is a token or stands in quotes.
-/
namespace TableProfile

structure MediaType where
  type : String
  subtype : String
  parameters : List (String × String)
  deriving DecidableEq, Repr

namespace MediaType

def isTokenChar (c : Char) : Bool := c.isAlphanum || "!#$%&'*+-.^_\x60|~".toList.contains c

def lower (cs : List Char) : String := String.ofList (cs.map Char.toLower)

/-- A character that is no control character. -/
def isWritten (c : Char) : Bool := 0x20 ≤ c.toNat && c.toNat != 0x7F

/-- A character that may stand in quotes; a quote may at their beginning, for they are not empty. -/
def isQuotable (c : Char) : Bool := c != '"' && isWritten c

/-- Parameters, from behind a semicolon on. Each step takes a character, so `fuel` is their length. -/
def readParameters : (fuel : Nat) → (done : List (String × String)) → List Char →
    Option (List (String × String))
  | 0, done, _ => some done.reverse
  | _, done, [] => some done.reverse
  | fuel + 1, done, ' ' :: rest => readParameters fuel done rest
  | fuel + 1, done, cs =>
    let name := cs.takeWhile isTokenChar
    match name.isEmpty, cs.dropWhile isTokenChar with
    | false, '=' :: '"' :: first :: rest =>
      match isWritten first, rest.dropWhile isQuotable with
      | true, '"' :: behind =>
        let done := (lower name, String.ofList (first :: rest.takeWhile isQuotable)) :: done
        match behind.dropWhile (· == ' ') with
        | [] => some done.reverse
        | ';' :: behind => readParameters fuel done behind
        | _ => none
      | _, _ => none
    | false, '=' :: rest =>
      let value := rest.takeWhile isTokenChar
      let done := (lower name, String.ofList value) :: done
      match value.isEmpty, rest.dropWhile isTokenChar with
      | _, [] => some done.reverse
      | false, ';' :: behind => readParameters fuel done behind
      | _, _ => none
    | _, _ => none

/-- The media type that a text writes. -/
def read? (text : String) : Option MediaType :=
  let cs := text.toList
  let type := cs.takeWhile isTokenChar
  match type.isEmpty, cs.dropWhile isTokenChar with
  | false, '/' :: rest =>
    let subtype := rest.takeWhile isTokenChar
    match subtype.isEmpty, rest.dropWhile isTokenChar with
    | _, [] => some ⟨lower type, lower subtype, []⟩
    | false, ';' :: behind =>
      (readParameters behind.length [] behind).map fun parameters =>
        ⟨lower type, lower subtype, parameters⟩
    | _, _ => none
  | _, _ => none

def parameter? (m : MediaType) (name : String) : Option String :=
  (m.parameters.find? (·.1 == name)).map (·.2)

/-- The subtype without its last suffix, which a plus sign begins. -/
def baseSubtype (m : MediaType) : String :=
  match m.subtype.toList with
  | [] => ""
  | first :: rest =>
    if rest.contains '+' then
      String.ofList (first :: ((rest.reverse.dropWhile (· != '+')).drop 1).reverse)
    else m.subtype

/-- The media type of a header's value; a header is visible ASCII. -/
def ofHeader? (value : Bytes) : Option MediaType :=
  if value.all fun b => b == 9 || (32 ≤ b && b < 127) then read? (Utf8.decodeLossy value) else none

end MediaType

end TableProfile
