import TableProfile.Server.Language
import TableProfile.Server.MediaType
import TableProfile.Text.Character

/-!
# Dispositions of form fields

The disposition of a field is a type and parameters, such as `form-data; name="files"`. Inside quotes a
backslash takes the next character as it stands. Parameters whose names end in a star have values of
another form, which is checked and not used.
-/
namespace TableProfile

structure Disposition where
  type : String
  /-- Names in lower case; the first of equal names counts. -/
  parameters : List (String × String)
  deriving DecidableEq, Repr

namespace Disposition

/-- What stands before a character, without white space behind it, and what stands after it, without
white space before it. -/
def cut (mark : Char) (cs : List Char) : List Char × List Char :=
  (Blank.trimEndChars (cs.takeWhile (· != mark)), Blank.trimStartChars ((cs.dropWhile (· != mark)).drop 1))

/-- A text in quotes, from behind the opening quote on, and what stands behind the closing one. -/
def readQuoted (done : List Char) : List Char → Option (List Char × List Char)
  | [] => none
  | '"' :: rest => some (done.reverse, rest)
  | ['\\'] => none
  | '\\' :: c :: rest => readQuoted (c :: done) rest
  | c :: rest => readQuoted (c :: done) rest

/-- Whether a text is a character set, a language and a value, with quotes between them. -/
def isExtended (cs : List Char) : Bool :=
  let behind := cs.dropWhile (· != '\'')
  match behind with
  | '\'' :: rest =>
    let language := rest.takeWhile (· != '\'')
    (rest.contains '\'') && (language.isEmpty || LanguageTag.isTag (String.ofList language))
  | _ => false

/-- Parameters. Each step takes a character, so `fuel` is their length. -/
def readParameters : (fuel : Nat) → (done : List (String × String)) → List Char →
    Option (List (String × String))
  | 0, done, _ => some done.reverse
  | _, done, [] => some done.reverse
  | fuel + 1, done, cs =>
    let (name, rest) := cut '=' cs
    if name.isEmpty || name == ['*'] || rest.isEmpty then none
    else if name.getLast? == some '*' then
      let (value, rest) := cut ';' rest
      if isExtended value then readParameters fuel done rest else none
    else
      match rest with
      | '"' :: quoted =>
        match readQuoted [] quoted with
        | none => none
        | some (value, rest) =>
          readParameters fuel ((MediaType.lower name, String.ofList value) :: done) (cut ';' rest).2
      | token =>
        let (value, rest) := cut ';' token
        if value.isEmpty then none
        else readParameters fuel ((MediaType.lower name, String.ofList value) :: done) rest

/-- The disposition that a header's value writes. -/
def ofHeader? (value : Bytes) : Option Disposition := do
  let text ← Utf8.decode? value
  let (type, rest) := cut ';' (Blank.trimChars text.toList)
  if type.isEmpty then none
  else (readParameters rest.length [] rest).map fun parameters => ⟨MediaType.lower type, parameters⟩

def parameter? (d : Disposition) (name : String) : Option String :=
  (d.parameters.find? (·.1 == name)).map (·.2)

end Disposition

end TableProfile
