import TableProfile.Settings.Escape
import TableProfile.Settings.Value
import TableProfile.Text.Character

/-!
# Values in environment variables

The text of a variable is a value of some kind. What begins with the name of a truth value is one. In
double quotes stands a text with escapes, in single quotes one character; braces hold a table and brackets
a sequence. A bare word up to a comma, brace or bracket is a number if it reads as one (with a point: a
double), or else a text. A text that is not one value from end to end stands for itself.

Each step takes a character or is preceded by one that does, so the length of the text bounds the steps.
-/
namespace TableProfile.Variable

def isBlank (c : Char) : Bool := c == ' ' || c == '\t' || c == '\n' || c == '\r' || c == '\x0c'

def isSeparator (c : Char) : Bool :=
  c == ',' || c == '\x7b' || c == '\x7d' || c == '[' || c == ']'

/-- An integer that fits 64 bits: without a minus unsigned, else signed. -/
def readInteger? (cs : List Char) : Option SettingValue :=
  let (negative, digits) := Number.takeSign cs
  if digits.isEmpty || !digits.all Char.isDigit then none
  else
    let n := Number.digitsValue 0 digits
    if !negative then if n < Nat.pow 2 64 then some (.unsigned n) else none
    else if n ≤ Nat.pow 2 63 then some (.signed (-(n : Int)))
    else none

/-- What a bare word says. -/
def ofWord (word : List Char) : SettingValue :=
  let point := if word.contains '.' then Number.readDecimal word else none
  match point, readInteger? word with
  | some x, _ => .float x
  | none, some n => n
  | none, none => .text (String.ofList word)

/-- A character behind `n` hexadecimal digits. -/
def readCode? (n : Nat) (cs : List Char) : Option (Char × List Char) :=
  let digits := cs.take n
  if digits.length < n || !digits.all (fun c => (Json.hexValue c).isSome) then none
  else (Escape.ofCode? (Escape.codeOf digits)).map (·, cs.drop n)

/-- A text from behind its opening quote on; `fuel` is the number of characters. -/
def readText : (fuel : Nat) → (done : List Char) → List Char → Option (String × List Char)
  | 0, _, _ => none
  | fuel + 1, done, cs =>
    match cs with
    | '"' :: rest => some (String.ofList done.reverse, rest)
    | '\\' :: 'u' :: rest =>
      match readCode? 4 rest with
      | some (c, rest) => readText fuel (c :: done) rest
      | none => none
    | '\\' :: 'U' :: rest =>
      match readCode? 8 rest with
      | some (c, rest) => readText fuel (c :: done) rest
      | none => none
    | '\\' :: c :: rest =>
      match Escape.simple? c with
      | some c => readText fuel (c :: done) rest
      | none => none
    | c :: rest => readText fuel (c :: done) rest
    | [] => none

/-- The key of an entry with its equals sign. -/
def readKey? (cs : List Char) : Option (List Char) :=
  let cs := cs.dropWhile isBlank
  let behind : Option (List Char) := match cs with
    | '"' :: rest => (readText (rest.length + 1) [] rest).map (·.2)
    | cs =>
      let isName (c : Char) : Bool := c.isAlphanum || c == '_' || c == '-'
      if (cs.takeWhile isName).isEmpty then none else some (cs.dropWhile isName)
  behind.bind fun rest =>
    match rest.dropWhile isBlank with
    | '=' :: rest => some rest
    | _ => none

mutual

/-- A value with blanks around it, and what stands behind it. -/
def readValue : (fuel : Nat) → List Char → Option (SettingValue × List Char)
  | 0, _ => none
  | fuel + 1, cs =>
    let found : Option (SettingValue × List Char) :=
      match cs.dropWhile isBlank with
      | 't' :: 'r' :: 'u' :: 'e' :: rest => some (.bool true, rest)
      | 'f' :: 'a' :: 'l' :: 's' :: 'e' :: rest => some (.bool false, rest)
      | '\x7b' :: rest => (readEntries fuel rest).map (.table, ·)
      | '[' :: rest => (readItems fuel rest).map (.sequence, ·)
      | '"' :: rest => (readText (rest.length + 1) [] rest).map fun (s, rest) => (.text s, rest)
      | '\'' :: c :: '\'' :: rest => some (.text (String.singleton c), rest)
      | '\'' :: _ => none
      | rest =>
        let word := rest.takeWhile fun c => !isSeparator c
        some (ofWord (Blank.trimChars word), rest.dropWhile fun c => !isSeparator c)
    found.map fun (v, rest) => (v, rest.dropWhile isBlank)

/-- What stands behind the items of a sequence and its closing bracket. -/
def readItems : (fuel : Nat) → List Char → Option (List Char)
  | 0, _ => none
  | _, ']' :: rest => some rest
  | fuel + 1, cs =>
    match readValue fuel cs with
    | some (_, ',' :: rest) => readItems fuel rest
    | some (_, ']' :: rest) => some rest
    | _ => none

/-- What stands behind the entries of a table and its closing brace. -/
def readEntries : (fuel : Nat) → List Char → Option (List Char)
  | 0, _ => none
  | _, '\x7d' :: rest => some rest
  | fuel + 1, cs =>
    match (readKey? cs).bind (readValue fuel) with
    | some (_, ',' :: rest) => readEntries fuel rest
    | some (_, '\x7d' :: rest) => some rest
    | _ => none

end

/-- What the text of a variable says. -/
def read (text : String) : SettingValue :=
  match readValue (2 * text.length + 2) text.toList with
  | some (v, []) => v
  | _ => .text text

end TableProfile.Variable
