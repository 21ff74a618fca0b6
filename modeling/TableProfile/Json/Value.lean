import TableProfile.Number.Shortest

/-!
# JSON values and their texts

* `Json.ofFields` makes an object whose keys stand in order, each once.
* `Json.compact` writes a value without blanks, `Json.pretty` with one item to a line.

Numbers are integers or doubles. A double is written with the fewest digits that read back, always
with a point or an exponent; a number that is not finite has no JSON form and becomes `null`.
-/
namespace TableProfile

inductive Json where
  | null
  | bool (b : Bool)
  | int (n : Int)
  | float (x : Float)
  | str (s : String)
  | arr (items : List Json)
  | obj (fields : List (String × Json))
  deriving Repr, Inhabited

namespace Json

/-- Puts a field into fields in order, in place of one of the same key. -/
def putField (key : String) (value : Json) : List (String × Json) → List (String × Json)
  | [] => [(key, value)]
  | (k, v) :: rest =>
    if key < k then (key, value) :: (k, v) :: rest
    else if key = k then (key, value) :: rest
    else (k, v) :: putField key value rest

/-- The object of the given fields, keys in order, the last of equal keys. -/
def ofFields (fields : List (String × Json)) : Json :=
  .obj (fields.foldl (fun done (k, v) => putField k v done) [])

def nat (n : Nat) : Json := .int n

def ofOption {α : Type} (f : α → Json) : Option α → Json
  | none => .null
  | some a => f a

def strings (xs : List String) : Json := .arr (xs.map .str)

/-- The field of an object, `null` where there is none or the value is no object. -/
def field (key : String) : Json → Json
  | .obj fields => ((fields.find? (·.1 == key)).map (·.2)).getD .null
  | _ => .null

/-- The item of an array, `null` where there is none or the value is no array. -/
def item (n : Nat) : Json → Json
  | .arr items => items[n]?.getD .null
  | _ => .null

def str? : Json → Option String
  | .str s => some s
  | _ => none

/-! ## Scalars -/

def hexDigit (n : Nat) : Char :=
  if n < 10 then Char.ofNat ('0'.toNat + n) else Char.ofNat ('a'.toNat + (n - 10))

/-- A character of a string: quotes, backslashes and control characters are escaped. -/
def escapeChar (c : Char) : List Char :=
  match c with
  | '"' => ['\\', '"']
  | '\\' => ['\\', '\\']
  | '\n' => ['\\', 'n']
  | '\r' => ['\\', 'r']
  | '\t' => ['\\', 't']
  | '\x08' => ['\\', 'b']
  | '\x0c' => ['\\', 'f']
  | c =>
    if c.toNat < 0x20 then
      ['\\', 'u', '0', '0', hexDigit (c.toNat / 16), hexDigit (c.toNat % 16)]
    else [c]

def quote (s : String) : String :=
  String.ofList ('"' :: (s.toList.flatMap escapeChar ++ ['"']))

/-- An exponent with its sign. -/
def exponentText (e : Int) : List Char :=
  (if e < 0 then '-' else '+') :: (toString e.natAbs).toList

/-- Digits with a decimal point: positional from 10^-5 to below 10^16, else with an exponent. -/
def digitsText (d : Number.Digits) : List Char :=
  if 0 < d.point ∧ d.point ≤ 16 then
    if d.digits.length ≤ d.point.toNat then d.plain ++ ['.', '0'] else d.plain
  else if -5 < d.point ∧ d.point ≤ 0 then d.plain
  else
    let tail := match d.digits with
      | [one] => [one]
      | one :: more => one :: '.' :: more
      | [] => []
    tail ++ 'e' :: exponentText (d.point - 1)

def floatText (x : Float) : String :=
  match Number.decode x with
  | .finite negative m e =>
    let body := if m = 0 then ['0', '.', '0'] else digitsText (Number.shortest m e)
    String.ofList (if negative then '-' :: body else body)
  | _ => "null"

/-! ## Values -/

mutual

/-- A value without blanks. -/
def compact : Json → String
  | .null => "null"
  | .bool b => if b then "true" else "false"
  | .int n => toString n
  | .float x => floatText x
  | .str s => quote s
  | .arr items => "[" ++ String.intercalate "," (compactItems items) ++ "]"
  | .obj fields => "\x7b" ++ String.intercalate "," (compactFields fields) ++ "\x7d"

def compactItems : List Json → List String
  | [] => []
  | v :: rest => compact v :: compactItems rest

def compactFields : List (String × Json) → List String
  | [] => []
  | (k, v) :: rest => (quote k ++ ":" ++ compact v) :: compactFields rest

end

/-- The items of an array or object, one to a line, `depth` levels deep. -/
def block (opening closing : String) (depth : Nat) (items : List String) : String :=
  let margin := String.ofList (List.replicate (2 * depth) ' ')
  if items.isEmpty then opening ++ closing
  else
    let inner := margin ++ "  "
    opening ++ "\n" ++ inner ++ String.intercalate (",\n" ++ inner) items ++ "\n" ++ margin ++ closing

mutual

/-- A value with one item to a line, indented by two blanks a level. -/
def prettyAt (depth : Nat) : Json → String
  | .arr items => block "[" "]" depth (prettyItems (depth + 1) items)
  | .obj fields => block "\x7b" "\x7d" depth (prettyFields (depth + 1) fields)
  | .null => "null"
  | .bool b => if b then "true" else "false"
  | .int n => toString n
  | .float x => floatText x
  | .str s => quote s

def prettyItems (depth : Nat) : List Json → List String
  | [] => []
  | v :: rest => prettyAt depth v :: prettyItems depth rest

def prettyFields (depth : Nat) : List (String × Json) → List String
  | [] => []
  | (k, v) :: rest => (quote k ++ ": " ++ prettyAt depth v) :: prettyFields depth rest

end

def pretty (v : Json) : String := prettyAt 0 v

end Json

end TableProfile
