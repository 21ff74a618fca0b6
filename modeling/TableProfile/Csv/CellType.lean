import TableProfile.Table.Dtype
import TableProfile.Text.Character

/-!
# The type a cell's text suggests, and the type of a column

`CellType.ofText` judges one non-empty text: a truth value, a number with a fraction or exponent, an
integer, or else text. A digit is any character of category Nd, in any script.

A column has the join of what its cells suggest, in the order

      text
     /    \
  float   bool
    |
   int

and a column that suggests nothing is text.
-/
namespace TableProfile.Csv

inductive CellType where
  | int | float | bool | text
  deriving DecidableEq, Repr

namespace CellType

/-- The letters of a word in any case; the long s is a form of the letter s. -/
def isWord (word cs : List Char) : Bool :=
  cs.map (fun c => if c == 'ſ' then 's' else c.toLower) == word

def isBool (cs : List Char) : Bool := isWord "true".toList cs || isWord "false".toList cs

/-- The text without a sign. -/
def unsigned : List Char → List Char
  | '-' :: rest => rest
  | '+' :: rest => rest
  | cs => cs

/-- Some digits and nothing else. -/
def isDigits (cs : List Char) : Bool := !cs.isEmpty && cs.all Digit.isDecimal

/-- An exponent: a letter `e`, an optional sign, digits. -/
def isExponent : List Char → Bool
  | 'e' :: rest => isDigits (unsigned rest)
  | 'E' :: rest => isDigits (unsigned rest)
  | _ => false

/-- A number with a point or an exponent, infinity or the undefined value, with an optional sign. -/
def isFloat (cs : List Char) : Bool :=
  let body := unsigned cs
  let whole := body.takeWhile Digit.isDecimal
  let rest := body.dropWhile Digit.isDecimal
  if body == "inf".toList || body == "NaN".toList then true
  else
    match rest with
    | '.' :: more =>
      let fraction := more.takeWhile Digit.isDecimal
      let tail := more.dropWhile Digit.isDecimal
      if fraction.isEmpty then !whole.isEmpty && tail.isEmpty
      else tail.isEmpty || isExponent tail
    | _ => !whole.isEmpty && isExponent rest

/-- Digits with an optional minus. -/
def isInt : List Char → Bool
  | '-' :: rest => isDigits rest
  | cs => isDigits cs

/-- A text that is itself in quotes. -/
def isQuoted : List Char → Bool
  | '"' :: rest => rest.getLast? == some '"'
  | _ => false

/-- What a non-empty text suggests. -/
def ofText (cs : List Char) : CellType :=
  if isQuoted cs then .text
  else if isBool cs then .bool
  else if isFloat cs then .float
  else if isInt cs then .int
  else .text

/-- The least type above two. -/
def join (a b : CellType) : CellType :=
  if a = b then a
  else
    match a, b with
    | .int, .float | .float, .int => .float
    | _, _ => .text

/-- The join of what has been seen with one more. -/
def joinSeen (seen : Option CellType) (t : CellType) : Option CellType :=
  some (match seen with
    | none => t
    | some s => join s t)

/-- The narrowest type that the values of both have a place in; a truth value counts as a number. -/
def common (a b : CellType) : CellType :=
  match a, b with
  | .text, _ | _, .text => .text
  | .float, _ | _, .float => .float
  | .int, _ | _, .int => .int
  | .bool, .bool => .bool

/-- The type of the column read with this cell type. -/
def dtype : CellType → Dtype
  | int => .int .i64
  | float => .float .f64
  | bool => .bool
  | text => .str

end CellType

end TableProfile.Csv
