import TableProfile.Number.Read
import TableProfile.Table.Calendar
import TableProfile.Table.Dtype

/-!
# Columns

A column is a name and a list of cells of one type, `none` for a missing cell. What the profile takes
from a column are two views:

* `numbers`: the cells of a numeric column as doubles, where missing cells and cells that are not finite
  count as missing;
* `texts`: the cells of any other column as text. Lists have no text.

`memoryBytes` is the size of the buffers that hold the cells. A column may be held in pieces, each of
some rows: each piece has a bitmap of its own for truth values, and one for missing cells if it has any.
-/
namespace TableProfile

/-- The sum of sizes. -/
def total (sizes : List Nat) : Nat := sizes.foldr (· + ·) 0

/-- The cells of a column, in row order. -/
inductive Cells where
  | int (type : IntType) (cells : List (Option Int))
  | float (type : FloatType) (cells : List (Option Float))
  | bool (cells : List (Option Bool))
  | str (cells : List (Option String))
  | cat (cells : List (Option String))
  | date (cells : List (Option Int))
  | time (cells : List (Option Nat))
  | null (rows : Nat)
  | list (cells : List (Option Int))
  deriving DecidableEq, Repr

structure Column where
  name : String
  cells : Cells
  deriving DecidableEq, Repr

/-- Why a column has no profile. -/
inductive ProfileError where
  /-- Lists of 64-bit integers have no text. -/
  | listHasNoText
  deriving DecidableEq, Repr

def ProfileError.message : ProfileError → String
  | .listHasNoText =>
    "Failed to extract column values: cannot cast List type (inner: 'Int64', to: 'String')"

/-- A column of integers of a type; a number that the type does not hold is missing. -/
def Cells.ofIntegers (type : IntType) (numbers : List (Option Int)) : Cells :=
  .int type (numbers.map (·.filter type.holds))

/-- A column of dates from counts of days, which are held in 32 bits. -/
def Cells.ofDays (counts : List (Option Int)) : Cells := .date (counts.map (·.filter IntType.i32.holds))

/-- A column of times of day from counts of nanoseconds; a count that is no time of day is missing. -/
def Cells.ofNanoseconds (counts : List (Option Int)) : Cells :=
  .time (counts.map (·.bind Calendar.timeOfDay?))

/-- The number of missing cells in a list. -/
def missing {α : Type} (cells : List (Option α)) : Nat := cells.countP Option.isNone

/-- One bit for each of `n` rows. -/
def bitmapBytes (n : Nat) : Nat := (n + 7) / 8

namespace Cells

def dtype : Cells → Dtype
  | int t _ => .int t
  | float t _ => .float t
  | bool _ => .bool
  | str _ => .str
  | cat _ => .cat
  | date _ => .date
  | time _ => .time
  | null _ => .null
  | list _ => .list

/-- The number of rows. -/
def height : Cells → Nat
  | int _ cs => cs.length
  | float _ cs => cs.length
  | bool cs => cs.length
  | str cs | cat cs => cs.length
  | date cs => cs.length
  | time cs => cs.length
  | null n => n
  | list cs => cs.length

/-- The number of missing cells; a cell that holds an undefined number is not missing. -/
def nullCount : Cells → Nat
  | int _ cs => missing cs
  | float _ cs => missing cs
  | bool cs => missing cs
  | str cs | cat cs => missing cs
  | date cs => missing cs
  | time cs => missing cs
  | null n => n
  | list cs => missing cs

/-- A double that can enter a statistic. -/
def finite? (x : Float) : Option Float := if x.isFinite then some x else none

/-- The cells of a numeric column as doubles. -/
def numbers : Cells → Option (List (Option Float))
  | int _ cs => some (cs.map (·.map Number.ofInt))
  | float _ cs => some (cs.map (·.bind finite?))
  | _ => none

def boolText (b : Bool) : String := if b then "true" else "false"

/-- The cells of a column that is not numeric as texts. -/
def texts : Cells → Except ProfileError (List (Option String))
  | bool cs => .ok (cs.map (·.map boolText))
  | str cs | cat cs => .ok cs
  | date cs => .ok (cs.map (·.map Calendar.dateText))
  | time cs => .ok (cs.map (·.map Calendar.timeText))
  | null n => .ok (List.replicate n none)
  | list _ | int .. | float .. => .error .listHasNoText

/-- The lengths of texts, in bytes. -/
def textBytes (texts : List String) : Nat := total (texts.map String.utf8ByteSize)

def presentTexts (cells : List (Option String)) : List String := cells.filterMap id

/-- Cells of `width` bytes. -/
def fixedBytes (width : Nat) (c : Cells) : Nat := width * c.height

/-- For each row, whether its cell is missing. -/
def gaps : Cells → List Bool
  | int _ cs => cs.map Option.isNone
  | float _ cs => cs.map Option.isNone
  | bool cs => cs.map Option.isNone
  | str cs | cat cs => cs.map Option.isNone
  | date cs => cs.map Option.isNone
  | time cs => cs.map Option.isNone
  | null n => List.replicate n true
  | list cs => cs.map Option.isNone

/-- The bitmaps of a column held in pieces of the given heights: one for each piece with a gap. -/
def gapBytes : (pieces : List Nat) → List Bool → Nat
  | [], _ => 0
  | n :: pieces, gaps =>
    (if (gaps.take n).any id then bitmapBytes n else 0) + gapBytes pieces (gaps.drop n)

/-- The size of the buffers that hold the cells in pieces of the given heights. -/
def memoryBytes (pieces : List Nat) (c : Cells) : Nat :=
  match c with
  | int t _ => c.fixedBytes t.bytes + gapBytes pieces c.gaps
  | float .f32 _ => c.fixedBytes 4 + gapBytes pieces c.gaps
  | float .f64 _ => c.fixedBytes 8 + gapBytes pieces c.gaps
  | bool _ => total (pieces.map bitmapBytes) + gapBytes pieces c.gaps
  | str cs => textBytes (presentTexts cs)
  | cat cs => c.fixedBytes 4 + gapBytes pieces c.gaps + textBytes (presentTexts cs).eraseDups
  | date _ => c.fixedBytes 4 + gapBytes pieces c.gaps
  | time _ => c.fixedBytes 8 + gapBytes pieces c.gaps
  | null _ => 0
  | list _ => c.fixedBytes 8 + gapBytes pieces c.gaps

end Cells

namespace Column

def dtype (c : Column) : Dtype := c.cells.dtype

def kind (c : Column) : ColumnKind := c.dtype.kind

end Column

end TableProfile
