/-!
# Types of columns

A column's exact type (`Dtype`) says how its cells are held; its kind (`ColumnKind`) says how it is
profiled. Only integers and floats are numeric.
-/
namespace TableProfile

/-- Integers of a fixed width, with or without sign. -/
inductive IntType where
  | i8 | i16 | i32 | i64 | u8 | u16 | u32 | u64
  deriving DecidableEq, Repr

namespace IntType

def bytes : IntType → Nat
  | i8 | u8 => 1
  | i16 | u16 => 2
  | i32 | u32 => 4
  | i64 | u64 => 8

def signed : IntType → Bool
  | i8 | i16 | i32 | i64 => true
  | _ => false

/-- The integers that the type holds. -/
def holds (t : IntType) (n : Int) : Bool :=
  if t.signed then -(Nat.pow 2 (8 * t.bytes - 1) : Int) ≤ n && n < (Nat.pow 2 (8 * t.bytes - 1) : Int)
  else 0 ≤ n && n < (Nat.pow 2 (8 * t.bytes) : Int)

def label : IntType → String
  | i8 => "i8"
  | i16 => "i16"
  | i32 => "i32"
  | i64 => "i64"
  | u8 => "u8"
  | u16 => "u16"
  | u32 => "u32"
  | u64 => "u64"

end IntType

inductive FloatType where
  | f32 | f64
  deriving DecidableEq, Repr

/-- How the cells of a column are held. -/
inductive Dtype where
  | int (type : IntType)
  | float (type : FloatType)
  | bool
  | str
  | cat
  | date
  | time
  | null
  | list
  deriving DecidableEq, Repr

/-- How a column is profiled. -/
inductive ColumnKind where
  | integer | float | boolean | text | other
  deriving DecidableEq, Repr

def ColumnKind.label : ColumnKind → String
  | integer => "integer"
  | float => "float"
  | boolean => "boolean"
  | text => "text"
  | other => "other"

def ColumnKind.isNumeric : ColumnKind → Bool
  | integer | float => true
  | _ => false

namespace Dtype

def label : Dtype → String
  | int t => t.label
  | float .f32 => "f32"
  | float .f64 => "f64"
  | bool => "bool"
  | str => "str"
  | cat => "cat"
  | date => "date"
  | time => "time"
  | null => "null"
  | list => "list[i64]"

def kind : Dtype → ColumnKind
  | int _ => .integer
  | float _ => .float
  | bool => .boolean
  | str | cat => .text
  | date | time | null | list => .other

end Dtype

end TableProfile
