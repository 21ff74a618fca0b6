import TableProfile.Number.Read
import TableProfile.Number.Shortest
import TableProfile.Text.Visible

/-!
# Values of settings

What a source says of a setting: a scalar, or something else, of which only the kind matters.
-/
namespace TableProfile

inductive SettingValue where
  | absent
  | bool (b : Bool)
  | unsigned (n : Nat)
  | signed (n : Int)
  | float (x : Float)
  | text (s : String)
  | sequence
  | table
  | date
  deriving DecidableEq, Repr

namespace SettingValue

/-- A character between double quotes. -/
def escapeChar (c : Char) : List Char :=
  if c == '"' || c == '\\' then ['\\', c]
  else if c == '\n' then ['\\', 'n']
  else if c == '\r' then ['\\', 'r']
  else if c == '\t' then ['\\', 't']
  else if c == '\x00' then ['\\', '0']
  else if Visible.isHidden c then "\\u\x7b".toList ++ Nat.toDigits 16 c.toNat ++ ['\x7d']
  else [c]

/-- A text in quotes, with escapes for what cannot be seen. -/
def quoted (s : String) : String :=
  String.ofList ('"' :: s.toList.flatMap escapeChar ++ ['"'])

/-- A value as a complaint names it. -/
def describe : SettingValue → String
  | absent => "unit"
  | bool b => "bool " ++ if b then "true" else "false"
  | unsigned n => "unsigned int `" ++ toString n ++ "`"
  | signed n => "signed int `" ++ toString n ++ "`"
  | float x => "float `" ++ Number.plain x ++ "`"
  | text s => "string " ++ quoted s
  | sequence => "sequence"
  | table | date => "map"

end SettingValue

end TableProfile
