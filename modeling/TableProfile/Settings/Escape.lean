import TableProfile.Json.Reader

/-!
# Escapes in texts of settings

Behind a backslash a letter stands for a control character, and a code in hexadecimal for any character
that has one.
-/
namespace TableProfile.Escape

/-- What a backslash and a character stand for. -/
def simple? : Char → Option Char
  | 'b' => some '\x08'
  | 't' => some '\t'
  | 'n' => some '\n'
  | 'f' => some '\x0c'
  | 'r' => some '\r'
  | '"' => some '"'
  | '\\' => some '\\'
  | _ => none

/-- The character of a code; surrogates have none. -/
def ofCode? (code : Nat) : Option Char :=
  if code < 0xD800 || (0xE000 ≤ code && code < 0x110000) then some (Char.ofNat code) else none

/-- The value of hexadecimal digits. -/
def codeOf (digits : List Char) : Nat :=
  (digits.filterMap Json.hexValue).foldl (fun m d => 16 * m + d) 0

end TableProfile.Escape
