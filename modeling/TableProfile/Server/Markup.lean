/-!
# Pages as markup and text

A page is a list of pieces: markup, which is written as it stands, and text, in which the five
characters that mean something in markup are written as entities.

* `unescape_escape`: reading the entities back gives the text.
-/
namespace TableProfile.Markup

/-- A character as it is written in text. -/
def escapeChar : Char → List Char
  | '&' => "&amp;".toList
  | '<' => "&lt;".toList
  | '>' => "&gt;".toList
  | '"' => "&quot;".toList
  | '\'' => "&#39;".toList
  | c => [c]

def escapeChars (cs : List Char) : List Char := cs.flatMap escapeChar

def escape (s : String) : String := String.ofList (escapeChars s.toList)

/-- Reads entities back; an ampersand that begins none of the five stands for itself. -/
def unescapeChars : List Char → List Char
  | '&' :: 'a' :: 'm' :: 'p' :: ';' :: rest => '&' :: unescapeChars rest
  | '&' :: 'l' :: 't' :: ';' :: rest => '<' :: unescapeChars rest
  | '&' :: 'g' :: 't' :: ';' :: rest => '>' :: unescapeChars rest
  | '&' :: 'q' :: 'u' :: 'o' :: 't' :: ';' :: rest => '"' :: unescapeChars rest
  | '&' :: '#' :: '3' :: '9' :: ';' :: rest => '\'' :: unescapeChars rest
  | c :: rest => c :: unescapeChars rest
  | [] => []

theorem unescapeChars_cons {c : Char} (h : c ≠ '&') (rest : List Char) :
    unescapeChars (c :: rest) = c :: unescapeChars rest := by
  conv => lhs; unfold unescapeChars
  split <;> simp_all

theorem unescape_escapeChar (c : Char) (rest : List Char) :
    unescapeChars (escapeChar c ++ rest) = c :: unescapeChars rest := by
  unfold escapeChar
  split
  case h_6 h _ _ _ _ => exact unescapeChars_cons h rest
  all_goals simp [unescapeChars]

theorem unescape_escape (cs : List Char) : unescapeChars (escapeChars cs) = cs := by
  induction cs with
  | nil => rfl
  | cons c rest ih =>
    unfold escapeChars at ih ⊢
    rw [List.flatMap_cons, unescape_escapeChar, ih]

inductive Piece where
  | markup (raw : String)
  | text (content : String)
  deriving DecidableEq, Repr

def Piece.render : Piece → String
  | .markup raw => raw
  | .text content => escape content

def render (pieces : List Piece) : String := String.join (pieces.map Piece.render)

end TableProfile.Markup
