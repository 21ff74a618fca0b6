import TableProfile.Settings.Toml.Reader
import TableProfile.Settings.Escape

/-!
# Blanks, comments and texts in a settings file

Texts have four forms: in double quotes with escapes or in single quotes as they stand, each on one line
or, between quotes written three times, on several.
-/
namespace TableProfile.Toml

open Reader

/-! ## Blanks and comments -/

def isBlank (c : Char) : Bool := c == ' ' || c == '\t'

/-- A character that may stand in a comment. -/
def isPlain (c : Char) : Bool := c == '\t' || (0x20 ≤ c.toNat && c.toNat != 0x7F)

def blanks : Reader Unit := discard (allOf isBlank)

/-- A line feed, perhaps with a carriage return before it. -/
def newline : Reader Unit := fun cs =>
  match cs with
  | '\n' :: rest => .ok ((), rest)
  | '\r' :: '\n' :: rest => .ok ((), rest)
  | c :: rest => refuse (behind c rest)
  | [] => refuse []

def endOfFile : Reader Unit := fun cs => if cs.isEmpty then .ok ((), cs) else refuse cs

/-- A line feed or the end of the file. -/
def lineEnd : Reader Unit := orElse newline endOfFile

def comment : Reader Unit := one '#' *> discard (allOf isPlain)

/-- What may stand behind a statement on its line. -/
def lineRest : Reader Unit :=
  expecting ["newline", "`#`"] (blanks *> discard (optional comment) *> lineEnd)

/-- Blanks, comments and line ends; `fuel` is the number of characters. -/
def gapWithin : (fuel : Nat) → Reader Unit
  | 0 => pure ()
  | fuel + 1 => do
    blanks
    match (← get).head? with
    | some '#' => comment *> newline *> gapWithin fuel
    | some '\n' | some '\r' => newline *> gapWithin fuel
    | _ => pure ()

def gap : Reader Unit := fun cs => gapWithin (cs.length + 1) cs

/-! ## Escapes -/

/-- A character given by `n` hexadecimal digits. -/
def charCode (n : Nat) : Reader Char :=
  named ("unicode " ++ toString n ++ "-digit hex code")
    (passing true
      (fun digits => ((Escape.ofCode? (Escape.codeOf digits)).map .ok).getD (.error .outOfRange))
      (firmly (countOf n fun c => (Json.hexValue c).isSome)))

/-- The character behind a backslash, as what it stands for. -/
def escapeBody : Reader Char := fun cs =>
  match cs with
  | 'u' :: rest => charCode 4 rest
  | 'U' :: rest => charCode 8 rest
  | c :: rest =>
    match Escape.simple? c with
    | some e => .ok (e, rest)
    | none =>
      named "escape sequence"
        (expecting ["`b`", "`f`", "`n`", "`r`", "`t`", "`u`", "`U`", "`\\`", "`\"`"] (firmly refuse))
        (behind c rest)
  | [] => refuse []

def escape : Reader Char := one '\\' *> escapeBody

/-! ## Texts on one line -/

/-- A character that stands for itself between double quotes. -/
def isBasic (c : Char) : Bool := isPlain c && c != '"' && c != '\\'

def basicPiece : Reader (List Char) := orElse (someOf isBasic) (List.singleton <$> escape)

def basicText : Reader (List Char) := do
  discard (one '"')
  let pieces ← many basicPiece
  named "basic string" (firmly (discard (one '"')))
  return pieces.flatten

def literalText : Reader (List Char) :=
  named "literal string" (do
    discard (one '\'')
    let content ← allOf fun c => isPlain c && c != '\''
    firmly (discard (one '\''))
    return content)

/-! ## Texts on several lines -/

/-- A backslash at the end of a line with all white space behind it. -/
def joinedLines : Reader Unit := do
  one '\\' *> blanks *> newline
  discard (many (orElse newline (discard (someOf isBlank))))

def longBasicPiece : Reader (List Char) :=
  orElse (someOf isBasic) <| orElse (atLeastOne joinedLines *> pure []) <|
    orElse (List.singleton <$> escape) (newline *> pure ['\n'])

def longLiteralPiece : Reader (List Char) :=
  orElse (List.singleton <$> oneOf fun c => isPlain c && c != '\'') (newline *> pure ['\n'])

/-- One or two quotes in front of something. -/
def quotesBefore {α : Type} (mark : Char) (next : Reader α) : Reader (List Char) :=
  let quotes (n : Nat) : Reader (List Char) := do
    exactly (List.replicate n mark)
    discard (ahead next)
    return List.replicate n mark
  orElse (quotes 2) (quotes 1)

/-- A text between quotes written three times. A line end right behind the opening quotes is no part of
it; one or two quotes are where they do not close it, also right before those that do. -/
def longText (mark : Char) (name : String) (piece : Reader (List Char)) : Reader (List Char) :=
  let quotes := exactly (List.replicate 3 mark)
  named name (do
    quotes
    discard (optional newline)
    firmly (do
      let start ← many piece
      let more ← many (do
        let inner ← quotesBefore mark piece
        return inner ++ (← atLeastOne piece).flatten)
      let last ← optional (quotesBefore mark quotes)
      quotes
      return start.flatten ++ more.flatten ++ last.getD []))

/-- A text in any of the four forms. -/
def text : Reader String :=
  String.ofList <$>
    orElse (longText '"' "multiline basic string" longBasicPiece) (orElse basicText
      (orElse (longText '\'' "multiline literal string" longLiteralPiece) literalText))

end TableProfile.Toml
