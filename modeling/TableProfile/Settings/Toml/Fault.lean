import TableProfile.Text.Line

/-!
# Faults in a settings file

A fault is a place, given by the text that stands from there on, and a complaint. A complaint names what
was being read, what was expected there, and a cause, each of them only if there is one.

A fault is *firm* where the text can be nothing else than what was being read; any other fault means that
something else may be tried.

`report` shows a fault: line and column, the line itself, and a mark below the place.
-/
namespace TableProfile.Toml

structure Complaint where
  name : Option String
  expected : List String
  cause : Option String
  deriving DecidableEq, Repr

def Complaint.none : Complaint := ⟨Option.none, [], Option.none⟩

def Complaint.ofCause (cause : String) : Complaint := ⟨Option.none, [], some cause⟩

def Complaint.outOfRange : Complaint := .ofCause "value is out of range"

def Complaint.text (c : Complaint) : String :=
  String.intercalate "\n"
    ((c.name.map ("invalid " ++ ·)).toList
      ++ (if c.expected.isEmpty then [] else ["expected " ++ String.intercalate ", " c.expected])
      ++ c.cause.toList)

/-- A complaint inside something with a name: the inner name counts. -/
def Complaint.inside (name : String) (c : Complaint) : Complaint := { c with name := c.name.or (some name) }

/-- A complaint where one thing more could have stood; what was expected inside comes first. -/
def Complaint.orExpected (what : String) (c : Complaint) : Complaint :=
  { c with expected := c.expected ++ [what] }

structure Fault where
  rest : List Char
  firm : Bool
  complaint : Complaint
  deriving DecidableEq, Repr

/-! ## Reports -/

def spaces (n : Nat) : String := String.ofList (List.replicate n ' ')

def bytesIn (cs : List Char) : Nat := (String.ofList cs).utf8ByteSize

/-- Line and column, from zero, of the place where `rest` begins in a text. The column is counted in
characters, but in bytes where a character of several bytes stands. The end of the text is one column
behind its last character, whatever that is. -/
def position (cs rest : List Char) : Nat × Nat :=
  let before := cs.take (cs.length - rest.length)
  match rest with
  | c :: _ =>
    let begun := before.reverse.takeWhile (· != '\n')
    (before.count '\n', if c.toNat < 0x80 then begun.length else bytesIn begun)
  | [] =>
    let shown := before.dropLast
    (shown.count '\n', (shown.reverse.takeWhile (· != '\n')).length + min 1 before.length)

/-- A fault with the line where it is and a mark below its column. -/
def report (cs : List Char) (e : Fault) : String :=
  let (line, column) := position cs e.rest
  let number := toString (line + 1)
  let content := ((Split.pieces '\n' [] cs)[line]?).getD []
  let width := min (bytesIn (e.rest.take 1)) (bytesIn content - column)
  let margin := spaces (number.length + 1) ++ "|"
  "TOML parse error at line " ++ number ++ ", column " ++ toString (column + 1) ++ "\n"
    ++ margin ++ "\n"
    ++ number ++ " | " ++ String.ofList content ++ "\n"
    ++ margin ++ spaces (column + 1) ++ String.ofList (List.replicate (max 1 width) '^') ++ "\n"
    ++ e.complaint.text ++ "\n"

end TableProfile.Toml
