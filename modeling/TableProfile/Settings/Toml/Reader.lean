import TableProfile.Settings.Toml.Fault

/-!
# Readers of a settings file

A reader takes characters from the front of a text and gives a value, or a fault.

Where something else may be tried after a fault, reading goes on at the place where the refused reader
began (`orElse`, `optional`, `many`, `separated`); of several that refuse, the fault of the last counts,
with the place where that one stopped.
-/
namespace TableProfile.Toml

abbrev Reader (α : Type) : Type := StateT (List Char) (Except Fault) α

namespace Reader

variable {α β : Type}

/-- Refuses what stands here. -/
def refuse : Reader α := fun cs => .error ⟨cs, false, .none⟩

/-- The place right behind the first byte of a character; inside a character of several bytes there is
no place, so it is the character itself. -/
def behind (c : Char) (rest : List Char) : List Char := if c.toNat < 0x80 then rest else c :: rest

/-- Changes the fault of a reader. -/
def withFault (f : Fault → Fault) (r : Reader α) : Reader α := fun cs =>
  match r cs with
  | .ok a => .ok a
  | .error e => .error (f e)

/-- What is read has a name. -/
def named (name : String) : Reader α → Reader α :=
  withFault fun e => { e with complaint := e.complaint.inside name }

/-- What is read begins with one of the given things. -/
def expecting (what : List String) : Reader α → Reader α :=
  withFault fun e => { e with complaint := what.foldl (fun c s => c.orExpected s) e.complaint }

/-- Nothing else than what is read may stand here. -/
def firmly : Reader α → Reader α := withFault fun e => { e with firm := true }

/-- The second reader where the first refuses. -/
def orElse (r s : Reader α) : Reader α := fun cs =>
  match r cs with
  | .ok a => .ok a
  | .error e => if e.firm then .error e else s cs

/-- What is read, or nothing where the reader refuses. -/
def optional (r : Reader α) : Reader (Option α) := fun cs =>
  match r cs with
  | .ok (a, rest) => .ok (some a, rest)
  | .error e => if e.firm then .error e else .ok (none, cs)

/-- What stands ahead, without taking it. -/
def ahead (r : Reader α) : Reader α := fun cs =>
  match r cs with
  | .ok (a, _) => .ok (a, cs)
  | .error e => .error { e with rest := cs }

/-- A value that must pass a test; where it does not, the fault is where reading began. -/
def passing (firm : Bool) (test : α → Except Complaint β) (r : Reader α) : Reader β := fun cs =>
  match r cs with
  | .error e => .error e
  | .ok (a, rest) =>
    match test a with
    | .ok b => .ok (b, rest)
    | .error complaint => .error ⟨cs, firm, complaint⟩

/-- The values up to where the reader refuses; each takes a character, so `fuel` is the number of
characters. -/
def manyWithin (r : Reader α) : (fuel : Nat) → Reader (List α)
  | 0 => pure []
  | fuel + 1 => do
    match ← optional r with
    | none => pure []
    | some a => return a :: (← manyWithin r fuel)

def many (r : Reader α) : Reader (List α) := fun cs => manyWithin r cs.length cs

/-- One or more values. -/
def atLeastOne (r : Reader α) : Reader (List α) := do
  let first ← r
  return first :: (← many r)

/-- One character of a class. -/
def oneOf (p : Char → Bool) : Reader Char := fun cs =>
  match cs with
  | c :: rest => if p c then .ok (c, rest) else refuse cs
  | [] => refuse cs

def one (c : Char) : Reader Char := oneOf (· == c)

/-- The given characters. -/
def exactly (word : List Char) : Reader Unit := fun cs =>
  if word.isPrefixOf cs then .ok ((), cs.drop word.length) else refuse cs

/-- All characters of a class, which may be none. -/
def allOf (p : Char → Bool) : Reader (List Char) := fun cs => .ok (cs.takeWhile p, cs.dropWhile p)

/-- All characters of a class, of which there must be one. -/
def someOf (p : Char → Bool) : Reader (List Char) := fun cs =>
  if (cs.takeWhile p).isEmpty then refuse cs else allOf p cs

/-- As many characters of a class as are asked for, even if more of them stand there. -/
def countOf (n : Nat) (p : Char → Bool) : Reader (List Char) := fun cs =>
  let word := (cs.take n).takeWhile p
  if word.length < n then refuse cs else .ok (word, cs.drop n)

/-- Values with a mark between them, at least one. A mark that no value follows is not taken. -/
def separated (mark : Char) (r : Reader α) : Reader (List α) := do
  let first ← r
  return first :: (← many (one mark *> r))

/-- Values with a mark between them, or none. -/
def separatedIfAny (mark : Char) (r : Reader α) : Reader (List α) := do
  return (← optional (separated mark r)).getD []

end Reader

end TableProfile.Toml
