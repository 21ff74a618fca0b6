import TableProfile.Command.Error
import TableProfile.Number.Read
import TableProfile.Text.Line

/-!
# Reading command lines

The words of a command line are read from left to right. A word with dashes is an option or a flag of the
scope that is being read; two dashes alone end the options. Any other word is the value that an option
waits for, a command, or a file. Values are collected (`pending`) and take effect when the next argument
begins or the line ends, so a fault in them is found then.
-/
namespace TableProfile.Command

/-- What a run of the analysis was asked for. -/
structure Options where
  files : List String
  insights : Bool
  json : Bool
  deriving DecidableEq, Repr

/-- What a command line asks for. -/
inductive Request where
  | analyze (options : Options)
  | serve (host : Option String) (port : Option Nat)
  deriving DecidableEq, Repr

/-- What ends the reading of a command line before anything is run. -/
inductive Stop where
  | help (s : Scope)
  | version
  /-- Nothing was asked for. -/
  | nothing
  | error (e : UsageError)
  deriving DecidableEq, Repr

/-- What has been read of a scope. -/
structure Progress where
  files : List String
  insights : Bool
  json : Bool
  host : Option String
  port : Option Nat
  /-- The arguments that took effect, in order. -/
  used : List Argument
  /-- Whether one of them is in the scope's group. -/
  grouped : Bool
  /-- An argument whose values are being collected. -/
  pending : Option (Argument × List String)
  /-- Whether the next word is a value. -/
  awaiting : Bool
  /-- Whether the options have ended. -/
  trailing : Bool
  deriving DecidableEq, Repr

def Progress.start : Progress := ⟨[], false, false, none, none, [], false, none, false, false⟩

/-! ## Values -/

/-- An integer that fits 64 bits, with a sign or without. -/
def readInteger (text : String) : Except PortFault Int :=
  let cs := text.toList
  let (negative, digits) := match cs with
    | '-' :: rest => (true, rest)
    | '+' :: rest => (false, rest)
    | rest => (false, rest)
  if cs.isEmpty then .error .empty
  else if digits.isEmpty || !digits.all Char.isDigit then .error .noDigit
  else
    let n := Number.digitsValue 0 digits
    if negative then if n ≤ Nat.pow 2 63 then .ok (-(n : Int)) else .error .tooSmall
    else if n < Nat.pow 2 63 then .ok n
    else .error .tooLarge

def readPort (text : String) : Except PortFault Nat :=
  match readInteger text with
  | .error fault => .error fault
  | .ok n => if 0 ≤ n && n < Nat.pow 2 16 then .ok n.toNat else .error (.outOfRange n)

namespace Progress

/-- Notes that an argument took effect. -/
def mark (s : Scope) (p : Progress) (a : Argument) : Progress :=
  { p with
    used := if p.used.contains a then p.used else p.used ++ [a]
    grouped := p.grouped || s.group.contains a }

/-- The effect of an argument; an error leaves what was read before. -/
def put (p : Progress) (a : Argument) (values : List String) : Progress × Option UsageError :=
  match a, values with
  | .files, values =>
    if values.contains "" then (p, some (.noValue .files))
    else ({ p with files := p.files ++ values }, none)
  | .port, value :: _ =>
    match readPort value with
    | .ok n => ({ p with port := some n }, none)
    | .error fault => (p, some (.badPort value fault))
  | .host, value :: _ => ({ p with host := some value }, none)
  | .ai, _ => ({ p with insights := true }, none)
  | .json, _ => ({ p with json := true }, none)
  | _, _ => (p, none)

/-- Gives an argument its values; all but the files can be given once. -/
def give (s : Scope) (p : Progress) (a : Argument) (values : List String) :
    Progress × Option UsageError :=
  if a.takesValue && values.isEmpty then (p, some (.noValue a))
  else if a != .files && p.used.contains a then
    ({ p with used := p.used.filter (· != a) }, some (.repeated a s))
  else (p.mark s a).put a values

/-- Lets the collected values take effect. -/
def settle (s : Scope) (p : Progress) : Progress × Option UsageError :=
  match p.pending with
  | none => (p, none)
  | some (a, values) => give s { p with pending := none } a values

end Progress

/-- The progress, unless there was an error. -/
def orStop : Progress × Option UsageError → Except Stop Progress
  | (p, none) => .ok p
  | (_, some e) => .error (.error e)

/-! ## Words -/

/-- The error for an option that is not known. -/
def unknownOption (s : Scope) (p : Progress) (name : String) (rest : List String) : UsageError :=
  let argument := "--" ++ name
  match s.similar? name with
  | some a => .unknown argument (some (.option a)) ⟨s, (p.mark s a).used, false⟩
  | none =>
    let elsewhere : Option Tip := if s != .program then none else
      rest.findSome? fun word => (Scope.command? word).bind fun c => (c.similar? name).map (.optionOf c)
    let asValue : Option Tip := if s.takesFiles then some (.value argument) else none
    .unknown argument (elsewhere <|> asValue) ⟨s, p.used, false⟩

/-- Reads a word with two dashes: an option's name and the value that is attached to it. -/
def readLong (s : Scope) (p : Progress) (name : String) (value : Option String) (rest : List String) :
    Except Stop Progress :=
  match s.option? name with
  | none => .error (.error (unknownOption s (p.settle s).1 name rest))
  | some a =>
    match a.takesValue, value with
    | false, some v => .error (.error (.surplusValue v a ⟨s, p.used ++ [a], p.grouped⟩))
    | true, some v => do
      let p ← orStop (p.settle s)
      orStop (Progress.give s { p with awaiting := false } a [v])
    | true, none => do
      let p ← orStop (p.settle s)
      .ok { p with pending := some (a, []), awaiting := true }
    | false, none => do
      let p ← orStop (p.settle s)
      match a with
      | .help => .error (.help s)
      | .version => .error .version
      | a => orStop (Progress.give s { p with awaiting := false } a [])

/-- Reads a word with one dash; all letters that are known end the reading. -/
def readLetter (s : Scope) (p : Progress) (c : Char) : Except Stop Progress :=
  match s.letter? c with
  | some .version => do
    let _ ← orStop (p.settle s)
    .error .version
  | some _ => do
    let _ ← orStop (p.settle s)
    .error (.help s)
  | none =>
    let argument := String.ofList ['-', c]
    let tip : Option Tip := if s.takesFiles then some (.value argument) else none
    .error (.error (.unknown argument tip (.ofScope s)))

/-- The error for a word that has no place in a scope. -/
def misplaced (s : Scope) (p : Progress) (word : String) : UsageError :=
  if s = .program then
    if p.trailing && (Scope.command? word).isSome then
      .unknown word (some (.command word)) (.ofScope s)
    else .unknownCommand s word (Similar.among word (Scope.commands.map Scope.name))
  else .unknown word none (.ofScope s)

/-- Reads a word that is neither an option nor the value of one. -/
def readFile (s : Scope) (p : Progress) (word : String) : Except Stop Progress :=
  if s.takesFiles then
    match p.pending with
    | some (.files, values) => .ok { p with pending := some (.files, values ++ [word]) }
    | _ => do
      let p ← orStop (p.settle s)
      .ok { p with pending := some (.files, [word]), awaiting := false }
  else .error (.error (misplaced s p word))

/-- Reads one word; `rest` is what follows it. -/
def readWord (s : Scope) (p : Progress) (word : String) (rest : List String) : Except Stop Progress :=
  if p.trailing then readFile s p word
  else
    match word.toList with
    | ['-', '-'] => .ok { p with trailing := true }
    | '-' :: '-' :: cs =>
      let (name, value) := Split.once '=' cs
      readLong s p (String.ofList name)
        (if cs.contains '=' then some (String.ofList value) else none) rest
    | '-' :: c :: _ => readLetter s p c
    | _ =>
      match p.awaiting, p.pending with
      | true, some (a, values) => .ok { p with pending := some (a, values ++ [word]), awaiting := false }
      | _, _ => readFile s p word

/-! ## Lines -/

/-- Reads the words of a command. -/
def readCommand (s : Scope) (p : Progress) : List String → Except Stop Progress
  | [] => orStop (p.settle s)
  | word :: rest =>
    match readWord s p word rest with
    | .error stop => .error stop
    | .ok p => readCommand s p rest

/-- What a command asks for. -/
def request (s : Scope) (p : Progress) : Except Stop Request :=
  if s.takesFiles then
    if p.used.contains .files then .ok (.analyze ⟨p.files, p.insights, p.json⟩)
    else .error (.error (.noFiles ⟨s, p.used ++ [.files], false⟩))
  else .ok (.serve p.host p.port)

/-- Which help page is asked for by the words behind `help`, from the scope they begin in. -/
def helpFor (s : Scope) : List String → Stop
  | [] => .help s
  | word :: rest =>
    match if s = .program then Scope.command? word else none with
    | some c => helpFor c rest
    | none => .error (.unknownCommand s word [])

/-- Reads the words before and behind a command. -/
def readProgram (p : Progress) : List String → Except Stop Request
  | [] => do
    let p ← orStop (p.settle .program)
    .error (if p.used.isEmpty then .nothing else .error .noCommand)
  | word :: rest =>
    match if p.awaiting || p.trailing then none else Scope.command? word with
    | some .help => .error (helpFor .program rest)
    | some c => do
      let r ← readCommand c .start rest
      let r ← request c r
      let _ ← orStop (p.settle .program)
      .ok r
    | none =>
      match readWord .program p word rest with
      | .error stop => .error stop
      | .ok p => readProgram p rest

/-- Reads a command line. -/
def read (words : List String) : Except Stop Request := readProgram .start words

end TableProfile.Command
