import TableProfile.Command.Help

/-!
# Errors in command lines

An error has a cause, perhaps a tip, and mostly the usage line of the scope that it was found in. Every
message ends by naming where help is to be had, except in the one scope that has no help of its own.
-/
namespace TableProfile.Command

/-- Why a text is no port. -/
inductive PortFault where
  | empty | noDigit | tooLarge | tooSmall
  | outOfRange (n : Int)
  deriving DecidableEq, Repr

def PortFault.message : PortFault → String
  | empty => "cannot parse integer from empty string"
  | noDigit => "invalid digit found in string"
  | tooLarge => "number too large to fit in target type"
  | tooSmall => "number too small to fit in target type"
  | outOfRange n => toString n ++ " is not in 0..=65535"

/-- What might have been meant. -/
inductive Tip where
  | option (a : Argument)
  /-- An option of a command that is named further on. -/
  | optionOf (c : Scope) (a : Argument)
  /-- The text as a value. -/
  | value (text : String)
  /-- The command, which stands behind two dashes. -/
  | command (name : String)
  deriving DecidableEq, Repr

def Tip.message : Tip → String
  | option a => "a similar argument exists: '--" ++ a.name ++ "'"
  | optionOf c a => "'" ++ c.name ++ " --" ++ a.name ++ "' exists"
  | value text => "to pass '" ++ text ++ "' as a value, use '-- " ++ text ++ "'"
  | command name => "subcommand '" ++ name ++ "' exists; to use it, remove the '--' before it"

inductive UsageError where
  | unknown (argument : String) (tip : Option Tip) (usage : Usage)
  /-- A value for a flag. -/
  | surplusValue (value : String) (a : Argument) (usage : Usage)
  | noValue (a : Argument)
  | repeated (a : Argument) (s : Scope)
  | badPort (value : String) (why : PortFault)
  /-- No file is named. -/
  | noFiles (usage : Usage)
  /-- Options are given, but no command. -/
  | noCommand
  | unknownCommand (s : Scope) (word : String) (similar : List String)
  deriving DecidableEq, Repr

namespace UsageError

def quoted (s : String) : String := "'" ++ s ++ "'"

/-- What is wrong. -/
def cause : UsageError → String
  | unknown argument _ _ => "unexpected argument " ++ quoted argument ++ " found"
  | surplusValue value a _ =>
    "unexpected value " ++ quoted value ++ " for " ++ quoted a.written
      ++ " found; no more were expected"
  | noValue a => "a value is required for " ++ quoted a.written ++ " but none was supplied"
  | repeated a _ => "the argument " ++ quoted a.written ++ " cannot be used multiple times"
  | badPort value why =>
    "invalid value " ++ quoted value ++ " for " ++ quoted Argument.port.written ++ ": " ++ why.message
  | noFiles _ =>
    "the following required arguments were not provided:\n  " ++ Argument.files.written
  | noCommand =>
    quoted Scope.program.name ++ " requires a subcommand but one was not provided\n  [subcommands: "
      ++ String.intercalate ", " (Scope.commands.map Scope.name) ++ "]"
  | unknownCommand _ word _ => "unrecognized subcommand " ++ quoted word

/-- What might have been meant. -/
def tip? : UsageError → Option String
  | unknown _ tip _ => tip.map Tip.message
  | unknownCommand _ _ [] => none
  | unknownCommand _ _ [name] => some ("a similar subcommand exists: " ++ quoted name)
  | unknownCommand _ _ names =>
    some ("some similar subcommands exist: " ++ String.intercalate ", " (names.map quoted))
  | _ => none

def usage? : UsageError → Option Usage
  | unknown _ _ usage | surplusValue _ _ usage | noFiles usage => some usage
  | repeated _ s | unknownCommand s _ _ => some (.ofScope s)
  | noCommand => some (.ofScope .program)
  | noValue _ | badPort .. => none

/-- Where help is to be had. -/
def hint (e : UsageError) : String :=
  if e.usage?.any (·.scope == .help) then "\n"
  else "\n\nFor more information, try '--help'.\n"

def message (e : UsageError) : String :=
  "error: " ++ e.cause
    ++ (match e.tip? with
      | some tip => "\n\n  tip: " ++ tip
      | none => "")
    ++ (match e.usage? with
      | some usage => "\n\n" ++ usage.line
      | none => "")
    ++ e.hint

end UsageError

end TableProfile.Command
