import TableProfile.Command.Argument

/-!
# Usage lines and help pages

A usage line shows what a scope takes; once arguments have been given it shows those. A help page has a
heading, the usage line, and a table for each kind of argument.
-/
namespace TableProfile.Command

/-- What a usage line is about: a scope, the arguments given, and whether their group is shown. -/
structure Usage where
  scope : Scope
  used : List Argument
  grouped : Bool
  deriving DecidableEq, Repr

namespace Usage

/-- The usage before anything has been given. -/
def ofScope (s : Scope) : Usage := ⟨s, [], false⟩

/-- What stands at the end whatever has been given. -/
def tail (s : Scope) : List String :=
  match s with
  | .program => ["<COMMAND>"]
  | .analyze => [Argument.files.written]
  | .serve => []
  | .help => ["[COMMAND]..."]

def groupText (s : Scope) : String :=
  "<" ++ String.intercalate "|" (s.group.map Argument.grouped) ++ ">"

/-- The options given that no group stands for, each once. -/
def shown (u : Usage) : List Argument :=
  (u.used.filter fun a => a != .files && !(u.grouped && u.scope.group.contains a)).eraseDups

def words (u : Usage) : List String :=
  let parts :=
    if u.used.isEmpty && !u.grouped then
      (if u.scope.options.isEmpty then [] else ["[OPTIONS]"]) ++ tail u.scope
    else
      let group := if u.grouped then [groupText u.scope] else []
      let files := if u.grouped && u.scope.takesFiles then [] else tail u.scope
      u.shown.map Argument.written ++ group ++ files
  u.scope.call :: parts

def line (u : Usage) : String := "Usage: " ++ String.intercalate " " u.words

end Usage

/-! ## Help pages -/

/-- A text filled up with blanks. -/
def padded (width : Nat) (s : String) : String :=
  s ++ String.ofList (List.replicate (width - s.length) ' ')

/-- A table of two columns under a title. -/
def table (title : String) (rows : List (String × String)) : List String :=
  let width := (rows.map (·.1.length)).foldl max 0
  ["", title ++ ":"] ++ rows.map fun (left, right) => "  " ++ padded width left ++ "  " ++ right

def optionRow (a : Argument) : String × String :=
  let letter := match a.letter? with
    | some c => String.ofList ['-', c, ',', ' ']
    | none => "    "
  (letter ++ a.written, a.about)

namespace Scope

def positionals : Scope → List (String × String)
  | analyze => [(Argument.files.written, Argument.files.about)]
  | help => [("[COMMAND]...", "Print help for the subcommand(s)")]
  | _ => []

def helpLines (s : Scope) : List String :=
  let commands := if s = program then table "Commands" (commands.map fun c => (c.name, c.about)) else []
  let positionals := if s.positionals.isEmpty then [] else table "Arguments" s.positionals
  let options := if s.options.isEmpty then [] else table "Options" (s.options.map optionRow)
  [s.about, "", (Usage.ofScope s).line] ++ commands ++ positionals ++ options

/-- The help page of a scope. -/
def helpPage (s : Scope) : String := String.join (s.helpLines.map (· ++ "\n"))

end Scope

end TableProfile.Command
