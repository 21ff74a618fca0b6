import TableProfile.Text.Similar

/-!
# The arguments of the command line

A command line is read in scopes: first that of the program, then that of the command it names. Each
scope has options of its own; the program's option is known in the commands too. Options and flags of one
scope form a group, which stands for them in a usage line once one of them has been given.
-/
namespace TableProfile.Command

/-- What a help page can be about: the program or one of its commands. -/
inductive Scope where
  | program | analyze | serve | help
  deriving DecidableEq, Repr

inductive Argument where
  /-- The paths of the files to analyse. -/
  | files
  | ai | json | host | port | logLevel | help | version
  deriving DecidableEq, Repr

namespace Argument

/-- The word behind the dashes; of the one argument without dashes, what its values are called. -/
def name : Argument → String
  | files => "FILES"
  | ai => "ai"
  | json => "json"
  | host => "host"
  | port => "port"
  | logLevel => "log-level"
  | help => "help"
  | version => "version"

/-- What the value of an option is called; flags have none. -/
def valueName? : Argument → Option String
  | host => some "HOST"
  | port => some "PORT"
  | logLevel => some "LOG_LEVEL"
  | _ => none

def takesValue (a : Argument) : Bool := a.valueName?.isSome

/-- The letter behind a single dash. -/
def letter? : Argument → Option Char
  | help => some 'h'
  | version => some 'V'
  | _ => none

/-- How an argument is written, in a group without the marks for several values. -/
def grouped (a : Argument) : String :=
  match a, a.valueName? with
  | files, _ => a.name
  | _, some value => "--" ++ a.name ++ " <" ++ value ++ ">"
  | _, none => "--" ++ a.name

def written (a : Argument) : String :=
  match a with
  | files => "<FILES>..."
  | _ => a.grouped

def about : Argument → String
  | files => "CSV files to analyze"
  | ai => "Also generate AI insights (requires OPENAI_API_KEY)"
  | json => "Print machine-readable JSON instead of the text report"
  | host => "Bind address (overrides config)"
  | port => "Port (overrides config)"
  | logLevel => "Log level (overridden by RUST_LOG) [default: info]"
  | help => "Print help"
  | version => "Print version"

end Argument

namespace Scope

/-- The commands of the program. -/
def commands : List Scope := [analyze, serve, help]

/-- The name of a command. -/
def name : Scope → String
  | program => "csv_insight"
  | analyze => "analyze"
  | serve => "serve"
  | help => "help"

/-- The words that a usage line begins with. -/
def call (s : Scope) : String :=
  match s with
  | program => s.name
  | _ => program.name ++ " " ++ s.name

def about : Scope → String
  | program => "Descriptive statistics and AI insights for CSV files"
  | analyze => "Analyze one or more CSV files and print the report"
  | serve => "Run the upload web server"
  | help => "Print this message or the help of the given subcommand(s)"

/-- The command of a name. -/
def command? (word : String) : Option Scope := commands.find? (·.name == word)

/-- The options and flags that are known, in the order of a help page. -/
def options : Scope → List Argument
  | program => [.logLevel, .help, .version]
  | analyze => [.ai, .logLevel, .json, .help]
  | serve => [.host, .logLevel, .port, .help]
  | help => []

/-- The arguments of the scope itself. -/
def group : Scope → List Argument
  | program => [.logLevel]
  | analyze => [.files, .ai, .json]
  | serve => [.host, .port]
  | help => []

def takesFiles (s : Scope) : Bool := s.group.contains .files

def option? (s : Scope) (name : String) : Option Argument := s.options.find? (·.name == name)

def letter? (s : Scope) (c : Char) : Option Argument := s.options.find? (·.letter? == some c)

/-- The option that resembles a word most. -/
def similar? (s : Scope) (word : String) : Option Argument :=
  (Similar.among word (s.options.map Argument.name)).getLast?.bind s.option?

end Scope

end TableProfile.Command
