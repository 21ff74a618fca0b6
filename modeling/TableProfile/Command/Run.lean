import TableProfile.Command.Analyze
import TableProfile.Settings.EnvFile

/-!
# Runs of the program

A run reads its command line, completes the environment from the environment file, loads the settings,
and then does what it was asked for. A command line that asks for nothing that can be run ends it first;
settings that cannot be loaded end it next.
-/
namespace TableProfile.Command

/-- What a run depends on besides its command line. -/
structure Surroundings where
  tree : FileTree
  here : Path
  environment : Settings.Environment
  api : Completion.Api

namespace Surroundings

/-- The settings in force. -/
def settings (w : Surroundings) : Except Settings.SettingsError Settings :=
  Settings.load w.tree w.here (EnvFile.load w.tree w.here w.environment)

end Surroundings

/-- How a run ends. -/
inductive Ending where
  | exit (code : Nat)
  /-- It goes on as the upload server. -/
  | serve (settings : Settings)
  deriving DecidableEq, Repr

structure Run where
  ending : Ending
  output : String
  complaint : String
  /-- What was asked of the completion API. -/
  requests : List Completion.Request

/-- The run of a command line that ends before anything is run. -/
def Stop.run : Stop → Run
  | help s => ⟨.exit 0, s.helpPage, "", []⟩
  | version => ⟨.exit 0, Scope.program.name ++ " 0.1.0\n", "", []⟩
  | nothing => ⟨.exit 2, "", Scope.program.helpPage, []⟩
  | error e => ⟨.exit 2, "", e.message, []⟩

/-- The complaint about settings that cannot be loaded, with the cause once more by itself. -/
def settingsComplaint (e : Settings.SettingsError) : String :=
  "Error: " ++ e.message ++ "\n\nCaused by:\n    " ++ e.cause.replace "\n" "\n    " ++ "\n"

/-- The run of an analysis under settings. -/
def runAnalysis (w : Surroundings) (settings : Settings) (o : Options) : Run :=
  let client? : Option Completion.Client := (Completion.Client.ofSettings settings).toOption
  let done := analyze w.tree w.here (client?.map fun c => c.service w.api) o
  { ending := .exit (if done.complete then 0 else 1)
    output := done.output
    complaint := ""
    requests := (client?.map fun c => done.sent.filterMap c.request?).getD [] }

/-- The run of a request under settings. -/
def Request.run (w : Surroundings) (settings : Settings) : Request → Run
  | analyze o => runAnalysis w settings o
  | serve host port =>
    let host := host.getD settings.host
    let port := port.getD settings.port
    ⟨.serve { settings with host, port }, "", "", []⟩

/-- The run of a command line. -/
def run (w : Surroundings) (words : List String) : Run :=
  match read words with
  | .error stop => stop.run
  | .ok request =>
    match w.settings with
    | .error e => ⟨.exit 1, "", settingsComplaint e, []⟩
    | .ok settings => request.run w settings

end TableProfile.Command
