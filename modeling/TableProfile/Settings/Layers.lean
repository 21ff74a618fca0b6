import TableProfile.Files.Tree
import TableProfile.Settings.Json
import TableProfile.Settings.Toml
import TableProfile.Settings.Variable

/-!
# Layers of settings

Settings come from layers: what holds anyway, a settings file, the environment variables of the program,
and those of the completion service. Each setting has the value of the highest layer that names it,
whatever the other settings are (`winner?`), and that value must be of the setting's type. Of several
settings with unacceptable values the first in the order of their names is reported.
-/
namespace TableProfile

namespace Settings

/-- Where a value comes from. -/
inductive Source where
  | file (path : String)
  /-- Variables of the program, which share a beginning. -/
  | ownVariables
  | serviceVariables
  deriving DecidableEq, Repr

def Source.label : Source → String
  | file path => path ++ " TOML file"
  | ownVariables => "`CSV_INSIGHT_` environment variable(s)"
  | serviceVariables => "environment variable(s)"

/-- The name of a setting in a source. -/
def Source.keyLabel (s : Source) (key : String) : String :=
  match s with
  | file _ => "default." ++ key
  | _ => String.ofList (key.toList.map Char.toUpper)

/-- What one source says. -/
structure Layer where
  source : Source
  entries : List (String × SettingValue)
  deriving DecidableEq, Repr

/-- What a layer says of a setting; the last of several values. -/
def Layer.find? (l : Layer) (key : String) : Option SettingValue :=
  (l.entries.reverse.find? (·.1 == key)).map (·.2)

/-- A value and the layer it is from. -/
structure Entry where
  source : Source
  key : String
  value : SettingValue
  deriving DecidableEq, Repr

/-- The value of the highest layer that names the setting; layers are given from the lowest up. -/
def winner? (layers : List Layer) (key : String) : Option Entry :=
  layers.reverse.findSome? fun l => (l.find? key).map (⟨l.source, key, ·⟩)

/-! ## Types of settings -/

/-- Why a value is not acceptable. -/
inductive Refusal where
  /-- The value is of another kind. -/
  | kind (expected : String)
  /-- The value is a number out of range. -/
  | range (expected : String)
  deriving DecidableEq, Repr

inductive SettingsError where
  | value (entry : Entry) (why : Refusal)
  /-- The settings file cannot be read. -/
  | file (path report : String)
  deriving DecidableEq, Repr

/-- What is wrong, without the words before it. -/
def SettingsError.cause : SettingsError → String
  | .file path report => report ++ " in " ++ (Source.file path).label
  | .value e why =>
    let (start, expected) := match why with
      | .kind expected => ("invalid type: found ", expected)
      | .range expected => ("invalid value ", expected)
    start ++ e.value.describe ++ ", expected " ++ expected
      ++ " for key " ++ SettingValue.quoted (e.source.keyLabel e.key) ++ " in " ++ e.source.label

def SettingsError.message (e : SettingsError) : String := "Invalid configuration: " ++ e.cause

def asText : SettingValue → Except Refusal String
  | .text s => .ok s
  | _ => .error (.kind "a string")

/-- A natural number of a type that holds those below `limit`. -/
def asNat (type : String) (limit : Nat) : SettingValue → Except Refusal Nat
  | .unsigned n => if n < limit then .ok n else .error (.range type)
  | .signed n => if 0 ≤ n && n < limit then .ok n.toNat else .error (.range type)
  | _ => .error (.kind type)

def asFloat : SettingValue → Except Refusal Float
  | .float x => .ok x
  | .unsigned n => .ok (Number.ofNat n)
  | .signed n => .ok (Number.ofInt n)
  | _ => .error (.kind "f64")

/-- The value of a setting as its type, or what holds anyway. -/
def take {α : Type} (layers : List Layer) (read : SettingValue → Except Refusal α) (key : String)
    (otherwise : α) : Except SettingsError α :=
  match winner? layers key with
  | none => .ok otherwise
  | some e =>
    match read e.value with
    | .ok a => .ok a
    | .error why => .error (.value e why)

/-- The settings that layers describe, from the lowest up. -/
def ofLayers (layers : List Layer) : Except SettingsError Settings := do
  let host ← take layers asText "host" standard.host
  let temperature ← take layers asFloat "llm_temperature" standard.temperature
  let timeout ← take layers (asNat "u64" (Nat.pow 2 64)) "llm_timeout_secs" standard.timeout
  let maxUpload ← take layers (asNat "usize" (Nat.pow 2 64)) "max_upload_bytes" standard.maxUpload
  let apiKey ← take layers (fun v => (asText v).map some) "openai_api_key" standard.apiKey
  let baseUrl ← take layers asText "openai_base_url" standard.baseUrl
  let model ← take layers asText "openai_model" standard.model
  let port ← take layers (asNat "u16" (Nat.pow 2 16)) "port" standard.port
  .ok { apiKey, baseUrl, model, temperature, timeout, host, port, maxUpload }

/-! ## Environment variables -/

/-- Names and values of environment variables. -/
abbrev Environment := List (String × String)

def ownBeginning : List Char := "csv_insight_".toList

def serviceNames : List String := ["openai_api_key", "openai_base_url", "openai_model"]

/-- An entry for a name; a name with points is an entry with parts, and none of them may be empty. -/
def entry? (name : List Char) (value : String) : Option (String × SettingValue) :=
  match (Split.pieces '.' [] name).map String.ofList with
  | [key] => if key == "" then none else some (key, Variable.read value)
  | key :: parts => if key == "" || parts.contains "" then none else some (key, .table)
  | [] => none

/-- The variables of the program, by what stands behind their common beginning, in any case. -/
def ownLayer (env : Environment) : Layer :=
  ⟨.ownVariables, env.filterMap fun (name, value) =>
    let lower := name.toList.map Char.toLower
    if ownBeginning.isPrefixOf lower then entry? (lower.drop ownBeginning.length) value else none⟩

/-- The variables of the completion service, in any case. -/
def serviceLayer (env : Environment) : Layer :=
  ⟨.serviceVariables, env.filterMap fun (name, value) =>
    let lower := String.ofList (name.toList.map Char.toLower)
    if serviceNames.contains lower then some (lower, Variable.read value) else none⟩

/-! ## The settings file -/

def fileName : String := "csv_insight.toml"

/-- The nearest file of a name in a directory or above it: its content, and how many levels above. -/
def nearest? (t : FileTree) (name : String) : (here : List String) → (levels : Nat) → Option (Bytes × Nat)
  | here, 0 =>
    match t.node? (here ++ [name]) with
    | some (.file content) => some (content, 0)
    | _ => none
  | here, levels + 1 =>
    match t.node? (here ++ [name]) with
    | some (.file content) => some (content, 0)
    | _ => (nearest? t name here.dropLast levels).map fun (content, n) => (content, n + 1)

/-- The layer of the settings file, if there is one. -/
def fileLayer? (t : FileTree) (here : Path) : Except SettingsError (Option Layer) :=
  match nearest? t fileName here here.length with
  | none => .ok none
  | some (content, levels) =>
    let path := String.join (List.replicate levels "../") ++ fileName
    match Toml.read content with
    | .error report => .error (.file path report)
    | .ok entries => .ok (some ⟨.file path, entries⟩)

/-- The settings that hold in a directory with an environment. -/
def load (t : FileTree) (here : Path) (env : Environment) : Except SettingsError Settings := do
  let file ← fileLayer? t here
  ofLayers (file.toList ++ [ownLayer env, serviceLayer env])

end Settings

end TableProfile
