import Mathlib.Algebra.Group.Nat.Defs
import Mathlib.Tactic.Choose
import TableProfile.Proofs.TextPieces
import TableProfile.Settings.Layers

/-!
# Layers of settings

Each setting is settled by itself. Three sources may say something of it: the variables of the completion
service, the variables of the program, and the settings file. The first of them in this order that says
something decides, and without any the standard value holds. What a source says of a setting depends on nothing
but what it calls by the setting's key, and of several such the last counts.

The settings can be loaded exactly if every deciding value is acceptable for its setting.

* `find?_serviceLayer`, `find?_ownLayer`: what the two layers of variables say of a key.
* `winner?_eq`: the deciding value.
* `ofLayers_eq_ok_iff`: settings are taken one by one.
* `settings_layered`: the settings that hold in a directory with an environment.
-/
namespace TableProfile.Settings

/-! ## The settings one by one -/

/-- A single setting. -/
inductive Setting where
  | apiKey | baseUrl | model | temperature | timeout | host | port | maxUpload
  deriving DecidableEq, Repr

namespace Setting

/-- The name of a setting in all sources. -/
def key : Setting → String
  | apiKey => "openai_api_key"
  | baseUrl => "openai_base_url"
  | model => "openai_model"
  | temperature => "llm_temperature"
  | timeout => "llm_timeout_secs"
  | host => "host"
  | port => "port"
  | maxUpload => "max_upload_bytes"

/-- The type of a setting. -/
abbrev Carrier : Setting → Type
  | apiKey => Option String
  | baseUrl | model | host => String
  | temperature => Float
  | timeout | port | maxUpload => Nat

def get (s : Settings) : (f : Setting) → f.Carrier
  | apiKey => s.apiKey
  | baseUrl => s.baseUrl
  | model => s.model
  | temperature => s.temperature
  | timeout => s.timeout
  | host => s.host
  | port => s.port
  | maxUpload => s.maxUpload

def text? : SettingValue → Option String
  | .text s => some s
  | _ => none

/-- A number as the nearest double. -/
def number? : SettingValue → Option Float
  | .float x => some x
  | .unsigned n => some (Number.ofNat n)
  | .signed n => some (Number.ofInt n)
  | _ => none

/-- A whole number from zero on, below a limit. -/
def natural? (limit : Nat) : SettingValue → Option Nat
  | .unsigned n => if n < limit then some n else none
  | .signed n => if 0 ≤ n ∧ n < limit then some n.toNat else none
  | _ => none

/-- What a value stands for as a value of the setting, if it is acceptable. -/
def denoted? : (f : Setting) → SettingValue → Option f.Carrier
  | apiKey, v => (text? v).map some
  | baseUrl, v | model, v | host, v => text? v
  | temperature, v => number? v
  | timeout, v | maxUpload, v => natural? (2 ^ 64) v
  | port, v => natural? (2 ^ 16) v

/-- The value of a setting for which the sources decide on a value, or on none. -/
def settled? (f : Setting) : Option SettingValue → Option f.Carrier
  | none => some (get standard f)
  | some v => f.denoted? v

end Setting

/-! ## What the sources say -/

/-- A name in lower case. -/
def lower (name : String) : String := String.ofList (name.toList.map Char.toLower)

/-- What the variables of the service say of a key: the last one of that name, in any case. -/
def serviceSays (env : Environment) (key : String) : Option SettingValue :=
  if key ∈ serviceNames then
    (env.filterMap fun v => if lower v.1 = key then some (Variable.read v.2) else none).getLast?
  else none

/-- The parts behind the key in the name of a variable of the program that is about the key. -/
def ownParts? (key name : String) : Option (List String) :=
  match Split.splitAt '.' (lower name) with
  | first :: parts => if first = "csv_insight_" ++ key ∧ "" ∉ parts then some parts else none
  | [] => none

/-- What the variables of the program say of a key: the last one with that name behind the common beginning,
in any case. With parts behind the key it is a table. -/
def ownSays (env : Environment) (key : String) : Option SettingValue :=
  (env.filterMap fun v => (ownParts? key v.1).map fun parts =>
    if parts = [] then Variable.read v.2 else .table).getLast?

/-- What the settings file says of a key. -/
def fileSays (file : Option Layer) (key : String) : Option SettingValue :=
  file.bind fun l => (l.entries.filterMap fun e => if e.1 = key then some e.2 else none).getLast?

/-- The value that decides on a setting: what the variables of the service say, or else those of the program, or
else the file. -/
def deciding? (file : Option Layer) (env : Environment) (f : Setting) : Option SettingValue :=
  (serviceSays env f.key).or ((ownSays env f.key).or (fileSays file f.key))

/-- Whether a variable is called by the key of some setting. -/
def namesSetting (name : String) : Bool :=
  [Setting.apiKey, .baseUrl, .model, .temperature, .timeout, .host, .port, .maxUpload].any fun f =>
    (lower name == f.key && serviceNames.contains f.key) || (ownParts? f.key name).isSome

/-! ## Layers -/

theorem find?_eq (l : Layer) (key : String) : l.find? key =
    (l.entries.filterMap fun e => if e.1 = key then some e.2 else none).getLast? := by
  rw [Layer.find?, List.getLast?_eq_head?_reverse, ← List.filterMap_reverse]
  induction l.entries.reverse with
  | nil => rfl
  | cons entry rest ih =>
    rw [List.filterMap_cons]
    by_cases h : entry.1 = key
    · rw [List.find?_cons_of_pos (by simp [h]), if_pos h]
      rfl
    · rw [List.find?_cons_of_neg (by simp [h]), ih, if_neg h]

/-- A layer of entries that are found one by one in variables says what the last of them says. -/
theorem find?_filterMap {source : Source} {env : Environment} {key : String}
    {found? : String × String → Option (String × SettingValue)}
    {says? : String × String → Option SettingValue}
    (h : ∀ v, ((found? v).bind fun e => if e.1 = key then some e.2 else none) = says? v) :
    Layer.find? ⟨source, env.filterMap found?⟩ key = (env.filterMap says?).getLast? := by
  rw [find?_eq]
  dsimp only
  rw [List.filterMap_filterMap]
  exact congrArg (fun says? => (env.filterMap says?).getLast?) (funext h)

theorem find?_serviceLayer (env : Environment) (key : String) :
    (serviceLayer env).find? key = serviceSays env key := by
  unfold serviceLayer serviceSays
  by_cases hkey : key ∈ serviceNames
  · rw [if_pos hkey]
    refine find?_filterMap fun v => ?_
    show (if serviceNames.contains (lower v.1) then some (lower v.1, Variable.read v.2) else none).bind _ = _
    by_cases h : lower v.1 = key
    · rw [h, if_pos (List.contains_iff_mem.mpr hkey), if_pos rfl]
      exact if_pos rfl
    · rw [if_neg h]
      split
      · exact if_neg h
      · rfl
  · rw [if_neg hkey]
    have hnone (v : String × String) :
        (if serviceNames.contains (lower v.1) then some (lower v.1, Variable.read v.2) else none).bind
          (fun e => if e.1 = key then some e.2 else none) = none := by
      split
      · rename_i h
        exact if_neg fun heq : lower v.1 = key => hkey (heq ▸ List.contains_iff_mem.mp h)
      · rfl
    exact (find?_filterMap hnone).trans (by simp)

/-- A name that begins as those of the program, cut at its points. -/
theorem entry?_bind {key : String} (hkey : key ≠ "") (rest : List Char) (value : String) :
    (Option.bind ( entry? rest value) fun e => if e.1 = key then some e.2 else none) =
      match (Split.pieces '.' [] rest).map String.ofList with
      | first :: parts =>
        if first = key ∧ "" ∉ parts then some (if parts = [] then Variable.read value else .table)
        else none
      | [] => none := by
  unfold entry?
  cases hpieces : (Split.pieces '.' [] rest).map String.ofList with
  | nil => rfl
  | cons first parts =>
    cases parts with
    | nil =>
      by_cases h : first = key
      · simp [h, hkey]
      · by_cases hfirst : first = "" <;> simp [h, hfirst]
        exact hkey
    | cons next more =>
      by_cases h : first = key
      · by_cases hparts : "" ∈ next :: more
        · simp [h, hparts]
        · simp [h, hkey, hparts]
      · simp only [h, false_and, if_false]
        split
        · rfl
        · exact if_neg h

theorem find?_ownLayer (env : Environment) {key : String} (hkey : key ≠ "") :
    (ownLayer env).find? key = ownSays env key := by
  refine find?_filterMap fun v => ?_
  dsimp only
  have hbeginning : '.' ∉ ownBeginning := by decide
  split
  · rename_i h
    obtain ⟨rest, hrest⟩ := List.isPrefixOf_iff_prefix.mp h
    obtain ⟨first, others, -, hpieces⟩ := Split.exists_pieces '.' rest
    rw [← hrest, List.drop_left, entry?_bind hkey, hpieces, ownParts?, Split.splitAt, lower,
      String.toList_ofList, ← hrest, Split.pieces_append_of_notMem hbeginning, hpieces]
    have hfirst : String.ofList (ownBeginning ++ first) = "csv_insight_" ++ key ↔
        String.ofList first = key := by
      rw [String.ofList_append]
      exact String.append_right_inj _
    simp only [List.reverse_nil, List.nil_append, List.append_nil, List.reverse_reverse, List.map_cons, hfirst]
    split <;> rfl
  · rename_i h
    rw [Option.bind_none, eq_comm, Option.map_eq_none_iff, ownParts?, Split.splitAt, lower,
      String.toList_ofList]
    obtain ⟨first, others, hfirst, hpieces⟩ := Split.exists_pieces '.' (v.1.toList.map Char.toLower)
    rw [hpieces]
    refine if_neg fun heq => h (List.isPrefixOf_iff_prefix.mpr ?_)
    have hlist : first = ownBeginning ++ key.toList := by
      have hchars := congrArg String.toList heq.1
      rw [String.toList_ofList, String.toList_append] at hchars
      exact hchars
    exact (List.prefix_append ownBeginning key.toList).trans (hlist ▸ hfirst)

theorem Setting.key_ne_empty (f : Setting) : f.key ≠ "" := by cases f <;> decide

/-- All layers, from the lowest up. -/
def allLayers (file : Option Layer) (env : Environment) : List Layer :=
  file.toList ++ [ownLayer env, serviceLayer env]

/-- The value that decides on a setting is that of the highest layer that names it. -/
theorem winner?_eq (file : Option Layer) (env : Environment) (f : Setting) :
    winner? (allLayers file env) f.key =
      ((serviceSays env f.key).map (⟨.serviceVariables, f.key, ·⟩)).or
        (((ownSays env f.key).map (⟨.ownVariables, f.key, ·⟩)).or
          (file.bind fun l => (fileSays (some l) f.key).map (⟨l.source, f.key, ·⟩))) := by
  have hfile : file.toList.reverse.findSome? (fun l => (l.find? f.key).map (Entry.mk l.source f.key)) =
      file.bind fun l => (fileSays (some l) f.key).map (Entry.mk l.source f.key) := by
    cases file with
    | none => rfl
    | some l =>
      rw [Option.toList_some, List.reverse_singleton, List.findSome?_singleton, find?_eq]
      rfl
  have hlayers : (allLayers file env).reverse = serviceLayer env :: ownLayer env :: file.toList.reverse := by
    rw [allLayers, List.reverse_append]
    rfl
  rw [winner?, hlayers, List.findSome?_cons, List.findSome?_cons, hfile, find?_serviceLayer,
    find?_ownLayer env f.key_ne_empty]
  cases serviceSays env f.key with
  | some v => rfl
  | none => cases ownSays env f.key <;> rfl

theorem value_winner? (file : Option Layer) (env : Environment) (f : Setting) :
    (winner? (allLayers file env) f.key).map (·.value) = deciding? file env f := by
  rw [winner?_eq, deciding?]
  cases serviceSays env f.key <;> cases ownSays env f.key <;> try rfl
  cases file with
  | none => rfl
  | some l => cases h : fileSays (some l) f.key <;> simp [h]

/-! ## Taking the settings -/

namespace Setting

/-- How a value is read as one of the setting. -/
def read : (f : Setting) → SettingValue → Except Refusal f.Carrier
  | apiKey => fun v => (asText v).map some
  | baseUrl | model | host => asText
  | temperature => asFloat
  | timeout => asNat "u64" (Nat.pow 2 64)
  | maxUpload => asNat "usize" (Nat.pow 2 64)
  | port => asNat "u16" (Nat.pow 2 16)

theorem toOption_asText (v : SettingValue) : (asText v).toOption = text? v := by
  cases v <;> rfl

theorem toOption_asFloat (v : SettingValue) : (asFloat v).toOption = number? v := by
  cases v <;> rfl

theorem toOption_asNat (type : String) (limit : Nat) (v : SettingValue) :
    (asNat type limit v).toOption = natural? limit v := by
  cases v with
  | unsigned n =>
    unfold asNat natural?
    dsimp only
    split <;> rfl
  | signed n =>
    unfold asNat natural?
    dsimp only
    by_cases h : 0 ≤ n ∧ n < limit
    · simp [h, Except.toOption]
    · simp [h, Except.toOption]
  | absent | bool b | float x | text s | sequence | table | date => rfl

/-- A value is acceptable exactly if it denotes one of the setting. -/
theorem toOption_read (f : Setting) (v : SettingValue) : (f.read v).toOption = f.denoted? v := by
  cases f with
  | apiKey => cases v <;> rfl
  | baseUrl | model | host => exact toOption_asText v
  | temperature => exact toOption_asFloat v
  | timeout => exact toOption_asNat _ _ v
  | maxUpload => exact toOption_asNat _ _ v
  | port => exact toOption_asNat _ _ v

end Setting

theorem toOption_take {α : Type} (layers : List Layer) (read : SettingValue → Except Refusal α)
    (key : String) (otherwise : α) : (take layers read key otherwise).toOption =
      match (winner? layers key).map (·.value) with
      | none => some otherwise
      | some v => (read v).toOption := by
  unfold take
  cases winner? layers key with
  | none => rfl
  | some e => cases h : read e.value <;> simp [h, Except.toOption]

/-- What is taken for one setting. -/
def taken (layers : List Layer) (f : Setting) : Except SettingsError f.Carrier :=
  take layers f.read f.key (f.get standard)

theorem bind_eq_ok_iff {ε α β : Type} {x : Except ε α} {f : α → Except ε β} {b : β} :
    (x >>= f) = .ok b ↔ ∃ a, x = .ok a ∧ f a = .ok b := by
  cases x with
  | error e => exact iff_of_false nofun (by rintro ⟨a, h, -⟩; cases h)
  | ok a => exact ⟨fun h => ⟨a, rfl, h⟩, fun ⟨_, h, hb⟩ => Except.ok.inj h ▸ hb⟩

theorem ofLayers_eq (layers : List Layer) : ofLayers layers = do
    let host ← taken layers .host
    let temperature ← taken layers .temperature
    let timeout ← taken layers .timeout
    let maxUpload ← taken layers .maxUpload
    let apiKey ← taken layers .apiKey
    let baseUrl ← taken layers .baseUrl
    let model ← taken layers .model
    let port ← taken layers .port
    return ⟨apiKey, baseUrl, model, temperature, timeout, host, port, maxUpload⟩ := rfl

/-- Settings are taken one by one. -/
theorem ofLayers_eq_ok_iff {layers : List Layer} {s : Settings} :
    ofLayers layers = .ok s ↔ ∀ f, taken layers f = .ok (f.get s) := by
  rw [ofLayers_eq]
  constructor
  · intro h
    simp only [bind_eq_ok_iff] at h
    obtain ⟨_, hhost, _, htemperature, _, htimeout, _, hmaxUpload, _, hapiKey, _, hbaseUrl, _, hmodel, _,
      hport, hs⟩ := h
    cases hs
    intro f
    cases f with
    | apiKey => exact hapiKey
    | baseUrl => exact hbaseUrl
    | model => exact hmodel
    | temperature => exact htemperature
    | timeout => exact htimeout
    | host => exact hhost
    | port => exact hport
    | maxUpload => exact hmaxUpload
  · intro h
    rw [h .host, h .temperature, h .timeout, h .maxUpload, h .apiKey, h .baseUrl, h .model, h .port]
    rfl

theorem toOption_taken (file : Option Layer) (env : Environment) (f : Setting) :
    (taken (allLayers file env) f).toOption = f.settled? (deciding? file env f) := by
  rw [taken, toOption_take, value_winner?]
  cases deciding? file env f with
  | none => rfl
  | some v => exact f.toOption_read v

theorem taken_eq_ok_iff {file : Option Layer} {env : Environment} {f : Setting} {a : f.Carrier} :
    taken (allLayers file env) f = .ok a ↔ f.settled? (deciding? file env f) = some a := by
  rw [← toOption_taken]
  cases taken (allLayers file env) f with
  | error e => exact iff_of_false nofun nofun
  | ok b => simp [Except.toOption]

/-- What is taken depends on nothing but the deciding values and where they are from. -/
theorem ofLayers_congr {layers layers' : List Layer}
    (h : ∀ f : Setting, winner? layers f.key = winner? layers' f.key) :
    ofLayers layers = ofLayers layers' := by
  have htaken (f : Setting) : taken layers f = taken layers' f := by
    rw [taken, taken, take, take, h f]
  simp only [ofLayers_eq, htaken]

/-! ## Names that are none of a setting -/

theorem namesSetting_of_service {f : Setting} {name : String} (hkey : f.key ∈ serviceNames)
    (h : lower name = f.key) : namesSetting name = true := by
  refine List.any_eq_true.mpr ⟨f, by cases f <;> simp, ?_⟩
  simp [h, hkey]

theorem namesSetting_of_own {f : Setting} {name : String} (h : (ownParts? f.key name).isSome) :
    namesSetting name = true := by
  refine List.any_eq_true.mpr ⟨f, by cases f <;> simp, ?_⟩
  simp [h]

/-- What is found in variables is found in those of them that are names of settings. -/
theorem filterMap_namesSetting {α : Type} (env : Environment) {says? : String × String → Option α}
    (h : ∀ v, (says? v).isSome → namesSetting v.1 = true) :
    (env.filter fun v => namesSetting v.1).filterMap says? = env.filterMap says? := by
  rw [List.filterMap_filter]
  refine congrArg (env.filterMap ·) (funext fun v => ?_)
  split
  · rfl
  · rename_i hname
    cases hfound : says? v with
    | none => rfl
    | some a => exact absurd (h v (by rw [hfound]; rfl)) hname

theorem serviceSays_filter (env : Environment) (f : Setting) :
    serviceSays (env.filter fun v => namesSetting v.1) f.key = serviceSays env f.key := by
  unfold serviceSays
  split
  · rename_i hkey
    rw [filterMap_namesSetting env fun v hv => ?_]
    split at hv
    · rename_i hname
      exact namesSetting_of_service hkey hname
    · cases hv
  · rfl

theorem ownSays_filter (env : Environment) (f : Setting) :
    ownSays (env.filter fun v => namesSetting v.1) f.key = ownSays env f.key := by
  unfold ownSays
  rw [filterMap_namesSetting env fun v hv => ?_]
  rw [Option.isSome_map] at hv
  exact namesSetting_of_own hv

/-! ## Loading -/

theorem load_eq {t : FileTree} {here : Path} {file : Option Layer} (hfile : fileLayer? t here = .ok file)
    (env : Environment) : load t here env = ofLayers (allLayers file env) := by
  unfold load
  rw [hfile]
  rfl

variable {t : FileTree} {here : Path} {env : Environment} {file : Option Layer}

/-- Settings are loaded if each of them is settled. -/
theorem load_eq_ok_iff (hfile : fileLayer? t here = .ok file) {s : Settings} :
    load t here env = .ok s ↔ ∀ f : Setting, f.settled? (deciding? file env f) = some (f.get s) := by
  rw [load_eq hfile, ofLayers_eq_ok_iff]
  exact forall_congr' fun f => taken_eq_ok_iff

/-- Settings are not loaded if a deciding value is not acceptable. -/
theorem load_eq_error_iff (hfile : fileLayer? t here = .ok file) :
    (∃ e, load t here env = .error e) ↔
      ∃ f v, deciding? file env f = some v ∧ Setting.denoted? f v = none := by
  constructor
  · rintro ⟨e, he⟩
    by_contra hall
    -- Without such a value every setting is settled, and the values together are settings that are loaded.
    have hsettled (f : Setting) : ∃ a, f.settled? (deciding? file env f) = some a := by
      cases hv : deciding? file env f with
      | none => exact ⟨_, rfl⟩
      | some v =>
        cases hdenoted : f.denoted? v with
        | none => exact absurd ⟨f, v, hv, hdenoted⟩ hall
        | some a => exact ⟨a, hdenoted⟩
    choose value hvalue using hsettled
    have hok := (load_eq_ok_iff hfile (s := ⟨value .apiKey, value .baseUrl, value .model,
      value .temperature, value .timeout, value .host, value .port, value .maxUpload⟩)).mpr fun f => by
        rw [hvalue f]
        cases f <;> rfl
    rw [he] at hok
    cases hok
  · rintro ⟨f, v, hv, hnone⟩
    cases hresult : load t here env with
    | error e => exact ⟨e, rfl⟩
    | ok s =>
      have hsettled := (load_eq_ok_iff hfile).mp hresult f
      rw [hv] at hsettled
      exact absurd (hnone.symm.trans hsettled) nofun

/-- **Layers of settings.** Where the settings file is absent or well-formed, settings are loaded exactly if each
of them is settled by the value that decides on it: the value of the highest source that says something of it,
read as the setting's type and range, or else the standard. They cannot be loaded exactly if a deciding value is
not acceptable. Variables that name no setting change nothing. -/
theorem settings_layered (hfile : fileLayer? t here = .ok file) :
    (∀ s, load t here env = .ok s ↔
        ∀ f : Setting, f.settled? (deciding? file env f) = some (f.get s)) ∧
      ((∃ e, load t here env = .error e) ↔
        ∃ f v, deciding? file env f = some v ∧ Setting.denoted? f v = none) ∧
      load t here (env.filter fun v => namesSetting v.1) = load t here env := by
  refine ⟨fun _ => load_eq_ok_iff hfile, load_eq_error_iff hfile, ?_⟩
  rw [load_eq hfile, load_eq hfile]
  refine ofLayers_congr fun f => ?_
  rw [winner?_eq, winner?_eq, serviceSays_filter, ownSays_filter]

/-- A port in the file that is none, overridden by a variable of the program, and one without effect. -/
theorem settings_layered_overridden :
    let t : FileTree := ⟨[(["csv_insight.toml"], Utf8.encode "port = 'x'\nhost = 'h'\ncolour = 1\n")], []⟩
    let file : Option Layer := some ⟨.file "csv_insight.toml",
      [("port", .text "x"), ("host", .text "h"), ("colour", .signed 1)]⟩
    let env : Environment := [("CSV_INSIGHT_PORT", "8080"), ("CSV_INSIGHT_SHAPE", "[")]
    fileLayer? t [] = .ok file ∧
      load t [] env = .ok { standard with host := "h", port := 8080 } ∧
      (∃ e, load t [] [] = .error e) ∧
      load t [] (env.filter fun v => namesSetting v.1) = load t [] env := by
  intro t file env
  have hfile : fileLayer? t [] = .ok file := by decide +kernel
  have hlayered := @settings_layered t [] env file hfile
  refine ⟨hfile, (hlayered.1 _).mpr fun f => ?_, ?_, hlayered.2.2⟩
  · cases f <;> decide +kernel
  · exact (settings_layered hfile).2.1.mpr ⟨.port, .text "x", by decide +kernel, rfl⟩

end TableProfile.Settings
