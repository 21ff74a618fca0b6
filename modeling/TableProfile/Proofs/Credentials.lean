import Mathlib.Data.List.Nodup
import TableProfile.Proofs.CompletionCalls
import TableProfile.Proofs.SettingLayers
import TableProfile.Proofs.VariableTexts

/-!
# Credentials in the environment

The key, the address and the model of the completion service are texts, but as variables they are read as any
value. So one that has a meaning as another kind of value is not kept as it stands: a text in quotes loses them,
and anything that is no text keeps the settings from being loaded, and with them an analysis from being run.

* `deciding?_eq`: the three variables decide on their settings, whatever the file says.
* `credentials_kept_iff`: when the settings are loaded, and hold the three texts character for character.
-/
namespace TableProfile.Settings

open Variable (Means Trimmed)

/-! ## The three variables -/

/-- The three variables of the completion service with their texts. -/
def serviceVariables (key url model : String) : Environment :=
  [("OPENAI_API_KEY", key), ("OPENAI_BASE_URL", url), ("OPENAI_MODEL", model)]

/-- An environment names no setting but by the three variables of the service. -/
structure ServiceOnly (env : Environment) (key url model : String) : Prop where
  given : ∀ v ∈ serviceVariables key url model, v ∈ env
  only : ∀ v ∈ env, namesSetting v.1 = true → v ∈ serviceVariables key url model

/-- The text of the variable that is about a setting. -/
def Setting.serviceText (key url model : String) : Setting → Option String
  | .apiKey => some key
  | .baseUrl => some url
  | .model => some model
  | _ => none

theorem getLast?_eq_some {α : Type} {a : α} {xs : List α} (hne : xs ≠ []) (h : ∀ x ∈ xs, x = a) :
    xs.getLast? = some a := by
  rw [List.getLast?_eq_some_getLast hne, h _ (List.getLast_mem hne)]

variable {env : Environment} {key url model : String}

theorem ownParts?_service (f : Setting) : ∀ name ∈ ["OPENAI_API_KEY", "OPENAI_BASE_URL", "OPENAI_MODEL"],
    ownParts? f.key name = none := by
  cases f <;> decide +kernel

theorem ServiceOnly.ownSays_eq_none (h : ServiceOnly env key url model) (f : Setting) :
    ownSays env f.key = none := by
  have hnone : env.filterMap (fun v => (ownParts? f.key v.1).map fun parts =>
      if parts = [] then Variable.read v.2 else .table) = [] := by
    refine List.filterMap_eq_nil_iff.mpr fun v hv => ?_
    rw [Option.map_eq_none_iff]
    by_contra hparts
    have hmem := h.only v hv (namesSetting_of_own (Option.isSome_iff_ne_none.mpr hparts))
    exact hparts (ownParts?_service f _ (List.mem_map_of_mem (f := Prod.fst) hmem))
  rw [ownSays, hnone]
  rfl

theorem lower_serviceNames : lower "OPENAI_API_KEY" = Setting.apiKey.key ∧
    lower "OPENAI_BASE_URL" = Setting.baseUrl.key ∧ lower "OPENAI_MODEL" = Setting.model.key := by
  decide +kernel

/-- The variables of the service have names that differ in any case. -/
theorem eq_of_lower_eq {v w : String × String} (hv : v ∈ serviceVariables key url model)
    (hw : w ∈ serviceVariables key url model) (h : lower v.1 = lower w.1) : v = w := by
  obtain ⟨hkey, hurl, hmodel⟩ := lower_serviceNames
  have hnodup : ((serviceVariables key url model).map fun v => lower v.1).Nodup := by
    simp [serviceVariables, hkey, hurl, hmodel, Setting.key]
  exact List.inj_on_of_nodup_map hnodup hv hw h

/-- A variable of the service is the only one that is about its setting. -/
theorem ServiceOnly.serviceSays_of_mem (h : ServiceOnly env key url model) {f : Setting} {name text : String}
    (hkey : f.key ∈ serviceNames) (hname : lower name = f.key)
    (hmem : (name, text) ∈ serviceVariables key url model) :
    serviceSays env f.key = some (Variable.read text) := by
  rw [serviceSays, if_pos hkey]
  refine getLast?_eq_some (fun hnil => ?_) fun x hx => ?_
  · have hnone := List.filterMap_eq_nil_iff.mp hnil _ (h.given _ hmem)
    rw [if_pos hname] at hnone
    cases hnone
  · obtain ⟨v, hv, hfound⟩ := List.mem_filterMap.mp hx
    split at hfound
    · rename_i hlower
      have hv := h.only v hv (namesSetting_of_service hkey hlower)
      rw [eq_of_lower_eq hv hmem (hlower.trans hname.symm)] at hfound
      exact (Option.some.inj hfound).symm
    · cases hfound

theorem ServiceOnly.serviceSays_eq (h : ServiceOnly env key url model) (f : Setting) :
    serviceSays env f.key = (f.serviceText key url model).map Variable.read := by
  obtain ⟨hkey, hurl, hmodel⟩ := lower_serviceNames
  cases f with
  | apiKey => exact h.serviceSays_of_mem (by decide) hkey (by simp [serviceVariables])
  | baseUrl => exact h.serviceSays_of_mem (by decide) hurl (by simp [serviceVariables])
  | model => exact h.serviceSays_of_mem (by decide) hmodel (by simp [serviceVariables])
  | temperature | timeout | host | port | maxUpload => exact if_neg (by decide)

/-- The three variables decide on their settings, and the file on the others. -/
theorem ServiceOnly.deciding?_eq (h : ServiceOnly env key url model) (file : Option Layer) (f : Setting) :
    deciding? file env f = ((f.serviceText key url model).map Variable.read).or (fileSays file f.key) := by
  rw [deciding?, h.serviceSays_eq, h.ownSays_eq_none, Option.none_or]

/-! ## Texts -/

/-- A text stands for itself. -/
def Kept (text : String) : Prop := ∀ v, ¬ Means text.toList v

/-- A text has a meaning that is no text. -/
def NoText (text : String) : Prop := ∃ v, Means text.toList v ∧ ∀ x, v ≠ .text x

theorem read_eq_self_iff {text : String} (h : Trimmed text.toList) :
    Variable.read text = .text text ↔ Kept text := by
  rcases Variable.read_cases h with ⟨v, hv, rfl, hne⟩ | ⟨hnone, hread⟩
  · exact iff_of_false hne fun hkept => hkept _ hv
  · exact iff_of_true hread hnone

theorem text?_read_eq_none_iff {text : String} (h : Trimmed text.toList) :
    Setting.text? (Variable.read text) = none ↔ NoText text := by
  have hnone (v : SettingValue) : Setting.text? v = none ↔ ∀ x, v ≠ .text x := by
    cases v with
    | text s => exact iff_of_false nofun fun hne => hne s rfl
    | absent | bool | unsigned | signed | float | sequence | table | date => exact iff_of_true rfl nofun
  rw [hnone]
  constructor
  · intro hread
    rcases Variable.read_cases h with ⟨v, hv, rfl, -⟩ | ⟨-, hself⟩
    · exact ⟨_, hv, hread⟩
    · exact absurd hself (hread text)
  · rintro ⟨v, hv, hno⟩
    rwa [Variable.read_of_means h hv]

theorem Kept.not_noText {text : String} (h : Kept text) : ¬ NoText text := fun ⟨v, hv, _⟩ => h v hv

theorem text?_eq_some_iff {v : SettingValue} {x : String} : Setting.text? v = some x ↔ v = .text x := by
  cases v with
  | text s => exact ⟨fun h => congrArg _ (Option.some.inj h), fun h => congrArg _ (SettingValue.text.inj h)⟩
  | absent | bool | unsigned | signed | float | sequence | table | date => exact iff_of_false nofun nofun

/-! ## Loading -/

theorem Setting.denoted?_serviceText {f : Setting} {text : String}
    (hf : f.serviceText key url model = some text) (v : SettingValue) :
    f.denoted? v = none ↔ Setting.text? v = none := by
  cases f with
  | apiKey => exact Option.map_eq_none_iff
  | baseUrl | model => exact Iff.rfl
  | temperature | timeout | host | port | maxUpload => cases hf

theorem Setting.notMem_of_serviceText {f : Setting} (hf : f.serviceText key url model = none) :
    f ∉ [.apiKey, .baseUrl, .model] := by
  cases f with
  | apiKey | baseUrl | model => cases hf
  | temperature | timeout | host | port | maxUpload => decide

theorem mem_texts_iff (text : String) :
    text ∈ [key, url, model] ↔ ∃ f : Setting, f.serviceText key url model = some text := by
  constructor
  · intro h
    simp only [List.mem_cons, List.not_mem_nil, or_false] at h
    rcases h with rfl | rfl | rfl
    · exact ⟨.apiKey, rfl⟩
    · exact ⟨.baseUrl, rfl⟩
    · exact ⟨.model, rfl⟩
  · rintro ⟨f, hf⟩
    cases f <;> cases hf <;> simp

/-- What the file says of the settings that are not those of the service is acceptable. -/
def OthersAcceptable (file : Option Layer) : Prop :=
  ∀ f : Setting, f ∉ [.apiKey, .baseUrl, .model] → (f.settled? (fileSays file f.key)).isSome

variable {t : FileTree} {here : Path} {file : Option Layer}

/-- The settings are not loaded if one of the texts is none. -/
theorem load_eq_error_iff_noText (henv : ServiceOnly env key url model)
    (hfile : fileLayer? t here = .ok file) (hothers : OthersAcceptable file)
    (htrimmed : ∀ text ∈ [key, url, model], Trimmed text.toList) :
    (∃ e, load t here env = .error e) ↔ ∃ text ∈ [key, url, model], NoText text := by
  rw [load_eq_error_iff hfile]
  constructor
  · rintro ⟨f, v, hv, hnone⟩
    rw [henv.deciding?_eq] at hv
    cases hf : f.serviceText key url model with
    | none =>
      have hsettled := hothers f (Setting.notMem_of_serviceText hf)
      rw [hf, Option.map_none, Option.none_or] at hv
      rw [hv, Setting.settled?, hnone] at hsettled
      cases hsettled
    | some text =>
      rw [hf] at hv
      cases hv
      have hmem := (mem_texts_iff text).mpr ⟨f, hf⟩
      exact ⟨text, hmem,
        (text?_read_eq_none_iff (htrimmed text hmem)).mp ((Setting.denoted?_serviceText hf _).mp hnone)⟩
  · rintro ⟨text, hmem, hno⟩
    obtain ⟨f, hf⟩ := (mem_texts_iff text).mp hmem
    refine ⟨f, Variable.read text, ?_, ?_⟩
    · rw [henv.deciding?_eq, hf]
      rfl
    · exact (Setting.denoted?_serviceText hf _).mpr ((text?_read_eq_none_iff (htrimmed text hmem)).mpr hno)

/-- What the settings hold of the service is what is read from the texts. -/
theorem fields_of_load (henv : ServiceOnly env key url model) (hfile : fileLayer? t here = .ok file)
    {s : Settings} (hs : load t here env = .ok s) :
    (∃ k, s.apiKey = some k ∧ Variable.read key = .text k) ∧ Variable.read url = .text s.baseUrl ∧
      Variable.read model = .text s.model := by
  have hsettled (f : Setting) := (load_eq_ok_iff hfile).mp hs f
  simp only [henv.deciding?_eq] at hsettled
  obtain ⟨k, hk, hkey⟩ := Option.map_eq_some_iff.mp (hsettled .apiKey)
  exact ⟨⟨k, hkey.symm, text?_eq_some_iff.mp hk⟩, text?_eq_some_iff.mp (hsettled .baseUrl),
    text?_eq_some_iff.mp (hsettled .model)⟩

/-! ## Running -/

/-- An analysis without insights does not depend on the settings. -/
theorem runAnalysis_withoutInsights (w : Command.Surroundings) (s s' : Settings) {o : Command.Options}
    (h : o.insights = false) : Command.runAnalysis w s o = Command.runAnalysis w s' o := by
  have hinsights (service : Option Service) (outcomes : List Outcome) :
      Command.insightsOf service o.insights outcomes = (outcomes.map fun _ => none, []) := by
    rw [Command.insightsOf, h]
    exact askEach_none service [] outcomes
  have hrequests (client? : Option Completion.Client) :
      (client?.map fun c => ([] : List Prompt).filterMap c.request?).getD [] = [] := by
    cases client? <;> rfl
  simp only [Command.runAnalysis, Command.analyze, hinsights, hrequests]

/-- **Credentials in the environment.** Let three variables of the service be all that the environment says of
settings, and let what the file says of the other settings be acceptable. Then the settings are loaded and hold
the three texts as they stand exactly if each of them stands for itself. They are not loaded exactly if one of
the texts has a meaning that is no text. In that case an analysis without insights ends with a complaint, and
otherwise it is run and does not depend on the texts. -/
theorem credentials_kept_iff (henv : ServiceOnly env key url model) (hfile : fileLayer? t here = .ok file)
    (hothers : OthersAcceptable file) (htrimmed : ∀ text ∈ [key, url, model], Trimmed text.toList) :
    ((∃ s, load t here env = .ok s ∧ s.apiKey = some key ∧ s.baseUrl = url ∧ s.model = model) ↔
        ∀ text ∈ [key, url, model], Kept text) ∧
      ((∃ e, load t here env = .error e) ↔ ∃ text ∈ [key, url, model], NoText text) ∧
      ∀ (w : Command.Surroundings) (words : List String) (o : Command.Options),
        w.settings = load t here env → Command.read words = .ok (.analyze o) → o.insights = false →
        ((∃ text ∈ [key, url, model], NoText text) →
          ∃ e, Command.run w words = ⟨.exit 1, "", Command.settingsComplaint e, []⟩) ∧
        ((∀ text ∈ [key, url, model], ¬ NoText text) →
          Command.run w words = Command.runAnalysis w standard o) := by
  have herror := load_eq_error_iff_noText henv hfile hothers htrimmed
  have hloaded (h : ∀ text ∈ [key, url, model], ¬ NoText text) : ∃ s, load t here env = .ok s := by
    cases hresult : load t here env with
    | ok s => exact ⟨s, rfl⟩
    | error e =>
      obtain ⟨text, hmem, hno⟩ := herror.mp ⟨e, hresult⟩
      exact absurd hno (h text hmem)
  refine ⟨⟨?_, fun hkept => ?_⟩, herror, fun w words o hw hwords ho => ⟨fun hno => ?_, fun hall => ?_⟩⟩
  · rintro ⟨s, hs, hkey, hurl, hmodel⟩ text hmem
    obtain ⟨⟨k, hk, hreadKey⟩, hreadUrl, hreadModel⟩ := fields_of_load henv hfile hs
    obtain rfl : k = key := Option.some.inj (hk.symm.trans hkey)
    refine (read_eq_self_iff (htrimmed text hmem)).mp ?_
    simp only [List.mem_cons, List.not_mem_nil, or_false] at hmem
    rcases hmem with rfl | rfl | rfl
    · exact hreadKey
    · rwa [hurl] at hreadUrl
    · rwa [hmodel] at hreadModel
  · obtain ⟨s, hs⟩ := hloaded fun text hmem => (hkept text hmem).not_noText
    obtain ⟨⟨k, hk, hkey⟩, hurl, hmodel⟩ := fields_of_load henv hfile hs
    have hself (text : String) (hmem : text ∈ [key, url, model]) : Variable.read text = .text text :=
      (read_eq_self_iff (htrimmed text hmem)).mpr (hkept text hmem)
    rw [hself key (by simp)] at hkey
    rw [hself url (by simp)] at hurl
    rw [hself model (by simp)] at hmodel
    exact ⟨s, hs, hk.trans (congrArg some (SettingValue.text.inj hkey).symm),
      (SettingValue.text.inj hurl).symm, (SettingValue.text.inj hmodel).symm⟩
  · obtain ⟨e, he⟩ := herror.mpr hno
    refine ⟨e, ?_⟩
    simp only [Command.run, hwords, hw, he]
  · obtain ⟨s, hs⟩ := hloaded hall
    rw [runAnalysis_withoutInsights w standard s ho]
    simp only [Command.run, hwords, hw, hs, Command.Request.run]

/-- Texts with brackets inside that stand for themselves. -/
theorem credentials_kept_iff_brackets :
    let env : Environment := [("HOME", "/"), ("OPENAI_MODEL", "m-4"), ("OPENAI_API_KEY", "sk-[1]"),
      ("OPENAI_BASE_URL", "https://x.test/v1")]
    ServiceOnly env "sk-[1]" "https://x.test/v1" "m-4" ∧ fileLayer? ⟨[], []⟩ [] = .ok none ∧
      OthersAcceptable none ∧ (∀ text ∈ ["sk-[1]", "https://x.test/v1", "m-4"], Trimmed text.toList) ∧
      ∃ s, load ⟨[], []⟩ [] env = .ok s ∧ s.apiKey = some "sk-[1]" ∧
        s.baseUrl = "https://x.test/v1" ∧ s.model = "m-4" := by
  intro env
  have henv : ServiceOnly env "sk-[1]" "https://x.test/v1" "m-4" := by
    refine ⟨by simp [serviceVariables, env], fun v hv hname => ?_⟩
    have hhome : namesSetting "HOME" = false := by decide +kernel
    simp only [env, List.mem_cons, List.not_mem_nil, or_false] at hv
    rcases hv with rfl | rfl | rfl | rfl
    · exact absurd hname (by rw [hhome]; decide)
    · simp [serviceVariables]
    · simp [serviceVariables]
    · simp [serviceVariables]
  have htrimmed : ∀ text ∈ ["sk-[1]", "https://x.test/v1", "m-4"], Trimmed text.toList := by
    decide +kernel
  have hkept : ∀ text ∈ ["sk-[1]", "https://x.test/v1", "m-4"], Kept text := by
    intro text hmem
    refine (read_eq_self_iff (htrimmed text hmem)).mp ?_
    simp only [List.mem_cons, List.not_mem_nil, or_false] at hmem
    rcases hmem with rfl | rfl | rfl <;> decide +kernel
  have hothers : OthersAcceptable none := fun f _ => rfl
  exact ⟨henv, rfl, hothers, htrimmed, (credentials_kept_iff henv rfl hothers htrimmed).1.mpr hkept⟩

/-- A key of digits is read as a number and keeps the settings from being loaded. -/
theorem key_of_digits_refused :
    let env := serviceVariables "12345" "https://x.test/v1" "m"
    load ⟨[], []⟩ [] env =
        .error (.value ⟨.serviceVariables, "openai_api_key", .unsigned 12345⟩ (.kind "a string")) ∧
      ¬ ∃ s, load ⟨[], []⟩ [] env = .ok s := by
  intro env
  have hload : load ⟨[], []⟩ [] env =
      .error (.value ⟨.serviceVariables, "openai_api_key", .unsigned 12345⟩ (.kind "a string")) := by
    decide +kernel
  refine ⟨hload, fun ⟨s, hs⟩ => ?_⟩
  rw [hload] at hs
  cases hs

/-- A key in quotes loses them. -/
example : (load ⟨[], []⟩ [] [("OPENAI_API_KEY", "\"k\"")]).toOption.map (·.apiKey) = some (some "k") := by
  decide +kernel

end TableProfile.Settings
