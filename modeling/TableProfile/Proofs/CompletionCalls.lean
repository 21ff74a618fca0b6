import TableProfile.Proofs.CommandReport
import TableProfile.Proofs.TextPieces

/-!
# Calls of the completion service

If insights are wanted, a service is called once for each file that has an analysis and for no other,
in order. Which prompts it is sent does not depend on what it answers: `callsFor` says it from the
analyses alone, and the prompts of one step are put behind those sent before.

* `askEach_sent`: the prompts for the files of one run or one form.
* `answer_sent`, `serve_sent`: those for a request to the server, and for a sequence of requests.
* `Settings.AsksNobody`, `Settings.AsksThrough`: what both front ends do without a key and with one. The
  settings, the client and the server each judge the key by themselves, and agree.
* `one_call_per_analysis`: all of this together.
-/
namespace TableProfile

/-! ## Tables -/

/-- The prompts for what came of files: if a service is asked, one for each analysis. -/
def callsFor (asked : Bool) (results : List (Except AnalysisError Analysis)) : List Prompt :=
  if asked then
    (results.filterMap analysis?).map fun a => ⟨Prompt.systemMessage, Prompt.userMessage a⟩
  else []

/-- What is answered about files where there is no key. -/
def keyMissing (results : List (Except AnalysisError Analysis)) :
    List (Option (Except InsightError Insights)) :=
  results.map fun r => (analysis? r).map fun _ => .error .missingKey

/-- Every analysis costs one call, whatever is answered to it and was answered before. -/
theorem askEach_sent (s : Option Service) (sent : List Prompt)
    (results : List (Except AnalysisError Analysis)) :
    (askEach s sent (results.map analysis?)).2 = sent ++ callsFor s.isSome results := by
  induction results generalizing sent with
  | nil => cases s <;> exact (List.append_nil sent).symm
  | cons result rest ih =>
    cases result with
    | error e => exact ih sent
    | ok a =>
      cases s with
      | none => exact ih sent
      | some service =>
        calc (askEach (some service) sent (((.ok a : Except _ _) :: rest).map analysis?)).2
            = (askEach (some service) (sent ++ [Prompt.ofAnalysis a]) (rest.map analysis?)).2 := rfl
          _ = sent ++ (Prompt.ofAnalysis a :: callsFor true rest) := by
              rw [ih, List.append_assoc, List.singleton_append, Option.isSome_some]

/-- Places without a table have no answer and cost nothing. -/
theorem askEach_none (s : Option Service) (sent : List Prompt) {α : Type} (xs : List α) :
    askEach s sent (xs.map fun _ => none) = (xs.map fun _ => none, sent) := by
  induction xs with
  | nil => rfl
  | cons x rest ih => simp only [List.map_cons, askEach, ih]

theorem askEach_wish_sent (s : Option Service) (wish : Bool) (sent : List Prompt)
    (results : List (Except AnalysisError Analysis)) :
    (askEach s sent (results.map fun r => if wish then analysis? r else none)).2 =
      sent ++ callsFor (s.isSome && wish) results := by
  cases wish with
  | true => rw [Bool.and_true]; exact askEach_sent s sent results
  | false =>
    rw [Bool.and_false]
    exact (congrArg Prod.snd (askEach_none s sent results)).trans (List.append_nil sent).symm

/-! ## The command line -/

namespace Command

/-- What is printed for outcomes and the answers about them. -/
def printed (json : Bool) (outcomes : List Outcome)
    (answers : List (Option (Except InsightError Insights))) : String :=
  let lines := if json then [(resultsJson outcomes answers).pretty] else textLines outcomes answers
  String.join (lines.map (· ++ "\n"))

theorem analyze_sent (t : FileTree) (here : Path) (s : Option Service) (o : Options) :
    (analyze t here s o).sent =
      callsFor (s.isSome && o.insights) (o.files.map (analyzeFile t here)) := by
  have hsent := askEach_wish_sent s o.insights [] (o.files.map (analyzeFile t here))
  rw [List.map_map, List.nil_append] at hsent
  rw [← hsent, analyze, insightsOf, analyzeFiles, List.map_map]
  rfl

/-- Without a service every file that has an analysis is told that there is no key. -/
theorem output_missing (t : FileTree) (here : Path) (paths : List String) (json : Bool) :
    (analyze t here none ⟨paths, true, json⟩).output =
      printed json (analyzeFiles t here paths) (keyMissing (paths.map (analyzeFile t here))) := by
  have hanswers : (insightsOf none true (analyzeFiles t here paths)).1 =
      keyMissing (paths.map (analyzeFile t here)) := by
    have hnone : ∀ service ∈ (none : Option Service), service.Stateless :=
      fun service h => absurd h (Option.not_mem_none service)
    rw [insightsOf, askEach_stateless hnone, keyMissing, analyzeFiles, List.map_map, List.map_map,
      List.map_map]
    rfl
  rw [← hanswers]
  rfl

end Command

/-! ## The server -/

/-- What becomes of a file where there is no key. -/
def UploadedFile.withoutKey (file : UploadedFile) (wish : Bool) : ProcessedFile :=
  let result := analyzeBytes file.fileName file.content
  ⟨file.fileName, result, (if wish then analysis? result else none).map fun _ => .error .missingKey⟩

namespace Form

theorem process_sent (s : Option Service) (sent : List Prompt) (f : Form) :
    (f.process s sent).2 = sent ++ callsFor (s.isSome && f.wantsInsights) f.analyses :=
  askEach_wish_sent s f.wantsInsights sent f.analyses

theorem process_missing (sent : List Prompt) (f : Form) :
    (f.process none sent).1 = f.files.map fun file => file.withoutKey f.wantsInsights :=
  process_eq (s := none) nofun sent f

end Form

namespace Server

/-- Whether a request uploads a form to be answered with a page or with JSON. -/
def isPage? (r : Request) : Option Bool :=
  match route? r.method r.target with
  | some .analyzePage => some true
  | some .analyzeJson => some false
  | _ => none

/-- The form that a request uploads, if there is one within the limit. -/
def formOf? (limit : Nat) (r : Request) : Option Form :=
  (isPage? r).bind fun _ => (Form.read limit (Multipart.read r.contentType r.body)).toOption

theorem Uploads.formOf?_eq {s : Server} {r : Request} {f : Form} (h : s.Uploads r f) :
    formOf? s.maxUpload r = some f := by
  rw [formOf?, isPage?, h.route, Option.bind_some, h.form]
  rfl

/-- The prompts for a request, if a service is asked: those for the files of its form. -/
def callsOf (asked : Bool) (limit : Nat) (r : Request) : List Prompt :=
  ((formOf? limit r).map fun f => callsFor (asked && f.wantsInsights) f.analyses).getD []

/-- The answer that shows processed files. -/
def shown (page : Bool) (files : List ProcessedFile) : Response :=
  if page then .page 200 (Page.results files) else .json 200 (resultsJson files)

theorem answerForm_sent (s : Server) (page : Bool) (sent : List Prompt) (f : Form) :
    (s.answerForm page sent f).2 =
      sent ++ callsFor (s.service.isSome && f.wantsInsights) f.analyses := by
  rw [← Form.process_sent]
  unfold answerForm
  split
  · -- A form without files is turned away before anything is asked, and there is nothing to ask.
    rename_i hnone
    have hfiles : f.files = [] := List.isEmpty_iff.mp hnone
    simp [Form.process, Form.tables, Form.analyses, hfiles, askEach]
  · rfl

theorem answerUpload_sent (s : Server) (page : Bool) (sent : List Prompt) (u : Upload) :
    (s.answerUpload page sent u).2 = sent ++
      ((Form.read s.maxUpload u).toOption.map fun f =>
        callsFor (s.service.isSome && f.wantsInsights) f.analyses).getD [] := by
  unfold answerUpload
  cases Form.read s.maxUpload u with
  | error e => exact (List.append_nil sent).symm
  | ok f => exact s.answerForm_sent page sent f

/-- One request costs the calls for its own files, whatever was sent before. -/
theorem answer_sent (s : Server) (sent : List Prompt) (r : Request) :
    (s.answer sent r).2 = sent ++ callsOf s.service.isSome s.maxUpload r := by
  unfold answer callsOf formOf? isPage?
  cases route? r.method r.target with
  | none => exact (List.append_nil sent).symm
  | some route =>
    cases route with
    | form | health | description => exact (List.append_nil sent).symm
    | analyzeJson => exact s.answerUpload_sent false sent _
    | analyzePage => exact s.answerUpload_sent true sent _

/-- A sequence of requests costs the calls for each of them, in order. -/
theorem serve_sent (s : Server) (sent : List Prompt) (rs : List Request) :
    (s.serve sent rs).2 = sent ++ rs.flatMap (callsOf s.service.isSome s.maxUpload) := by
  induction rs generalizing sent with
  | nil => exact (List.append_nil sent).symm
  | cons r rest ih =>
    calc (s.serve sent (r :: rest)).2
        = (s.serve (s.answer sent r).2 rest).2 := rfl
      _ = sent ++ (callsOf s.service.isSome s.maxUpload r ++
            rest.flatMap (callsOf s.service.isSome s.maxUpload)) := by
          rw [ih, answer_sent, List.append_assoc]

theorem callsOf_false (limit : Nat) (r : Request) : callsOf false limit r = [] := by
  unfold callsOf
  cases formOf? limit r <;> rfl

/-- An upload of files is answered with what became of them. -/
theorem answer_shown {s : Server} {r : Request} {page : Bool} {f : Form} (hpage : isPage? r = some page)
    (hform : formOf? s.maxUpload r = some f) (hfiles : f.files ≠ []) (sent : List Prompt) :
    (s.answer sent r).1 = shown page (f.process s.service sent).1 := by
  have hread : Form.read s.maxUpload (Multipart.read r.contentType r.body) = .ok f := by
    rw [formOf?, hpage, Option.bind_some] at hform
    cases hr : Form.read s.maxUpload (Multipart.read r.contentType r.body) with
    | error e => rw [hr] at hform; cases hform
    | ok g => rw [hr] at hform; cases hform; rfl
  have hupload : (s.answer sent r).1 = (s.answerForm page sent f).1 := by
    unfold isPage? at hpage
    unfold answer
    cases hroute : route? r.method r.target with
    | none => rw [hroute] at hpage; cases hpage
    | some route =>
      rw [hroute] at hpage
      cases route with
      | form | health | description => cases hpage
      | analyzeJson => cases hpage; simp only [answerUpload, hread]
      | analyzePage => cases hpage; simp only [answerUpload, hread]
  have hempty : f.files.isEmpty = false := List.isEmpty_eq_false_iff.mpr hfiles
  rw [hupload, answerForm, hempty]
  rfl

end Server

/-! ## Keys -/

namespace Settings

/-- There is no key, or it is white space. -/
def Keyless (s : Settings) : Prop := ∀ key ∈ s.apiKey, ∀ c ∈ key.toList, Blank.isBlank c = true

/-- There is a key that is not white space. -/
def HasKey (s : Settings) (key : String) : Prop :=
  s.apiKey = some key ∧ ∃ c ∈ key.toList, Blank.isBlank c = false

theorem HasKey.trim_ne {s : Settings} {key : String} (h : s.HasKey key) : Blank.trim key ≠ "" := by
  obtain ⟨-, c, hc, hblank⟩ := h
  intro htrim
  rw [(Blank.trim_eq_empty_iff key).mp htrim c hc] at hblank
  cases hblank

theorem insightsEnabled_keyless {s : Settings} (h : s.Keyless) : s.insightsEnabled = false := by
  unfold insightsEnabled
  cases hkey : s.apiKey with
  | none => rfl
  | some key => simp [(Blank.trim_eq_empty_iff key).mpr (h key hkey)]

theorem insightsEnabled_hasKey {s : Settings} {key : String} (h : s.HasKey key) :
    s.insightsEnabled = true := by
  simp [insightsEnabled, h.1, h.trim_ne]

end Settings

namespace Completion.Client

theorem ofSettings_keyless {s : Settings} (h : s.Keyless) : ofSettings s = .error .missingKey := by
  have hnone : s.usableKey? = none := by
    unfold Settings.usableKey?
    cases hkey : s.apiKey with
    | none => rfl
    | some key => simp [(Blank.trim_eq_empty_iff key).mpr (h key hkey)]
  rw [ofSettings, hnone]

theorem ofSettings_hasKey {s : Settings} {key : String} (h : s.HasKey key) :
    ofSettings s = .ok ⟨Blank.trim key, s.baseUrl, s.model, s.temperature⟩ := by
  have hsome : s.usableKey? = some (Blank.trim key) := by
    simp [Settings.usableKey?, h.1, h.trim_ne]
  rw [ofSettings, hsome]

/-- A request that carries a key and the two messages of a prompt. -/
structure Carries (key : String) (p : Prompt) (r : Request) : Prop where
  authorization : r.authorization = "Bearer " ++ key
  messages : r.body.get? "messages" = some (.arr [message "system" p.system, message "user" p.user])

/-- A client that makes a request for one prompt makes it for every prompt, with the same address and
key: the prompt stands in the body alone, and what can fail is checked before. -/
theorem request_ok {c : Client} {p : Prompt} {r : Request} (h : c.request p = .ok r) :
    ∃ url, r = ⟨url, "Bearer " ++ c.key, c.body p⟩ ∧
      ∀ q, c.request q = .ok ⟨url, "Bearer " ++ c.key, c.body q⟩ := by
  unfold request at h ⊢
  split at h
  · cases h
  · rename_i url _
    simp only at h ⊢
    split at h
    · cases h
    · split at h
      · cases h
      · split at h
        · cases h
        · rename_i hhost hkey hweb
          refine ⟨url, (Except.ok.inj h).symm, fun q => ?_⟩
          rw [if_neg hhost, if_neg hkey, if_neg hweb]

theorem carries_of_request {c : Client} {p : Prompt} {r : Request} (h : c.request p = .ok r) :
    Carries c.key p r := by
  obtain ⟨url, rfl, -⟩ := request_ok h
  exact ⟨rfl, Json.get?_ofFields _ _⟩

theorem exists_request {c : Client} {p : Prompt} (h : (c.request? p).isSome = true) (q : Prompt) :
    ∃ r, c.request q = .ok r := by
  cases hr : c.request p with
  | error e => simp [request?, hr, Except.toOption] at h
  | ok r =>
    obtain ⟨url, -, hall⟩ := request_ok hr
    exact ⟨_, hall q⟩

end Completion.Client

/-! ## Both front ends -/

open Completion (Client)

/-- What settings without a key do: both front ends call nobody and tell every file that has an analysis
and asks for insights that there is no key. -/
structure Settings.AsksNobody (s : Settings) : Prop where
  disabled : s.insightsEnabled = false
  noClient : Client.ofSettings s = .error .missingKey
  requests : ∀ (w : Command.Surroundings) (words : List String) (o : Command.Options),
    Command.read words = .ok (.analyze o) → w.settings = .ok s → (Command.run w words).requests = []
  output : ∀ (w : Command.Surroundings) (words paths : List String) (json : Bool),
    Command.read words = .ok (.analyze ⟨paths, true, json⟩) → w.settings = .ok s →
      (Command.run w words).output = Command.printed json (analyzeFiles w.tree w.here paths)
        (keyMissing (paths.map (analyzeFile w.tree w.here)))
  sent : ∀ (api : Completion.Api) (sent : List Prompt) (rs : List Server.Request),
    ((Server.ofSettings s api).serve sent rs).2 = sent
  shown : ∀ (api : Completion.Api) (sent : List Prompt) (r : Server.Request) (page : Bool) (f : Form),
    Server.isPage? r = some page → Server.formOf? s.maxUpload r = some f → f.files ≠ [] →
      ((Server.ofSettings s api).answer sent r).1 =
        Server.shown page (f.files.map fun file => file.withoutKey f.wantsInsights)

/-- What settings with a key do: both front ends ask through one client, whose every request carries the
key. If the client can make requests at all, it makes one for each call. -/
structure Settings.AsksThrough (s : Settings) (key : String) (c : Client) : Prop where
  enabled : s.insightsEnabled = true
  client : Client.ofSettings s = .ok c
  requests : ∀ (w : Command.Surroundings) (words : List String) (o : Command.Options),
    Command.read words = .ok (.analyze o) → w.settings = .ok s →
      (Command.run w words).requests =
        (callsFor o.insights (o.files.map (analyzeFile w.tree w.here))).filterMap c.request?
  server : ∀ api, Server.ofSettings s api = ⟨some (c.service api), s.maxUpload⟩
  carries : ∀ p r, c.request p = .ok r → Client.Carries (Blank.trim key) p r
  each : (∃ p, (c.request? p).isSome = true) → ∀ p, ∃ r, c.request p = .ok r

namespace Settings

theorem keyless_or_hasKey (s : Settings) : s.Keyless ∨ ∃ key, s.HasKey key := by
  by_cases h : s.Keyless
  · exact Or.inl h
  · simp only [Keyless, not_forall] at h
    obtain ⟨key, hkey, c, hc, hblank⟩ := h
    exact Or.inr ⟨key, hkey, c, hc, Bool.eq_false_iff.mpr hblank⟩

theorem asksNobody {s : Settings} (h : s.Keyless) : s.AsksNobody := by
  have hclient := Client.ofSettings_keyless h
  have hserver (api : Completion.Api) : Server.ofSettings s api = ⟨none, s.maxUpload⟩ := by
    rw [Server.ofSettings, insightsEnabled_keyless h]
    rfl
  have hservice (w : Command.Surroundings) : w.service s = none := by
    rw [Command.Surroundings.service, hclient]
    rfl
  refine ⟨insightsEnabled_keyless h, hclient, fun w words o hwords hsettings => ?_,
    fun w words paths json hwords hsettings => ?_, fun api sent rs => ?_,
    fun api sent r page f hpage hform hfiles => ?_⟩
  · rw [Command.run_analyze hwords hsettings, Command.runAnalysis, hclient]
    rfl
  · rw [Command.run_analyze hwords hsettings, ← Command.output_missing, ← hservice w]
    rfl
  · rw [hserver, Server.serve_sent]
    simp [Server.callsOf_false]
  · rw [hserver, Server.answer_shown hpage hform hfiles, Form.process_missing]

theorem asksThrough {s : Settings} {key : String} (h : s.HasKey key) :
    s.AsksThrough key ⟨Blank.trim key, s.baseUrl, s.model, s.temperature⟩ := by
  have hclient := Client.ofSettings_hasKey h
  refine ⟨insightsEnabled_hasKey h, hclient, fun w words o hwords hsettings => ?_, fun api => ?_,
    fun p r hr => Client.carries_of_request hr, fun ⟨p, hp⟩ => Client.exists_request hp⟩
  · rw [Command.run_analyze hwords hsettings, Command.runAnalysis, hclient]
    simp only [Except.toOption, Option.map_some, Option.getD_some, Command.analyze_sent,
      Option.isSome_some, Bool.true_and]
  · rw [Server.ofSettings, insightsEnabled_hasKey h, hclient]
    rfl

end Settings

/-- **One call for each analysis.** If insights are wanted and there is a service, a run of the analysis
command and a sequence of requests to the server call it once for each file that has an analysis, in
order, whatever it answers. Settings either have no key and call nobody, or have one and call through a
client that carries it. -/
theorem one_call_per_analysis :
    (∀ (t : FileTree) (here : Path) (s : Option Service) (o : Command.Options),
      (Command.analyze t here s o).sent =
        callsFor (s.isSome && o.insights) (o.files.map (analyzeFile t here))) ∧
    (∀ (s : Server) (sent : List Prompt) (rs : List Server.Request),
      (s.serve sent rs).2 =
        sent ++ rs.flatMap (Server.callsOf s.service.isSome s.maxUpload)) ∧
    (∀ s : Settings, s.Keyless ∨ ∃ key, s.HasKey key) ∧
    (∀ s : Settings, s.Keyless → s.AsksNobody) ∧
    ∀ (s : Settings) (key : String), s.HasKey key →
      s.AsksThrough key ⟨Blank.trim key, s.baseUrl, s.model, s.temperature⟩ :=
  ⟨Command.analyze_sent, Server.serve_sent, Settings.keyless_or_hasKey,
    fun _ h => Settings.asksNobody h, fun _ _ h => Settings.asksThrough h⟩

/-- A service that fails every time is called for both files that have an analysis, and for both uploads;
a blank key makes no call, and one that is not blank is sent. -/
theorem one_call_per_analysis_failing :
    let failing : Service := fun _ _ => .error (.api 500 "")
    let blank : Command.Surroundings := .ofVariables [("OPENAI_API_KEY", "\" \"")]
    let keyed : Command.Surroundings := .ofVariables [("OPENAI_API_KEY", "\" key\"")]
    let paths := ["t.csv", "gone.csv", "t.csv"]
    let upload : Server.Request := .ofFourBytes Server.Request.wish
    (Command.analyze blank.tree [] (some failing) ⟨paths, true, false⟩).sent.length = 2 ∧
      (Server.serve ⟨some failing, 7⟩ [] [upload, upload]).2.length = 2 ∧
      (Command.run blank ["analyze", "t.csv", "--ai"]).requests = [] ∧
      ∃ r, (Command.run keyed ["analyze", "t.csv", "--ai"]).requests = [r] ∧
        r.authorization = "Bearer key" := by
  intro failing blank keyed paths upload
  have hblank : blank.settings = .ok { Settings.standard with apiKey := some " " } := by decide +kernel
  have hkeyed : keyed.settings = .ok { Settings.standard with apiKey := some " key" } := by
    decide +kernel
  have hkeyless : Settings.Keyless { Settings.standard with apiKey := some " " } := by
    rintro _ ⟨⟩
    exact (Blank.trim_eq_empty_iff " ").mp (by decide +kernel)
  have hkey : Settings.HasKey { Settings.standard with apiKey := some " key" } " key" :=
    ⟨rfl, 'k', by decide +kernel, by decide⟩
  have hwords : Command.read ["analyze", "t.csv", "--ai"] =
      .ok (.analyze ⟨["t.csv"], true, false⟩) := by decide +kernel
  obtain ⟨hanalyze, hserve, -, hnobody, hthrough⟩ := one_call_per_analysis
  have hc := hthrough _ _ hkey
  refine ⟨?_, ?_, (hnobody _ hkeyless).requests blank _ _ hwords hblank, ?_⟩
  · rw [hanalyze]
    decide +kernel
  · have hform : Server.formOf? 7 upload = some ⟨[⟨"t.csv", [97, 10, 49, 10]⟩], true⟩ :=
      (Server.uploads_wish (some failing)).formOf?_eq
    rw [hserve]
    simp only [List.flatMap_cons, List.flatMap_nil, Server.callsOf, hform, Option.map_some,
      Option.getD_some]
    decide +kernel
  · rw [hc.requests keyed _ _ hwords hkeyed]
    obtain ⟨p, hp⟩ :
        ∃ p, callsFor true (["t.csv"].map (analyzeFile keyed.tree keyed.here)) = [p] :=
      List.length_eq_one_iff.mp (by decide +kernel)
    obtain ⟨r, hr⟩ := hc.each ⟨⟨"", ""⟩, by decide +kernel⟩ p
    have hbearer : "Bearer " ++ Blank.trim " key" = "Bearer key" := by decide +kernel
    refine ⟨r, ?_, (hc.carries p r hr).authorization.trans hbearer⟩
    rw [hp]
    simp [Client.request?, hr, Except.toOption]

end TableProfile
