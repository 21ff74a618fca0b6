import TableProfile.Proofs.Independence
import TableProfile.Proofs.JsonFields
import TableProfile.Proofs.ReplyLayout
import TableProfile.Proofs.Utf8Texts

/-!
# Classes of answers

Insights are asked for with one request. What comes of it depends on what comes back alone: nothing, an
answer outside the statuses 200 to 299, or one of these. Of the last ones those that complete the prompt
(`Answer.Completes`) have JSON as their body with a text in the message of the first choice
(`HoldsContent`). A look-up gives null where there is nothing to find, so a look-up along a path finds a
text exactly if each step of the path is there (`content_eq_some_iff`).

* `classified_classify`: every answer is in a class (`Classified`), and each class says what comes of it.
* `encode_bodyText`: the text shown of a body is the one that the body is the UTF-8 of, if there is one.
* `answer_classified`: what comes of an analysis, for every client, API and analysis.
-/
namespace TableProfile

/-! ## The path to the text of a completion -/

namespace Json

theorem field_eq_getD (key : String) (v : Json) : v.field key = (v.get? key).getD .null := by
  cases v <;> rfl

theorem str?_field_eq_some_iff {key text : String} {v : Json} :
    (v.field key).str? = some text ↔ v.get? key = some (.str text) := by
  rw [field_eq_getD]
  cases v.get? key with
  | none => exact ⟨nofun, nofun⟩
  | some u => cases u <;> simp [str?]

/-- A look-up in a field finds what a look-up in the value there finds. -/
theorem get?_field_eq_some_iff {key inner : String} {v u : Json} :
    (v.field key).get? inner = some u ↔ ∃ w, v.get? key = some w ∧ w.get? inner = some u := by
  rw [field_eq_getD]
  cases v.get? key with
  | none => exact ⟨nofun, fun ⟨_, hnone, _⟩ => nomatch hnone⟩
  | some w => simp

/-- A look-up in the first item finds something only in a list that is not empty. -/
theorem get?_item_zero_eq_some_iff {key : String} {v u : Json} :
    (v.item 0).get? key = some u ↔
      ∃ first rest, v = .arr (first :: rest) ∧ first.get? key = some u := by
  constructor
  · intro h
    cases v with
    | arr items =>
      cases items with
      | nil => cases h
      | cons first rest => exact ⟨first, rest, rfl, h⟩
    | _ => cases h
  · rintro ⟨first, rest, rfl, h⟩
    exact h

end Json

namespace Completion

/-- An object whose list of choices is not empty, and whose first choice has a message with a text. -/
def HoldsContent (v : Json) (text : String) : Prop :=
  ∃ first rest message, v.get? "choices" = some (.arr (first :: rest)) ∧
    first.get? "message" = some message ∧ message.get? "content" = some (.str text)

theorem content_eq_some_iff {v : Json} {text : String} :
    ((((v.field "choices").item 0).field "message").field "content").str? = some text ↔
      HoldsContent v text := by
  rw [Json.str?_field_eq_some_iff, Json.get?_field_eq_some_iff]
  constructor
  · rintro ⟨message, hmessage, hcontent⟩
    obtain ⟨first, rest, hchoices, hfirst⟩ := Json.get?_item_zero_eq_some_iff.mp hmessage
    rw [Json.field_eq_getD] at hchoices
    cases hget : v.get? "choices" with
    | none =>
      rw [hget] at hchoices
      cases hchoices
    | some choices =>
      rw [hget] at hchoices
      exact ⟨first, rest, message, hget.trans (congrArg some hchoices), hfirst, hcontent⟩
  · rintro ⟨first, rest, message, hchoices, hfirst, hcontent⟩
    refine ⟨message, Json.get?_item_zero_eq_some_iff.mpr ⟨first, rest, ?_, hfirst⟩, hcontent⟩
    rw [Json.field_eq_getD, hchoices]
    rfl

/-- A message has one text. -/
theorem HoldsContent.unique {v : Json} {text text' : String} (h : HoldsContent v text)
    (h' : HoldsContent v text') : text = text' :=
  Option.some.inj ((content_eq_some_iff.mpr h).symm.trans (content_eq_some_iff.mpr h'))

theorem messageContent_of_holds {v : Json} {text : String} (h : HoldsContent v text) :
    messageContent v = .ok (Blank.trim text) := by
  rw [messageContent, content_eq_some_iff.mpr h]

theorem messageContent_of_not_holds {v : Json} (h : ∀ text, ¬ HoldsContent v text) :
    messageContent v = .error (.invalidResponse "missing choices[0].message.content") := by
  unfold messageContent
  split
  · rename_i text htext
    exact absurd (content_eq_some_iff.mp htext) (h text)
  · rfl

/-! ## Answers -/

/-- A status that reports success. -/
def Answer.Succeeds (a : Answer) : Prop := 200 ≤ a.status ∧ a.status ≤ 299

/-- An answer that completes a prompt with a text. -/
def Answer.Completes (a : Answer) (text : String) : Prop :=
  a.Succeeds ∧ ∃ v, bodyJson? a.body = some v ∧ HoldsContent v text

/-- Why a body has no text of a completion in it. -/
inductive LacksContent (body : Bytes) : (cause : String) → Prop where
  | notJson : bodyJson? body = none →
      LacksContent body "Failed to parse JSON: error decoding response body"
  | noText (v : Json) : bodyJson? body = some v → (∀ text, ¬ HoldsContent v text) →
      LacksContent body "missing choices[0].message.content"

theorem LacksContent.unique {body : Bytes} {cause cause' : String} (h : LacksContent body cause)
    (h' : LacksContent body cause') : cause = cause' := by
  cases h with
  | notJson hnone =>
    cases h' with
    | notJson _ => rfl
    | noText v hv _ => exact absurd (hnone.symm.trans hv) nofun
  | noText v hv _ =>
    cases h' with
    | notJson hnone => exact absurd (hnone.symm.trans hv) nofun
    | noText _ _ _ => rfl

theorem Answer.Completes.not_lacks {a : Answer} {text : String} (h : a.Completes text) (cause : String) :
    ¬ LacksContent a.body cause := by
  obtain ⟨-, v, hv, hcontent⟩ := h
  rintro (hnone | ⟨w, hw, hnone⟩)
  · rw [hv] at hnone
    cases hnone
  · rw [hv] at hw
    cases hw
    exact hnone text hcontent

theorem isSuccess_iff (a : Answer) : a.isSuccess = true ↔ a.Succeeds := by
  rw [Answer.isSuccess, Answer.Succeeds, Bool.and_eq_true, decide_eq_true_eq, decide_eq_true_eq]
  omega

/-- What comes of what comes back, by classes. -/
inductive Classified : Option Answer → Except InsightError String → Prop where
  | unanswered (cause : String) : Classified none (.error (.request cause))
  | refused {a : Answer} : ¬ a.Succeeds → Classified (some a) (.error (.api a.status (bodyText a.body)))
  | lacking {a : Answer} {cause : String} : a.Succeeds → LacksContent a.body cause →
      Classified (some a) (.error (.invalidResponse cause))
  | completed {a : Answer} {text : String} : a.Completes text → Classified (some a) (.ok (Blank.trim text))

theorem classified_classify (url : Url) (received : Option Answer) :
    Classified received (classify url received) := by
  cases received with
  | none => exact .unanswered _
  | some a =>
    simp only [classify]
    by_cases hsucceeds : a.Succeeds
    · rw [(isSuccess_iff a).mpr hsucceeds, Bool.not_true, if_neg Bool.false_ne_true]
      cases hbody : bodyJson? a.body with
      | none => exact .lacking hsucceeds (.notJson hbody)
      | some v =>
        show Classified (some a) (messageContent v)
        by_cases hholds : ∃ text, HoldsContent v text
        · obtain ⟨text, htext⟩ := hholds
          rw [messageContent_of_holds htext]
          exact .completed ⟨hsucceeds, v, hbody, htext⟩
        · have hnone : ∀ text, ¬ HoldsContent v text := fun text h => hholds ⟨text, h⟩
          rw [messageContent_of_not_holds hnone]
          exact .lacking hsucceeds (.noText v hbody hnone)
    · rw [Bool.eq_false_iff.mpr (mt (isSuccess_iff a).mp hsucceeds), Bool.not_false, if_pos rfl]
      exact .refused hsucceeds

namespace Classified

variable {received : Option Answer} {x : Except InsightError String}

theorem ok_iff (h : Classified received x) (text : String) :
    x = .ok text ↔ ∃ a content, received = some a ∧ a.Completes content ∧ text = Blank.trim content := by
  constructor
  · rintro rfl
    cases h with
    | @completed a content hcompletes => exact ⟨a, content, rfl, hcompletes, rfl⟩
  · rintro ⟨a, content, rfl, hcompletes, rfl⟩
    cases h with
    | refused hfails => exact absurd hcompletes.1 hfails
    | lacking _ hlacks => exact absurd hlacks (hcompletes.not_lacks _)
    | @completed _ content' hcompletes' =>
      obtain ⟨-, v, hv, hcontent⟩ := hcompletes
      obtain ⟨-, v', hv', hcontent'⟩ := hcompletes'
      obtain rfl := Option.some.inj (hv.symm.trans hv')
      rw [hcontent.unique hcontent']

theorem api_iff (h : Classified received x) (status : Nat) (text : String) :
    x = .error (.api status text) ↔
      ∃ a, received = some a ∧ ¬ a.Succeeds ∧ status = a.status ∧ text = bodyText a.body := by
  constructor
  · rintro rfl
    cases h with
    | @refused a hfails => exact ⟨a, rfl, hfails, rfl, rfl⟩
  · rintro ⟨a, rfl, hfails, rfl, rfl⟩
    cases h with
    | refused _ => rfl
    | lacking hsucceeds _ => exact absurd hsucceeds hfails
    | completed hcompletes => exact absurd hcompletes.1 hfails

theorem invalidResponse_iff (h : Classified received x) (cause : String) :
    x = .error (.invalidResponse cause) ↔
      ∃ a, received = some a ∧ a.Succeeds ∧ LacksContent a.body cause := by
  constructor
  · rintro rfl
    cases h with
    | @lacking a _ hsucceeds hlacks => exact ⟨a, rfl, hsucceeds, hlacks⟩
  · rintro ⟨a, rfl, hsucceeds, hlacks⟩
    cases h with
    | refused hfails => exact absurd hsucceeds hfails
    | lacking _ hlacks' => rw [hlacks.unique hlacks']
    | completed hcompletes => exact absurd hlacks (hcompletes.not_lacks _)

theorem request_iff (h : Classified received x) :
    (∃ cause, x = .error (.request cause)) ↔ received = none := by
  constructor
  · rintro ⟨cause, rfl⟩
    cases h with
    | unanswered => rfl
  · rintro rfl
    cases h with
    | unanswered cause => exact ⟨cause, rfl⟩

theorem ne_missingKey (h : Classified received x) : x ≠ .error .missingKey := by
  rintro rfl
  cases h

end Classified

/-! ## Bodies of errors -/

theorem mem_foldl_read {c : Option Char} (bytes : Bytes) {r : Utf8.Reader} (h : c ∈ r.read) :
    c ∈ (bytes.foldl Utf8.step r).read := by
  induction bytes generalizing r with
  | nil => exact h
  | cons b rest ih => exact ih (Utf8.mem_step_read h b)

/-- Bytes that begin with one that begins no character are not well-formed. -/
theorem isValid_cons_malformed {b : UInt8} (h : Utf8.start b.toNat = .malformed) (rest : Bytes) :
    Utf8.isValid (b :: rest) = false := by
  have hfirst : none ∈ (Utf8.step ⟨none, []⟩ b).read := by
    simp [Utf8.step, Utf8.first, h]
  have hnone : none ∈ Utf8.scan (b :: rest) := by
    have hread := mem_foldl_read rest hfirst
    rw [Utf8.scan, List.foldl_cons]
    split
    · exact List.mem_reverse.mpr (List.mem_cons_of_mem _ hread)
    · exact List.mem_reverse.mpr hread
  rw [Utf8.isValid, List.all_eq_false]
  exact ⟨none, hnone, Bool.false_ne_true⟩

/-- The text shown of a well-formed body without a mark is the one whose bytes it is. -/
theorem encode_bodyText {body : Bytes} (h : Utf8.isValid body = true)
    (hmark : ¬ [0xEF, 0xBB, 0xBF] <+: body) : Utf8.encode (bodyText body) = body := by
  unfold bodyText
  split
  · exact absurd ⟨_, rfl⟩ hmark
  · rw [isValid_cons_malformed (by decide)] at h
    cases h
  · rw [isValid_cons_malformed (by decide)] at h
    cases h
  · exact Utf8.encode_decodeLossy h

/-! ## The service of a client -/

namespace Client

/-- What comes back for a prompt: nothing, if no request can be made of it or the request has no answer. -/
def received (c : Client) (api : Api) (sent : List Prompt) (p : Prompt) : Option Answer :=
  (c.request? p).bind fun r => api (sent.filterMap c.request?) r

/-- If a prompt makes no request, that is what the error says. -/
theorem request_error {c : Client} {p : Prompt} {e : InsightError} (h : c.request p = .error e) :
    ∃ cause, e = .request cause := by
  unfold request at h
  split at h
  · cases h
    exact ⟨_, rfl⟩
  · simp only at h
    split at h
    · cases h
      exact ⟨_, rfl⟩
    · split at h
      · cases h
        exact ⟨_, rfl⟩
      · split at h
        · cases h
          exact ⟨_, rfl⟩
        · cases h

theorem classified_service (c : Client) (api : Api) (sent : List Prompt) (p : Prompt) :
    Classified (c.received api sent p) (c.service api sent p) := by
  unfold received service request?
  cases hrequest : c.request p with
  | error e =>
    obtain ⟨cause, rfl⟩ := request_error hrequest
    exact .unanswered cause
  | ok r => exact classified_classify r.url (api (sent.filterMap c.request?) r)

end Client

end Completion

open Completion (Answer Api Client LacksContent bodyText)

/-! ## Insights -/

theorem map_ok_iff {α β : Type} {x : Except InsightError α} {f : α → β} {b : β} :
    x.map f = .ok b ↔ ∃ a, x = .ok a ∧ f a = b := by
  cases x <;> simp [Except.map]

theorem map_error_iff {α β : Type} {x : Except InsightError α} {f : α → β} {e : InsightError} :
    x.map f = .error e ↔ x = .error e := by
  cases x <;> simp [Except.map]

theorem ask_some (s : Service) (sent : List Prompt) (a : Analysis) :
    ask (some s) sent a =
      ((s sent (Prompt.ofAnalysis a)).map Reply.read, sent ++ [Prompt.ofAnalysis a]) := rfl

/-- **Every answer is in one class**, whatever is asked of whichever API. Insights come of an answer that
completes the prompt and are what its text reads as; a status outside 200 to 299 is told with the text of
the body, whatever the body is; any other answer is invalid, and told why; nothing that comes back is a
failed request. One prompt is sent, and a form keeps every analysis as it is, whatever is answered. -/
theorem answer_classified (c : Client) (api : Api) (sent : List Prompt) (a : Analysis) :
    let received := c.received api sent (Prompt.ofAnalysis a)
    let outcome := (ask (some (c.service api)) sent a).1
    (∀ insights, outcome = .ok insights ↔
        ∃ answer text, received = some answer ∧ answer.Completes text ∧ insights = Reply.read text) ∧
      (∀ status text, outcome = .error (.api status text) ↔
        ∃ answer, received = some answer ∧ ¬ answer.Succeeds ∧ status = answer.status ∧
          text = bodyText answer.body) ∧
      (∀ cause, outcome = .error (.invalidResponse cause) ↔
        ∃ answer, received = some answer ∧ answer.Succeeds ∧ LacksContent answer.body cause) ∧
      ((∃ cause, outcome = .error (.request cause)) ↔ received = none) ∧
      outcome ≠ .error .missingKey ∧
      (ask (some (c.service api)) sent a).2 = sent ++ [Prompt.ofAnalysis a] ∧
      (∀ f : Form, (f.process (some (c.service api)) sent).1.map (fun p => (p.fileName, p.analysis)) =
        f.files.map fun file => (file.fileName, analyzeBytes file.fileName file.content)) ∧
      ∀ body, Utf8.isValid body = true → ¬ [0xEF, 0xBB, 0xBF] <+: body →
        Utf8.encode (bodyText body) = body := by
  intro received outcome
  have hclass := c.classified_service api sent (Prompt.ofAnalysis a)
  have houtcome : outcome = (c.service api sent (Prompt.ofAnalysis a)).map Reply.read := by
    show (ask (some (c.service api)) sent a).1 = _
    rw [ask_some]
  rw [houtcome]
  refine ⟨fun insights => ?_, fun status text => ?_, fun cause => ?_, ?_, ?_, ?_, fun f => ?_,
    fun body => Completion.encode_bodyText⟩
  · rw [map_ok_iff]
    constructor
    · rintro ⟨shown, hshown, rfl⟩
      obtain ⟨answer, text, hanswer, hcompletes, rfl⟩ := (hclass.ok_iff shown).mp hshown
      exact ⟨answer, text, hanswer, hcompletes, Reply.read_trim text⟩
    · rintro ⟨answer, text, hanswer, hcompletes, rfl⟩
      exact ⟨Blank.trim text, (hclass.ok_iff _).mpr ⟨answer, text, hanswer, hcompletes, rfl⟩,
        Reply.read_trim text⟩
  · rw [map_error_iff]
    exact hclass.api_iff status text
  · rw [map_error_iff]
    exact hclass.invalidResponse_iff cause
  · simp only [map_error_iff]
    exact hclass.request_iff
  · rw [ne_eq, map_error_iff]
    exact hclass.ne_missingKey
  · rw [ask_some]
  · exact Form.process_apart _ sent f

/-- One body under two statuses: an error of the API under 500, and a completion under 200. -/
theorem answer_classified_statuses :
    let c : Client := ⟨"k", "http://h", "m", Number.ofInt 0⟩
    let body : Bytes :=
      "\x7b\"choices\":[\x7b\"message\":\x7b\"content\":\"x\"\x7d\x7d]\x7d".toList.map fun c =>
        UInt8.ofNat c.toNat
    let api : Api := fun earlier _ => some ⟨if earlier.isEmpty then 500 else 200, body⟩
    let a : Analysis := ⟨⟨"t.csv", none, 0, 0, [], [], 0⟩, ⟨0, [], [], ⟨[], []⟩⟩⟩
    (ask (some (c.service api)) [] a).1 = .error (.api 500 (bodyText body)) ∧
      (ask (some (c.service api)) [Prompt.ofAnalysis a] a).1 = .ok (Reply.read "x") ∧
      Utf8.encode (bodyText body) = body := by
  intro c body api a
  obtain ⟨r, hr⟩ : ∃ r, c.request? (Prompt.ofAnalysis a) = some r :=
    Option.isSome_iff_exists.mp (by decide +kernel)
  have hfirst : c.received api [] (Prompt.ofAnalysis a) = some ⟨500, body⟩ := by
    rw [Client.received, hr]
    rfl
  have hsecond : c.received api [Prompt.ofAnalysis a] (Prompt.ofAnalysis a) = some ⟨200, body⟩ := by
    rw [Client.received, hr]
    simp [api, hr]
  have hvalid : Utf8.isValid body = true := by decide
  have hcompletes : (⟨200, body⟩ : Answer).Completes "x" := by
    have hscan : (Utf8.scan body).map (·.getD '\uFFFD') =
        "\x7b\"choices\":[\x7b\"message\":\x7b\"content\":\"x\"\x7d\x7d]\x7d".toList := by decide
    have htext : Utf8.decode? body =
        some "\x7b\"choices\":[\x7b\"message\":\x7b\"content\":\"x\"\x7d\x7d]\x7d" := by
      rw [Utf8.decode?, if_pos hvalid, Utf8.decodeLossy, hscan, String.ofList_toList]
    have hcontent : ((Json.read? "\x7b\"choices\":[\x7b\"message\":\x7b\"content\":\"x\"\x7d\x7d]\x7d").bind
        fun v => ((((v.field "choices").item 0).field "message").field "content").str?) = some "x" := by
      decide +kernel
    obtain ⟨v, hv, hfield⟩ := Option.bind_eq_some_iff.mp hcontent
    refine ⟨⟨by decide, by decide⟩, v, ?_, Completion.content_eq_some_iff.mp hfield⟩
    rw [Completion.bodyJson?, htext, Option.bind_some, hv]
  obtain ⟨-, happ, -, -, -, -, -, hencode⟩ := answer_classified c api [] a
  obtain ⟨hok, -⟩ := answer_classified c api [Prompt.ofAnalysis a] a
  refine ⟨(happ 500 _).mpr ⟨_, hfirst, fun h => absurd h.2 (by decide), rfl, rfl⟩,
    (hok _).mpr ⟨_, "x", hsecond, hcompletes, rfl⟩, hencode body hvalid (by decide)⟩

end TableProfile
