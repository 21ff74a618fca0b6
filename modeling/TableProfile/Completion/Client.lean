import TableProfile.Completion.Answer
import TableProfile.Insight.Prompt
import TableProfile.Settings.Json

/-!
# The client of the completion API

A service answers a prompt with a text or an error, and what it answers may depend on the prompts it was
sent before. `Client.service` is the service that a client makes of an API: each prompt becomes one
request, with the key as a bearer token.
-/
namespace TableProfile

/-- What is answered to a prompt after the prompts that were sent before it, oldest first. -/
abbrev Service := List Prompt → Prompt → Except InsightError String

namespace Completion

structure Request where
  url : Url
  authorization : String
  body : Json
  deriving Repr

def Request.method : String := "POST"

def Request.contentType : String := "application/json"

/-- What the API answers to a request after earlier ones, oldest first; `none` if there is no answer. -/
abbrev Api := List Request → Request → Option Answer

structure Client where
  key : String
  baseUrl : String
  model : String
  temperature : Float
  deriving DecidableEq, Repr

namespace Client

/-- The client that settings describe; it needs a key. -/
def ofSettings (s : Settings) : Except InsightError Client :=
  match s.usableKey? with
  | some key => .ok ⟨key, s.baseUrl, s.model, s.temperature⟩
  | none => .error .missingKey

/-- The address that completions are asked of. -/
def address (c : Client) : String :=
  if c.baseUrl.toList.getLast? == some '/' then c.baseUrl ++ "chat/completions"
  else c.baseUrl ++ "/chat/completions"

def message (role content : String) : Json :=
  .ofFields [("role", .str role), ("content", .str content)]

def body (c : Client) (p : Prompt) : Json :=
  .ofFields
    [("model", .str c.model),
      ("messages", .arr [message "system" p.system, message "user" p.user]),
      ("temperature", if c.temperature.isFinite then .float c.temperature else .null)]

/-- A text that may be the value of a header: no control characters but tabs. -/
def isHeaderText (text : String) : Bool :=
  text.toList.all fun c => c == '\t' || (0x20 ≤ c.toNat && c.toNat != 0x7F)

/-- The request for a prompt, or why there is none: the address cannot be read, is of no host or not on
the web, or the key cannot be sent. -/
def request (c : Client) (p : Prompt) : Except InsightError Request :=
  match Url.read? c.address with
  | none => .error (.request "builder error")
  | some url =>
    let unfit : InsightError := .request ("builder error for url (" ++ url.text ++ ")")
    if !url.hasHost then .error unfit
    else if !isHeaderText c.key then .error (.request "builder error")
    else if !url.isWeb then .error unfit
    else .ok ⟨url, "Bearer " ++ c.key, c.body p⟩

def request? (c : Client) (p : Prompt) : Option Request := (c.request p).toOption

/-- The service that the client makes of an API. -/
def service (c : Client) (api : Api) : Service := fun earlier p =>
  match c.request p with
  | .error e => .error e
  | .ok r => classify r.url (api (earlier.filterMap c.request?) r)

end Client

end Completion

end TableProfile
