import TableProfile.Completion.Url
import TableProfile.Json.Reader
import TableProfile.Text.Character
import TableProfile.Text.Utf16

/-!
# Answers of the completion API

An answer is classified once (`classify`): without an answer the request failed; an answer outside the
statuses 200 to 299 is an API error, whatever its body; of any other the body must be JSON with a text at
`choices[0].message.content`.
-/
namespace TableProfile

/-- Why there are no insights. -/
inductive InsightError where
  | missingKey
  | request (cause : String)
  | api (status : Nat) (body : String)
  | invalidResponse (cause : String)
  deriving DecidableEq, Repr

def InsightError.message : InsightError → String
  | .missingKey =>
    "OpenAI API key not found. Set the OPENAI_API_KEY environment variable to enable AI insights"
  | .request cause => "Request failed: " ++ cause
  | .api status body => "API error (" ++ toString status ++ "): " ++ body
  | .invalidResponse cause => "Invalid response format: " ++ cause

namespace Completion

/-- A status and a body. -/
structure Answer where
  status : Nat
  body : Bytes
  deriving DecidableEq, Repr

def Answer.isSuccess (a : Answer) : Bool := 200 ≤ a.status && a.status < 300

/-- The text of a completion, without white space around it. -/
def messageContent (v : Json) : Except InsightError String :=
  match ((((v.field "choices").item 0).field "message").field "content").str? with
  | some text => .ok (Blank.trim text)
  | none => .error (.invalidResponse "missing choices[0].message.content")

/-- The JSON value of a body. -/
def bodyJson? (body : Bytes) : Option Json := (Utf8.decode? body).bind Json.read?

/-- The text of a body, in the encoding that a mark at its beginning tells, which is UTF-8 without one. -/
def bodyText : Bytes → String
  | 0xEF :: 0xBB :: 0xBF :: rest => Utf8.decodeLossy rest
  | 0xFF :: 0xFE :: rest => Utf16.decodeLossy false rest
  | 0xFE :: 0xFF :: rest => Utf16.decodeLossy true rest
  | body => Utf8.decodeLossy body

/-- What an answer to a request for `url` means. -/
def classify (url : Url) : Option Answer → Except InsightError String
  | none => .error (.request ("error sending request for url (" ++ url.text ++ ")"))
  | some a =>
    if !a.isSuccess then .error (.api a.status (bodyText a.body))
    else
      match bodyJson? a.body with
      | none => .error (.invalidResponse "Failed to parse JSON: error decoding response body")
      | some v => messageContent v

end Completion

end TableProfile
