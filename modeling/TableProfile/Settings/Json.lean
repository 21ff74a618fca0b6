import TableProfile.Json.Value
import TableProfile.Text.Character

/-!
# Settings

What a run can be configured with, the values that hold where nothing is configured, and settings as
JSON.
-/
namespace TableProfile

structure Settings where
  /-- The key of the completion API. -/
  apiKey : Option String
  baseUrl : String
  model : String
  temperature : Float
  /-- Seconds to wait for a completion. -/
  timeout : Nat
  /-- The address that the server listens on. -/
  host : String
  port : Nat
  /-- The most bytes that one upload may hold. -/
  maxUpload : Nat
  deriving DecidableEq, Repr

namespace Settings

def standard : Settings where
  apiKey := none
  baseUrl := "https://api.openai.com/v1"
  model := "gpt-4o-mini"
  temperature := 0.3
  timeout := 60
  host := "127.0.0.1"
  port := 5001
  maxUpload := 52428800

/-- The key without white space around it, if anything is left of it. -/
def usableKey? (s : Settings) : Option String :=
  s.apiKey.bind fun key => if Blank.trim key == "" then none else some (Blank.trim key)

/-- Insights can be had with a key that is not blank. -/
def insightsEnabled (s : Settings) : Bool := s.apiKey.any fun key => Blank.trim key != ""

def toJson (s : Settings) : Json :=
  .ofFields
    [("openai_api_key", .ofOption .str s.apiKey), ("openai_base_url", .str s.baseUrl),
      ("openai_model", .str s.model), ("llm_temperature", .float s.temperature),
      ("llm_timeout_secs", .nat s.timeout), ("host", .str s.host), ("port", .nat s.port),
      ("max_upload_bytes", .nat s.maxUpload)]

end Settings

end TableProfile
