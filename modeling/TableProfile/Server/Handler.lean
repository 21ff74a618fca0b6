import TableProfile.Server.Json

/-!
# The upload server

The server answers requests one after another and keeps the prompts it has sent. It has five routes,
each for one method; everything else is not found. The two routes for uploads read the same form and
differ only in how they show what became of it.
-/
namespace TableProfile

structure Server where
  /-- Who is asked for insights; without a key there is nobody. -/
  service : Option Service
  /-- The most bytes that one upload may hold. -/
  maxUpload : Nat

namespace Server

structure Request where
  method : String
  target : String
  contentType : Option Bytes
  body : Bytes
  deriving DecidableEq, Repr

structure Response where
  status : Nat
  contentType : Option String
  body : String
  deriving DecidableEq, Repr

inductive Route where
  | form | health | description | analyzeJson | analyzePage
  deriving DecidableEq, Repr

/-! ## Routes -/

def hexDigit? (c : Char) : Option Nat :=
  if c.isDigit then some (c.toNat - '0'.toNat)
  else if 'a' ≤ c.toLower && c.toLower ≤ 'f' then some (c.toLower.toNat - 'a'.toNat + 10)
  else none

/-- A path with percent escapes read, but those of a percent sign, a slash and a plus sign. -/
def decodePath : List Char → List Char
  | '%' :: a :: b :: rest =>
    match hexDigit? a, hexDigit? b with
    | some high, some low =>
      let c := Char.ofNat (16 * high + low)
      if c == '%' || c == '/' || c == '+' then '%' :: a :: b :: decodePath rest
      else c :: decodePath rest
    | _, _ => '%' :: decodePath (a :: b :: rest)
  | c :: rest => c :: decodePath rest
  | [] => []

/-- The path of a request's target, which is a whole address unless it begins with a slash. -/
def pathOf (target : String) : String :=
  let cs := target.toList.takeWhile fun c => c != '?' && c != '#'
  let own := match cs.head? == some '/', cs.dropWhile (· != ':') with
    | false, ':' :: '/' :: '/' :: rest => rest.dropWhile (· != '/')
    | _, _ => cs
  String.ofList (decodePath (if own.isEmpty then ['/'] else own))

def route? (method target : String) : Option Route :=
  match method, pathOf target with
  | "GET", "/" => some .form
  | "GET", "/health" => some .health
  | "GET", "/api" => some .description
  | "POST", "/analyze-csv" => some .analyzeJson
  | "POST", "/analyze" => some .analyzePage
  | _, _ => none

/-! ## Answers -/

def Response.json (status : Nat) (v : Json) : Response := ⟨status, some "application/json", v.compact⟩

def Response.page (status : Nat) (pieces : List Markup.Piece) : Response :=
  ⟨status, some "text/html; charset=utf-8", Markup.render pieces⟩

def Response.plain (status : Nat) (text : String) : Response :=
  ⟨status, some "text/plain; charset=utf-8", text⟩

def Response.notFound : Response := ⟨404, none, ""⟩

def healthJson : Json :=
  .ofFields [("status", .str "healthy"), ("message", .str "CSV Insight API is running")]

def descriptionJson : Json :=
  .ofFields
    [("message", .str "CSV Insight API"),
      ("endpoints", .ofFields
        [("POST /analyze-csv", .str "Analyze uploaded CSV file(s), JSON response"),
          ("POST /analyze", .str "Analyze uploaded CSV file(s), HTML response"),
          ("GET /health", .str "Health check"),
          ("GET /", .str "Web interface"),
          ("GET /api", .str "This documentation")]),
      ("parameters", .ofFields
        [("files", .str "Upload CSV file(s) (required)"),
          ("include_ai_insights",
            .str "Include AI-powered insights (true/false, default: false)")])]

/-- The answer to an upload without files. -/
def noFiles (s : Server) (page : Bool) : Response :=
  if page then .page 400 (Page.upload s.service.isSome)
  else .json 400 (.ofFields [("error", .str "No files uploaded")])

/-- The answer to a form, as a page or as JSON, and the prompts that have been sent now. -/
def answerForm (s : Server) (page : Bool) (sent : List Prompt) (f : Form) : Response × List Prompt :=
  if f.files.isEmpty then (s.noFiles page, sent)
  else
    let (files, sent) := f.process s.service sent
    (if page then .page 200 (Page.results files) else .json 200 (resultsJson files), sent)

/-- The answer to an upload. -/
def answerUpload (s : Server) (page : Bool) (sent : List Prompt) (u : Upload) :
    Response × List Prompt :=
  match Form.read s.maxUpload u with
  | .error e => (.plain e.status e.message, sent)
  | .ok f => s.answerForm page sent f

/-- The answer to a request. -/
def answer (s : Server) (sent : List Prompt) (r : Request) : Response × List Prompt :=
  match route? r.method r.target with
  | none => (.notFound, sent)
  | some .form => (.page 200 (Page.upload s.service.isSome), sent)
  | some .health => (.json 200 healthJson, sent)
  | some .description => (.json 200 descriptionJson, sent)
  | some .analyzeJson => s.answerUpload false sent (Multipart.read r.contentType r.body)
  | some .analyzePage => s.answerUpload true sent (Multipart.read r.contentType r.body)

/-- The answers to requests in order. -/
def serve (s : Server) : List Prompt → List Request → List Response × List Prompt
  | sent, [] => ([], sent)
  | sent, r :: rest =>
    let (response, sent) := s.answer sent r
    let (responses, sent) := s.serve sent rest
    (response :: responses, sent)

/-- The server that settings describe, with what the completion API answers. Without a key no client is
tried. -/
def ofSettings (settings : Settings) (api : Completion.Api) : Server where
  service :=
    if settings.insightsEnabled then
      match Completion.Client.ofSettings settings with
      | .ok client => some (client.service api)
      | .error _ => none
    else none
  maxUpload := settings.maxUpload

end Server

end TableProfile
