import TableProfile.Server.Multipart

/-!
# The upload form

A form has files and a wish for insights. Every part counts toward the limit of an upload, whatever its
name; the parts named `files` that have a file name are the files, and the last part named
`include_ai_insights` is the wish. Other parts are passed over.
-/
namespace TableProfile

structure UploadedFile where
  fileName : String
  content : Bytes
  deriving DecidableEq, Repr

structure Form where
  files : List UploadedFile
  wantsInsights : Bool
  deriving DecidableEq, Repr

/-- Why there is no form. -/
inductive FormFault where
  | tooLarge (limit : Nat)
  | malformed (cause : MultipartFault)
  deriving DecidableEq, Repr

namespace FormFault

def message : FormFault → String
  | tooLarge limit => "Upload exceeds the " ++ toString limit ++ " byte limit"
  | malformed cause => cause.message

def status : FormFault → Nat
  | tooLarge _ => 413
  | malformed cause => cause.status

end FormFault

namespace Form

def empty : Form := ⟨[], false⟩

/-- Texts that mean yes, in any case and with white space around them. -/
def isYes (text : String) : Bool :=
  ["true", "on", "1", "yes"].contains (String.ofList ((Blank.trimChars text.toList).map Char.toLower))

/-- A form with one more part, whose content is `bytes`. -/
def add (f : Form) (p : Part) (bytes : Bytes) : Form :=
  match p.name, p.fileName with
  | some "files", some fileName =>
    if fileName == "" then f else { f with files := f.files ++ [⟨fileName, bytes⟩] }
  | some "include_ai_insights", _ => { f with wantsInsights := isYes (Utf8.decodeLossy bytes) }
  | _, _ => f

/-- The bytes of chunks and how many bytes have been read with them, unless that exceeds the limit. -/
def readChunks (limit : Nat) : (total : Nat) → (done : Bytes) → List Bytes → Option (Nat × Bytes)
  | total, done, [] => some (total, done)
  | total, done, chunk :: rest =>
    let total := total + chunk.length
    if limit < total then none else readChunks limit total (done ++ chunk) rest

/-- Reads parts into a form; `total` bytes have been read before. -/
def readParts (limit : Nat) : (total : Nat) → Form → List Part → Except FormFault Form
  | _, f, [] => .ok f
  | total, f, p :: rest =>
    match readChunks limit total [] p.chunks with
    | none => .error (.tooLarge limit)
    | some (total, bytes) => readParts limit total (f.add p bytes) rest

/-- Reads an upload of at most `limit` bytes. -/
def read (limit : Nat) (u : Upload) : Except FormFault Form :=
  match readParts limit 0 .empty u.parts, u.fault with
  | .error e, _ => .error e
  | .ok _, some cause => .error (.malformed cause)
  | .ok f, none => .ok f

end Form

end TableProfile
