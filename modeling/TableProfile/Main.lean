import TableProfile.Command.Run

/-!
# The program

`main` gathers what a run depends on, lets it happen, and prints what came of it. Of the file system only
the entries that the command line may name are read, and the two files of settings. There is no network
here: requests for completions have no answer, and the upload server cannot listen.
-/
namespace TableProfile.Program

/-! ## Files -/

/-- What stands at a place: a file, a directory, or nothing that can be read. -/
def node? (p : Path) : IO (Option Node) := do
  try
    return some (.file (← IO.FS.readBinFile p.text).toList)
  catch _ =>
    try
      let place ← IO.FS.realPath p.text
      let _ ← place.readDir
      return some .directory
    catch _ => return none

/-- The tree with what stands at a place. -/
def withNode (t : FileTree) (p : Path) : IO FileTree := do
  if t.directories.contains p || t.files.any (·.1 == p) then return t
  match ← node? p with
  | some (.file content) => return { t with files := t.files ++ [(p, content)] }
  | some .directory => return { t with directories := t.directories ++ [p] }
  | none => return t

/-- The components of a path text. -/
def components (path : String) : List String :=
  (Split.splitAt '/' path).filter fun c => c != "" && c != "."

/-- The places that a path text passes, as seen from a directory. -/
def places (here : Path) (path : String) : List Path :=
  let start : Path := if path.toList.head? == some '/' then [] else here
  ((components path).foldl
    (fun (now, passed) c =>
      let next : Path := if c == ".." then now.dropLast else now ++ [c]
      (next, passed ++ [next]))
    (start, [start])).2

/-- The tree with everything below a directory. -/
partial def withBelow (t : FileTree) (p : Path) : IO FileTree := do
  let place ← IO.FS.realPath p.text
  (← place.readDir).foldlM
    (fun t entry => do
      let next := p ++ [entry.fileName]
      let t ← withNode t next
      if t.directories.contains next then withBelow t next else return t)
    t

/-- The tree with what a word of the command line may name: the steps of a path, and if it leads to a
directory or is a pattern, what is below. -/
def withWord (here : Path) (t : FileTree) (word : String) : IO FileTree := do
  let passed := places here word
  let t ← passed.foldlM withNode t
  match t.walk? here word with
  | none => return t
  | some place =>
    if t.isDirectory place then withBelow t place
    else if Pattern.isPattern word then withBelow t here
    else return t

/-- The tree with the nearest files of a name. -/
def withNearest (here : Path) (t : FileTree) (name : String) : IO FileTree :=
  (List.range (here.length + 1)).foldlM (fun t n => withNode t (here.take n ++ [name])) t

/-! ## Environment -/

/-- Names and values out of the block that the system keeps of them. -/
def readEnvironment (block : List Char) : Settings.Environment :=
  (Split.pieces '\x00' [] block).filterMap fun entry =>
    if entry.contains '=' then
      let (name, value) := Split.once '=' entry
      some (String.ofList name, String.ofList value)
    else none

/-- The environment; if the system shows no block, the variables that settings are made of. -/
def environment : IO Settings.Environment := do
  try
    return readEnvironment (Utf8.decodeLossy (← IO.FS.readBinFile "/proc/self/environ").toList).toList
  catch _ =>
    let names := ["OPENAI_API_KEY", "OPENAI_BASE_URL", "OPENAI_MODEL", "CSV_INSIGHT_HOST",
      "CSV_INSIGHT_PORT", "CSV_INSIGHT_MAX_UPLOAD_BYTES", "CSV_INSIGHT_LLM_TEMPERATURE",
      "CSV_INSIGHT_LLM_TIMEOUT_SECS", "CSV_INSIGHT_OPENAI_API_KEY", "CSV_INSIGHT_OPENAI_BASE_URL",
      "CSV_INSIGHT_OPENAI_MODEL"]
    names.filterMapM fun name => return (← IO.getEnv name).map (name, ·)

/-! ## Runs -/

def surroundings (words : List String) : IO Command.Surroundings := do
  let here := components (← IO.currentDir).toString
  let t ← words.foldlM (withWord here) ⟨[], [here]⟩
  let t ← [EnvFile.fileName, Settings.fileName].foldlM (withNearest here) t
  return { tree := t, here := here, environment := ← environment, api := fun _ _ => none }

end TableProfile.Program

def main (words : List String) : IO UInt32 := do
  let run := TableProfile.Command.run (← TableProfile.Program.surroundings words) words
  IO.print run.output
  IO.eprint run.complaint
  match run.ending with
  | .exit code => return code.toUInt32
  | .serve settings =>
    IO.eprintln ("Error: cannot listen on " ++ settings.host ++ ":" ++ toString settings.port)
    return 1
