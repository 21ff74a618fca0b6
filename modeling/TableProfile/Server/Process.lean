import TableProfile.Server.Form
import TableProfile.Server.Page

/-!
# Processing uploaded files

Each file is analysed by itself; for those that have an analysis insights are asked for, in order, if
the form asks for them.
-/
namespace TableProfile

namespace Form

/-- The analyses of the files. -/
def analyses (f : Form) : List (Except AnalysisError Analysis) :=
  f.files.map fun file => analyzeBytes file.fileName file.content

/-- The tables that insights are asked for, each at the place of its file. -/
def tables (f : Form) : List (Option Analysis) :=
  f.analyses.map fun r => if f.wantsInsights then analysis? r else none

/-- What became of the files, and the prompts that have been sent now. -/
def process (s : Option Service) (sent : List Prompt) (f : Form) : List ProcessedFile × List Prompt :=
  let (answers, sent) := askEach s sent f.tables
  (((f.files.zip f.analyses).zip answers).map fun ((file, result), answer) =>
    ⟨file.fileName, result, answer⟩, sent)

end Form

end TableProfile
