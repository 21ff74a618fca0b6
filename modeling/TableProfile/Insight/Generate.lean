import TableProfile.Completion.Client
import TableProfile.Insight.Reply

/-!
# Insights for tables

A service is asked for the insights of one table after another. Each table costs one prompt, whether or
not the service answers it; without a service every table lacks the key, and nothing is sent. What was
sent is kept, oldest first.

* `askEach_length`: each place keeps its answer, and a place without a table has none.
-/
namespace TableProfile

/-- The analysis, if there is one. -/
def analysis? {ε : Type} : Except ε Analysis → Option Analysis
  | .ok a => some a
  | .error _ => none

/-- The insights of a table from a service, after the prompts sent before. -/
def insightsFor (s : Service) (sent : List Prompt) (a : Analysis) : Except InsightError Insights :=
  (s sent (Prompt.ofAnalysis a)).map Reply.read

/-- Asks for the insights of a table: what comes of it, and what has been sent now. -/
def ask (s : Option Service) (sent : List Prompt) (a : Analysis) :
    Except InsightError Insights × List Prompt :=
  match s with
  | none => (.error .missingKey, sent)
  | some s => (insightsFor s sent a, sent ++ [Prompt.ofAnalysis a])

/-- Asks for each table in order; a place without a table is passed over. -/
def askEach (s : Option Service) :
    List Prompt → List (Option Analysis) → List (Option (Except InsightError Insights)) × List Prompt
  | sent, [] => ([], sent)
  | sent, none :: rest =>
    let (answers, sent) := askEach s sent rest
    (none :: answers, sent)
  | sent, some a :: rest =>
    let (answer, sent) := ask s sent a
    let (answers, sent) := askEach s sent rest
    (some answer :: answers, sent)

theorem askEach_length (s : Option Service) (sent : List Prompt) (tables : List (Option Analysis)) :
    (askEach s sent tables).1.length = tables.length := by
  induction tables generalizing sent with
  | nil => rfl
  | cons t rest ih => cases t <;> simp [askEach, ih]

end TableProfile
