/-!
# The sections of insights

Insights are four texts, one for each section. A section without insights holds the empty text.

* `Insights.get_set_self`, `Insights.get_set_of_ne`: setting a section changes that section alone.
-/
namespace TableProfile

inductive Section where
  | summary | trends | anomalies | beginners
  deriving DecidableEq, Repr

namespace Section

/-- The sections in display order. -/
def all : List Section := [summary, trends, anomalies, beginners]

def title : Section → String
  | summary => "HIGH-LEVEL SUMMARY"
  | trends => "KEY TRENDS"
  | anomalies => "ANOMALIES OR DATA ISSUES"
  | beginners => "EXPLANATION FOR BEGINNERS"

end Section

/-- The texts of the four sections. -/
structure Insights where
  summary : String
  trends : String
  anomalies : String
  beginners : String
  deriving DecidableEq, Repr

namespace Insights

def empty : Insights := ⟨"", "", "", ""⟩

def get (i : Insights) : Section → String
  | .summary => i.summary
  | .trends => i.trends
  | .anomalies => i.anomalies
  | .beginners => i.beginners

def set (i : Insights) (s : Section) (text : String) : Insights :=
  match s with
  | .summary => { i with summary := text }
  | .trends => { i with trends := text }
  | .anomalies => { i with anomalies := text }
  | .beginners => { i with beginners := text }

theorem get_set_self (i : Insights) (s : Section) (text : String) : (i.set s text).get s = text := by
  cases s <;> rfl

theorem get_set_of_ne (i : Insights) {s t : Section} (h : t ≠ s) (text : String) :
    (i.set s text).get t = i.get t := by
  cases s <;> cases t <;> first | rfl | exact absurd rfl h

/-- The sections that hold a text, in display order. -/
def sections (i : Insights) : List (Section × String) :=
  (Section.all.map fun s => (s, i.get s)).filter (·.2 != "")

def isEmpty (i : Insights) : Bool := i.sections.isEmpty

end Insights

end TableProfile
