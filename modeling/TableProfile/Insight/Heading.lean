import TableProfile.Insight.Section
import TableProfile.Text.Character
import TableProfile.Text.Upper

/-!
# Headings of a reply

A heading is a line that opens a section: behind white space, marks (`#`, `*`), a number with its points
or brackets, and more marks, it begins with one of the openings of the section, in any case and with
hyphens for spaces.
-/
namespace TableProfile.Heading

/-- How headings begin, in upper case, and the sections they open. -/
def openings : List (String × Section) :=
  [("HIGH LEVEL SUMMARY", .summary),
    ("KEY TRENDS", .trends),
    ("ANOMALIES", .anomalies),
    ("NATURAL LANGUAGE", .beginners),
    ("EXPLANATION FOR BEGINNERS", .beginners),
    ("BEGINNER", .beginners)]

/-- A mark before the number. -/
def isMark (c : Char) : Bool := c == '#' || c == '*' || c == ' '

/-- What ends a number. -/
def isStop (c : Char) : Bool := c == '.' || c == ')'

/-- A mark behind the number. -/
def isInnerMark (c : Char) : Bool := c == '*' || c == ' '

/-- The line without what may stand before the words of a heading. -/
def words (line : List Char) : List Char :=
  ((((Blank.trimChars line).dropWhile isMark).dropWhile Char.isDigit).dropWhile isStop).dropWhile isInnerMark

/-- The words in upper case, with spaces for hyphens. -/
def normal (words : List Char) : List Char :=
  (Upper.upperChars words).map fun c => if c == '-' then ' ' else c

/-- The section that a line opens. -/
def opens? (line : List Char) : Option Section :=
  let text := normal (words line)
  (openings.find? fun o => o.1.toList.isPrefixOf text).map (·.2)

end TableProfile.Heading
