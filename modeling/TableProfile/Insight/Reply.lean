import TableProfile.Insight.Heading
import TableProfile.Text.Line

/-!
# Reading a reply

A reply is cut at its headings into blocks (`blocks`), each a section with the lines that follow its
heading; what stands before the first heading belongs to no block. Of those lines, blank ones and rules
of hyphens are left out and the others kept as they stand. A section gets the text of its last block.

If no section gets a text, the whole reply is the summary.
-/
namespace TableProfile.Reply

/-- A line that is neither blank nor a rule of hyphens. -/
def isContent (line : List Char) : Bool :=
  let trimmed := Blank.trimChars line
  !trimmed.isEmpty && !"---".toList.isPrefixOf trimmed

/-- A section and the lines under its heading. -/
structure Block where
  name : Section
  lines : List (List Char)
  deriving DecidableEq, Repr

/-- The lines up to the first heading, without those that are no content. -/
def content : List (List Char) → List (List Char)
  | [] => []
  | line :: rest =>
    if (Heading.opens? line).isSome then []
    else if isContent line then line :: content rest
    else content rest

/-- The blocks of a reply, in order. -/
def blocks : List (List Char) → List Block
  | [] => []
  | line :: rest =>
    match Heading.opens? line with
    | some s => ⟨s, content rest⟩ :: blocks rest
    | none => blocks rest

/-- Lines with a line feed between them. -/
def joined (lines : List (List Char)) : List Char := List.intercalate ['\n'] lines

/-- The text of a block. -/
def Block.text (b : Block) : String := String.ofList (Blank.trimChars (joined b.lines))

/-- The sections as the blocks leave them, the later of two blocks of one section. -/
def fill (blocks : List Block) : Insights :=
  blocks.foldl (fun i b => i.set b.name b.text) .empty

/-- The insights of a reply. -/
def read (text : String) : Insights :=
  let filled := fill (blocks (Line.linesOf text.toList))
  if filled.isEmpty then filled.set .summary (Blank.trim text) else filled

end TableProfile.Reply
