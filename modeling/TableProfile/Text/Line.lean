/-!
# Pieces and lines of a text

`splitAt` gives the pieces between the occurrences of a separator: one more than there are occurrences,
so the empty text has one empty piece.

A line ends at a line feed, and a carriage return right before that line feed belongs to the ending.
A text that ends in a line feed has no empty last line; a carriage return at the very end of a text
that has no line feed after it is part of the line.
-/
namespace TableProfile.Split

/-- The pieces of a text; `begun` is the piece read so far, last character first. -/
def pieces (sep : Char) (begun : List Char) : List Char → List (List Char)
  | [] => [begun.reverse]
  | c :: rest =>
    if c = sep then begun.reverse :: pieces sep [] rest else pieces sep (c :: begun) rest

/-- The pieces between the occurrences of `sep`. -/
def splitAt (sep : Char) (s : String) : List String :=
  (pieces sep [] s.toList).map String.ofList

/-- What stands before the first `sep` and behind it; without one, all and nothing. -/
def once (sep : Char) (cs : List Char) : List Char × List Char :=
  (cs.takeWhile (· != sep), (cs.dropWhile (· != sep)).drop 1)

end TableProfile.Split

namespace TableProfile.Line

/-- A piece that a line feed ended, without the carriage return before it. -/
def withoutReturn (piece : List Char) : List Char :=
  match piece.reverse with
  | '\r' :: rest => rest.reverse
  | _ => piece

/-- The pieces as lines: all but the last were ended by a line feed. -/
def ofPieces : List (List Char) → List (List Char)
  | [] => []
  | [last] => if last.isEmpty then [] else [last]
  | piece :: rest => withoutReturn piece :: ofPieces rest

def linesOf (cs : List Char) : List (List Char) := ofPieces (Split.pieces '\n' [] cs)

/-- The lines of a text, without their endings. -/
def lines (s : String) : List String := (linesOf s.toList).map String.ofList

end TableProfile.Line
