import TableProfile.Files.Tree

/-!
# Patterns of paths

A path text with `*`, `?` or `[` in it is a pattern: it stands for all files that it leads to, which need
not include the file of that very name. In a component `*` matches any characters, `?` one, and brackets
one of (or, after `!`, none of) the characters and ranges in them; a component `**` stands for any number
of directories, one in the other.

A pattern is followed one component at a time (`Step.places`), from each place that the components before
lead to, so the files come in the order of a walk that enters each directory where its name stands. A
component without special characters leads where it leads in a path; any other matches names.
-/
namespace TableProfile

inductive PatternToken where
  | literal (c : Char)
  | one
  | many
  | within (ranges : List (Char × Char))
  | outside (ranges : List (Char × Char))
  deriving DecidableEq, Repr

namespace Pattern

def isSpecial (c : Char) : Bool := c == '*' || c == '?' || c == '['

/-- Whether a path text is a pattern. -/
def isPattern (path : String) : Bool := path.toList.any isSpecial

/-! ## Tokens of a component -/

/-- The ranges inside brackets; a single character is a range of its own. -/
def ranges : List Char → List (Char × Char)
  | low :: '-' :: high :: rest => (low, high) :: ranges rest
  | c :: rest => (c, c) :: ranges rest
  | [] => []

/-- An open bracket: whether it stands for all other characters, and those in it so far, last first. -/
structure Bracket where
  negated : Bool
  held : List Char

def Bracket.token (b : Bracket) : PatternToken :=
  if b.negated then .outside (ranges b.held.reverse) else .within (ranges b.held.reverse)

/-- The tokens of a component. The first character in brackets does not close them, and none can be left
open; two stars in a row are no part of a component. -/
def tokens? : Option Bracket → List Char → Option (List PatternToken)
  | some b, ']' :: rest => (tokens? none rest).map (b.token :: ·)
  | some b, c :: rest => tokens? (some ⟨b.negated, c :: b.held⟩) rest
  | some _, [] => none
  | none, '[' :: '!' :: c :: rest => tokens? (some ⟨true, [c]⟩) rest
  | none, '[' :: c :: rest => if c == '!' then none else tokens? (some ⟨false, [c]⟩) rest
  | none, ['['] => none
  | none, '*' :: rest =>
    if rest.head? == some '*' then none else (tokens? none rest).map (.many :: ·)
  | none, '?' :: rest => (tokens? none rest).map (.one :: ·)
  | none, c :: rest => (tokens? none rest).map (.literal c :: ·)
  | none, [] => some []

def inRanges (rs : List (Char × Char)) (c : Char) : Bool := rs.any fun (low, high) => low ≤ c && c ≤ high

/-- Whether tokens match a text. -/
def matchesText : List PatternToken → List Char → Bool
  | [], cs => cs.isEmpty
  | .many :: tokens, [] => matchesText tokens []
  | .many :: tokens, c :: cs => matchesText tokens (c :: cs) || matchesText (.many :: tokens) cs
  | _ :: _, [] => false
  | .literal l :: tokens, c :: cs => l == c && matchesText tokens cs
  | .one :: tokens, _ :: cs => matchesText tokens cs
  | .within rs :: tokens, c :: cs => inRanges rs c && matchesText tokens cs
  | .outside rs :: tokens, c :: cs => !inRanges rs c && matchesText tokens cs
termination_by tokens cs => (tokens.length, cs.length)

/-! ## Steps -/

/-- One component of a pattern, together with any `**` before it. -/
inductive Step where
  /-- A component without special characters. -/
  | named (component : String)
  /-- What stands right below and matches. -/
  | among (tokens : List PatternToken)
  /-- What stands below at any depth and matches. -/
  | anywhere (tokens : List PatternToken)

/-- The last component of a place matches. -/
def matchesName (tokens : List PatternToken) (p : Path) : Bool :=
  match p.getLast? with
  | some name => matchesText tokens name.toList
  | none => false

/-- Where a step leads from a place. A pattern that begins with a point may also match the directory
itself and the one above it, which come first. -/
def Step.places (t : FileTree) (p : Path) : Step → List Path
  | .named component => (t.stepTo? p component).toList
  | .among tokens =>
    let points := if tokens.head? == some (.literal '.') then ["..", "."] else []
    (points.filter fun name => matchesText tokens name.toList).filterMap (t.stepTo? p)
      ++ (t.children p).filter (matchesName tokens)
  | .anywhere tokens => (t.below p).filter (matchesName tokens)

/-- The steps of components; `deep` holds right behind a `**`. One at the very end leads to directories
alone, so it adds no step that finds a file. -/
def steps? (deep : Bool) : List String → Option (List Step)
  | [] => some (if deep then [.anywhere []] else [])
  | component :: rest =>
    if component == "**" then steps? true rest
    else
      match tokens? none component.toList, steps? false rest with
      | some tokens, some steps =>
        let step : Step :=
          if deep then .anywhere tokens
          else if isPattern component then .among tokens
          else .named component
        some (step :: steps)
      | _, _ => none

/-- An empty component stays in a directory that the pattern names, but leads nowhere before one. -/
def leadsNowhere (components : List String) : Bool :=
  components.head? == some "." && (components.dropWhile (· == ".")).head? == some ""

/-- The files that a pattern stands for, without those that are empty; `none` if it is no proper
pattern. -/
def files? (t : FileTree) (here : Path) (path : String) : Option (List Path) :=
  let components := Split.splitAt '/' path
  let (start, components) : Path × List String := match components with
    | "" :: rest => ([], rest)
    | components => (here, components)
  (steps? false components).map fun steps =>
    if leadsNowhere components then []
    else
      (steps.foldl (fun places step => places.flatMap fun p => step.places t p) [start]).filter
        fun p => (t.content? p).isSome

end Pattern

end TableProfile
