import TableProfile.Text.Line
import TableProfile.Text.Utf8

/-!
# Trees of files

A tree holds files and directories under paths from the root; the directories above an entry are there
with it. A path text is walked from a directory one component at a time (`walk?`): every component but
the last must be a directory, `..` goes up, and `.` or an empty component stays but asks for a
directory. There are no links, so the path that a walk ends at is the canonical one.
-/
namespace TableProfile

/-- A path from the root, by components. -/
abbrev Path := List String

namespace Path

/-- The components as text. -/
def text (p : Path) : String := "/" ++ String.intercalate "/" p

end Path

/-- What stands at a path. -/
inductive Node where
  | file (content : Bytes)
  | directory
  deriving DecidableEq, Repr

structure FileTree where
  files : List (Path × Bytes)
  directories : List Path
  deriving DecidableEq, Repr

namespace FileTree

def node? (t : FileTree) (p : Path) : Option Node :=
  match t.files.find? (·.1 == p) with
  | some (_, content) => some (.file content)
  | none =>
    if p.isEmpty || t.directories.any p.isPrefixOf || t.files.any fun f => p.isPrefixOf f.1 then
      some .directory
    else none

def isDirectory (t : FileTree) (p : Path) : Bool := t.node? p == some .directory

/-- Where one component leads. -/
def stepTo? (t : FileTree) (place : Path) (component : String) : Option Path :=
  if !t.isDirectory place then none
  else if component == "" || component == "." then some place
  else if component == ".." then some place.dropLast
  else
    let next := place ++ [component]
    if (t.node? next).isSome then some next else none

/-- Where a path text leads from a directory; the empty text leads nowhere. -/
def walk? (t : FileTree) (here : Path) (path : String) : Option Path :=
  if path == "" then none
  else
    let start : Path := if path.toList.head? == some '/' then [] else here
    (Split.splitAt '/' path).foldlM t.stepTo? start

/-- The content of the file that a path text leads to. -/
def read? (t : FileTree) (here : Path) (path : String) : Option Bytes :=
  match (t.walk? here path).bind t.node? with
  | some (.file content) => some content
  | _ => none

/-- Puts a path into paths in order, unless it is there. -/
def insertPath (p : Path) : List Path → List Path
  | [] => [p]
  | q :: rest =>
    if p = q then q :: rest else if p ≤ q then p :: q :: rest else q :: insertPath p rest

/-- What stands below a directory at any depth, in order of the paths: each directory comes right before
what it holds. -/
def below (t : FileTree) (p : Path) : List Path :=
  let entries := (t.files.map (·.1) ++ t.directories).filter fun q => p.isPrefixOf q
  let depths (q : Path) : List Nat := (List.range (q.length + 1)).filter (p.length < ·)
  (entries.flatMap fun q => (depths q).map q.take).foldr insertPath []

/-- What stands right below a directory, in order of the names. -/
def children (t : FileTree) (p : Path) : List Path := (t.below p).filter (·.length == p.length + 1)

/-- The content of a file that is not empty. -/
def content? (t : FileTree) (p : Path) : Option Bytes :=
  match t.node? p with
  | some (.file content) => if content.isEmpty then none else some content
  | _ => none

/-- The files below a directory that are not empty: those right below it first, then one level after the
other, each level in order of the paths. -/
def filesBelow (t : FileTree) (p : Path) : List Path :=
  let found := t.below p
  let depth := found.foldl (fun depth q => max depth q.length) 0
  (List.range (depth + 1)).flatMap fun n => found.filter fun q => q.length == n && (t.content? q).isSome

end FileTree

end TableProfile
