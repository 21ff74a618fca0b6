import TableProfile.Settings.Layers
import TableProfile.Text.Alphanumeric
import TableProfile.Text.Utf8

/-!
# Environment files

The nearest file `.env` adds variables to the environment; those that are set already stay as they are.
A line of it is `NAME=value`, perhaps with `export` before it. Single quotes hold a value as it stands;
outside them a backslash escapes, and `$NAME` or `${NAME}` is replaced by a variable. Double quotes
hold blanks. A quote that is open at the end of a line joins the next line to it. Behind a blank, `#`
begins a comment.

Reading stops at the first line that is malformed; what the lines before it set stays.
-/
namespace TableProfile.EnvFile

/-! ## Lines -/

/-- What a character stands in, as far as the end of its line is concerned. -/
inductive Place where
  | plain | blank | escape
  | strong | strongEscape
  | weak | weakEscape
  deriving DecidableEq, Repr

def opened (c : Char) : Place :=
  if c == '\\' then .escape
  else if c == '"' then .weak
  else if c == '\'' then .strong
  else .plain

/-- What the next character stands in. -/
def Place.next (p : Place) (c : Char) : Place :=
  match p with
  | plain => if Blank.isBlank c && c != '\n' && c != '\r' then .blank else opened c
  | blank => opened c
  | escape => .plain
  | strong => if c == '\\' then .strongEscape else if c == '\'' then .plain else .strong
  | strongEscape => .strong
  | weak => if c == '\\' then .weakEscape else if c == '"' then .plain else .weak
  | weakEscape => .weak

/-- Where a line ends: in front of a comment, or with what is open at its end. -/
inductive LineEnd where
  | comment (before : List Char)
  | within (p : Place)
  deriving DecidableEq, Repr

/-- How a line ends; `before` is what has been read of it, last character first. -/
def lineEnd (p : Place) (before : List Char) : List Char → LineEnd
  | [] => .within p
  | c :: rest =>
    if p = .blank ∧ c = '#' then .comment before.reverse else lineEnd (p.next c) (c :: before) rest

/-- The lines of a file with those joined that an open quote joins; `none` where the text ends in an
open line, or a line is no text. -/
def joined (begun : List Char) (p : Place) : List (Option (List Char)) → List (Option (List Char))
  | [] => if p = .plain then [] else [none]
  | none :: _ => [none]
  | some line :: rest =>
    let all := begun ++ line
    if (Blank.trimStartChars all).head? == some '#' then some [] :: joined [] .plain rest
    else
      match lineEnd p [] line with
      | .comment before => some (begun ++ before) :: joined [] .plain rest
      | .within .plain => some all :: joined [] .plain rest
      | .within q => joined all q rest

/-- The lines of a file with their line feeds. -/
def physicalLines (begun : Bytes) : Bytes → List Bytes
  | [] => if begun.isEmpty then [] else [begun.reverse]
  | b :: rest =>
    if b = 10 then (b :: begun).reverse :: physicalLines [] rest else physicalLines (b :: begun) rest

def lines (content : Bytes) : List (Option (List Char)) :=
  joined [] .plain
    ((physicalLines [] (Utf8.withoutMark content)).map fun line => (Utf8.decode? line).map String.toList)

/-! ## Values -/

/-- What the next character of a value belongs to. -/
inductive Part where
  | bare
  | strong
  | weak
  | escape (weak : Bool)
  /-- A name behind a dollar sign, last character first, in braces or not. -/
  | name (weak braces : Bool) (begun : List Char)
  /-- The value has ended; a comment may follow. -/
  | ended
  deriving DecidableEq, Repr

def Part.text (weak : Bool) : Part := if weak then .weak else .bare

/-- The value of a variable; one that is not set is empty. -/
def valueOf (env : Settings.Environment) (name : List Char) : List Char :=
  (((env.find? (·.1 == String.ofList name)).map (·.2)).getD "").toList

def escaped? : Char → Option Char
  | 'n' => some '\n'
  | c => if c == '\\' || c == '\'' || c == '"' || c == '$' || c == ' ' then some c else none

/-- The value behind an equals sign; `done` is what has been read, last character first. -/
def readValue (env : Settings.Environment) (p : Part) (done : List Char) : List Char → Option String
  | [] =>
    match p with
    | .strong | .weak | .escape true | .name true _ _ | .name _ true _ => none
    | .name false false begun => some (String.ofList (done.reverse ++ valueOf env begun.reverse))
    | .bare | .escape false | .ended => some (String.ofList done.reverse)
  | c :: rest =>
    match p with
    | .ended =>
      if c == ' ' || c == '\t' then readValue env .ended done rest
      else if c == '#' then some (String.ofList done.reverse)
      else none
    | .escape weak =>
      match escaped? c with
      | some c => readValue env (.text weak) (c :: done) rest
      | none => none
    | .strong =>
      if c == '\'' then readValue env .bare done rest else readValue env .strong (c :: done) rest
    | .name weak true begun =>
      if c == '\x7d' then
        readValue env (.text weak) ((valueOf env begun.reverse).reverse ++ done) rest
      else readValue env (.name weak true (c :: begun)) done rest
    | .name weak false begun =>
      if Alphanumeric.isAlphanumeric c then readValue env (.name weak false (c :: begun)) done rest
      else if c == '\x7b' && begun.isEmpty then readValue env (.name weak true []) done rest
      else
        let done := (valueOf env begun.reverse).reverse ++ done
        if c == '$' then readValue env (.name weak false []) done rest
        else readValue env (.text weak) (c :: done) rest
    | .weak =>
      if c == '$' then readValue env (.name true false []) done rest
      else if c == '"' then readValue env .bare done rest
      else if c == '\\' then readValue env (.escape true) done rest
      else readValue env .weak (c :: done) rest
    | .bare =>
      if c == '$' then readValue env (.name false false []) done rest
      else if c == '\'' then readValue env .strong done rest
      else if c == '"' then readValue env .weak done rest
      else if c == '\\' then readValue env (.escape false) done rest
      else if c == ' ' || c == '\t' then readValue env .ended done rest
      else readValue env .bare (c :: done) rest

/-! ## Entries -/

/-- What a line says. -/
inductive Line where
  | nothing
  | entry (name value : String)
  | malformed
  deriving DecidableEq, Repr

def isKeyStart (c : Char) : Bool := c.isAlpha || c == '_'

def isKeyChar (c : Char) : Bool := c.isAlphanum || c == '_' || c == '.'

/-- A name and what stands behind it and blanks. -/
def readKey? (cs : List Char) : Option (List Char × List Char) :=
  if cs.head?.any isKeyStart then
    some (cs.takeWhile isKeyChar, Blank.trimStartChars (cs.dropWhile isKeyChar))
  else none

/-- A name and what stands behind its equals sign; `export` may come before the name. -/
def readName? (cs : List Char) : Option (List Char × List Char) :=
  match readKey? cs with
  | some (key, '=' :: rest) => some (key, rest)
  | some (key, rest) =>
    if key = "export".toList then
      match readKey? rest with
      | some (key, '=' :: rest) => some (key, rest)
      | _ => none
    else none
  | none => none

/-- A text that is empty or a comment. -/
def isVoid (cs : List Char) : Bool := cs.isEmpty || cs.head? == some '#'

def readLine (env : Settings.Environment) (line : List Char) : Line :=
  let cs := Blank.trimChars line
  if isVoid cs then .nothing
  else
    match readName? cs with
    | none => .malformed
    | some (key, rest) =>
      let rest := Blank.trimStartChars rest
      if isVoid rest then .entry (String.ofList key) ""
      else
        match readValue env .bare [] rest with
        | some value => .entry (String.ofList key) value
        | none => .malformed

/-- The environment with the entries of lines that are not set in it. -/
def extend (env : Settings.Environment) : List (Option (List Char)) → Settings.Environment
  | [] | none :: _ => env
  | some line :: rest =>
    match readLine env line with
    | .malformed => env
    | .nothing => extend env rest
    | .entry name value =>
      extend (if env.any (·.1 == name) then env else env ++ [(name, value)]) rest

def fileName : String := ".env"

/-- The environment with what the nearest environment file adds. -/
def load (t : FileTree) (here : Path) (env : Settings.Environment) : Settings.Environment :=
  match Settings.nearest? t fileName here here.length with
  | some (content, _) => extend env (lines content)
  | none => env

end TableProfile.EnvFile
