import TableProfile.Text.Line

/-!
# Tags of languages

A tag is made of subtags between hyphens, each of one to eight letters or digits. They come in a fixed
order, of which only the first is needed: the language; extensions of a short language; a script; a
region; variants; extensions, each begun by a single letter or digit; and what is for private use, begun
by `x`. `Place` is where in that order a tag has come to.

A tag that begins with `x` is all for private use, and its subtags may be of any length, even empty. A
few old tags stand outside the rules.
-/
namespace TableProfile.LanguageTag

/-- How far a tag has come. -/
inductive Place where
  | start
  /-- Behind a language of two or three letters, with so many extensions of it. -/
  | shortLanguage (extensions : Nat)
  | longLanguage
  | script
  /-- Behind a region or a variant. -/
  | region
  /-- Behind the letter of an extension, where a subtag is due, or behind a subtag of it. -/
  | extension (due : Bool)
  | privateUse (due : Bool)
  deriving DecidableEq, Repr

def letters (cs : List Char) : Bool := cs.all Char.isAlpha

def digits (cs : List Char) : Bool := cs.all Char.isDigit

/-- Whether a subtag has the form of a region. -/
def isRegion (cs : List Char) : Bool := (cs.length == 2 && letters cs) || (cs.length == 3 && digits cs)

/-- Whether a subtag has the form of a variant. -/
def isVariant (cs : List Char) : Bool :=
  match cs with
  | c :: _ => (c.isAlpha && 5 ≤ cs.length) || (c.isDigit && 4 ≤ cs.length)
  | [] => false

/-- Whether a script may follow. -/
def Place.beforeScript : Place → Bool
  | .shortLanguage _ | .longLanguage => true
  | _ => false

/-- Where a subtag leads that is a further extension of the language, a script, a region or a variant. -/
def Place.inLanguage (p : Place) (cs : List Char) : Option Place :=
  match p, cs.length == 3 && letters cs with
  | .shortLanguage n, true => if n < 3 then some (.shortLanguage (n + 1)) else none
  | p, _ =>
    if p.beforeScript && cs.length == 4 && letters cs then some .script
    else if (p != .region && isRegion cs) || isVariant cs then some .region
    else none

/-- Where a subtag leads, if it may stand here. -/
def Place.next (p : Place) (cs : List Char) : Option Place :=
  if cs.isEmpty || 8 < cs.length || !cs.all Char.isAlphanum then none
  else
    match p with
    | .start =>
      if cs.length < 2 || !letters cs then none
      else some (if cs.length < 4 then .shortLanguage 0 else .longLanguage)
    | .privateUse _ => some (.privateUse false)
    | .extension due =>
      if cs.length == 1 then
        if due then none
        else some (if cs == ['x'] || cs == ['X'] then .privateUse true else .extension true)
      else some (.extension false)
    | p =>
      if cs == ['x'] || cs == ['X'] then some (.privateUse true)
      else if cs.length == 1 then some (.extension true)
      else p.inLanguage cs

/-- Whether a tag may end here. -/
def Place.isEnd : Place → Bool
  | .extension due | .privateUse due => !due
  | _ => true

/-- Whether subtags follow the rules. -/
def isOrdered (subtags : List String) : Bool :=
  match subtags.foldlM (fun p s => Place.next p s.toList) .start with
  | some p => p.isEnd
  | none => false

/-- Tags that do not follow the rules, in lower case. -/
def irregular : List String :=
  ["en-gb-oed", "i-ami", "i-bnn", "i-default", "i-enochian", "i-hak", "i-klingon", "i-lux", "i-mingo",
    "i-navajo", "i-pwn", "i-tao", "i-tay", "i-tsu", "sgn-be-fr", "sgn-be-nl", "sgn-ch-de"]

/-- Whether a text is a tag. -/
def isTag (text : String) : Bool :=
  let lower := text.toList.map Char.toLower
  if irregular.contains (String.ofList lower) then true
  else
    match lower with
    | 'x' :: '-' :: rest => !rest.isEmpty && rest.all fun c => c.isAlphanum || c == '-'
    | _ => isOrdered (Split.splitAt '-' text)

end TableProfile.LanguageTag
