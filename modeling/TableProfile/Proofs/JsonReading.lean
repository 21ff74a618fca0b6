import TableProfile.Proofs.JsonFields
import TableProfile.Proofs.JsonNumbers

/-!
# Reading back what is printed as JSON

The reader takes the text of a value wherever it stands: behind blanks, and before anything that does not go
on with a number (`Reads`). Numbers and strings are read that way, and if the items of an array are, then so
is the array, whatever blanks stand between its items; likewise the fields of an object. Both printed forms
are such layouts of the texts of the items (`laidOut`), the one without blanks and the one with a line feed
and a margin.

A number that is not finite is printed as `null` (`asPrinted`). Integers beyond 64 bits, keys out of order and
deep nesting are what the reader does not give back (`Fits`).

* `read_compact`, `read_pretty`: a value is read back from each of its texts.
-/
namespace TableProfile.Json

/-! ## Texts -/

theorem hexValue_hexDigit : ∀ n < 16, hexValue (hexDigit n) = some n := by decide

/-- A control character is read from its escape. -/
theorem readEscapedUnit_control {c : Char} (h : c.toNat < 0x20) (rest : List Char) :
    readEscapedUnit ('0' :: '0' :: hexDigit (c.toNat / 16) :: hexDigit (c.toNat % 16) :: rest) =
      some (c, rest) := by
  have hunit : readUnit ('0' :: '0' :: hexDigit (c.toNat / 16) :: hexDigit (c.toNat % 16) :: rest) =
      some (c.toNat, rest) := by
    have hzero : hexValue '0' = some 0 := by decide
    have hfour : (0 * 16 + 0) * 16 + c.toNat / 16 = c.toNat / 16 := by omega
    simp only [readUnit, hzero, hexValue_hexDigit _ (show c.toNat / 16 < 16 by omega),
      hexValue_hexDigit _ (Nat.mod_lt c.toNat (by omega)), Option.bind_eq_bind, Option.bind_some]
    rw [show ((0 * 16 + 0) * 16 + c.toNat / 16) * 16 + c.toNat % 16 = c.toNat by omega]
  rw [readEscapedUnit, hunit]
  simp only [Option.bind_eq_bind, Option.bind_some]
  rw [if_neg (by omega), if_neg (by omega), Char.ofNat_toNat]

/-- Each character of a text is read from what stands for it. -/
theorem readString_escapeChar (fuel : ℕ) (done : List Char) (c : Char) (rest : List Char) :
    readString (fuel + 1) done (escapeChar c ++ rest) = readString fuel (c :: done) rest := by
  unfold escapeChar
  split
  · rfl
  · rfl
  · rfl
  · rfl
  · rfl
  · rfl
  · rfl
  · rename_i hquote hbackslash _ _ _ _ _
    split
    · rename_i hcontrol
      simp only [List.cons_append, List.nil_append, readString, readEscapedUnit_control hcontrol]
    · rename_i hplain
      rw [List.singleton_append, readString]
      · exact if_neg hplain
      all_goals simp_all

theorem readString_quoted (text rest : List Char) {fuel : ℕ} (hfuel : text.length < fuel)
    (done : List Char) : readString fuel done (text.flatMap escapeChar ++ '"' :: rest) =
      some (String.ofList (done.reverse ++ text), rest) := by
  induction text generalizing fuel done with
  | nil =>
    obtain ⟨fuel, rfl⟩ := Nat.exists_eq_add_one_of_ne_zero (Nat.ne_zero_of_lt hfuel)
    simp [readString]
  | cons c text ih =>
    obtain ⟨fuel, rfl⟩ := Nat.exists_eq_add_one_of_ne_zero (Nat.ne_zero_of_lt hfuel)
    rw [List.flatMap_cons, List.append_assoc, readString_escapeChar,
      ih (by simpa using hfuel) (c :: done), List.reverse_cons, List.append_assoc,
      List.singleton_append]

/-! ## Blanks -/

def Spaces (cs : List Char) : Prop := ∀ c ∈ cs, isSpace c = true

theorem spaces_nil : Spaces [] := by simp [Spaces]

theorem spaces_blank : Spaces [' '] := by simp [Spaces, isSpace]

/-- Blanks are skipped as far as they go. -/
theorem skipBlanks_append {before rest : List Char} (hbefore : Spaces before)
    (hrest : ∀ c ∈ rest.head?, isSpace c = false) : skipBlanks (before ++ rest) = rest :=
  Blank.dropWhile_eq hbefore hrest

/-! ## Values -/

/-- What follows a value does not go on with it. -/
def Ends (rest : List Char) : Prop := ∀ c ∈ rest.head?, isNumberChar c = false

/-- A text is read as a value, wherever it stands: behind blanks, before what does not go on with it, and
with fuel for its characters. -/
structure Reads (depth : ℕ) (text : List Char) (v : Json) : Prop where
  head : ∃ c more, text = c :: more ∧ isSpace c = false ∧ c ≠ ']'
  read {fuel : ℕ} {before rest : List Char} (hfuel : text.length ≤ fuel) (hbefore : Spaces before)
    (hrest : Ends rest) : readValue depth fuel (before ++ (text ++ rest)) = some (v, rest)

/-- Behind the blanks stands the first character of the text, which says what kind of value it is. -/
theorem Reads.of_cons {depth : ℕ} {c : Char} {more : List Char} {v : Json} (hspace : isSpace c = false)
    (hclosing : c ≠ ']')
    (hread : ∀ fuel cs rest, more.length ≤ fuel → Ends rest → skipBlanks cs = c :: (more ++ rest) →
      readValue depth (fuel + 1) cs = some (v, rest)) : Reads depth (c :: more) v := by
  refine ⟨⟨c, more, rfl, hspace, hclosing⟩, fun {fuel before rest} hfuel hbefore hrest => ?_⟩
  rw [List.length_cons] at hfuel
  obtain ⟨fuel, rfl⟩ := Nat.exists_eq_add_one_of_ne_zero (n := fuel) (by omega)
  refine hread fuel _ rest (by omega) hrest (skipBlanks_append hbefore ?_)
  rintro d ⟨⟩
  exact hspace

/-- The first character of a text stays the first behind blanks. -/
theorem Reads.skipBlanks {depth : ℕ} {text before : List Char} {v : Json} (h : Reads depth text v)
    (hbefore : Spaces before) (rest : List Char) :
    ∃ c cs, Json.skipBlanks (before ++ (text ++ rest)) = c :: cs ∧ c ≠ ']' := by
  obtain ⟨c, more, rfl, hspace, hclosing⟩ := h.head
  refine ⟨c, more ++ rest, skipBlanks_append hbefore ?_, hclosing⟩
  rintro d ⟨⟩
  exact hspace

theorem reads_null (depth : ℕ) : Reads depth "null".toList .null :=
  .of_cons rfl (by decide) fun fuel cs rest _ _ hskip => by rw [readValue, hskip]; rfl

theorem reads_bool (depth : ℕ) (b : Bool) : Reads depth (if b then "true" else "false").toList (.bool b) := by
  cases b with
  | true => exact .of_cons rfl (by decide) fun fuel cs rest _ _ hskip => by rw [readValue, hskip]; rfl
  | false => exact .of_cons rfl (by decide) fun fuel cs rest _ _ hskip => by rw [readValue, hskip]; rfl

theorem toList_quote (s : String) : (quote s).toList = '"' :: (s.toList.flatMap escapeChar ++ ['"']) :=
  String.toList_ofList

theorem length_le_flatMap (cs : List Char) : cs.length ≤ (cs.flatMap escapeChar).length := by
  induction cs with
  | nil => exact Nat.le_refl 0
  | cons c cs ih =>
    have hone : 1 ≤ (escapeChar c).length := by
      unfold escapeChar
      split <;> (try split) <;> simp
    rw [List.flatMap_cons, List.length_append, List.length_cons]
    omega

/-- The text of a string is read to its closing quote. -/
theorem readString_quote (s : String) (rest : List Char) :
    readString ((s.toList.flatMap escapeChar ++ '"' :: rest).length + 1) []
      (s.toList.flatMap escapeChar ++ '"' :: rest) = some (s, rest) := by
  have hlength := length_le_flatMap s.toList
  rw [readString_quoted s.toList rest (by rw [List.length_append]; omega) [], List.reverse_nil, List.nil_append,
    String.ofList_toList]

theorem reads_str (depth : ℕ) (s : String) : Reads depth (quote s).toList (.str s) := by
  rw [toList_quote]
  refine .of_cons rfl (by decide) fun fuel cs rest _ _ hskip => ?_
  rw [List.append_assoc, List.singleton_append] at hskip
  rw [readValue, hskip]
  show (readString _ _ _).map _ = _
  rw [readString_quote]
  rfl

theorem reads_number {depth : ℕ} {text : List Char} {v : Json} (h : IsNumberText text v) :
    Reads depth text v := by
  obtain ⟨hne, hchars, hread⟩ := h
  obtain ⟨c, more, rfl⟩ := List.exists_cons_of_ne_nil hne
  have hc := hchars c List.mem_cons_self
  have hnot (d : Char) (hd : isNumberChar d = false) : c ≠ d := fun heq => by
    rw [heq, hd] at hc
    cases hc
  refine .of_cons ?_ (hnot _ (by decide)) fun fuel cs rest _ hrest hskip => ?_
  · simp [isSpace, hnot ' ' (by decide), hnot '\t' (by decide), hnot '\n' (by decide),
      hnot '\r' (by decide)]
  · have hnumber : readNumber (c :: (more ++ rest)) = some (v, rest) := by
      rw [← List.cons_append, readNumber, Number.takeWhile_eq hchars hrest, Blank.dropWhile_eq hchars hrest, hread]
      rfl
    rw [readValue, hskip]
    split
    case h_7 => exact hnumber
    all_goals
      rename_i heq
      exact absurd (List.cons.inj heq).1 (hnot _ (by decide))

/-! ## Arrays and objects -/

theorem ends_append {before rest : List Char} (hbefore : Spaces before) (hrest : Ends rest) :
    Ends (before ++ rest) := by
  cases before with
  | nil => exact hrest
  | cons c more =>
    rintro d ⟨⟩
    have hc := hbefore c List.mem_cons_self
    simp only [isSpace, Bool.or_eq_true, beq_iff_eq] at hc
    rcases hc with ((rfl | rfl) | rfl) | rfl <;> decide

theorem ends_cons {c : Char} (h : isNumberChar c = false) (rest : List Char) : Ends (c :: rest) := by
  rintro d ⟨⟩
  exact h

theorem skipBlanks_cons {behind : List Char} (hbehind : Spaces behind) {c : Char} (h : isSpace c = false)
    (rest : List Char) : skipBlanks (behind ++ c :: rest) = c :: rest :=
  skipBlanks_append hbehind (by rintro d ⟨⟩; exact h)

theorem exists_intercalate_cons (sep text : List Char) (texts : List (List Char)) :
    ∃ more, sep.intercalate (text :: texts) = text ++ more := by
  cases texts with
  | nil => exact ⟨[], by rw [List.intercalate_singleton, List.append_nil]⟩
  | cons next texts => exact ⟨_, by rw [List.intercalate_cons_cons, List.append_assoc]⟩

/-- Items between brackets, each behind the blanks `before`, with `behind` after the last one. -/
def laidOut (opening closing : Char) (before behind : List Char) (items : List (List Char)) : List Char :=
  opening :: ((if items = [] then [] else before ++ ((',' :: before).intercalate items ++ behind)) ++ [closing])

section

variable {depth : ℕ} {before behind : List Char}

theorem readItems_next {fuel : ℕ} {done : List Json} {cs rest more : List Char} {v : Json}
    (hread : readValue depth fuel cs = some (v, rest)) (hskip : skipBlanks rest = ',' :: more) :
    readItems depth (fuel + 1) done cs = readItems depth fuel (v :: done) more := by
  rw [readItems, hread]
  dsimp only
  rw [hskip]
  rfl

theorem readItems_last {fuel : ℕ} {done : List Json} {cs rest more : List Char} {v : Json}
    (hread : readValue depth fuel cs = some (v, rest)) (hskip : skipBlanks rest = ']' :: more) :
    readItems depth (fuel + 1) done cs = some (.arr (done.reverse ++ [v]), more) := by
  rw [readItems, hread]
  dsimp only
  rw [hskip, List.reverse_cons]
  rfl

theorem readValue_bracket {fuel : ℕ} {cs rest : List Char} (hskip : skipBlanks cs = '[' :: rest) :
    readValue (depth + 1) (fuel + 1) cs =
      match skipBlanks rest with
      | ']' :: rest => some (.arr [], rest)
      | _ => readItems depth fuel [] rest := by
  rw [readValue, hskip]
  rfl

/-- Items are read one after another to the closing bracket. -/
theorem readItems_intercalate (hbefore : Spaces before) (hbehind : Spaces behind)
    {texts : List (List Char)} {values : List Json} (h : List.Forall₂ (Reads depth) texts values)
    (hne : texts ≠ []) {fuel : ℕ} (hfuel : ((',' :: before).intercalate texts).length < fuel)
    (done : List Json) (rest : List Char) :
    readItems depth fuel done
        (before ++ ((',' :: before).intercalate texts ++ (behind ++ ']' :: rest))) =
      some (.arr (done.reverse ++ values), rest) := by
  induction h generalizing fuel done with
  | nil => exact absurd rfl hne
  | @cons text v texts values hv hmore ih =>
    obtain ⟨fuel, rfl⟩ := Nat.exists_eq_add_one_of_ne_zero (Nat.ne_zero_of_lt hfuel)
    cases hmore with
    | nil =>
      rw [List.intercalate_singleton] at hfuel ⊢
      have hends : Ends (behind ++ ']' :: rest) := ends_append hbehind (ends_cons (by decide) rest)
      exact readItems_last (hv.read (by omega) hbefore hends) (skipBlanks_cons hbehind rfl rest)
    | @cons next w more others hnext hmore =>
      -- The comma behind the item pays for the step, so the fuel still covers the items that are left.
      rw [List.intercalate_cons_cons, List.append_assoc] at hfuel ⊢
      rw [List.length_append, List.cons_append, List.length_cons, List.length_append] at hfuel
      have hend := ends_cons (c := ',') (by decide)
        (before ++ ((',' :: before).intercalate (next :: more) ++ (behind ++ ']' :: rest)))
      rw [List.append_assoc, List.cons_append,
        readItems_next (hv.read (by omega) hbefore hend) rfl,
        ih (List.cons_ne_nil _ _) (by omega) (v :: done), List.reverse_cons, List.append_assoc,
        List.singleton_append]

/-- An array is read from the texts of its items. -/
theorem reads_arr (hbefore : Spaces before) (hbehind : Spaces behind) {texts : List (List Char)}
    {values : List Json} (h : List.Forall₂ (Reads depth) texts values) :
    Reads (depth + 1) (laidOut '[' ']' before behind texts) (.arr values) := by
  refine .of_cons rfl (by decide) fun fuel cs rest hfuel _ hskip => ?_
  rw [readValue_bracket hskip]
  cases h with
  | nil => rfl
  | @cons text v texts values hv hmore =>
    rw [if_neg (List.cons_ne_nil _ _)] at hfuel ⊢
    simp only [List.append_assoc, List.singleton_append, List.length_append,
      List.length_singleton] at hfuel ⊢
    have hroom : ((',' :: before).intercalate (text :: texts)).length < fuel := by omega
    have hitems := readItems_intercalate hbefore hbehind (.cons hv hmore) (List.cons_ne_nil _ _) hroom [] rest
    -- The first item does not begin with the closing bracket.
    obtain ⟨more, hjoin⟩ := exists_intercalate_cons (',' :: before) text texts
    obtain ⟨c, cs, hfirst, hclosing⟩ := hv.skipBlanks hbefore (more ++ (behind ++ ']' :: rest))
    rw [← List.append_assoc text, ← hjoin] at hfirst
    rw [hfirst]
    split
    · rename_i heq
      exact absurd (List.cons.inj heq).1 hclosing
    · exact hitems

end

/-- A field of an object: its key, a colon, the blanks `gap`, and the text of its value. -/
def fieldText (gap : List Char) (key : String) (text : List Char) : List Char :=
  (quote key).toList ++ ':' :: (gap ++ text)

/-- A text is the one of a field, and that of its value is read as it. -/
def ReadsField (depth : ℕ) (gap text : List Char) (f : String × Json) : Prop :=
  ∃ value, fieldText gap f.1 value = text ∧ Reads depth value f.2

section

variable {depth : ℕ} {before behind gap : List Char}

theorem skipBlanks_fieldText (hbefore : Spaces before) (gap : List Char) (key : String)
    (text rest : List Char) :
    skipBlanks (before ++ (fieldText gap key text ++ rest)) =
      '"' :: (key.toList.flatMap escapeChar ++ '"' :: ':' :: (gap ++ (text ++ rest))) := by
  rw [fieldText, toList_quote]
  simp only [List.cons_append, List.append_assoc, List.nil_append]
  exact skipBlanks_append hbefore (by rintro d ⟨⟩; decide)

theorem skipBlanks_colon (cs : List Char) : skipBlanks (':' :: cs) = ':' :: cs := rfl

theorem readFields_next {fuel : ℕ} {done : List (String × Json)} {key : String}
    {text rest more : List Char} {v : Json} (hbefore : Spaces before)
    (hread : readValue depth fuel (gap ++ (text ++ rest)) = some (v, rest))
    (hskip : skipBlanks rest = ',' :: more) :
    readFields depth (fuel + 1) done (before ++ (fieldText gap key text ++ rest)) =
      readFields depth fuel ((key, v) :: done) more := by
  rw [readFields, skipBlanks_fieldText hbefore]
  simp only [readString_quote, skipBlanks_colon, hread, hskip]

theorem readFields_last {fuel : ℕ} {done : List (String × Json)} {key : String}
    {text rest more : List Char} {v : Json} (hbefore : Spaces before)
    (hread : readValue depth fuel (gap ++ (text ++ rest)) = some (v, rest))
    (hskip : skipBlanks rest = '\x7d' :: more) :
    readFields depth (fuel + 1) done (before ++ (fieldText gap key text ++ rest)) =
      some (.ofFields (done.reverse ++ [(key, v)]), more) := by
  rw [readFields, skipBlanks_fieldText hbefore, ← List.reverse_cons]
  simp only [readString_quote, skipBlanks_colon, hread, hskip]

/-- Fields are read one after another to the closing brace. -/
theorem readFields_intercalate (hbefore : Spaces before) (hbehind : Spaces behind) (hgap : Spaces gap)
    {texts : List (List Char)} {fields : List (String × Json)}
    (h : List.Forall₂ (ReadsField depth gap) texts fields) (hne : texts ≠ []) {fuel : ℕ}
    (hfuel : ((',' :: before).intercalate texts).length < fuel) (done : List (String × Json))
    (rest : List Char) :
    readFields depth fuel done
        (before ++ ((',' :: before).intercalate texts ++ (behind ++ '\x7d' :: rest))) =
      some (.ofFields (done.reverse ++ fields), rest) := by
  induction h generalizing fuel done with
  | nil => exact absurd rfl hne
  | @cons text f texts fields hf hmore ih =>
    obtain ⟨value, rfl, hv⟩ := hf
    have hlength : value.length < (fieldText gap f.1 value).length := by
      simp only [fieldText, List.length_append, List.length_cons]
      omega
    obtain ⟨fuel, rfl⟩ := Nat.exists_eq_add_one_of_ne_zero (Nat.ne_zero_of_lt hfuel)
    cases hmore with
    | nil =>
      rw [List.intercalate_singleton] at hfuel ⊢
      have hends : Ends (behind ++ '\x7d' :: rest) := ends_append hbehind (ends_cons (by decide) rest)
      exact readFields_last hbefore (hv.read (by omega) hgap hends) (skipBlanks_cons hbehind rfl rest)
    | @cons next w more others hnext hmore =>
      rw [List.intercalate_cons_cons, List.append_assoc] at hfuel ⊢
      rw [List.length_append, List.cons_append, List.length_cons, List.length_append] at hfuel
      have hend := ends_cons (c := ',') (by decide)
        (before ++ ((',' :: before).intercalate (next :: more) ++ (behind ++ '\x7d' :: rest)))
      rw [List.append_assoc, List.cons_append,
        readFields_next hbefore (hv.read (by omega) hgap hend) rfl,
        ih (List.cons_ne_nil _ _) (by omega) (f :: done), List.reverse_cons, List.append_assoc,
        List.singleton_append]

theorem readValue_brace {fuel : ℕ} {cs rest : List Char} (hskip : skipBlanks cs = '\x7b' :: rest) :
    readValue (depth + 1) (fuel + 1) cs =
      match skipBlanks rest with
      | '\x7d' :: rest => some (.obj [], rest)
      | _ => readFields depth fuel [] rest := by
  rw [readValue, hskip]
  rfl

/-- An object is read from the texts of its fields, which are put in order. -/
theorem reads_obj (hbefore : Spaces before) (hbehind : Spaces behind) (hgap : Spaces gap)
    {texts : List (List Char)} {fields : List (String × Json)}
    (h : List.Forall₂ (ReadsField depth gap) texts fields) :
    Reads (depth + 1) (laidOut '\x7b' '\x7d' before behind texts) (.ofFields fields) := by
  refine .of_cons rfl (by decide) fun fuel cs rest hfuel _ hskip => ?_
  rw [readValue_brace hskip]
  cases h with
  | nil => rfl
  | @cons text f texts fields hf hmore =>
    rw [if_neg (List.cons_ne_nil _ _)] at hfuel ⊢
    simp only [List.append_assoc, List.singleton_append, List.length_append,
      List.length_singleton] at hfuel ⊢
    have hroom : ((',' :: before).intercalate (text :: texts)).length < fuel := by omega
    have hfields := readFields_intercalate hbefore hbehind hgap (.cons hf hmore) (List.cons_ne_nil _ _)
      hroom [] rest
    obtain ⟨value, rfl, -⟩ := hf
    obtain ⟨more, hjoin⟩ := exists_intercalate_cons (',' :: before) (fieldText gap f.1 value) texts
    have hfirst := skipBlanks_fieldText hbefore gap f.1 value
      (more ++ (behind ++ '\x7d' :: rest))
    rw [← List.append_assoc (fieldText gap f.1 value), ← hjoin] at hfirst
    rw [hfirst]
    exact hfields

end

/-! ## Printed values -/

theorem compactItems_eq (items : List Json) : compactItems items = items.map compact := by
  induction items with
  | nil => rfl
  | cons v items ih => rw [compactItems, ih, List.map_cons]

theorem compactFields_eq (fields : List (String × Json)) :
    compactFields fields = fields.map fun f => quote f.1 ++ ":" ++ compact f.2 := by
  induction fields with
  | nil => rfl
  | cons f fields ih => rw [compactFields, ih, List.map_cons]

theorem prettyItems_eq (level : ℕ) (items : List Json) :
    prettyItems level items = items.map (prettyAt level) := by
  induction items with
  | nil => rfl
  | cons v items ih => rw [prettyItems, ih, List.map_cons]

theorem prettyFields_eq (level : ℕ) (fields : List (String × Json)) :
    prettyFields level fields = fields.map fun f => quote f.1 ++ ": " ++ prettyAt level f.2 := by
  induction fields with
  | nil => rfl
  | cons f fields ih => rw [prettyFields, ih, List.map_cons]

/-- A line feed and the margin of a level. -/
def margin (level : ℕ) : List Char := '\n' :: List.replicate (2 * level) ' '

theorem spaces_margin (level : ℕ) : Spaces (margin level) := by
  intro c hc
  rcases List.mem_cons.mp hc with rfl | hc
  · rfl
  · rw [List.eq_of_mem_replicate hc]
    rfl

/-- Items without blanks are laid out without any. -/
theorem toList_joined (opening closing : Char) (items : List String) :
    (String.singleton opening ++ String.intercalate "," items ++ String.singleton closing).toList =
      laidOut opening closing [] [] (items.map String.toList) := by
  have hempty : List.map String.toList items = [] ↔ items = [] := List.map_eq_nil_iff
  simp only [String.toList_append, String.toList_intercalate, String.toList_singleton, laidOut, hempty]
  split
  · rename_i h
    rw [h]
    rfl
  · simp

/-- The items of a block stand on lines of their own. -/
theorem toList_block (opening closing : Char) (level : ℕ) (items : List String) :
    (block (String.singleton opening) (String.singleton closing) level items).toList =
      laidOut opening closing (margin (level + 1)) (margin level) (items.map String.toList) := by
  have hmargin : margin (level + 1) = '\n' :: (List.replicate (2 * level) ' ' ++ [' ', ' ']) := by
    rw [margin, show 2 * (level + 1) = 2 * level + 2 by omega, List.replicate_add]
    rfl
  cases items with
  | nil => simp [block, laidOut]
  | cons text items =>
    rw [hmargin]
    simp [block, laidOut, margin, String.toList_intercalate]

/-! ## Values read back -/

mutual

/-- What is left of a value in its text: numbers that are not finite are `null`. -/
def asPrinted : Json → Json
  | .null => .null
  | .bool b => .bool b
  | .int n => .int n
  | .float x => if x.isFinite then .float x else .null
  | .str s => .str s
  | .arr items => .arr (itemsAsPrinted items)
  | .obj fields => .obj (fieldsAsPrinted fields)

def itemsAsPrinted : List Json → List Json
  | [] => []
  | v :: rest => v.asPrinted :: itemsAsPrinted rest

def fieldsAsPrinted : List (String × Json) → List (String × Json)
  | [] => []
  | (k, v) :: rest => (k, v.asPrinted) :: fieldsAsPrinted rest

end

theorem itemsAsPrinted_eq (items : List Json) : itemsAsPrinted items = items.map asPrinted := by
  induction items with
  | nil => rfl
  | cons v items ih => rw [itemsAsPrinted, ih, List.map_cons]

theorem fieldsAsPrinted_eq (fields : List (String × Json)) :
    fieldsAsPrinted fields = fields.map fun f => (f.1, f.2.asPrinted) := by
  induction fields with
  | nil => rfl
  | cons f fields ih => rw [fieldsAsPrinted, ih, List.map_cons]

/-- A value that can be read: integers fit 64 bits, keys are in order, and arrays and objects stand at most
`depth` levels within each other. -/
inductive Fits : ℕ → Json → Prop
  | null {depth : ℕ} : Fits depth .null
  | bool {depth : ℕ} (b : Bool) : Fits depth (.bool b)
  | int {depth : ℕ} {n : ℤ} (hlow : -2 ^ 63 ≤ n) (hhigh : n < 2 ^ 64) : Fits depth (.int n)
  | float {depth : ℕ} (x : Float) : Fits depth (.float x)
  | str {depth : ℕ} (s : String) : Fits depth (.str s)
  | arr {depth : ℕ} {items : List Json} (h : ∀ v ∈ items, Fits depth v) : Fits (depth + 1) (.arr items)
  | obj {depth : ℕ} {fields : List (String × Json)} (hordered : Ordered fields)
      (h : ∀ f ∈ fields, Fits depth f.2) : Fits (depth + 1) (.obj fields)

theorem reads_float (depth : ℕ) (x : Float) :
    Reads depth (floatText x).toList (Json.float x).asPrinted := by
  rw [asPrinted]
  by_cases hx : x.isFinite = true
  · rw [if_pos hx]
    exact reads_number (isNumberText_float hx)
  · rw [if_neg hx, (floatText_eq_null_iff x).mpr (Bool.eq_false_of_not_eq_true hx)]
    exact reads_null depth

theorem ofFields_asPrinted {fields : List (String × Json)} (h : Ordered fields) :
    ofFields (fields.map fun f => (f.1, f.2.asPrinted)) = (Json.obj fields).asPrinted := by
  rw [asPrinted, fieldsAsPrinted_eq]
  exact ofFields_of_ordered (List.pairwise_map.mpr h)

/-- The text without blanks is read as the value. -/
theorem reads_compact {depth : ℕ} {v : Json} (h : Fits depth v) :
    Reads depth v.compact.toList v.asPrinted := by
  induction h with
  | null => exact reads_null _
  | bool b => exact reads_bool _ b
  | int hlow hhigh => exact reads_number (isNumberText_int hlow hhigh)
  | float x => exact reads_float _ x
  | str s => exact reads_str _ s
  | @arr depth items _ ih =>
    have htext : (Json.arr items).compact.toList =
        laidOut '[' ']' [] [] (items.map fun v => v.compact.toList) := by
      rw [compact, compactItems_eq]
      exact (toList_joined '[' ']' _).trans (by rw [List.map_map]; rfl)
    rw [htext, asPrinted, itemsAsPrinted_eq]
    refine reads_arr spaces_nil spaces_nil ?_
    rw [List.forall₂_map_left_iff, List.forall₂_map_right_iff, List.forall₂_same]
    exact ih
  | @obj depth fields hordered _ ih =>
    have hfields : (fields.map fun f => quote f.1 ++ ":" ++ f.2.compact).map String.toList =
        fields.map fun f => fieldText [] f.1 f.2.compact.toList := by
      rw [List.map_map]
      exact List.map_congr_left fun f _ => by simp [fieldText]
    have htext : (Json.obj fields).compact.toList =
        laidOut '\x7b' '\x7d' [] [] (fields.map fun f => fieldText [] f.1 f.2.compact.toList) := by
      rw [compact, compactFields_eq, ← hfields]
      exact toList_joined '\x7b' '\x7d' _
    rw [htext, ← ofFields_asPrinted hordered]
    refine reads_obj spaces_nil spaces_nil spaces_nil ?_
    rw [List.forall₂_map_left_iff, List.forall₂_map_right_iff, List.forall₂_same]
    exact fun f hf => ⟨_, rfl, ih f hf⟩

/-- The text with one item to a line is read as the value, at any level. -/
theorem reads_prettyAt {depth : ℕ} {v : Json} (h : Fits depth v) (level : ℕ) :
    Reads depth (prettyAt level v).toList v.asPrinted := by
  induction h generalizing level with
  | null => exact reads_null _
  | bool b => exact reads_bool _ b
  | int hlow hhigh => exact reads_number (isNumberText_int hlow hhigh)
  | float x => exact reads_float _ x
  | str s => exact reads_str _ s
  | @arr depth items _ ih =>
    have htext : (prettyAt level (.arr items)).toList = laidOut '[' ']' (margin (level + 1)) (margin level)
        (items.map fun v => (prettyAt (level + 1) v).toList) := by
      rw [prettyAt, prettyItems_eq]
      exact (toList_block '[' ']' level _).trans (by rw [List.map_map]; rfl)
    rw [htext, asPrinted, itemsAsPrinted_eq]
    refine reads_arr (spaces_margin _) (spaces_margin _) ?_
    rw [List.forall₂_map_left_iff, List.forall₂_map_right_iff, List.forall₂_same]
    exact fun v hv => ih v hv (level + 1)
  | @obj depth fields hordered _ ih =>
    have hfields : (fields.map fun f => quote f.1 ++ ": " ++ prettyAt (level + 1) f.2).map String.toList =
        fields.map fun f => fieldText [' '] f.1 (prettyAt (level + 1) f.2).toList := by
      rw [List.map_map]
      exact List.map_congr_left fun f _ => by simp [fieldText]
    have htext : (prettyAt level (.obj fields)).toList =
        laidOut '\x7b' '\x7d' (margin (level + 1)) (margin level)
          (fields.map fun f => fieldText [' '] f.1 (prettyAt (level + 1) f.2).toList) := by
      rw [prettyAt, prettyFields_eq, ← hfields]
      exact toList_block '\x7b' '\x7d' level _
    rw [htext, ← ofFields_asPrinted hordered]
    refine reads_obj (spaces_margin _) (spaces_margin _) spaces_blank ?_
    rw [List.forall₂_map_left_iff, List.forall₂_map_right_iff, List.forall₂_same]
    exact fun f hf => ⟨_, rfl, ih f hf (level + 1)⟩

/-- A text is one value, with blanks behind it or nothing. -/
theorem read?_of_reads {text : String} {v : Json} (h : Reads 127 text.toList v) (behind : String)
    (hbehind : Spaces behind.toList) : read? (text ++ behind) = some v := by
  have hends : Ends (behind.toList ++ []) := ends_append hbehind (by simp [Ends])
  have hnothing : skipBlanks (behind.toList ++ []) = [] := skipBlanks_append hbehind (by simp)
  rw [List.append_nil] at hends hnothing
  have hroom : text.toList.length ≤ 2 * (text ++ behind).toList.length + 2 := by
    rw [String.toList_append, List.length_append]
    omega
  have hread := h.read hroom spaces_nil hends
  rw [List.nil_append, ← String.toList_append] at hread
  rw [read?, hread]
  exact if_pos (by rw [hnothing]; rfl)

/-- A value is read back from its text without blanks. -/
theorem read_compact {v : Json} (h : Fits 127 v) : read? v.compact = some v.asPrinted := by
  have hread := read?_of_reads (reads_compact h) "" spaces_nil
  rwa [String.append_empty] at hread

/-- A value is read back from its text with one item to a line, and from that text as a line. -/
theorem read_pretty {v : Json} (h : Fits 127 v) :
    read? v.pretty = some v.asPrinted ∧ read? (v.pretty ++ "\n") = some v.asPrinted := by
  have hread := read?_of_reads (reads_prettyAt h 0)
  have hplain := hread "" spaces_nil
  rw [String.append_empty] at hplain
  exact ⟨hplain, hread "\n" (spaces_margin 0)⟩

end TableProfile.Json
