import TableProfile.Proofs.DecimalNumerals
import TableProfile.Settings.Variable

/-!
# Values in the texts of variables

Values within sequences and tables follow a grammar with blanks around them (`Stands`), and a word ends only at a
comma, a brace or a bracket. The reader follows it with a number of steps that two for each character suffice
for.

* `readText_eq_some_iff`: a text in double quotes is read as far as its closing quote.
* `valueAt_eq_some_iff`: what the reader takes for a value at the very front of a text.
* `stands_of_reads`, `reads_of_stands`: what the reader takes from the front of a text is a value, the rest of a
  sequence or of a table.
-/
namespace TableProfile.Variable

/-! ## Texts in double quotes -/

/-- From behind an opening quote on stand the characters of a text, its closing quote, and a rest. -/
inductive Quoted : List Char → List Char → List Char → Prop
  | close {rest : List Char} : Quoted ('"' :: rest) [] rest
  | plain {c : Char} {cs text rest : List Char} (hquote : c ≠ '"') (hescape : c ≠ '\\')
      (h : Quoted cs text rest) : Quoted (c :: cs) (c :: text) rest
  | letter {c d : Char} {cs text rest : List Char} (hletter : Escape.simple? c = some d)
      (h : Quoted cs text rest) : Quoted ('\\' :: c :: cs) (d :: text) rest
  | code {mark d : Char} {n : ℕ} {cs behind text rest : List Char}
      (hmark : mark = 'u' ∧ n = 4 ∨ mark = 'U' ∧ n = 8) (hcode : readCode? n cs = some (d, behind))
      (h : Quoted behind text rest) : Quoted ('\\' :: mark :: cs) (d :: text) rest

theorem suffix_of_readCode? {n : ℕ} {cs rest : List Char} {c : Char} (h : readCode? n cs = some (c, rest)) :
    rest <:+ cs := by
  unfold readCode? at h
  dsimp only at h
  split at h
  · cases h
  · obtain ⟨d, -, hd⟩ := Option.map_eq_some_iff.mp h
    cases hd
    exact List.drop_suffix n cs

theorem Quoted.suffix {cs text rest : List Char} (h : Quoted cs text rest) : rest <:+ cs := by
  induction h with
  | close => exact List.suffix_cons _ _
  | plain _ _ _ ih => exact ih.trans (List.suffix_cons _ _)
  | letter _ _ ih => exact ih.trans ((List.suffix_cons _ _).trans (List.suffix_cons _ _))
  | code _ hcode _ ih =>
    exact (ih.trans (suffix_of_readCode? hcode)).trans ((List.suffix_cons _ _).trans (List.suffix_cons _ _))

theorem Quoted.length_lt {cs text rest : List Char} (h : Quoted cs text rest) :
    text.length + rest.length < cs.length := by
  induction h with
  | close => simp
  | plain _ _ _ ih => simp only [List.length_cons]; omega
  | letter _ _ ih => simp only [List.length_cons]; omega
  | code _ hcode _ ih =>
    have hle := (suffix_of_readCode? hcode).length_le
    simp only [List.length_cons]
    omega

theorem quoted_of_readText {fuel : ℕ} {done cs rest : List Char} {s : String}
    (h : readText fuel done cs = some (s, rest)) :
    ∃ text, Quoted cs text rest ∧ s = String.ofList (done.reverse ++ text) := by
  induction fuel generalizing done cs with
  | zero => cases h
  | succ fuel ih =>
    unfold readText at h
    split at h
    · cases h
      exact ⟨[], .close, by rw [List.append_nil]⟩
    · rename_i cs
      split at h
      · rename_i c behind hcode
        obtain ⟨text, htext, rfl⟩ := ih h
        exact ⟨c :: text, .code (.inl ⟨rfl, rfl⟩) hcode htext, by simp⟩
      · cases h
    · rename_i cs
      split at h
      · rename_i c behind hcode
        obtain ⟨text, htext, rfl⟩ := ih h
        exact ⟨c :: text, .code (.inr ⟨rfl, rfl⟩) hcode htext, by simp⟩
      · cases h
    · rename_i c cs _ _
      split at h
      · rename_i d hletter
        obtain ⟨text, htext, rfl⟩ := ih h
        exact ⟨d :: text, .letter hletter htext, by simp⟩
      · cases h
    · rename_i c cs hquote _ _ hescape
      obtain ⟨text, htext, rfl⟩ := ih h
      refine ⟨c :: text, .plain (fun hc => hquote hc) ?_ htext, by simp⟩
      rintro rfl
      cases htext with
      | _ => exact hescape _ _ rfl rfl
    · cases h

theorem readText_plain {fuel : ℕ} {done cs : List Char} {c : Char} (hquote : c ≠ '"') (hescape : c ≠ '\\') :
    readText (fuel + 1) done (c :: cs) = readText fuel (c :: done) cs := by
  rw [readText]
  · exact fun h => hquote h
  · exact fun _ h => absurd h hescape
  · exact fun _ h => absurd h hescape
  · exact fun _ _ h => absurd h hescape

theorem readText_letter {fuel : ℕ} {done cs : List Char} {c d : Char} (hletter : Escape.simple? c = some d) :
    readText (fuel + 1) done ('\\' :: c :: cs) = readText fuel (d :: done) cs := by
  rw [readText, hletter]
  · rintro rfl
    cases hletter
  · rintro rfl
    cases hletter

theorem readText_of_quoted {cs text rest : List Char} (h : Quoted cs text rest) {fuel : ℕ}
    (hfuel : cs.length < fuel) (done : List Char) :
    readText fuel done cs = some (String.ofList (done.reverse ++ text), rest) := by
  induction h generalizing fuel done with
  | close =>
    obtain ⟨fuel, rfl⟩ := Nat.exists_eq_add_one_of_ne_zero (Nat.ne_zero_of_lt hfuel)
    simp [readText]
  | plain hquote hescape _ ih =>
    obtain ⟨fuel, rfl⟩ := Nat.exists_eq_add_one_of_ne_zero (Nat.ne_zero_of_lt hfuel)
    rw [readText_plain hquote hescape, ih (Nat.lt_of_succ_lt_succ hfuel)]
    simp
  | letter hletter _ ih =>
    obtain ⟨fuel, rfl⟩ := Nat.exists_eq_add_one_of_ne_zero (Nat.ne_zero_of_lt hfuel)
    rw [readText_letter hletter, ih (Nat.lt_of_succ_lt (Nat.lt_of_succ_lt_succ hfuel))]
    simp
  | @code mark d n cs behind text rest hmark hcode _ ih =>
    obtain ⟨fuel, rfl⟩ := Nat.exists_eq_add_one_of_ne_zero (Nat.ne_zero_of_lt hfuel)
    have hbehind : behind.length < fuel := by
      have hle := (suffix_of_readCode? hcode).length_le
      simp only [List.length_cons] at hfuel
      omega
    have hread : readText (fuel + 1) done ('\\' :: mark :: cs) = readText fuel (d :: done) behind := by
      rcases hmark with ⟨rfl, rfl⟩ | ⟨rfl, rfl⟩ <;> rw [readText, hcode]
    rw [hread, ih hbehind]
    simp

/-- A text in double quotes is read as far as its closing quote. -/
theorem readText_eq_some_iff {cs rest : List Char} {s : String} :
    readText (cs.length + 1) [] cs = some (s, rest) ↔ Quoted cs s.toList rest := by
  constructor
  · intro h
    obtain ⟨text, htext, rfl⟩ := quoted_of_readText h
    rwa [List.reverse_nil, List.nil_append, String.toList_ofList]
  · intro h
    rw [readText_of_quoted h (Nat.lt_succ_self _), List.reverse_nil, List.nil_append, String.ofList_toList]

/-! ## Values within values -/

/-- What is read from the front of a text. -/
inductive Part where
  | value
  /-- The items of a sequence that are left, and its closing bracket. -/
  | items
  /-- The entries of a table that are left, and its closing brace. -/
  | entries

/-- What begins as nothing else begins a word. -/
def BeginsWord (cs : List Char) : Prop :=
  (∀ name ∈ ["true".toList, "false".toList], ¬ name <+: cs) ∧
    ∀ c ∈ cs.head?, c ∉ ['\x7b', '[', '"', '\'']

/-- A part stands at the front of a text, with a rest behind it. -/
inductive Stands : Part → List Char → List Char → Prop
  | truth {cs name rest : List Char} (hname : name ∈ ["true".toList, "false".toList])
      (hcs : cs.dropWhile isBlank = name ++ rest) : Stands .value cs (rest.dropWhile isBlank)
  | quoted {cs inner text rest : List Char} (hcs : cs.dropWhile isBlank = '"' :: inner)
      (h : Quoted inner text rest) : Stands .value cs (rest.dropWhile isBlank)
  | character {cs rest : List Char} {c : Char} (hcs : cs.dropWhile isBlank = '\'' :: c :: '\'' :: rest) :
      Stands .value cs (rest.dropWhile isBlank)
  | sequence {cs inner rest : List Char} (hcs : cs.dropWhile isBlank = '[' :: inner)
      (h : Stands .items inner rest) : Stands .value cs (rest.dropWhile isBlank)
  | table {cs inner rest : List Char} (hcs : cs.dropWhile isBlank = '\x7b' :: inner)
      (h : Stands .entries inner rest) : Stands .value cs (rest.dropWhile isBlank)
  | word {cs word rest : List Char} (hbegins : BeginsWord (cs.dropWhile isBlank))
      (hcs : cs.dropWhile isBlank = word ++ rest) (hword : ∀ c ∈ word, isSeparator c = false)
      (hrest : ∀ c ∈ rest.head?, isSeparator c = true) : Stands .value cs (rest.dropWhile isBlank)
  | noItems {rest : List Char} : Stands .items (']' :: rest) rest
  | item {cs rest behind : List Char} (hcs : ∀ c ∈ cs.head?, c ≠ ']') (hitem : Stands .value cs (',' :: rest))
      (h : Stands .items rest behind) : Stands .items cs behind
  | lastItem {cs rest : List Char} (hcs : ∀ c ∈ cs.head?, c ≠ ']') (hitem : Stands .value cs (']' :: rest)) :
      Stands .items cs rest
  | noEntries {rest : List Char} : Stands .entries ('\x7d' :: rest) rest
  | entry {cs behind rest last : List Char} (hcs : ∀ c ∈ cs.head?, c ≠ '\x7d') (hkey : readKey? cs = some behind)
      (hvalue : Stands .value behind (',' :: rest)) (h : Stands .entries rest last) :
      Stands .entries cs last
  | lastEntry {cs behind rest : List Char} (hcs : ∀ c ∈ cs.head?, c ≠ '\x7d')
      (hkey : readKey? cs = some behind) (hvalue : Stands .value behind ('\x7d' :: rest)) :
      Stands .entries cs rest

/-- What the reader takes from the front of a text as a part leaves this rest. -/
def reads : Part → ℕ → List Char → Option (List Char)
  | .value, fuel, cs => (readValue fuel cs).map (·.2)
  | .items, fuel, cs => readItems fuel cs
  | .entries, fuel, cs => readEntries fuel cs

/-- A value at the very front of a text. -/
def valueAt (fuel : ℕ) (cs : List Char) : Option (SettingValue × List Char) :=
  match cs with
  | 't' :: 'r' :: 'u' :: 'e' :: rest => some (.bool true, rest)
  | 'f' :: 'a' :: 'l' :: 's' :: 'e' :: rest => some (.bool false, rest)
  | '\x7b' :: rest => (readEntries fuel rest).map (.table, ·)
  | '[' :: rest => (readItems fuel rest).map (.sequence, ·)
  | '"' :: rest => (readText (rest.length + 1) [] rest).map fun (s, rest) => (.text s, rest)
  | '\'' :: c :: '\'' :: rest => some (.text (String.singleton c), rest)
  | '\'' :: _ => none
  | rest => some (ofWord (Blank.trimChars (rest.takeWhile fun c => !isSeparator c)),
      rest.dropWhile fun c => !isSeparator c)

theorem readValue_succ (fuel : ℕ) (cs : List Char) : readValue (fuel + 1) cs =
    (valueAt fuel (cs.dropWhile isBlank)).map fun (v, rest) => (v, rest.dropWhile isBlank) := by
  rw [readValue]
  rfl

theorem valueAt_word {fuel : ℕ} {cs : List Char} (h : BeginsWord cs) : valueAt fuel cs =
    some (ofWord (Blank.trimChars (cs.takeWhile fun c => !isSeparator c)),
      cs.dropWhile fun c => !isSeparator c) := by
  obtain ⟨hnames, hhead⟩ := h
  unfold valueAt
  split
  · exact absurd (List.prefix_append "true".toList _) (hnames _ (by simp))
  · exact absurd (List.prefix_append "false".toList _) (hnames _ (by simp))
  · exact absurd (by simp) (hhead _ rfl)
  · exact absurd (by simp) (hhead _ rfl)
  · exact absurd (by simp) (hhead _ rfl)
  · exact absurd (by simp) (hhead _ rfl)
  · exact absurd (by simp) (hhead _ rfl)
  · rfl

theorem beginsWord_or (cs : List Char) : BeginsWord cs ∨
    (∃ name ∈ ["true".toList, "false".toList], name <+: cs) ∨
      ∃ c rest, cs = c :: rest ∧ c ∈ ['\x7b', '[', '"', '\''] := by
  by_cases hname : ∃ name ∈ ["true".toList, "false".toList], name <+: cs
  · exact .inr (.inl hname)
  · cases cs with
    | nil => exact .inl ⟨fun name h hcs => hname ⟨name, h, hcs⟩, nofun⟩
    | cons c rest =>
      by_cases hc : c ∈ ['\x7b', '[', '"', '\'']
      · exact .inr (.inr ⟨c, rest, rfl, hc⟩)
      · exact .inl ⟨fun name h hcs => hname ⟨name, h, hcs⟩, fun d hd => Option.some.inj hd ▸ hc⟩

/-- All that a value at the very front of a text can be. -/
inductive Front (fuel : ℕ) : List Char → SettingValue → List Char → Prop
  | affirmed (rest : List Char) : Front fuel ("true".toList ++ rest) (.bool true) rest
  | denied (rest : List Char) : Front fuel ("false".toList ++ rest) (.bool false) rest
  | quoted {inner text rest : List Char} (h : Quoted inner text rest) :
      Front fuel ('"' :: inner) (.text (String.ofList text)) rest
  | character (c : Char) (rest : List Char) :
      Front fuel ('\'' :: c :: '\'' :: rest) (.text (String.singleton c)) rest
  | sequence {inner rest : List Char} (h : readItems fuel inner = some rest) :
      Front fuel ('[' :: inner) .sequence rest
  | table {inner rest : List Char} (h : readEntries fuel inner = some rest) :
      Front fuel ('\x7b' :: inner) .table rest
  | word {cs : List Char} (h : BeginsWord cs) :
      Front fuel cs (ofWord (Blank.trimChars (cs.takeWhile fun c => !isSeparator c)))
        (cs.dropWhile fun c => !isSeparator c)

theorem front_of_valueAt {fuel : ℕ} {cs rest : List Char} {v : SettingValue}
    (h : valueAt fuel cs = some (v, rest)) : Front fuel cs v rest := by
  rcases beginsWord_or cs with hword | ⟨name, hname, behind, rfl⟩ | ⟨c, inner, rfl, hc⟩
  · rw [valueAt_word hword] at h
    cases h
    exact .word hword
  · rcases List.mem_cons.mp hname with rfl | hname
    · cases h
      exact .affirmed _
    · obtain rfl := List.mem_singleton.mp hname
      cases h
      exact .denied _
  · simp only [List.mem_cons, List.not_mem_nil, or_false] at hc
    rcases hc with rfl | rfl | rfl | rfl
    · obtain ⟨behind, hbehind, heq⟩ := Option.map_eq_some_iff.mp h
      cases heq
      exact .table hbehind
    · obtain ⟨behind, hbehind, heq⟩ := Option.map_eq_some_iff.mp h
      cases heq
      exact .sequence hbehind
    · obtain ⟨⟨text, behind⟩, hbehind, heq⟩ := Option.map_eq_some_iff.mp h
      cases heq
      have hquoted := readText_eq_some_iff.mp hbehind
      simpa using @Front.quoted fuel _ _ _ hquoted
    · unfold valueAt at h
      split at h <;> try cases ‹ '\'' :: inner = _›
      · rename_i c behind
        cases h
        exact .character c rest
      · cases h
      · exact absurd rfl (‹∀ rest : List Char, '\'' :: inner = '\'' :: rest → False› inner)

/-- What the reader takes for a value at the very front of a text. -/
theorem valueAt_eq_some_iff {fuel : ℕ} {cs rest : List Char} {v : SettingValue} :
    valueAt fuel cs = some (v, rest) ↔ Front fuel cs v rest := by
  refine ⟨front_of_valueAt, fun h => ?_⟩
  cases h with
  | affirmed | denied | character => rfl
  | @quoted inner text rest h =>
    show (readText (inner.length + 1) [] inner).map _ = _
    rw [readText_of_quoted h (Nat.lt_succ_self _)]
    rfl
  | @sequence inner rest h =>
    show (readItems fuel inner).map _ = _
    rw [h]
    rfl
  | @table inner rest h =>
    show (readEntries fuel inner).map _ = _
    rw [h]
    rfl
  | word h => exact valueAt_word h

theorem readItems_succ {fuel : ℕ} {cs : List Char} (hcs : ∀ c ∈ cs.head?, c ≠ ']') :
    readItems (fuel + 1) cs = match readValue fuel cs with
      | some (_, ',' :: rest) => readItems fuel rest
      | some (_, ']' :: rest) => some rest
      | _ => none := by
  have hopen (rest : List Char) (h : cs = ']' :: rest) : False := hcs ']' (h ▸ rfl) rfl
  exact readItems.eq_3 cs fuel hopen

theorem readEntries_succ {fuel : ℕ} {cs : List Char} (hcs : ∀ c ∈ cs.head?, c ≠ '\x7d') :
    readEntries (fuel + 1) cs = match (readKey? cs).bind (readValue fuel) with
      | some (_, ',' :: rest) => readEntries fuel rest
      | some (_, '\x7d' :: rest) => some rest
      | _ => none := by
  have hopen (rest : List Char) (h : cs = '\x7d' :: rest) : False := hcs '\x7d' (h ▸ rfl) rfl
  exact readEntries.eq_3 cs fuel hopen

theorem readItems_close (fuel : ℕ) (rest : List Char) : readItems (fuel + 1) (']' :: rest) = some rest := by
  rw [readItems]
  exact Nat.succ_ne_zero fuel

theorem readEntries_close (fuel : ℕ) (rest : List Char) :
    readEntries (fuel + 1) ('\x7d' :: rest) = some rest := by
  rw [readEntries]
  exact Nat.succ_ne_zero fuel

/-- A text begins with a character, or it does not. -/
theorem exists_cons_or (cs : List Char) (c : Char) : (∃ rest, cs = c :: rest) ∨ ∀ d ∈ cs.head?, d ≠ c := by
  cases cs with
  | nil => exact .inr nofun
  | cons d rest =>
    by_cases h : d = c
    · exact .inl ⟨rest, by rw [h]⟩
    · exact .inr fun e he => Option.some.inj he ▸ h

/-- What the reader takes from the front of a text is a part. -/
theorem stands_of_reads {part : Part} {fuel : ℕ} {cs rest : List Char}
    (h : reads part fuel cs = some rest) : Stands part cs rest := by
  induction fuel generalizing part cs rest with
  | zero => cases part <;> cases h
  | succ fuel ih =>
    have hvalues {cs rest : List Char} {v : SettingValue} (h : readValue fuel cs = some (v, rest)) :
        Stands .value cs rest := @ih .value cs rest (by rw [reads, h]; rfl)
    cases part with
    | value =>
      rw [reads, readValue_succ, Option.map_map] at h
      obtain ⟨⟨v, rest⟩, hvalue, rfl⟩ := Option.map_eq_some_iff.mp h
      show Stands .value cs (rest.dropWhile isBlank)
      have hfront := front_of_valueAt hvalue
      generalize hcs : cs.dropWhile isBlank = front at hfront
      cases hfront with
      | affirmed | denied => exact .truth (by simp) hcs
      | quoted h => exact .quoted hcs h
      | character => exact .character hcs
      | sequence h => exact .sequence hcs (@ih .items _ _ h)
      | table h => exact .table hcs (@ih .entries _ _ h)
      | word hbegins =>
        refine .word (hcs ▸ hbegins) (hcs.trans List.takeWhile_append_dropWhile.symm)
          (fun c hc => by simpa using List.mem_takeWhile_imp hc) fun c hc => ?_
        have hsome := List.head?_dropWhile_not (fun c => !isSeparator c) front
        rw [Option.mem_def.mp hc] at hsome
        simpa using hsome
    | items =>
      rcases exists_cons_or cs ']' with ⟨behind, rfl⟩ | hcs
      · rw [reads, readItems_close] at h
        cases h
        exact .noItems
      · rw [reads, readItems_succ hcs] at h
        split at h
        · rename_i behind hitem
          exact .item hcs (hvalues hitem) (@ih .items _ _ h)
        · rename_i behind hitem
          cases h
          exact .lastItem hcs (hvalues hitem)
        · cases h
    | entries =>
      rcases exists_cons_or cs '\x7d' with ⟨behind, rfl⟩ | hcs
      · rw [reads, readEntries_close] at h
        cases h
        exact .noEntries
      · rw [reads, readEntries_succ hcs] at h
        split at h
        · rename_i behind hentry
          obtain ⟨inner, hkey, hvalue⟩ := Option.bind_eq_some_iff.mp hentry
          exact .entry hcs hkey (hvalues hvalue) (@ih .entries _ _ h)
        · rename_i behind hentry
          obtain ⟨inner, hkey, hvalue⟩ := Option.bind_eq_some_iff.mp hentry
          cases h
          exact .lastEntry hcs hkey (hvalues hvalue)
        · cases h

/-! ## Enough steps -/

/-- A key takes something, the equals sign at the least. -/
theorem suffix_of_readKey? {cs rest : List Char} (h : readKey? cs = some rest) : '=' :: rest <:+ cs := by
  unfold readKey? at h
  dsimp only at h
  obtain ⟨behind, hname, hequals⟩ := Option.bind_eq_some_iff.mp h
  have hbehind : behind <:+ cs := by
    refine List.IsSuffix.trans ?_ (List.dropWhile_suffix isBlank)
    split at hname
    · rename_i inner hcs
      obtain ⟨⟨s, more⟩, hread, rfl⟩ := Option.map_eq_some_iff.mp hname
      rw [hcs]
      exact (readText_eq_some_iff.mp hread).suffix.trans (List.suffix_cons _ _)
    · split at hname
      · cases hname
      · cases hname
        exact List.dropWhile_suffix _
  split at hequals
  · rename_i more hmore
    cases hequals
    exact hmore ▸ (List.dropWhile_suffix isBlank).trans hbehind
  · cases hequals

/-- What is left of a text behind a part is the end of it. -/
theorem Stands.suffix {part : Part} {cs rest : List Char} (h : Stands part cs rest) : rest <:+ cs := by
  -- The front of a value is what blanks leave, and blanks behind it go too.
  have hvalue {cs front rest : List Char} (hcs : cs.dropWhile isBlank = front) (hrest : rest <:+ front) :
      rest.dropWhile isBlank <:+ cs :=
    (List.dropWhile_suffix isBlank).trans (hrest.trans (hcs ▸ List.dropWhile_suffix isBlank))
  induction h with
  | truth _ hcs => exact hvalue hcs (List.suffix_append _ _)
  | quoted hcs h => exact hvalue hcs (h.suffix.trans (List.suffix_cons _ _))
  | @character cs rest c hcs => exact hvalue hcs (List.suffix_append ['\'', c, '\''] rest)
  | sequence hcs _ ih => exact hvalue hcs (ih.trans (List.suffix_cons _ _))
  | table hcs _ ih => exact hvalue hcs (ih.trans (List.suffix_cons _ _))
  | word _ hcs => exact hvalue hcs (List.suffix_append _ _)
  | noItems | noEntries => exact List.suffix_cons _ _
  | item _ _ _ ihitem ih => exact ih.trans ((List.suffix_cons _ _).trans ihitem)
  | lastItem _ _ ihitem => exact (List.suffix_cons _ _).trans ihitem
  | entry _ hkey _ _ ihvalue ih =>
    have hbehind := (List.suffix_cons _ _).trans (suffix_of_readKey? hkey)
    exact ih.trans ((List.suffix_cons _ _).trans (ihvalue.trans hbehind))
  | lastEntry _ hkey _ ihvalue =>
    have hbehind := (List.suffix_cons _ _).trans (suffix_of_readKey? hkey)
    exact (List.suffix_cons _ _).trans (ihvalue.trans hbehind)

/-- The steps that a part takes besides two for each character. -/
def Part.steps : Part → ℕ
  | .value => 1
  | .items | .entries => 2

/-- With enough steps the reader takes a part from the front of a text. -/
theorem reads_of_stands {part : Part} {cs rest : List Char} (h : Stands part cs rest) {fuel : ℕ}
    (hfuel : 2 * cs.length + part.steps ≤ fuel) : reads part fuel cs = some rest := by
  -- A value is read as what stands behind the blanks is.
  have hvalue {fuel : ℕ} {cs front rest : List Char} {v : SettingValue} (hcs : cs.dropWhile isBlank = front)
      (h : Front fuel front v rest) : reads .value (fuel + 1) cs = some (rest.dropWhile isBlank) := by
    rw [reads, readValue_succ, hcs, valueAt_eq_some_iff.mpr h]
    rfl
  have hlength {cs inner : List Char} {c : Char} (hcs : cs.dropWhile isBlank = c :: inner) :
      inner.length < cs.length := by
    have hle := (List.dropWhile_suffix isBlank (l := cs)).length_le
    rwa [hcs, List.length_cons] at hle
  obtain ⟨fuel, rfl⟩ : ∃ more, fuel = more + 1 :=
    Nat.exists_eq_add_one_of_ne_zero (by cases part <;> simp only [Part.steps] at hfuel <;> omega)
  induction h generalizing fuel with
  | @truth cs name rest hname hcs =>
    rcases List.mem_cons.mp hname with rfl | hname
    · exact hvalue hcs (.affirmed rest)
    · obtain rfl := List.mem_singleton.mp hname
      exact hvalue hcs (.denied rest)
  | quoted hcs h => exact hvalue hcs (.quoted h)
  | character hcs => exact hvalue hcs (.character _ _)
  | sequence hcs h ih =>
    have hinner := hlength hcs
    simp only [Part.steps] at hfuel ih
    obtain ⟨fuel, rfl⟩ : ∃ more, fuel = more + 1 := Nat.exists_eq_add_one_of_ne_zero (by omega)
    exact hvalue hcs (.sequence (ih fuel (by omega)))
  | table hcs h ih =>
    have hinner := hlength hcs
    simp only [Part.steps] at hfuel ih
    obtain ⟨fuel, rfl⟩ : ∃ more, fuel = more + 1 := Nat.exists_eq_add_one_of_ne_zero (by omega)
    exact hvalue hcs (.table (ih fuel (by omega)))
  | @word cs word rest hbegins hcs hword hrest =>
    have hbefore : ∀ c ∈ word, (!isSeparator c) = true := fun c hc => by simp [hword c hc]
    have hbehind : ∀ c ∈ rest.head?, (!isSeparator c) = false := fun c hc => by simp [hrest c hc]
    have hfront := @Front.word fuel _ hbegins
    rw [hcs, Number.takeWhile_eq hbefore hbehind, Blank.dropWhile_eq hbefore hbehind] at hfront
    exact hvalue hcs hfront
  | noItems => exact readItems_close fuel _
  | @item cs rest behind hcs hitem h ihitem ih =>
    have hle := hitem.suffix.length_le
    simp only [Part.steps, List.length_cons] at hfuel ihitem ih hle
    obtain ⟨fuel, rfl⟩ : ∃ more, fuel = more + 1 := Nat.exists_eq_add_one_of_ne_zero (by omega)
    obtain ⟨⟨v, more⟩, hread, rfl⟩ := Option.map_eq_some_iff.mp (ihitem fuel (by omega))
    have hbehind : readItems (fuel + 1) rest = some behind := ih fuel (by omega)
    show readItems (fuel + 1 + 1) cs = _
    rw [readItems_succ hcs, hread]
    exact hbehind
  | @lastItem cs rest hcs hitem ihitem =>
    have hle := hitem.suffix.length_le
    simp only [Part.steps, List.length_cons] at hfuel ihitem hle
    obtain ⟨fuel, rfl⟩ : ∃ more, fuel = more + 1 := Nat.exists_eq_add_one_of_ne_zero (by omega)
    obtain ⟨⟨v, more⟩, hread, rfl⟩ := Option.map_eq_some_iff.mp (ihitem fuel (by omega))
    show readItems (fuel + 1 + 1) cs = _
    rw [readItems_succ hcs, hread]
    rfl
  | noEntries => exact readEntries_close fuel _
  | @entry cs behind rest last hcs hkey hentry h ihentry ih =>
    have hlt : behind.length < cs.length := (suffix_of_readKey? hkey).length_le
    have hle := hentry.suffix.length_le
    simp only [Part.steps, List.length_cons] at hfuel ihentry ih hle
    obtain ⟨fuel, rfl⟩ : ∃ more, fuel = more + 1 := Nat.exists_eq_add_one_of_ne_zero (by omega)
    obtain ⟨⟨v, more⟩, hread, rfl⟩ := Option.map_eq_some_iff.mp (ihentry fuel (by omega))
    have hbehind : readEntries (fuel + 1) rest = some last := ih fuel (by omega)
    show readEntries (fuel + 1 + 1) cs = _
    rw [readEntries_succ hcs, hkey, Option.bind_some, hread]
    exact hbehind
  | @lastEntry cs behind rest hcs hkey hentry ihentry =>
    have hlt : behind.length < cs.length := (suffix_of_readKey? hkey).length_le
    have hle := hentry.suffix.length_le
    simp only [Part.steps, List.length_cons] at hfuel ihentry hle
    obtain ⟨fuel, rfl⟩ : ∃ more, fuel = more + 1 := Nat.exists_eq_add_one_of_ne_zero (by omega)
    obtain ⟨⟨v, more⟩, hread, rfl⟩ := Option.map_eq_some_iff.mp (ihentry fuel (by omega))
    show readEntries (fuel + 1 + 1) cs = _
    rw [readEntries_succ hcs, hkey, Option.bind_some, hread]
    rfl

end TableProfile.Variable
