import TableProfile.Proofs.VariableGrammar

/-!
# What the texts of variables mean

The text of a variable stands for itself unless it has a meaning of another kind: a truth value, a number, a text
in quotes, a sequence or a table.

* `ofWord_of_not_isNumber`, `ofWord_ne_text`: a word is a number or a text.
* `read_cases`: a text without white space at its ends is read as its meaning, or as itself if it has none.
-/
namespace TableProfile.Variable

open Number (SpellsInteger Spells)

/-! ## Words -/

/-- A word that is a number: an integer of 64 bits, or a numeral with a point. -/
def IsNumber (word : List Char) : Prop :=
  (∃ n : ℤ, SpellsInteger word n ∧ -2 ^ 63 ≤ n ∧ n < 2 ^ 64) ∨
    ('.' ∈ word ∧ ∃ numeral, Spells word numeral)

theorem readInteger?_eq_none_iff (word : List Char) : readInteger? word = none ↔
    ¬ ∃ n : ℤ, SpellsInteger word n ∧ -2 ^ 63 ≤ n ∧ n < 2 ^ 64 := by
  have hspells : (∃ n : ℤ, SpellsInteger word n ∧ -2 ^ 63 ≤ n ∧ n < 2 ^ 64) ↔
      ((Number.takeSign word).2 ≠ [] ∧ Number.AllDigits (Number.takeSign word).2) ∧
        if (Number.takeSign word).1 then Number.digitsValue 0 (Number.takeSign word).2 ≤ 2 ^ 63
        else Number.digitsValue 0 (Number.takeSign word).2 < 2 ^ 64 := by
    simp only [Number.spellsInteger_iff, and_assoc, exists_and_left, exists_eq_left]
    refine and_congr_right fun _ => and_congr_right fun _ => ?_
    cases (Number.takeSign word).1 <;>
      simp only [Number.withSign, if_true, if_false, Bool.false_eq_true] <;> omega
  have hdigits : ((Number.takeSign word).2.isEmpty || !(Number.takeSign word).2.all Char.isDigit) = true ↔
      ¬ ((Number.takeSign word).2 ≠ [] ∧ Number.AllDigits (Number.takeSign word).2) := by
    rw [Number.allDigits_iff]
    simp [-List.all_eq_true, imp_iff_not_or]
  rw [hspells]
  unfold readInteger?
  dsimp only
  split
  · rename_i hnone
    exact iff_of_true rfl fun h => hdigits.mp hnone h.1
  · rename_i hsome
    rw [not_and, iff_comm, imp_iff_right (not_not.mp (mt hdigits.mpr hsome))]
    cases (Number.takeSign word).1 with
    | false =>
      show ¬ _ < _ ↔ (if _ < Nat.pow 2 64 then _ else _) = _
      split
      · rename_i hlt
        exact iff_of_false (not_not_intro hlt) nofun
      · rename_i hlt
        exact iff_of_true hlt rfl
    | true =>
      show ¬ _ ≤ _ ↔ (if _ ≤ Nat.pow 2 63 then _ else _) = _
      split
      · rename_i hle
        exact iff_of_false (not_not_intro hle) nofun
      · rename_i hle
        exact iff_of_true hle rfl

theorem readInteger?_ne_text (word : List Char) (s : String) : readInteger? word ≠ some (.text s) := by
  unfold readInteger?
  dsimp only
  repeat' split
  all_goals exact nofun

/-- A word that is no number is a text. -/
theorem ofWord_of_not_isNumber {word : List Char} (h : ¬ IsNumber word) :
    ofWord word = .text (String.ofList word) := by
  obtain ⟨hinteger, hpoint⟩ := not_or.mp h
  have hnone : (if word.contains '.' then Number.readDecimal word else none) = none := by
    split
    · rename_i hcontains
      rw [Number.readDecimal, Option.map_eq_none_iff, Option.eq_none_iff_forall_ne_some]
      intro numeral hread
      exact hpoint ⟨List.contains_iff_mem.mp hcontains, numeral, Number.readNumeral_eq_some_iff.mp hread⟩
    · rfl
  rw [ofWord, hnone, (readInteger?_eq_none_iff word).mpr hinteger]

/-- A word that is a number is no text. -/
theorem ofWord_ne_text {word : List Char} (h : IsNumber word) (s : String) : ofWord word ≠ .text s := by
  unfold ofWord
  dsimp only
  split
  · exact nofun
  · rename_i hinteger
    exact fun heq => readInteger?_ne_text word s (hinteger.trans (congrArg some heq))
  · rename_i hpoint hinteger
    rcases h with h | ⟨hmem, numeral, hnumeral⟩
    · exact absurd h ((readInteger?_eq_none_iff word).mp hinteger)
    · rw [if_pos (List.contains_iff_mem.mpr hmem), Number.readDecimal,
        Number.readNumeral_eq_some_iff.mpr hnumeral] at hpoint
      cases hpoint

/-! ## Meanings -/

/-- A text as a whole has a meaning of another kind than itself. -/
inductive Means : List Char → SettingValue → Prop
  | affirmed : Means "true".toList (.bool true)
  | denied : Means "false".toList (.bool false)
  | number {word : List Char} (hword : ∀ c ∈ word, isSeparator c = false) (h : IsNumber word) :
      Means word (ofWord word)
  | quoted {inner text : List Char} (h : Quoted inner text []) :
      Means ('"' :: inner) (.text (String.ofList text))
  | character (c : Char) : Means ['\'', c, '\''] (.text (String.singleton c))
  | sequence {inner : List Char} (h : Stands .items inner []) : Means ('[' :: inner) .sequence
  | table {inner : List Char} (h : Stands .entries inner []) : Means ('\x7b' :: inner) .table

/-- A number begins with a digit, a sign or a point. -/
theorem IsNumber.head {word : List Char} (h : IsNumber word) :
    ∀ c ∈ word.head?, c.isDigit = true ∨ c ∈ ['+', '-', '.'] := by
  have hsigned {sign body : List Char} {negative : Bool} (hsign : Number.IsSign sign negative)
      (hbody : ∀ c ∈ body.head?, c.isDigit = true ∨ c ∈ ['+', '-', '.']) :
      ∀ c ∈ (sign ++ body).head?, c.isDigit = true ∨ c ∈ ['+', '-', '.'] := by
    cases hsign with
    | none => exact hbody
    | plus =>
      rintro c ⟨⟩
      exact .inr (by simp)
    | minus =>
      rintro c ⟨⟩
      exact .inr (by simp)
  -- The names of infinity and of the undefined value have no point.
  have hname {sign name : List Char} {negative : Bool} (hsign : Number.IsSign sign negative)
      (h : name.map Char.toLower ∈ ["inf".toList, "infinity".toList, "nan".toList]) : '.' ∉ sign ++ name := by
    intro hmem
    rcases List.mem_append.mp hmem with hmem | hmem
    · cases hsign <;> revert hmem <;> decide
    · have hpoint : '.' ∈ name.map Char.toLower := List.mem_map_of_mem (f := Char.toLower) hmem
      simp only [List.mem_cons, List.not_mem_nil, or_false] at h
      rcases h with h | h | h <;> rw [h] at hpoint <;> revert hpoint <;> decide
  rcases h with ⟨n, ⟨hsign, hsome, hdigits⟩, -⟩ | ⟨hmem, numeral, hnumeral⟩
  · exact hsigned hsign fun c hc => .inl (hdigits c (List.mem_of_mem_head? hc))
  · cases hnumeral with
    | decimal hsign hwhole hpoint hsome htail =>
      refine hsigned hsign ?_
      obtain ⟨c, rest, hbody, hc⟩ := Number.exists_head hwhole hpoint hsome _
      rw [hbody]
      rintro d ⟨⟩
      exact hc.imp_right fun hpoint => by simp [hpoint]
    | infinite hsign h => exact absurd hmem (hname hsign (List.mem_append_left ["nan".toList] h))
    | notANumber hsign h => exact absurd hmem (hname hsign (by rw [h]; simp))

theorem IsNumber.beginsWord {word : List Char} (h : IsNumber word) : BeginsWord word := by
  rcases beginsWord_or word with hword | ⟨name, hname, behind, rfl⟩ | ⟨c, rest, rfl, hc⟩
  · exact hword
  · rcases List.mem_cons.mp hname with rfl | hname
    · exact absurd (h.head 't' rfl) (by decide)
    · obtain rfl := List.mem_singleton.mp hname
      exact absurd (h.head 'f' rfl) (by decide)
  · have hhead := h.head c rfl
    simp only [List.mem_cons, List.not_mem_nil, or_false] at hc
    rcases hc with rfl | rfl | rfl | rfl <;> exact absurd hhead (by decide)

/-- No meaning is the text itself. -/
theorem Means.ne_self {cs : List Char} {v : SettingValue} (h : Means cs v) : v ≠ .text (String.ofList cs) := by
  cases h with
  | affirmed | denied | sequence | table => exact nofun
  | number _ h => exact ofWord_ne_text h _
  | quoted h =>
    intro heq
    have hlist := congrArg String.toList (SettingValue.text.inj heq)
    have hlength := congrArg List.length hlist
    simp only [String.toList_ofList, List.length_cons] at hlength
    have hlt := h.length_lt
    omega
  | character c =>
    intro heq
    have hlength := congrArg (fun s => s.toList.length) (SettingValue.text.inj heq)
    simp at hlength

theorem isBlank_of_isBlank {c : Char} (h : isBlank c = true) : Blank.isBlank c = true := by
  simp only [isBlank, Bool.or_eq_true, beq_iff_eq] at h
  rcases h with (((rfl | rfl) | rfl) | rfl) | rfl <;> decide

/-- A text without white space at its ends. -/
structure Trimmed (cs : List Char) : Prop where
  first : ∀ c ∈ cs.head?, Blank.isBlank c = false
  last : ∀ c ∈ cs.getLast?, Blank.isBlank c = false

-- The ends are looked at, not all characters.
instance : DecidablePred Trimmed := fun cs =>
  decidable_of_iff
    ((cs.head?.all fun c => !Blank.isBlank c) = true ∧ (cs.getLast?.all fun c => !Blank.isBlank c) = true)
    ⟨fun ⟨hfirst, hlast⟩ =>
        ⟨by simpa [Option.all_eq_true] using hfirst, by simpa [Option.all_eq_true] using hlast⟩,
      fun h => ⟨by simpa [Option.all_eq_true] using h.first, by simpa [Option.all_eq_true] using h.last⟩⟩

theorem trimChars_of_trimmed {cs : List Char} (h : Trimmed cs) : Blank.trimChars cs = cs := by
  have hends := @Blank.trimChars_eq [] cs [] (by simp) h.first h.last
  rwa [List.nil_append, List.append_nil] at hends

theorem Front.suffix {fuel : ℕ} {cs rest : List Char} {v : SettingValue} (h : Front fuel cs v rest) :
    rest <:+ cs := by
  cases h with
  | affirmed | denied => exact List.suffix_append _ _
  | quoted h => exact h.suffix.trans (List.suffix_cons _ _)
  | character c => exact List.suffix_append ['\'', c, '\''] rest
  | sequence h => exact (@stands_of_reads .items _ _ _ h).suffix.trans (List.suffix_cons _ _)
  | table h => exact (@stands_of_reads .entries _ _ _ h).suffix.trans (List.suffix_cons _ _)
  | word => exact List.dropWhile_suffix _

/-- A text without white space at its ends is read as the value that it consists of, if it is one. -/
theorem read_of_trimmed {s : String} (h : Trimmed s.toList) :
    read s = match valueAt (2 * s.length + 1) s.toList with
      | some (v, []) => v
      | _ => .text s := by
  have hfront : s.toList.dropWhile isBlank = s.toList := by
    cases hcs : s.toList with
    | nil => rfl
    | cons c rest =>
      refine List.dropWhile_cons_of_neg fun hc => ?_
      have hblank := h.first c (by rw [hcs]; rfl)
      rw [isBlank_of_isBlank hc] at hblank
      cases hblank
  rw [read, readValue_succ, hfront]
  cases hvalue : valueAt (2 * s.length + 1) s.toList with
  | none => rfl
  | some found =>
    obtain ⟨v, rest⟩ := found
    cases rest with
    | nil => rfl
    | cons c rest =>
      -- What is left ends as the text does, so it is not all blank.
      have hlast : ((c :: rest).dropWhile isBlank) ≠ [] := by
        intro hnil
        obtain ⟨before, hcs⟩ := (front_of_valueAt hvalue).suffix
        have hend : s.toList.getLast? = some ((c :: rest).getLast (List.cons_ne_nil _ _)) := by
          rw [← hcs, List.getLast?_append, List.getLast?_eq_some_getLast (List.cons_ne_nil _ _)]
          rfl
        have hblank := h.last _ hend
        have hall := List.dropWhile_eq_nil_iff.mp hnil _ (List.getLast_mem (List.cons_ne_nil _ _))
        rw [isBlank_of_isBlank hall] at hblank
        cases hblank
      obtain ⟨d, more, hmore⟩ := List.exists_cons_of_ne_nil hlast
      show (match some (v, (c :: rest).dropWhile isBlank) with
        | some (v, []) => v
        | _ => SettingValue.text s) = _
      rw [hmore]

/-- A text that has a meaning is read as it. -/
theorem read_of_means {s : String} {v : SettingValue} (h : Trimmed s.toList) (hmeans : Means s.toList v) :
    read s = v := by
  rw [read_of_trimmed h]
  generalize hcs : s.toList = cs at hmeans
  have hlength : s.length = cs.length := by rw [← hcs, String.length_toList]
  cases hmeans with
  | affirmed => rfl
  | denied => rfl
  | number hword hnumber =>
    have hall : ∀ c ∈ cs, (!isSeparator c) = true := fun c hc => by simp [hword c hc]
    have htake : cs.takeWhile (fun c => !isSeparator c) = cs := List.takeWhile_eq_self_iff.mpr hall
    have hdrop : cs.dropWhile (fun c => !isSeparator c) = [] := List.dropWhile_eq_nil_iff.mpr hall
    rw [valueAt_word hnumber.beginsWord, htake, hdrop, trimChars_of_trimmed (hcs ▸ h)]
  | quoted hquoted => rw [valueAt_eq_some_iff.mpr (.quoted hquoted)]
  | character c => rfl
  | @sequence inner hitems =>
    have hread : readItems (2 * s.length + 1) inner = some [] :=
      reads_of_stands hitems (by simp only [Part.steps, hlength, List.length_cons]; omega)
    rw [valueAt_eq_some_iff.mpr (.sequence hread)]
  | @table inner hentries =>
    have hread : readEntries (2 * s.length + 1) inner = some [] :=
      reads_of_stands hentries (by simp only [Part.steps, hlength, List.length_cons]; omega)
    rw [valueAt_eq_some_iff.mpr (.table hread)]

/-- What is a value from end to end is a word, or has a meaning. -/
theorem Front.means {fuel : ℕ} {cs rest : List Char} {v : SettingValue} (h : Front fuel cs v rest)
    (hrest : rest = []) :
    (v = ofWord (Blank.trimChars cs) ∧ ∀ c ∈ cs, isSeparator c = false) ∨ ∃ v, Means cs v := by
  cases h with
  | affirmed =>
    rw [hrest]
    exact .inr ⟨_, .affirmed⟩
  | denied =>
    rw [hrest]
    exact .inr ⟨_, .denied⟩
  | quoted h => exact .inr ⟨_, .quoted (hrest ▸ h)⟩
  | character c =>
    rw [hrest]
    exact .inr ⟨_, .character c⟩
  | sequence h => exact .inr ⟨_, .sequence (@stands_of_reads .items _ _ _ (hrest ▸ h))⟩
  | table h => exact .inr ⟨_, .table (@stands_of_reads .entries _ _ _ (hrest ▸ h))⟩
  | word =>
    have hall := List.dropWhile_eq_nil_iff.mp hrest
    exact .inl ⟨by rw [List.takeWhile_eq_self_iff.mpr hall], fun c hc => by simpa using hall c hc⟩

/-- A text that has no meaning is read as itself. -/
theorem read_of_not_means {s : String} (h : Trimmed s.toList) (hnone : ∀ v, ¬ Means s.toList v) :
    read s = .text s := by
  rw [read_of_trimmed h]
  split
  · rename_i v hvalue
    rcases (front_of_valueAt hvalue).means rfl with ⟨rfl, hword⟩ | ⟨v, hv⟩
    · have hnumber : ¬ IsNumber s.toList := fun hnumber => hnone _ (.number hword hnumber)
      rw [trimChars_of_trimmed h, ofWord_of_not_isNumber hnumber, String.ofList_toList]
    · exact absurd hv (hnone v)
  · rfl

/-- **Texts of variables.** A text without white space at its ends stands for itself exactly if it has no other
meaning; otherwise it is read as its meaning. -/
theorem read_cases {s : String} (h : Trimmed s.toList) :
    (∃ v, Means s.toList v ∧ read s = v ∧ v ≠ .text s) ∨
      (∀ v, ¬ Means s.toList v) ∧ read s = .text s := by
  by_cases hmeans : ∃ v, Means s.toList v
  · obtain ⟨v, hv⟩ := hmeans
    have hself := hv.ne_self
    rw [String.ofList_toList] at hself
    exact .inl ⟨v, hv, read_of_means h hv, hself⟩
  · have hnone := not_exists.mp hmeans
    exact .inr ⟨hnone, read_of_not_means h hnone⟩

end TableProfile.Variable
