import TableProfile.Csv.Cell
import TableProfile.Proofs.DecimalNumerals
import TableProfile.Proofs.LoadedTables
import TableProfile.Proofs.NumeralRounding
import TableProfile.Proofs.Utf8Texts

/-!
# What a cell says of its field

A field of a column is a gap, or it denotes a value of the column's type, or it is no cell at all. What a
field denotes is given by itself (`Denotes`), not by how it is read: a text by its bytes, a truth value by its
word, a number by the grammar of numerals, with blanks and tabs before it.

* `spells_written`, `spellsInteger_written`: a numeral is not empty and holds neither blanks nor tabs.
* `holds_read`: a cell that is read is missing exactly where its field is a gap, and has the value that the
  field denotes elsewhere.
-/
namespace TableProfile

/-! ## Characters of numerals -/

namespace Number

/-- Any character but white space and the mark of bytes that are not ASCII. -/
def Written (c : Char) : Prop := c ∉ ['?', ' ', '\t']

instance : DecidablePred Written := fun c => inferInstanceAs (Decidable (c ∉ ['?', ' ', '\t']))

theorem written_of_isDigit {c : Char} (h : c.isDigit = true) : Written c := by
  intro hc
  simp only [List.mem_cons, List.not_mem_nil, or_false] at hc
  rcases hc with rfl | rfl | rfl <;> cases h

theorem IsSign.written {sign : List Char} {negative : Bool} (h : IsSign sign negative) :
    ∀ c ∈ sign, Written c := by
  cases h with
  | none => exact nofun
  | plus => simp [Written]
  | minus => simp [Written]

theorem written_of_name {name : List Char}
    (h : name.map Char.toLower ∈ ["inf".toList, "infinity".toList, "nan".toList]) :
    name ≠ [] ∧ ∀ c ∈ name, Written c := by
  have hletters : ∀ word ∈ ["inf".toList, "infinity".toList, "nan".toList],
      word ≠ [] ∧ word.all (fun x => decide (Written x)) = true := by decide
  obtain ⟨hne, hword⟩ := hletters _ h
  refine ⟨by simpa using hne, fun c hc hmark => ?_⟩
  have hwritten : Written c.toLower :=
    of_decide_eq_true (List.all_eq_true.mp hword c.toLower (List.mem_map_of_mem hc))
  have hsmall : ∀ x ∈ ['?', ' ', '\t'], x.toLower = x := by simp
  exact hwritten (by rwa [hsmall c hmark])

theorem spellsInteger_written {cs : List Char} {n : ℤ} (h : SpellsInteger cs n) :
    cs ≠ [] ∧ ∀ c ∈ cs, Written c := by
  cases h with
  | intro hsign hsome hdigits =>
    refine ⟨by simp [hsome], List.forall_mem_append.mpr ⟨hsign.written, fun c hc => ?_⟩⟩
    exact written_of_isDigit (hdigits c hc)

/-- A numeral is not empty and holds no white space. -/
theorem spells_written {cs : List Char} {numeral : Numeral} (h : Spells cs numeral) :
    cs ≠ [] ∧ ∀ c ∈ cs, Written c := by
  cases h with
  | infinite hsign hname =>
    obtain ⟨hne, hwritten⟩ := written_of_name (List.mem_append_left ["nan".toList] hname)
    exact ⟨by simp [hne], List.forall_mem_append.mpr ⟨hsign.written, hwritten⟩⟩
  | notANumber hsign hname =>
    obtain ⟨hne, hwritten⟩ := written_of_name (by rw [hname]; simp)
    exact ⟨by simp [hne], List.forall_mem_append.mpr ⟨hsign.written, hwritten⟩⟩
  | @decimal sign whole point fraction tail negative e hsign hwhole hpoint hsome htail =>
    have hfraction : (point = [] → fraction = []) ∧ ∀ c ∈ point, Written c := by
      cases hpoint with
      | none => exact ⟨fun _ => rfl, nofun⟩
      | point hdigits =>
        refine ⟨nofun, List.forall_mem_cons.mpr ⟨by decide, fun c hc => ?_⟩⟩
        exact written_of_isDigit (hdigits c hc)
    have hexponent : ∀ c ∈ tail, Written c := by
      cases htail with
      | none => exact nofun
      | letter hletter he =>
        refine List.forall_mem_cons.mpr ⟨?_, (spellsInteger_written he).2⟩
        rcases hletter with rfl | rfl <;> decide
    refine ⟨fun hnil => hsome ?_, ?_⟩
    · simp only [List.append_eq_nil_iff] at hnil
      rw [hnil.2.1.1, hfraction.1 hnil.2.1.2, List.append_nil]
    · refine List.forall_mem_append.mpr ⟨hsign.written, List.forall_mem_append.mpr ⟨?_, hexponent⟩⟩
      refine List.forall_mem_append.mpr ⟨fun c hc => ?_, hfraction.2⟩
      exact written_of_isDigit (hwhole c hc)

end Number

namespace Csv

/-! ## Fields and values -/

/-- A field holds no data: it is empty or, where numbers stand, has blanks and tabs only. -/
def IsGap (type : CellType) (field : Bytes) : Prop :=
  field = [] ∨ (type = .int ∨ type = .float) ∧ ∀ b ∈ field, isPad b = true

/-- Where no numbers stand, blanks and tabs are data. -/
theorem isGap_iff_nil {type : CellType} {field : Bytes} (htype : type = .text ∨ type = .bool) :
    IsGap type field ↔ field = [] := by
  refine ⟨?_, .inl⟩
  rintro (hnil | ⟨hnumber, -⟩)
  · exact hnil
  · rcases htype with rfl | rfl <;> simp at hnumber

/-- The value that a field denotes as a cell of a type. -/
inductive Denotes : CellType → Bytes → Value → Prop
  | text (s : String) : Denotes .text (Utf8.encode s) (.text s)
  | bool {field : Bytes} {b : Bool} (hword : field.map asciiLower = Utf8.encode (Cells.boolText b)) :
      Denotes .bool field (.bool b)
  | int {pads : Bytes} {cs : List Char} {n : ℤ} (hpads : ∀ b ∈ pads, isPad b = true)
      (hspells : Number.SpellsInteger cs n) (hfits : -2 ^ 63 ≤ n ∧ n < 2 ^ 63) :
      Denotes .int (pads ++ Utf8.encode (String.ofList cs)) (.int n)
  | float {pads : Bytes} {cs : List Char} {numeral : Number.Numeral} {x : Float}
      (hpads : ∀ b ∈ pads, isPad b = true) (hspells : Number.Spells cs numeral)
      (hdouble : Number.IsDoubleOf numeral x) :
      Denotes .float (pads ++ Utf8.encode (String.ofList cs)) (.float x)

/-- What a cell of a type says of its field, if there is one: it is missing where the field is missing or a
gap, and has the value of the field elsewhere. -/
structure Holds (type : CellType) (field : Option Bytes) (v : Value) : Prop where
  missing_iff : v = .missing ↔ ∀ f ∈ field, IsGap type f
  denotes : ∀ f ∈ field, ¬ IsGap type f → Denotes type f v

theorem Denotes.ne_missing {type : CellType} {field : Bytes} {v : Value} (h : Denotes type field v) :
    v ≠ .missing := by
  cases h <;> exact nofun

theorem holds_missing {type : CellType} {field : Bytes} (h : IsGap type field) :
    Holds type (some field) .missing :=
  ⟨by simpa using h, fun _ hf hno => absurd (Option.some.inj hf ▸ h) hno⟩

theorem holds_none (type : CellType) : Holds type none .missing := ⟨by simp, nofun⟩

theorem holds_of_denotes {type : CellType} {field : Bytes} {v : Value} (hgap : ¬ IsGap type field)
    (h : Denotes type field v) : Holds type (some field) v :=
  ⟨iff_of_false h.ne_missing (by simpa using hgap), fun _ hf _ => Option.some.inj hf ▸ h⟩

/-- A cell has a value of its type, if it has one. -/
theorem Holds.missing_or {type : CellType} {field : Option Bytes} {v : Value} (h : Holds type field v) :
    v = .missing ∨ ∃ f, Denotes type f v := by
  by_cases hv : v = .missing
  · exact .inl hv
  · obtain ⟨f, hf, hgap⟩ := not_forall₂.mp (mt h.missing_iff.mpr hv)
    exact .inr ⟨f, h.denotes f hf hgap⟩

/-! ## Texts and truth values -/

theorem holds_readText {field : Bytes} {v : Value} (hvalid : Utf8.isValid field = true)
    (h : readText ⟨field, false⟩ = .ok v) : Holds .text (some field) v := by
  unfold readText at h
  split at h
  · rename_i hempty
    cases h
    exact holds_missing (.inl (List.isEmpty_iff.mp hempty))
  · rename_i hempty
    cases h
    refine holds_of_denotes (mt (isGap_iff_nil (.inl rfl)).mp (mt List.isEmpty_iff.mpr hempty)) ?_
    have htext := Denotes.text (Utf8.decodeLossy field)
    rwa [Utf8.encode_decodeLossy hvalid] at htext

theorem readBool_unquoted (field : Bytes) : readBool ⟨field, false⟩ =
    if field.isEmpty then .ok .missing
    else if field.map asciiLower == Utf8.encode "false" then .ok (.bool false)
    else if field.map asciiLower == Utf8.encode "true" then .ok (.bool true)
    else .error (.notBool (Utf8.decodeLossy field)) := by
  cases field <;> rfl

theorem holds_readBool {field : Bytes} {v : Value} (h : readBool ⟨field, false⟩ = .ok v) :
    Holds .bool (some field) v := by
  have hgap (hempty : ¬ field.isEmpty = true) : ¬ IsGap .bool field :=
    mt (isGap_iff_nil (.inr rfl)).mp (mt List.isEmpty_iff.mpr hempty)
  rw [readBool_unquoted] at h
  split at h
  · rename_i hempty
    cases h
    exact holds_missing (.inl (List.isEmpty_iff.mp hempty))
  · rename_i hempty
    split at h
    · rename_i hword
      cases h
      exact holds_of_denotes (hgap hempty) (.bool (eq_of_beq hword))
    · split at h
      · rename_i hword
        cases h
        exact holds_of_denotes (hgap hempty) (.bool (eq_of_beq hword))
      · cases h

/-! ## Numbers -/

/-- Bytes of which none lies beyond ASCII are those of their characters. -/
theorem encode_numeral {bytes : Bytes} (h : '?' ∉ numeral bytes) :
    Utf8.encode (String.ofList (numeral bytes)) = bytes := by
  rw [Utf8.encode_ofList]
  induction bytes with
  | nil => rfl
  | cons b rest ih =>
    simp only [numeral, List.map_cons, List.mem_cons, not_or] at h
    have hb : b < 128 := by
      by_contra hlarge
      exact h.1 (by rw [if_neg hlarge])
    have hbyte : b.toNat < 0x80 := UInt8.lt_iff_toNat_lt.mp hb
    rw [numeral, List.map_cons, List.flatMap_cons, if_pos hb, Utf8.encodeChar_one hbyte]
    exact congrArg (b :: ·) (ih h.2)

/-- Blanks and tabs are no characters of a numeral. -/
theorem not_written_of_isPad {b : UInt8} (h : isPad b = true) :
    ∃ c ∈ numeral [b], ¬ Number.Written c := by
  rcases (Bool.or_eq_true _ _).mp h with hb | hb
  · rw [eq_of_beq hb]
    exact ⟨' ', by decide, by decide⟩
  · rw [eq_of_beq hb]
    exact ⟨'\t', by decide, by decide⟩

theorem readNumber_unquoted (read : List Char → Option Value) (field : Bytes) :
    readNumber read ⟨field, false⟩ =
      if field.isEmpty then .ok .missing
      else
        match read (numeral field) with
        | some v => .ok v
        | none =>
          let rest := field.dropWhile isPad
          if rest.length = field.length then .error .notNumber
          else if rest.isEmpty then .ok .missing
          else
            match read (numeral rest) with
            | some v => .ok v
            | none => .error .notNumber := by
  cases field <;> rfl

/-- What is read as a number is a gap or blanks and a text that can be read. -/
theorem readNumber_cases {read : List Char → Option Value} {field : Bytes} {v : Value}
    (h : readNumber read ⟨field, false⟩ = .ok v) :
    (v = .missing ∧ ∀ b ∈ field, isPad b = true) ∨
      ∃ pads rest, field = pads ++ rest ∧ (∀ b ∈ pads, isPad b = true) ∧ read (numeral rest) = some v := by
  rw [readNumber_unquoted] at h
  dsimp only at h
  split at h
  · rename_i hempty
    cases h
    exact .inl ⟨rfl, by simp [List.isEmpty_iff.mp hempty]⟩
  · split at h
    · rename_i hread
      cases h
      exact .inr ⟨[], field, rfl, nofun, hread⟩
    · split at h
      · cases h
      · split at h
        · rename_i hrest
          cases h
          exact .inl ⟨rfl, List.dropWhile_eq_nil_iff.mp (List.isEmpty_iff.mp hrest)⟩
        · split at h
          · rename_i hread
            cases h
            exact .inr ⟨field.takeWhile isPad, _, List.takeWhile_append_dropWhile.symm,
              fun b hb => List.mem_takeWhile_imp hb, hread⟩
          · cases h

/-- A field that is read as a number is a gap if nothing comes of it, and no gap if a number does. -/
theorem holds_readNumber {type : CellType} (htype : type = .int ∨ type = .float)
    {read : List Char → Option Value} {field : Bytes} {v : Value}
    (hwritten : ∀ cs v, read cs = some v → cs ≠ [] ∧ ∀ c ∈ cs, Number.Written c)
    (hdenotes : ∀ pads cs v, (∀ b ∈ pads, isPad b = true) → read cs = some v →
      Denotes type (pads ++ Utf8.encode (String.ofList cs)) v)
    (h : readNumber read ⟨field, false⟩ = .ok v) : Holds type (some field) v := by
  rcases readNumber_cases h with ⟨rfl, hpads⟩ | ⟨pads, rest, rfl, hpads, hread⟩
  · exact holds_missing (.inr ⟨htype, hpads⟩)
  · obtain ⟨hne, hall⟩ := hwritten _ _ hread
    have hrest : rest ≠ [] := by
      rintro rfl
      exact hne rfl
    refine holds_of_denotes ?_ ?_
    · rintro (hnil | ⟨-, hgap⟩)
      · exact hrest (List.append_eq_nil_iff.mp hnil).2
      · obtain ⟨b, more, rfl⟩ := List.exists_cons_of_ne_nil hrest
        obtain ⟨c, hc, hno⟩ := not_written_of_isPad (hgap b (by simp))
        refine hno (hall c ?_)
        simp only [numeral, List.map_cons, List.map_nil, List.mem_singleton] at hc ⊢
        exact hc ▸ List.mem_cons_self
    · have hvalue := hdenotes pads _ v hpads hread
      rwa [encode_numeral fun hmark => hall _ hmark (by decide)] at hvalue

/-! ## Cells -/

theorem readInteger_eq_some {cs : List Char} {n : ℤ} (h : readInteger cs = some n) :
    Number.SpellsInteger cs n := by
  simp only [readInteger] at h
  split at h
  · cases h
  · rename_i hdigits
    obtain ⟨-, hn⟩ := Option.ite_none_right_eq_some.mp h
    simp only [Bool.or_eq_true, List.isEmpty_iff, Bool.not_eq_true', not_or, Bool.not_eq_false] at hdigits
    exact Number.spellsInteger_iff.mpr
      ⟨hdigits.1, Number.allDigits_iff.mpr hdigits.2, (Option.some.inj hn).symm⟩

/-- **What a cell says.** A cell that is read is missing exactly where its field is a gap, and has the value
that the field denotes elsewhere. -/
theorem holds_read {type : CellType} {field : Bytes} {v : Value}
    (hvalid : type = .text → Utf8.isValid field = true) (h : type.read ⟨field, false⟩ = .ok v) :
    Holds type (some field) v := by
  cases type <;> rw [CellType.read] at h
  case text => exact holds_readText (hvalid rfl) h
  case bool => exact holds_readBool h
  case int =>
    refine holds_readNumber (.inl rfl) ?_ ?_ h
    · intro cs v hread
      obtain ⟨n, hn, -⟩ := Option.map_eq_some_iff.mp hread
      exact Number.spellsInteger_written (readInteger_eq_some hn)
    · intro pads cs v hpads hread
      obtain ⟨n, hn, rfl⟩ := Option.map_eq_some_iff.mp hread
      have hfits : -2 ^ 63 ≤ n ∧ n < 2 ^ 63 := by
        have hholds : (decide (-2 ^ 63 ≤ n) && decide (n < 2 ^ 63)) = true := readInteger_holds hn
        simpa using hholds
      exact .int hpads (readInteger_eq_some hn) hfits
  case float =>
    refine holds_readNumber (.inr rfl) ?_ ?_ h
    · intro cs v hread
      obtain ⟨x, hx, -⟩ := Option.map_eq_some_iff.mp hread
      obtain ⟨numeral, hnumeral, -⟩ := Option.map_eq_some_iff.mp hx
      exact Number.spells_written (Number.readNumeral_eq_some_iff.mp hnumeral)
    · intro pads cs v hpads hread
      obtain ⟨x, hx, rfl⟩ := Option.map_eq_some_iff.mp hread
      obtain ⟨numeral, hnumeral, rfl⟩ := Option.map_eq_some_iff.mp hx
      exact .float hpads (Number.readNumeral_eq_some_iff.mp hnumeral) (Number.toDouble_roundsTo numeral)

end Csv

end TableProfile
