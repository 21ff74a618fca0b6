import Mathlib.Data.Nat.Digits.Defs
import TableProfile.Number.Read
import TableProfile.Proofs.TextPieces

/-!
# Decimal numerals

What texts spell a number is a grammar: an optional sign, digits with an optional point, an optional exponent,
or a name of infinity or of the undefined value. The reader takes a text apart at its digits, and finds exactly
what the grammar says.

* `spellsInteger_iff`: a text spells an integer if it is digits behind its sign.
* `readNumeral_eq_some_iff`: the numeral that is read is the one that is spelled.
-/
namespace TableProfile.Number

/-! ## The grammar -/

/-- The number that decimal digits spell. -/
def spelled (digits : List Char) : ℕ := Nat.ofDigits 10 (digits.reverse.map digitValue)

/-- A sign, and whether it is a minus. -/
inductive IsSign : List Char → Bool → Prop
  | none : IsSign [] false
  | plus : IsSign ['+'] false
  | minus : IsSign ['-'] true

def withSign {α : Type} [Neg α] (negative : Bool) (x : α) : α := if negative then -x else x

def AllDigits (cs : List Char) : Prop := ∀ c ∈ cs, c.isDigit = true

/-- A text spells an integer: a sign and at least one digit. -/
inductive SpellsInteger : List Char → ℤ → Prop
  | intro {sign digits : List Char} {negative : Bool} (hsign : IsSign sign negative) (hsome : digits ≠ [])
      (hdigits : AllDigits digits) :
      SpellsInteger (sign ++ digits) (withSign negative (spelled digits : ℤ))

/-- A text is the fraction of a numeral with its point, or nothing. -/
inductive SpellsFraction : List Char → List Char → Prop
  | none : SpellsFraction [] []
  | point {digits : List Char} (hdigits : AllDigits digits) : SpellsFraction ('.' :: digits) digits

/-- A text is the exponent of a numeral with its letter, or nothing. -/
inductive SpellsExponent : List Char → ℤ → Prop
  | none : SpellsExponent [] 0
  | letter {c : Char} {cs : List Char} {e : ℤ} (hletter : c = 'e' ∨ c = 'E') (he : SpellsInteger cs e) :
      SpellsExponent (c :: cs) e

/-- A text spells a numeral. -/
inductive Spells : List Char → Numeral → Prop
  | decimal {sign whole point fraction tail : List Char} {negative : Bool} {e : ℤ}
      (hsign : IsSign sign negative) (hwhole : AllDigits whole) (hpoint : SpellsFraction point fraction)
      (hsome : whole ++ fraction ≠ []) (htail : SpellsExponent tail e) :
      Spells (sign ++ (whole ++ point ++ tail))
        (.decimal negative (spelled (whole ++ fraction)) (e - fraction.length))
  | infinite {sign name : List Char} {negative : Bool} (hsign : IsSign sign negative)
      (hname : name.map Char.toLower ∈ ["inf".toList, "infinity".toList]) :
      Spells (sign ++ name) (.infinite negative)
  | notANumber {sign name : List Char} {negative : Bool} (hsign : IsSign sign negative)
      (hname : name.map Char.toLower = "nan".toList) : Spells (sign ++ name) (.notANumber negative)

/-! ## Digits -/

theorem digitsValue_eq (start : ℕ) (cs : List Char) :
    digitsValue start cs = start * 10 ^ cs.length + spelled cs := by
  induction cs generalizing start with
  | nil => simp [digitsValue, spelled]
  | cons c rest ih =>
    have hspelled : spelled (c :: rest) = digitValue c * 10 ^ rest.length + spelled rest := by
      simp [spelled, Nat.ofDigits_append, Nat.add_comm, Nat.mul_comm]
    show digitsValue (10 * start + digitValue c) rest = _
    rw [ih, hspelled, List.length_cons, pow_succ]
    ring

theorem digitsValue_zero (cs : List Char) : digitsValue 0 cs = spelled cs := by
  rw [digitsValue_eq, zero_mul, zero_add]

theorem digitsValue_append (cs more : List Char) :
    digitsValue (digitsValue 0 cs) more = spelled (cs ++ more) := by
  rw [← digitsValue_zero, digitsValue, digitsValue, digitsValue, List.foldl_append]

theorem allDigits_iff {cs : List Char} : AllDigits cs ↔ cs.all Char.isDigit = true := by
  rw [List.all_eq_true, AllDigits]

theorem takeWhile_eq {p : Char → Bool} {before rest : List Char} (hbefore : ∀ c ∈ before, p c = true)
    (hrest : ∀ c ∈ rest.head?, p c = false) : (before ++ rest).takeWhile p = before := by
  rw [List.takeWhile_append_of_pos hbefore]
  cases rest with
  | nil => simp
  | cons c more => rw [List.takeWhile_cons_of_neg (by simp [hrest c rfl]), List.append_nil]

/-! ## Signs -/

/-- A text is its sign and the rest. -/
theorem exists_isSign (cs : List Char) :
    ∃ sign, IsSign sign (takeSign cs).1 ∧ cs = sign ++ (takeSign cs).2 := by
  unfold takeSign
  split
  · exact ⟨['-'], .minus, rfl⟩
  · exact ⟨['+'], .plus, rfl⟩
  · exact ⟨[], .none, rfl⟩

theorem takeSign_append {sign rest : List Char} {negative : Bool} (h : IsSign sign negative)
    (hrest : ∀ c ∈ rest.head?, c ≠ '-' ∧ c ≠ '+') : takeSign (sign ++ rest) = (negative, rest) := by
  cases h with
  | plus => rfl
  | minus => rfl
  | none =>
    rw [List.nil_append]
    unfold takeSign
    split
    · exact absurd rfl (hrest _ rfl).1
    · exact absurd rfl (hrest _ rfl).2
    · rfl

theorem ne_sign_of_isDigit {c : Char} (h : c.isDigit = true) : c ≠ '-' ∧ c ≠ '+' := by
  constructor <;> rintro rfl <;> revert h <;> decide

/-- A text spells an integer if it is digits behind its sign. -/
theorem spellsInteger_iff {cs : List Char} {n : ℤ} : SpellsInteger cs n ↔
    (takeSign cs).2 ≠ [] ∧ AllDigits (takeSign cs).2 ∧
      n = withSign (takeSign cs).1 (digitsValue 0 (takeSign cs).2 : ℤ) := by
  constructor
  · rintro ⟨hsign, hsome, hdigits⟩
    rename_i sign digits negative
    have htake : takeSign (sign ++ digits) = (negative, digits) :=
      takeSign_append hsign fun c hc => ne_sign_of_isDigit (hdigits c (List.mem_of_mem_head? hc))
    rw [htake, digitsValue_zero]
    exact ⟨hsome, hdigits, rfl⟩
  · rintro ⟨hsome, hdigits, rfl⟩
    obtain ⟨sign, hsign, hcs⟩ := exists_isSign cs
    rw [digitsValue_zero]
    have hspells := SpellsInteger.intro hsign hsome hdigits
    rwa [← hcs] at hspells

/-! ## The parts of a numeral -/

theorem readExponent_eq_some_iff {cs : List Char} {e : ℤ} :
    readExponent cs = some e ↔ SpellsExponent cs e := by
  cases cs with
  | nil =>
    rw [readExponent, Option.some_inj]
    constructor
    · rintro rfl
      exact .none
    · rintro ⟨⟩
      rfl
  | cons c rest =>
    have hletter : (c == 'e' || c == 'E') = true ↔ c = 'e' ∨ c = 'E' := by simp
    have hdigits : ((takeSign rest).2.isEmpty || !(takeSign rest).2.all Char.isDigit) = true ↔
        ¬ ((takeSign rest).2 ≠ [] ∧ AllDigits (takeSign rest).2) := by
      rw [allDigits_iff]
      simp [-List.all_eq_true, imp_iff_not_or]
    constructor
    · intro h
      unfold readExponent at h
      dsimp only at h
      split at h
      · rename_i hc
        split at h
        · cases h
        · rename_i hsome
          obtain ⟨hsome, hall⟩ := not_not.mp (mt hdigits.mpr hsome)
          cases h
          exact .letter (hletter.mp hc) (spellsInteger_iff.mpr ⟨hsome, hall, rfl⟩)
      · cases h
    · rintro ⟨⟩
      rename_i hc he
      obtain ⟨hsome, hall, rfl⟩ := spellsInteger_iff.mp he
      unfold readExponent
      dsimp only
      rw [if_pos (hletter.mpr hc), if_neg (mt hdigits.mp (not_not_intro ⟨hsome, hall⟩))]
      rfl

/-- What follows the digits of a numeral begins with none. -/
theorem head_exponent {tail : List Char} {e : ℤ} (h : SpellsExponent tail e) :
    ∀ c ∈ tail.head?, c.isDigit = false ∧ c ≠ '.' := by
  cases h with
  | none => exact nofun
  | letter hletter =>
    rintro c ⟨⟩
    rcases hletter with rfl | rfl <;> decide

/-- The digits behind a point, and what follows them; without a point there are none. -/
def cutFraction : List Char → List Char × List Char
  | '.' :: more => (more.takeWhile Char.isDigit, more.dropWhile Char.isDigit)
  | rest => ([], rest)

theorem readMagnitude_eq (negative : Bool) (cs : List Char) : readMagnitude negative cs =
    let whole := cs.takeWhile Char.isDigit
    let (fraction, tail) := cutFraction (cs.dropWhile Char.isDigit)
    if whole.isEmpty && fraction.isEmpty then none
    else (readExponent tail).map fun e =>
      .decimal negative (digitsValue (digitsValue 0 whole) fraction) (e - fraction.length) := by
  unfold readMagnitude
  generalize cs.dropWhile Char.isDigit = rest
  dsimp only
  split
  · rfl
  · rename_i hpoint
    have hcut : cutFraction rest = ([], rest) := by
      unfold cutFraction
      split
      · exact (hpoint _ rfl).elim
      · rfl
    rw [hcut]

theorem exists_fraction (rest : List Char) : ∃ point, SpellsFraction point (cutFraction rest).1 ∧
    rest = point ++ (cutFraction rest).2 := by
  unfold cutFraction
  split
  · rename_i more
    refine ⟨'.' :: more.takeWhile Char.isDigit, .point fun c hc => List.mem_takeWhile_imp hc, ?_⟩
    simp
  · exact ⟨[], .none, rfl⟩

theorem cutFraction_append {point fraction tail : List Char} (h : SpellsFraction point fraction)
    (htail : ∀ c ∈ tail.head?, c.isDigit = false ∧ c ≠ '.') :
    cutFraction (point ++ tail) = (fraction, tail) := by
  cases h with
  | none =>
    rw [List.nil_append]
    unfold cutFraction
    split
    · exact absurd rfl (htail _ rfl).2
    · rfl
  | point hdigits =>
    show ((fraction ++ tail).takeWhile Char.isDigit, (fraction ++ tail).dropWhile Char.isDigit) = _
    rw [takeWhile_eq hdigits fun c hc => (htail c hc).1,
      Blank.dropWhile_eq hdigits fun c hc => (htail c hc).1]

theorem readMagnitude_eq_some_iff {negative : Bool} {cs : List Char} {numeral : Numeral} :
    readMagnitude negative cs = some numeral ↔
      ∃ whole point fraction tail e, cs = whole ++ point ++ tail ∧ AllDigits whole ∧
        SpellsFraction point fraction ∧ whole ++ fraction ≠ [] ∧ SpellsExponent tail e ∧
        numeral = .decimal negative (spelled (whole ++ fraction)) (e - fraction.length) := by
  have hempty (whole fraction : List Char) :
      (whole.isEmpty && fraction.isEmpty) = true ↔ ¬ whole ++ fraction ≠ [] := by simp
  rw [readMagnitude_eq]
  dsimp only
  constructor
  · intro h
    obtain ⟨point, hpoint, hrest⟩ := exists_fraction (cs.dropWhile Char.isDigit)
    split at h
    · cases h
    · rename_i hsome
      obtain ⟨e, he, rfl⟩ := Option.map_eq_some_iff.mp h
      refine ⟨_, point, _, _, e, ?_, fun c hc => List.mem_takeWhile_imp hc, hpoint,
        not_not.mp (mt (hempty _ _).mpr hsome), readExponent_eq_some_iff.mp he, ?_⟩
      · rw [List.append_assoc, ← hrest, List.takeWhile_append_dropWhile]
      · rw [digitsValue_append]
  · rintro ⟨whole, point, fraction, tail, e, rfl, hwhole, hpoint, hsome, htail, rfl⟩
    have hhead := head_exponent htail
    have hbehind : ∀ c ∈ (point ++ tail).head?, c.isDigit = false := by
      cases hpoint with
      | none => exact fun c hc => (hhead c hc).1
      | point =>
        rintro c ⟨⟩
        decide
    rw [List.append_assoc, takeWhile_eq hwhole hbehind, Blank.dropWhile_eq hwhole hbehind,
      cutFraction_append hpoint hhead, if_neg (mt (hempty _ _).mp (not_not_intro hsome)),
      readExponent_eq_some_iff.mpr htail, digitsValue_append]
    rfl

/-! ## Numerals -/

/-- A numeral that is no name begins with a digit or a point behind its sign. -/
theorem exists_head {whole point fraction : List Char} (hwhole : AllDigits whole)
    (hpoint : SpellsFraction point fraction) (hsome : whole ++ fraction ≠ []) (tail : List Char) :
    ∃ c rest, whole ++ point ++ tail = c :: rest ∧ (c.isDigit = true ∨ c = '.') := by
  cases whole with
  | cons c rest => exact ⟨c, _, rfl, .inl (hwhole c List.mem_cons_self)⟩
  | nil =>
    cases hpoint with
    | none => exact absurd rfl hsome
    | point => exact ⟨'.', _, rfl, .inr rfl⟩

/-- What is behind the sign of a numeral. -/
theorem readNumeral_eq (cs : List Char) : readNumeral cs =
    if (takeSign cs).2.map Char.toLower ∈ ["inf".toList, "infinity".toList] then
      some (.infinite (takeSign cs).1)
    else if (takeSign cs).2.map Char.toLower = "nan".toList then some (.notANumber (takeSign cs).1)
    else readMagnitude (takeSign cs).1 (takeSign cs).2 := by
  have hname (name : String) : (String.ofList ((takeSign cs).2.map Char.toLower) == name) = true ↔
      (takeSign cs).2.map Char.toLower = name.toList := by
    rw [beq_iff_eq]
    constructor
    · rintro rfl
      rw [String.toList_ofList]
    · intro h
      rw [h, String.ofList_toList]
  have hinfinite : (String.ofList ((takeSign cs).2.map Char.toLower) == "inf" ||
      String.ofList ((takeSign cs).2.map Char.toLower) == "infinity") = true ↔
      (takeSign cs).2.map Char.toLower ∈ ["inf".toList, "infinity".toList] := by
    rw [Bool.or_eq_true, hname, hname, List.mem_cons, List.mem_singleton]
  unfold readNumeral
  simp only [hinfinite, hname]

theorem isDigit_toLower {c : Char} (h : c.isDigit = true) : c.toLower = c := by
  have hdigit : c.toNat ≤ 57 := (Char.isDigit_iff_toNat.mp h).2
  refine Char.toNat_inj.mp ?_
  rw [toNat_toLower, if_neg (by omega)]

/-- The names do not begin as other numerals do. -/
theorem head_name {c : Char} {rest : List Char} (hname : (c :: rest).map Char.toLower ∈
    ["inf".toList, "infinity".toList, "nan".toList]) : c ≠ '-' ∧ c ≠ '+' ∧ ¬ (c.isDigit = true ∨ c = '.') := by
  have hfirst : c.toLower = 'i' ∨ c.toLower = 'n' := by
    simp only [List.map_cons, List.mem_cons, List.not_mem_nil, or_false] at hname
    rcases hname with h | h | h
    · exact .inl (List.cons.inj h).1
    · exact .inl (List.cons.inj h).1
    · exact .inr (List.cons.inj h).1
  refine ⟨?_, ?_, ?_⟩
  · rintro rfl
    exact absurd hfirst (by decide)
  · rintro rfl
    exact absurd hfirst (by decide)
  · rintro (hdigit | rfl)
    · rw [isDigit_toLower hdigit] at hfirst
      rcases hfirst with rfl | rfl <;> exact absurd hdigit (by decide)
    · exact absurd hfirst (by decide)

/-- **Reading numerals.** The numeral that is read is the one that is spelled. -/
theorem readNumeral_eq_some_iff {cs : List Char} {numeral : Numeral} :
    readNumeral cs = some numeral ↔ Spells cs numeral := by
  rw [readNumeral_eq]
  constructor
  · intro h
    obtain ⟨sign, hsign, hcs⟩ := exists_isSign cs
    generalize (takeSign cs).1 = negative at *
    generalize (takeSign cs).2 = body at *
    subst hcs
    split at h
    · rename_i hname
      cases h
      exact .infinite hsign hname
    · split at h
      · rename_i hname
        cases h
        exact .notANumber hsign hname
      · obtain ⟨whole, point, fraction, tail, e, rfl, hwhole, hpoint, hsome, htail, rfl⟩ :=
          readMagnitude_eq_some_iff.mp h
        exact .decimal hsign hwhole hpoint hsome htail
  · rintro (⟨hsign, hwhole, hpoint, hsome, htail⟩ | ⟨hsign, hname⟩ | ⟨hsign, hname⟩)
    · rename_i sign whole point fraction tail negative e
      obtain ⟨c, rest, hbody, hc⟩ := exists_head hwhole hpoint hsome tail
      have hnone : (whole ++ point ++ tail).map Char.toLower ∉
          ["inf".toList, "infinity".toList, "nan".toList] := by
        rw [hbody]
        exact fun hname => (head_name hname).2.2 hc
      have htake : takeSign (sign ++ (whole ++ point ++ tail)) = (negative, whole ++ point ++ tail) := by
        refine takeSign_append hsign ?_
        rw [hbody]
        rintro c ⟨⟩
        rcases hc with hc | rfl
        · exact ne_sign_of_isDigit hc
        · decide
      rw [htake, if_neg fun h => hnone (List.mem_append_left ["nan".toList] h),
        if_neg fun h => hnone (by rw [h]; simp)]
      exact readMagnitude_eq_some_iff.mpr
        ⟨whole, point, fraction, tail, e, rfl, hwhole, hpoint, hsome, htail, rfl⟩
    · rename_i sign name negative
      have htake : takeSign (sign ++ name) = (negative, name) := takeSign_append hsign fun c hc => by
        obtain ⟨rest, rfl⟩ := List.head?_eq_some_iff.mp hc
        have hhead := head_name (List.mem_append_left ["nan".toList] hname)
        exact ⟨hhead.1, hhead.2.1⟩
      rw [htake, if_pos hname]
    · rename_i sign name negative
      have htake : takeSign (sign ++ name) = (negative, name) := takeSign_append hsign fun c hc => by
        obtain ⟨rest, rfl⟩ := List.head?_eq_some_iff.mp hc
        have hhead := @head_name c rest (by rw [hname]; simp)
        exact ⟨hhead.1, hhead.2.1⟩
      rw [htake, if_neg (by rw [hname]; decide), if_pos hname]

end TableProfile.Number
