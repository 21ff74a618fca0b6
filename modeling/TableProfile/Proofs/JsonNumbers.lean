import TableProfile.Json.Reader
import TableProfile.Proofs.PresentFigures
import TableProfile.Proofs.ShortestDigits

/-!
# Numbers in JSON texts

A number is a whole part without needless zeros, a point with digits behind it or nothing, and an exponent
or nothing (`IsNumber`). With neither point nor exponent it is read as an integer, if it fits 64 bits, and
otherwise as the double nearest to its digits. A double is always written with one of them.

* `isNumberText_int`: the text of an integer that fits 64 bits is read as this integer.
* `isNumberText_float`: the text of a finite double is read as this double.
-/
namespace TableProfile.Json

open Number

/-! ## Numbers -/

/-- Digits that can stand in front of a number: a zero at the front stands alone. -/
structure IsWhole (whole : List Char) : Prop where
  ne_nil : whole ≠ []
  digits : AllDigits whole
  lead : whole.head? = some '0' → whole = ['0']

/-- A text is a number without sign: a whole part, a point with digits behind it or nothing, an exponent or
nothing. -/
inductive IsNumber : List Char → ℕ → ℤ → Prop
  | intro {whole point fraction tail : List Char} {e : ℤ} (hwhole : IsWhole whole)
      (hpoint : SpellsFraction point fraction) (hsome : point ≠ [] → fraction ≠ [])
      (htail : SpellsExponent tail e) :
      IsNumber (whole ++ point ++ tail) (spelled (whole ++ fraction)) (e - fraction.length)

theorem isWhole_toDigits (n : ℕ) : IsWhole (Nat.toDigits 10 n) := by
  obtain ⟨hne, hdigits, -, hlead⟩ := isNumeral_iff.mpr (rfl : Nat.toDigits 10 n = Nat.toDigits 10 n)
  exact ⟨hne, hdigits, hlead⟩

/-- A text is taken apart behind its whole part. -/
theorem readUnsigned_eq {whole rest : List Char} (hwhole : IsWhole whole)
    (hrest : ∀ c ∈ rest.head?, c.isDigit = false)
    (hpoint : ∀ more, rest = '.' :: more → more.takeWhile Char.isDigit ≠ []) (negative : Bool) :
    readUnsigned negative (whole ++ rest) =
      if rest.isEmpty then
        let n := digitsValue 0 whole
        if negative then
          if n = 0 then some (.float (Number.encode true 0 (-1074)))
          else if n ≤ Nat.pow 2 63 then some (.int (-(n : Int)))
          else (finite? (Number.nearest true n 1)).map .float
        else if n < Nat.pow 2 64 then some (.int n)
        else (finite? (Number.nearest false n 1)).map .float
      else (readMagnitude negative (whole ++ rest)).bind fun numeral =>
        (finite? numeral.toDouble).map .float := by
  obtain ⟨hne, hdigits, hlead⟩ := hwhole
  have hempty : whole.isEmpty = false := by simpa using hne
  unfold readUnsigned
  rw [takeWhile_eq hdigits hrest, Blank.dropWhile_eq hdigits hrest]
  dsimp only
  have hzero : hasLeadingZero whole = false := by
    unfold hasLeadingZero
    split
    · exact absurd (hlead rfl) (by simp)
    · rfl
  have hbare : hasBarePoint rest = false := by
    unfold hasBarePoint
    split
    · simpa using hpoint _ rfl
    · rfl
  rw [hzero, hbare, hempty]
  rfl

/-- A number with a point or an exponent is read as the double of its digits. -/
theorem readUnsigned_isNumber {text : List Char} {digits : ℕ} {exponent : ℤ}
    (h : IsNumber text digits exponent) (hmark : '.' ∈ text ∨ 'e' ∈ text) (negative : Bool) :
    readUnsigned negative text =
      (finite? (Numeral.decimal negative digits exponent).toDouble).map .float := by
  cases h with
  | @intro whole point fraction tail e hwhole hpoint hsome htail =>
  have hmagnitude : readMagnitude negative (whole ++ point ++ tail) =
      some (.decimal negative (spelled (whole ++ fraction)) (e - fraction.length)) :=
    readMagnitude_eq_some_iff.mpr ⟨whole, point, fraction, tail, e, rfl, hwhole.digits, hpoint,
      fun hnil => hwhole.ne_nil (List.append_eq_nil_iff.mp hnil).1, htail, rfl⟩
  have htailhead := head_exponent htail
  have hrest : point ++ tail ≠ [] := by
    intro hnil
    rw [List.append_assoc, hnil, List.append_nil] at hmark
    rcases hmark with hmem | hmem
    · exact absurd (hwhole.digits _ hmem) (by decide)
    · exact absurd (hwhole.digits _ hmem) (by decide)
  have hhead : ∀ c ∈ (point ++ tail).head?, c.isDigit = false := by
    cases hpoint with
    | none => exact fun c hc => (htailhead c hc).1
    | point =>
      rintro c ⟨⟩
      decide
  have hbehind : ∀ more, point ++ tail = '.' :: more → more.takeWhile Char.isDigit ≠ [] := by
    intro more hmore
    cases hpoint with
    | none => exact absurd rfl (htailhead '.' (by rw [List.nil_append] at hmore; rw [hmore]; rfl)).2
    | point hdigits =>
      obtain rfl : fraction ++ tail = more := (List.cons.inj hmore).2
      rw [takeWhile_eq hdigits fun c hc => (htailhead c hc).1]
      exact hsome (List.cons_ne_nil _ _)
  rw [List.append_assoc] at hmagnitude ⊢
  rw [readUnsigned_eq hwhole hhead hbehind, hmagnitude, if_neg (by simpa using hrest)]
  rfl

/-! ## Doubles -/

theorem isWhole_of_lead {whole : List Char} (hne : whole ≠ []) (hdigits : AllDigits whole)
    (hlead : whole.head? ≠ some '0') : IsWhole whole :=
  ⟨hne, hdigits, fun h => absurd h hlead⟩

theorem spellsExponent_exponentText (e : ℤ) : SpellsExponent ('e' :: exponentText e) e := by
  have hdigits : AllDigits (Nat.toDigits 10 e.natAbs) := (isWhole_toDigits _).digits
  have htext : (toString e.natAbs).toList = Nat.toDigits 10 e.natAbs := Nat.toList_repr
  refine .letter (.inl rfl) ?_
  rw [exponentText, htext]
  by_cases hneg : e < 0
  · have hspells := SpellsInteger.intro .minus Nat.toDigits_ne_nil hdigits
    rw [spelled_toDigits, withSign, if_pos rfl, show -(e.natAbs : ℤ) = e by omega] at hspells
    rw [if_pos hneg]
    exact hspells
  · have hspells := SpellsInteger.intro .plus Nat.toDigits_ne_nil hdigits
    rw [spelled_toDigits, withSign, if_neg Bool.false_ne_true, show (e.natAbs : ℤ) = e by omega] at hspells
    rw [if_neg hneg]
    exact hspells

theorem allDigits_zeros (n : ℕ) : AllDigits (List.replicate n '0') := fun c hc => by
  rw [List.eq_of_mem_replicate hc]
  rfl

section

variable {d : Digits}

/-- All digits stand in front of the point. -/
theorem isNumber_padded (h : d.Proper) (hpoint : 0 < d.point) (hshort : d.digits.length ≤ d.point.toNat) :
    ∃ digits exponent, IsNumber (d.plain ++ ['.', '0']) digits exponent ∧
      (digits : ℝ) * 10 ^ exponent = d.value := by
  obtain ⟨hne, hdigits, hlead⟩ := h
  rw [Digits.plain, if_neg (by omega)]
  dsimp only
  rw [if_pos hshort]
  obtain ⟨k, hk⟩ : ∃ k, d.point.toNat - d.digits.length = k := ⟨_, rfl⟩
  have hwhole : IsWhole (d.digits ++ List.replicate k '0') := by
    refine isWhole_of_lead (by simp [hne]) (fun c hc => ?_) ?_
    · exact (List.mem_append.mp hc).elim (hdigits c) (allDigits_zeros k c)
    · rwa [List.head?_append_of_ne_nil _ hne]
  have hnumber := IsNumber.intro hwhole (.point (allDigits_zeros 1)) (fun _ => by simp) .none
  rw [List.append_nil] at hnumber
  rw [hk]
  refine ⟨_, _, hnumber, ?_⟩
  rw [Digits.value_eq, spelled_append, spelled_append, spelled_zeros, spelled_zeros, List.length_replicate,
    show d.point - d.digits.length = k by omega]
  simp

/-- The point stands between the digits. -/
theorem isNumber_cut (h : d.Proper) (hpoint : 0 < d.point) (hlong : ¬ d.digits.length ≤ d.point.toNat) :
    ∃ digits exponent, IsNumber d.plain digits exponent ∧ (digits : ℝ) * 10 ^ exponent = d.value := by
  obtain ⟨hne, hdigits, hlead⟩ := h
  rw [Digits.plain, if_neg (by omega)]
  dsimp only
  rw [if_neg hlong]
  obtain ⟨n, hn⟩ : ∃ n, d.point.toNat = n := ⟨_, rfl⟩
  rw [hn] at hlong ⊢
  have hwhole : IsWhole (d.digits.take n) := by
    have hn : n ≠ 0 := by omega
    refine isWhole_of_lead ?_ (fun c hc => hdigits c (List.mem_of_mem_take hc)) ?_
    · rw [ne_eq, List.take_eq_nil_iff]
      exact not_or.mpr ⟨hn, hne⟩
    · rwa [List.head?_take, if_neg hn]
  have hfraction : AllDigits (d.digits.drop n) := fun c hc => hdigits c (List.mem_of_mem_drop hc)
  have hsome : d.digits.drop n ≠ [] := mt List.drop_eq_nil_iff.mp hlong
  have hnumber := IsNumber.intro hwhole (.point hfraction) (fun _ => hsome) .none
  rw [List.append_nil, List.take_append_drop] at hnumber
  refine ⟨_, _, hnumber, ?_⟩
  rw [Digits.value_eq, List.length_drop,
    show (0 : ℤ) - (d.digits.length - n : ℕ) = d.point - d.digits.length by omega]

/-- The point stands in front of the digits, behind a zero. -/
theorem isNumber_small (h : d.Proper) (hpoint : d.point ≤ 0) :
    ∃ digits exponent, IsNumber d.plain digits exponent ∧ (digits : ℝ) * 10 ^ exponent = d.value := by
  rw [Digits.plain, if_pos hpoint]
  obtain ⟨k, hk⟩ : ∃ k, (-d.point).toNat = k := ⟨_, rfl⟩
  have hfraction : AllDigits (List.replicate k '0' ++ d.digits) := fun c hc =>
    (List.mem_append.mp hc).elim (allDigits_zeros k c) (h.digits c)
  have hnumber := IsNumber.intro (isWhole_toDigits 0) (.point hfraction) (fun _ => by simp [h.ne_nil]) .none
  rw [List.append_nil] at hnumber
  rw [hk]
  refine ⟨_, _, hnumber, ?_⟩
  rw [Digits.value_eq, spelled_append, spelled_append, spelled_zeros, spelled_toDigits, List.length_append,
    List.length_replicate, Nat.zero_mul, Nat.zero_mul, Nat.zero_add, Nat.zero_add,
    show (0 : ℤ) - (k + d.digits.length : ℕ) = d.point - d.digits.length by omega]

/-- Digits with their point or exponent are a number of the same value. -/
theorem isNumber_digitsText (h : d.Proper) : ∃ digits exponent,
    IsNumber (digitsText d) digits exponent ∧ (digits : ℝ) * 10 ^ exponent = d.value := by
  rw [digitsText]
  split
  · rename_i hpoint
    split
    · rename_i hshort
      exact isNumber_padded h hpoint.1 hshort
    · rename_i hlong
      exact isNumber_cut h hpoint.1 hlong
  · split
    · rename_i hpoint
      exact isNumber_small h hpoint.2
    · -- With an exponent the first digit alone stands in front of the point.
      obtain ⟨hne, hdigits, hlead⟩ := h
      rw [Digits.value_eq]
      obtain ⟨one, more, hcons⟩ := List.exists_cons_of_ne_nil hne
      rw [hcons] at hdigits hlead ⊢
      have hwhole : IsWhole [one] :=
        isWhole_of_lead (List.cons_ne_nil _ _) (fun c hc => hdigits c (by simp_all)) (by simpa using hlead)
      have hexponent := spellsExponent_exponentText (d.point - 1)
      cases more with
      | nil =>
        have hnumber := IsNumber.intro hwhole .none (fun hnil => absurd rfl hnil) hexponent
        refine ⟨_, _, hnumber, ?_⟩
        simp
      | cons c more =>
        have hnumber := IsNumber.intro hwhole (.point fun x hx => hdigits x (List.mem_cons_of_mem _ hx))
          (fun _ => List.cons_ne_nil c more) hexponent
        refine ⟨_, _, hnumber, ?_⟩
        rw [List.singleton_append, show d.point - 1 - ((c :: more).length : ℤ) =
          d.point - ((one :: c :: more).length : ℤ) by simp only [List.length_cons]; push_cast; ring]

end

theorem isNumberChar_of_isDigit {c : Char} (h : c.isDigit = true) : isNumberChar c = true := by
  simp [isNumberChar, h]

theorem isNumberChar_of_spellsInteger {cs : List Char} {n : ℤ} (h : SpellsInteger cs n) :
    ∀ c ∈ cs, isNumberChar c = true := by
  cases h with
  | intro hsign _ hdigits =>
    intro c hc
    rcases List.mem_append.mp hc with hc | hc
    · cases hsign with
      | none => cases hc
      | plus | minus =>
        cases List.mem_singleton.mp hc
        decide
    · exact isNumberChar_of_isDigit (hdigits c hc)

/-- What a number is made of. -/
theorem IsNumber.chars {text : List Char} {digits : ℕ} {exponent : ℤ} (h : IsNumber text digits exponent) :
    ∀ c ∈ text, isNumberChar c = true := by
  cases h with
  | intro hwhole hpoint hsome htail =>
    intro c hc
    simp only [List.mem_append] at hc
    rcases hc with (hc | hc) | hc
    · exact isNumberChar_of_isDigit (hwhole.digits c hc)
    · cases hpoint with
      | none => cases hc
      | point hdigits =>
        rcases List.mem_cons.mp hc with rfl | hc
        · decide
        · exact isNumberChar_of_isDigit (hdigits c hc)
    · cases htail with
      | none => cases hc
      | letter hletter he =>
        rcases List.mem_cons.mp hc with rfl | hc
        · rcases hletter with rfl | rfl <;> decide
        · exact isNumberChar_of_spellsInteger he c hc

theorem IsNumber.head {text : List Char} {digits : ℕ} {exponent : ℤ} (h : IsNumber text digits exponent) :
    ∃ c rest, text = c :: rest ∧ c.isDigit = true := by
  cases h with
  | @intro whole _ _ _ _ hwhole _ _ _ =>
    obtain ⟨c, rest, rfl⟩ := List.exists_cons_of_ne_nil hwhole.ne_nil
    exact ⟨c, _, rfl, hwhole.digits c List.mem_cons_self⟩

/-- A text that is a number as a whole. -/
structure IsNumberText (text : List Char) (v : Json) : Prop where
  ne_nil : text ≠ []
  chars : ∀ c ∈ text, isNumberChar c = true
  read : readNumberText text = some v

/-- A number with a sign is read behind it. -/
theorem isNumberText_signed {body : List Char} {digits : ℕ} {exponent : ℤ} {v : Json}
    (h : IsNumber body digits exponent) {negative : Bool} (hread : readUnsigned negative body = some v) :
    IsNumberText (if negative then '-' :: body else body) v := by
  obtain ⟨c, rest, rfl, hc⟩ := h.head
  cases negative with
  | true =>
    refine ⟨List.cons_ne_nil _ _, fun d hd => ?_, hread⟩
    rcases List.mem_cons.mp hd with rfl | hd
    · decide
    · exact h.chars d hd
  | false =>
    refine ⟨List.cons_ne_nil _ _, h.chars, ?_⟩
    have hplain : readNumberText (c :: rest) = readUnsigned false (c :: rest) := by
      unfold readNumberText
      split
      · rename_i heq
        cases heq
        exact absurd hc (by decide)
      · rfl
    exact hplain.trans hread

/-- The numeral of an integer that fits 64 bits is read as the integer. -/
theorem isNumberText_int {n : ℤ} (hlow : -2 ^ 63 ≤ n) (hhigh : n < 2 ^ 64) :
    IsNumberText (toString n).toList (.int n) := by
  have hread (negative : Bool) (k : ℕ) : readUnsigned negative (Nat.toDigits 10 k ++ []) = _ :=
    readUnsigned_eq (isWhole_toDigits k) (by simp) (by simp) negative
  simp only [List.append_nil, digitsValue_zero, spelled_toDigits] at hread
  have hnumber (k : ℕ) := IsNumber.intro (isWhole_toDigits k) .none (fun hnil => absurd rfl hnil) .none
  simp only [List.append_nil] at hnumber
  rw [Int.toString_eq_repr, Int.repr_eq_if]
  split
  · rename_i hpos
    obtain ⟨k, rfl⟩ := Int.eq_ofNat_of_zero_le hpos
    have hfit : k < Nat.pow 2 64 := by exact_mod_cast hhigh
    rw [Int.toNat_natCast, Nat.toList_repr]
    exact @isNumberText_signed _ _ _ _ (hnumber k) false ((hread false k).trans (if_pos hfit))
  · rename_i hneg
    obtain ⟨k, hk⟩ : ∃ k : ℕ, n = -(k : ℤ) := ⟨(-n).toNat, by omega⟩
    subst hk
    have hne : k ≠ 0 := by omega
    have hfit : k ≤ Nat.pow 2 63 := by rw [Nat.pow_eq]; omega
    rw [String.toList_append, neg_neg, Int.toNat_natCast, Nat.toList_repr]
    exact @isNumberText_signed _ _ _ _ (hnumber k) true
      ((hread true k).trans ((if_neg hne).trans (if_pos hfit)))

/-- The text of a finite double is read as the double. -/
theorem isNumberText_float {x : Float} (hx : x.isFinite = true) :
    IsNumberText (floatText x).toList (.float x) := by
  obtain ⟨negative, m, e, hdecode⟩ := (decode_finite_iff x).mpr hx
  obtain ⟨hencode, hnormal⟩ := encode_decode hdecode
  have htext : (floatText x).toList =
      if negative then '-' :: (if m = 0 then ['0', '.', '0'] else digitsText (shortest m e))
      else if m = 0 then ['0', '.', '0'] else digitsText (shortest m e) := by
    rw [floatText, hdecode]
    exact String.toList_ofList
  have hfinite : (finite? x).map Json.float = some (.float x) := by
    rw [finite?, if_pos hx]
    rfl
  rw [htext]
  by_cases hm : m = 0
  · have hdigits : AllDigits ['0'] := (isWhole_toDigits 0).digits
    have hzero : IsNumber ['0', '.', '0'] 0 (-1) :=
      .intro (isWhole_toDigits 0) (.point hdigits) (fun _ => List.cons_ne_nil _ _) .none
    have he : e = -1074 := hnormal.full.resolve_left (by omega)
    have hdouble : (Numeral.decimal negative 0 (-1)).toDouble = x := by
      rw [← hencode, hm, he]
      rfl
    rw [if_pos hm]
    refine isNumberText_signed hzero ?_
    rw [readUnsigned_isNumber hzero (by decide), hdouble, hfinite]
  · obtain ⟨hproper, hback⟩ := shortest_spec (Nat.pos_of_ne_zero hm) hnormal
    obtain ⟨digits, exponent, hnumber, hvalue⟩ := isNumber_digitsText hproper
    rw [← hvalue] at hback
    rw [if_neg hm]
    refine isNumberText_signed hnumber ?_
    rw [readUnsigned_isNumber hnumber (mem_digitsText _), toDouble_eq (Nat.pos_of_ne_zero hm) hnormal hback,
      hencode, hfinite]

end TableProfile.Json
