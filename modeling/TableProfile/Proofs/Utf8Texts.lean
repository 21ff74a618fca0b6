import Mathlib.Data.List.Basic
import Mathlib.Data.List.Induction
import TableProfile.Text.Utf8

/-!
# Texts and their bytes

Between two bytes the reader has read whole characters and at most one that is begun. As long as nothing
malformed has been met, the bytes passed are those of the characters read, and then those of the one begun:
whatever completes it, the character that comes out has the bytes passed and the completing ones (`Begun`).

An ASCII byte never belongs to a character of several bytes. So bytes are scanned on either side of it as if
they stood alone.

* `encode_decodeLossy`: bytes without a malformed run are the bytes of their text.
* `scan_append`: an ASCII byte parts what is read.
* `isValid_of_mem_intercalate`: what is put together at an ASCII byte is well-formed in each of its parts.
-/
namespace TableProfile.Utf8

/-! ## The bytes of a text -/

theorem toList_loop (bytes : ByteArray) (i : ℕ) (done : Bytes) :
    ByteArray.toList.loop bytes i done = done.reverse ++ bytes.data.toList.drop i := by
  induction hn : bytes.size - i generalizing i done with
  | zero =>
    have hend : bytes.data.toList.length ≤ i := by
      show bytes.size ≤ i
      omega
    rw [ByteArray.toList.loop, if_neg (by omega), List.drop_eq_nil_of_le hend, List.append_nil]
  | succ n ih =>
    have hi : i < bytes.size := by omega
    have hbyte : bytes.data.toList.drop i = bytes.get! i :: bytes.data.toList.drop (i + 1) := by
      rw [List.drop_eq_getElem_cons hi]
      congr 1
      exact (getElem!_pos bytes.data i hi).symm
    rw [ByteArray.toList.loop, if_pos hi, ih _ _ (by omega), hbyte]
    simp

/-- The bytes of a text are those of its characters. -/
theorem encode_ofList (cs : List Char) : encode (String.ofList cs) = cs.flatMap String.utf8EncodeChar := by
  rw [encode, ByteArray.toList, toList_loop, String.toUTF8, String.toByteArray_ofList, List.utf8Encode,
    List.toList_data_toByteArray]
  rfl

/-! ## The bytes of a character -/

theorem toNat_ofNat {n : ℕ} (h : n.isValidChar) : (Char.ofNat n).val.toNat = n := by
  rw [Char.ofNat, dif_pos h]
  exact UInt32.toNat_ofNatLT

theorem ofNat_eq {n : ℕ} {b : UInt8} (h : n = b.toNat) : UInt8.ofNat n = b := by
  rw [h, UInt8.ofNat_toNat]

theorem encodeChar_one {b : UInt8} (hb : b.toNat < 0x80) :
    String.utf8EncodeChar (Char.ofNat b.toNat) = [b] := by
  rw [String.utf8EncodeChar, toNat_ofNat (.inl (by omega)), if_pos (by omega), ofNat_eq rfl]

theorem encodeChar_two {b c : UInt8} (hb : 0xC2 ≤ b.toNat ∧ b.toNat < 0xE0)
    (hc : 0x80 ≤ c.toNat ∧ c.toNat ≤ 0xBF) :
    String.utf8EncodeChar (Char.ofNat ((b.toNat - 0xC0) * 64 + (c.toNat - 0x80))) = [b, c] := by
  rw [String.utf8EncodeChar, toNat_ofNat (.inl (by omega)), if_neg (by omega), if_pos (by omega),
    ofNat_eq (b := b) (by omega), ofNat_eq (b := c) (by omega)]

/-- The second byte keeps a character of three bytes from having a shorter form and from being a surrogate. -/
theorem encodeChar_three {b c d : UInt8} (hb : 0xE0 ≤ b.toNat ∧ b.toNat < 0xF0)
    (hc : 0x80 ≤ c.toNat ∧ c.toNat ≤ 0xBF) (hd : 0x80 ≤ d.toNat ∧ d.toNat ≤ 0xBF)
    (hshort : b.toNat = 0xE0 → 0xA0 ≤ c.toNat) (hsurrogate : b.toNat = 0xED → c.toNat ≤ 0x9F) :
    String.utf8EncodeChar (Char.ofNat
      (((b.toNat - 0xE0) * 64 + (c.toNat - 0x80)) * 64 + (d.toNat - 0x80))) = [b, c, d] := by
  have hvalid : (((b.toNat - 0xE0) * 64 + (c.toNat - 0x80)) * 64 + (d.toNat - 0x80)).isValidChar := by
    unfold Nat.isValidChar
    omega
  rw [String.utf8EncodeChar, toNat_ofNat hvalid, if_neg (by omega), if_neg (by omega), if_pos (by omega),
    ofNat_eq (b := b) (by omega), ofNat_eq (b := c) (by omega), ofNat_eq (b := d) (by omega)]

/-- The second byte keeps a character of four bytes from having a shorter form and from being too large. -/
theorem encodeChar_four {b c d e : UInt8} (hb : 0xF0 ≤ b.toNat ∧ b.toNat ≤ 0xF4)
    (hc : 0x80 ≤ c.toNat ∧ c.toNat ≤ 0xBF) (hd : 0x80 ≤ d.toNat ∧ d.toNat ≤ 0xBF)
    (he : 0x80 ≤ e.toNat ∧ e.toNat ≤ 0xBF) (hshort : b.toNat = 0xF0 → 0x90 ≤ c.toNat)
    (hlarge : b.toNat = 0xF4 → c.toNat ≤ 0x8F) :
    String.utf8EncodeChar (Char.ofNat
      ((((b.toNat - 0xF0) * 64 + (c.toNat - 0x80)) * 64 + (d.toNat - 0x80)) * 64 + (e.toNat - 0x80))) =
      [b, c, d, e] := by
  have hvalid : ((((b.toNat - 0xF0) * 64 + (c.toNat - 0x80)) * 64 + (d.toNat - 0x80)) * 64 +
      (e.toNat - 0x80)).isValidChar := by
    unfold Nat.isValidChar
    omega
  rw [String.utf8EncodeChar, toNat_ofNat hvalid, if_neg (by omega), if_neg (by omega), if_neg (by omega),
    ofNat_eq (b := b) (by omega), ofNat_eq (b := c) (by omega), ofNat_eq (b := d) (by omega),
    ofNat_eq (b := e) (by omega)]

/-! ## Characters that are begun -/

/-- Bytes that complete a character of which so many bytes are owed, the next in a range, and the character. -/
inductive Completes : (left low high value : ℕ) → Bytes → Char → Prop
  | last {low high value : ℕ} {b : UInt8} (hrange : low ≤ b.toNat ∧ b.toNat ≤ high) :
      Completes 1 low high value [b] (Char.ofNat (value * 64 + (b.toNat - 0x80)))
  | more {left low high value : ℕ} {b : UInt8} {rest : Bytes} {c : Char} (hleft : left ≠ 1)
      (hrange : low ≤ b.toNat ∧ b.toNat ≤ high)
      (h : Completes (left - 1) 0x80 0xBF (value * 64 + (b.toNat - 0x80)) rest c) :
      Completes left low high value (b :: rest) c

theorem Completes.exists_last {low high value : ℕ} {rest : Bytes} {c : Char}
    (h : Completes 1 low high value rest c) : ∃ b, rest = [b] ∧ (low ≤ b.toNat ∧ b.toNat ≤ high) ∧
      c = Char.ofNat (value * 64 + (b.toNat - 0x80)) := by
  cases h with
  | last hrange => exact ⟨_, rfl, hrange, rfl⟩
  | more hleft => exact absurd rfl hleft

theorem Completes.exists_more {left low high value : ℕ} {rest : Bytes} {c : Char}
    (h : Completes (left + 2) low high value rest c) :
    ∃ b behind, rest = b :: behind ∧ (low ≤ b.toNat ∧ b.toNat ≤ high) ∧
      Completes (left + 1) 0x80 0xBF (value * 64 + (b.toNat - 0x80)) behind c := by
  cases h with
  | more _ hrange h => exact ⟨_, _, rfl, hrange, h⟩

/-- The bytes of a character that is begun, if one is: whatever completes it has the bytes that are missing. -/
def Begun : Option Owed → Bytes → Prop
  | none, begun => begun = []
  | some ⟨left, low, high, value⟩, begun =>
    ∀ rest c, Completes left low high value rest c → String.utf8EncodeChar c = begun ++ rest

/-- What a first byte owes: how often, between which bounds, and behind which value. -/
inductive Leads (b : ℕ) : Owed → Prop
  | two (byte : 0xC2 ≤ b ∧ b < 0xE0) : Leads b ⟨1, 0x80, 0xBF, b - 0xC0⟩
  | three {low high : ℕ} (byte : 0xE0 ≤ b ∧ b < 0xF0) (range : 0x80 ≤ low ∧ high ≤ 0xBF)
      (short : b = 0xE0 → 0xA0 ≤ low) (surrogate : b = 0xED → high ≤ 0x9F) :
      Leads b ⟨2, low, high, b - 0xE0⟩
  | four {low high : ℕ} (byte : 0xF0 ≤ b ∧ b ≤ 0xF4) (range : 0x80 ≤ low ∧ high ≤ 0xBF)
      (short : b = 0xF0 → 0x90 ≤ low) (large : b = 0xF4 → high ≤ 0x8F) :
      Leads b ⟨3, low, high, b - 0xF0⟩

theorem leads_of_start {b : ℕ} {o : Owed} (h : start b = .leads o) : Leads b o := by
  simp only [start] at h
  split at h
  · cases h
  split at h
  · cases h
  split at h
  · cases h
    exact .two (by omega)
  split at h
  · subst b
    cases h
    exact .three (by decide) (by decide) (by decide) (by decide)
  split at h
  · subst b
    cases h
    exact .three (by decide) (by decide) (by decide) (by decide)
  split at h
  · cases h
    exact .three (by omega) (by decide) (by omega) (by omega)
  split at h
  · subst b
    cases h
    exact .four (by decide) (by decide) (by decide) (by decide)
  split at h
  · cases h
    exact .four (by omega) (by decide) (by omega) (by omega)
  split at h
  · subst b
    cases h
    exact .four (by decide) (by decide) (by decide) (by decide)
  · cases h

/-- A byte begins the characters that have it as their first byte. -/
theorem Leads.begun {b : UInt8} {o : Owed} (h : Leads b.toNat o) : Begun (some o) [b] := by
  cases h with
  | two byte =>
    intro rest c hrest
    obtain ⟨x, rfl, hx, hc⟩ := hrest.exists_last
    rw [hc]
    exact encodeChar_two byte hx
  | three byte range short surrogate =>
    intro rest c hrest
    obtain ⟨x, rest, rfl, hx, hrest⟩ := hrest.exists_more
    obtain ⟨y, rfl, hy, hc⟩ := hrest.exists_last
    rw [hc]
    exact encodeChar_three byte (by omega) hy (by omega) (by omega)
  | four byte range short large =>
    intro rest c hrest
    obtain ⟨x, rest, rfl, hx, hrest⟩ := hrest.exists_more
    obtain ⟨y, rest, rfl, hy, hrest⟩ := hrest.exists_more
    obtain ⟨z, rfl, hz, hc⟩ := hrest.exists_last
    rw [hc]
    exact encodeChar_four byte (by omega) hy hz (by omega) (by omega)

/-- A byte that is owed and does not complete the character leaves it begun. -/
theorem Begun.next {left low high value : ℕ} {begun : Bytes} (h : Begun (some ⟨left, low, high, value⟩) begun)
    {b : UInt8} (hleft : left ≠ 1) (hrange : low ≤ b.toNat ∧ b.toNat ≤ high) :
    Begun (some ⟨left - 1, 0x80, 0xBF, value * 64 + (b.toNat - 0x80)⟩) (begun ++ [b]) := by
  intro rest c hrest
  rw [h (b :: rest) c (.more hleft hrange hrest), List.append_assoc]
  rfl

/-! ## Reading -/

/-- What has been passed where nothing malformed was met: the characters read, and one that may be begun. -/
def Passed (bytes : Bytes) (r : Reader) : Prop :=
  ∃ (cs : List Char) (begun : Bytes), r.read = (cs.map some).reverse ∧
    bytes = cs.flatMap String.utf8EncodeChar ++ begun ∧ Begun r.owed begun

theorem first_read (read : List (Option Char)) (b : ℕ) :
    (first read b).read = read ∨ ∃ c, (first read b).read = c :: read := by
  unfold first
  split
  · exact .inr ⟨_, rfl⟩
  · exact .inl rfl
  · exact .inr ⟨_, rfl⟩

/-- What has been read stays. -/
theorem mem_step_read {r : Reader} {c : Option Char} (h : c ∈ r.read) (b : UInt8) : c ∈ (step r b).read := by
  have hfirst (read : List (Option Char)) (hc : c ∈ read) : c ∈ (first read b.toNat).read := by
    rcases first_read read b.toNat with hread | ⟨d, hread⟩
    · rwa [hread]
    · rw [hread]
      exact List.mem_cons_of_mem d hc
  simp only [step]
  split
  · exact hfirst _ h
  · split
    · split
      · exact List.mem_cons_of_mem _ h
      · exact h
    · exact hfirst _ (List.mem_cons_of_mem _ h)

theorem passed_step {bytes : Bytes} {r : Reader} (h : Passed bytes r) {b : UInt8}
    (hnone : none ∉ (step r b).read) : Passed (bytes ++ [b]) (step r b) := by
  obtain ⟨cs, begun, hread, rfl, hbegun⟩ := h
  have hread' (c : Char) : some c :: r.read = ((cs ++ [c]).map some).reverse := by simp [hread]
  simp only [step] at hnone ⊢
  split
  · -- Nothing is begun, so the byte begins a character.
    rename_i howed
    rw [howed] at hbegun hnone
    cases hbegun
    simp only [first] at hnone ⊢
    split
    · rename_i hstart
      have hbyte : b.toNat < 0x80 := by
        by_contra hlarge
        simp only [start, if_neg hlarge] at hstart
        repeat' split at hstart
        all_goals cases hstart
      exact ⟨cs ++ [Char.ofNat b.toNat], [], hread' _, by simp [encodeChar_one hbyte], rfl⟩
    · rename_i o hstart
      exact ⟨cs, [b], hread, by simp, (leads_of_start hstart).begun⟩
    · rename_i hstart
      simp [hstart] at hnone
  · rename_i o howed
    rw [howed] at hbegun
    simp only [howed] at hnone
    obtain ⟨left, low, high, value⟩ := o
    split
    · rename_i hrange
      split
      · rename_i hleft
        obtain rfl : left = 1 := hleft
        have hchar := hbegun [b] _ (.last hrange)
        exact ⟨cs ++ [_], [], hread' _, by simp [hchar], rfl⟩
      · rename_i hleft
        exact ⟨cs, begun ++ [b], hread, by simp, hbegun.next hleft hrange⟩
    · rename_i hrange
      rw [if_neg hrange] at hnone
      rcases first_read (none :: r.read) b.toNat with hfirst | ⟨c, hfirst⟩
      · simp [hfirst] at hnone
      · simp [hfirst] at hnone

theorem passed_foldl {bytes : Bytes} (h : none ∉ (bytes.foldl step ⟨none, []⟩).read) :
    Passed bytes (bytes.foldl step ⟨none, []⟩) := by
  induction bytes using List.reverseRecOn with
  | nil => exact ⟨[], [], rfl, rfl, rfl⟩
  | append_singleton before b ih =>
    rw [List.foldl_append, List.foldl_cons, List.foldl_nil] at h ⊢
    exact passed_step (ih fun hnone => h (mem_step_read hnone b)) h

/-- **Texts and their bytes.** Bytes without a malformed run are the bytes of the text they hold. -/
theorem encode_decodeLossy {bytes : Bytes} (h : isValid bytes = true) : encode (decodeLossy bytes) = bytes := by
  have hsome : none ∉ scan bytes := fun hnone => by
    simpa using List.all_eq_true.mp h none hnone
  simp only [scan, List.mem_reverse] at hsome
  have howed : (bytes.foldl step ⟨none, []⟩).owed = none := by
    by_contra howed
    rw [if_pos (Option.isSome_iff_ne_none.mpr howed)] at hsome
    exact hsome List.mem_cons_self
  rw [howed] at hsome
  obtain ⟨cs, begun, hread, hbytes, hbegun⟩ := passed_foldl (by simpa using hsome)
  rw [howed] at hbegun
  cases hbegun
  have hscan : scan bytes = cs.map some := by simp [scan, howed, hread]
  rw [decodeLossy, hscan, List.map_map, encode_ofList]
  simpa [Function.comp_def] using hbytes.symm

/-! ## ASCII bytes -/

/-- What has been read before has no part in what is read next. -/
def Reader.onto (r : Reader) (read : List (Option Char)) : Reader := ⟨r.owed, r.read ++ read⟩

theorem first_onto (new read : List (Option Char)) (b : ℕ) :
    first (new ++ read) b = (first new b).onto read := by
  unfold first
  split <;> rfl

theorem step_onto (r : Reader) (read : List (Option Char)) (b : UInt8) :
    step (r.onto read) b = (step r b).onto read := by
  simp only [step, Reader.onto]
  split
  · exact first_onto _ _ _
  · split
    · split <;> rfl
    · exact first_onto (none :: r.read) _ _

theorem foldl_onto (bytes : Bytes) (r : Reader) (read : List (Option Char)) :
    bytes.foldl step (r.onto read) = (bytes.foldl step r).onto read := by
  induction bytes generalizing r with
  | nil => rfl
  | cons b rest ih => rw [List.foldl_cons, List.foldl_cons, step_onto, ih]

/-- The bytes that are owed are no ASCII bytes. -/
def Reader.Ordinary (r : Reader) : Prop := ∀ o ∈ r.owed, 0x80 ≤ o.low

theorem ordinary_step (r : Reader) (b : UInt8) : (step r b).Ordinary := by
  have hfirst (read : List (Option Char)) : (first read b.toNat).Ordinary := by
    unfold first
    split
    · exact nofun
    · rename_i o hstart
      rintro o ⟨⟩
      cases leads_of_start hstart with
      | two => exact Nat.le_refl _
      | three _ range | four _ range => exact range.1
    · exact nofun
  simp only [step]
  split
  · exact hfirst _
  · split
    · split
      · exact nofun
      · rintro o ⟨⟩
        exact Nat.le_refl _
    · exact hfirst _

theorem ordinary_foldl (bytes : Bytes) {r : Reader} (h : r.Ordinary) : (bytes.foldl step r).Ordinary := by
  induction bytes generalizing r with
  | nil => exact h
  | cons b rest ih => exact ih (ordinary_step r b)

/-- What has been read at the end of the bytes. -/
def Reader.finish (r : Reader) : List (Option Char) := if r.owed.isSome then none :: r.read else r.read

theorem Reader.finish_onto (r : Reader) (read : List (Option Char)) :
    (r.onto read).finish = r.finish ++ read := by
  unfold finish onto
  cases r.owed with
  | none => rfl
  | some o => rfl

/-- An ASCII byte ends what is begun and is a character. -/
theorem step_of_lt {r : Reader} (h : r.Ordinary) {b : UInt8} (hb : b.toNat < 0x80) :
    step r b = ⟨none, some (Char.ofNat b.toNat) :: r.finish⟩ := by
  have hfirst (read : List (Option Char)) :
      first read b.toNat = ⟨none, some (Char.ofNat b.toNat) :: read⟩ := by
    simp only [first, start, if_pos hb]
  simp only [step, Reader.finish]
  split
  · rename_i howed
    rw [hfirst, howed]
    rfl
  · rename_i o howed
    have hlow : 0x80 ≤ o.low := h o howed
    rw [if_neg (by omega), hfirst, howed]
    rfl

/-- An ASCII byte parts what is read. -/
theorem scan_append (before : Bytes) {b : UInt8} (hb : b.toNat < 0x80) (behind : Bytes) :
    scan (before ++ b :: behind) = scan before ++ some (Char.ofNat b.toNat) :: scan behind := by
  have hordinary : (before.foldl step ⟨none, []⟩).Ordinary := ordinary_foldl before nofun
  have hscan (bytes : Bytes) : scan bytes = (bytes.foldl step ⟨none, []⟩).finish.reverse := rfl
  rw [hscan, hscan, hscan, List.foldl_append, List.foldl_cons, step_of_lt hordinary hb]
  have hrest := foldl_onto behind ⟨none, []⟩
    (some (Char.ofNat b.toNat) :: (before.foldl step ⟨none, []⟩).finish)
  rw [Reader.onto, List.nil_append] at hrest
  rw [hrest, Reader.finish_onto]
  simp

theorem isValid_append (before : Bytes) {b : UInt8} (hb : b.toNat < 0x80) (behind : Bytes) :
    isValid (before ++ b :: behind) = (isValid before && isValid behind) := by
  simp [isValid, scan_append before hb]

/-- What is put together at an ASCII byte is well-formed in each of its parts. -/
theorem isValid_of_mem_intercalate {b : UInt8} (hb : b.toNat < 0x80) {parts : List Bytes}
    (h : isValid ([b].intercalate parts) = true) : ∀ part ∈ parts, isValid part = true := by
  induction parts with
  | nil => exact nofun
  | cons first rest ih =>
    cases rest with
    | nil =>
      rw [List.intercalate_singleton] at h
      simpa using h
    | cons next more =>
      rw [List.intercalate_cons_cons, List.append_assoc, List.singleton_append, isValid_append _ hb,
        Bool.and_eq_true] at h
      exact List.forall_mem_cons.mpr ⟨h.1, ih h.2⟩

end TableProfile.Utf8
