import Mathlib.Data.List.Basic
import Mathlib.Data.List.Induction
import TableProfile.Csv.Reader

/-!
# Content that is written line by line

Content is given by its lines, written one below the other, the last one with or without a line feed
(`writeLines`); without one it is not blank (`IsClosed`). A line may have quotes as long as none is left open
(`isLine`). The data that is looked at here has none at all (`IsRecord`, and `IsPlain` for a record that is
not blank), so that both rules cut it where it was written: as lines and as records, and however the lines
are gathered into blocks.

* `lines_ne_nil`, `firstFields_ne_nil`: content that is not empty has a line and a field.
* `lines_writeLines`, `dropLine_writeLines`: lines are cut as they were written.
* `records_joinLines`: so are records, each with what stands between its commas (`plainFields`).
* `fields_of_blocks`: and so are the records of all blocks together.
-/
namespace TableProfile.Csv

/-! ## Content that is not empty -/

theorem LineScan.step_ne (s : LineScan) (b : UInt8) : (s.step b).lines ≠ [] ∨ (s.step b).line ≠ [] := by
  simp only [step]
  generalize (if b == quote then !s.inside else s.inside) = inside
  split
  · exact .inl (List.cons_ne_nil _ _)
  · exact .inr (List.cons_ne_nil _ _)

theorem scanLines_ne {bytes : Bytes} (h : bytes ≠ []) :
    (scanLines bytes).lines ≠ [] ∨ (scanLines bytes).line ≠ [] := by
  obtain rfl | ⟨before, b, rfl⟩ := List.eq_nil_or_concat' bytes
  · exact absurd rfl h
  · rw [scanLines, List.foldl_append, List.foldl_cons, List.foldl_nil]
    exact LineScan.step_ne _ b

/-- Bytes begin with a line. -/
theorem lines_ne_nil {bytes : Bytes} (h : bytes ≠ []) : lines bytes ≠ [] := by
  have hclosed : (if bytes.isEmpty || bytes.getLast? == some newline then bytes
      else bytes ++ [newline]) ≠ [] := by
    split <;> simp [h]
  have hscan := scanLines_ne hclosed
  unfold lines
  revert hscan
  generalize (if bytes.isEmpty || bytes.getLast? == some newline then bytes
      else bytes ++ [newline]) = closed
  intro hscan
  simp only [endedLines, List.isEmpty_iff, List.reverse_eq_nil_iff]
  split
  · rename_i hrest
    simpa [hrest] using hscan
  · simp

/-- Something has been scanned, and there is no record without fields. -/
structure RecordScan.Begun (s : RecordScan) : Prop where
  any : s.records ≠ [] ∨ s.fields ≠ [] ∨ s.raw ≠ []
  fields : ∀ r ∈ s.records, r.fields ≠ []

theorem RecordScan.begun_step {s : RecordScan} (h : ∀ r ∈ s.records, r.fields ≠ []) (b : UInt8) :
    (s.step b).Begun := by
  unfold step
  simp only
  generalize (if s.raw.isEmpty then b == quote else s.quoted) = quoted
  generalize (if quoted && b == quote then !s.inside else s.inside) = inside
  split
  · exact ⟨by simp, h⟩
  · split
    · exact ⟨by simp, h⟩
    · split
      · exact ⟨by simp, List.forall_mem_cons.mpr ⟨by simp, h⟩⟩
      · exact ⟨by simp, h⟩

theorem RecordScan.begun_foldl {bytes : Bytes} (h : bytes ≠ []) : (bytes.foldl step start).Begun := by
  induction bytes using List.reverseRecOn with
  | nil => exact absurd rfl h
  | append_singleton before b ih =>
    rw [List.foldl_append, List.foldl_cons, List.foldl_nil]
    refine begun_step ?_ b
    by_cases hbefore : before = []
    · rw [hbefore]
      exact nofun
    · exact (ih hbefore).fields

/-- Bytes begin with a field. -/
theorem firstFields_ne_nil {bytes : Bytes} (h : bytes ≠ []) : firstFields bytes ≠ [] := by
  have hscan := RecordScan.begun_foldl h
  have hrecords : records bytes ≠ [] ∧ ∀ r ∈ records bytes, r.fields ≠ [] := by
    unfold records RecordScan.finish
    generalize bytes.foldl RecordScan.step .start = s at hscan
    split
    · rename_i hdone
      have hany := hscan.any
      simp only [Bool.and_eq_true, List.isEmpty_iff] at hdone
      refine ⟨by simpa [hdone] using hany, fun r hr => hscan.fields r (List.mem_reverse.mp hr)⟩
    · refine ⟨by simp, fun r hr => ?_⟩
      rcases List.mem_cons.mp (List.mem_reverse.mp hr) with rfl | hr
      · simp
      · exact hscan.fields r hr
  unfold firstFields
  split
  · rename_i hnone
    exact absurd hnone hrecords.1
  · rename_i hsome
    exact hrecords.2 _ (hsome ▸ List.mem_cons_self)

/-! ## Lines -/

/-- Whether bytes are one line: no line feed in them ends it, and no quote is open behind it. `inside` says
whether one is open before them. -/
def isLine (inside : Bool) : Bytes → Bool
  | [] => !inside
  | b :: rest =>
    let inside := if b == quote then !inside else inside
    if b == newline && !inside then false else isLine inside rest

/-- A record without quotes: one line, which may be blank. -/
structure IsRecord (record : Bytes) : Prop where
  noQuote : quote ∉ record
  noNewline : newline ∉ record

/-- A record without quotes: one line, and not an empty one. -/
structure IsPlain (record : Bytes) : Prop where
  noQuote : quote ∉ record
  noNewline : newline ∉ record
  nonempty : record ≠ []

theorem IsPlain.isRecord {record : Bytes} (h : IsPlain record) : IsRecord record :=
  ⟨h.noQuote, h.noNewline⟩

/-- Lines one below the other; `final` says whether the last one has a line feed too. -/
def writeLines (final : Bool) (xs : List Bytes) : Bytes :=
  if final then joinLines xs else (joinLines xs).dropLast

/-- The last of lines is seen: it has a line feed or is not blank. -/
def IsClosed (final : Bool) (xs : List Bytes) : Prop := final = false → xs.getLast? ≠ some []

theorem isClosed_of_nonempty (final : Bool) {xs : List Bytes} (h : ∀ x ∈ xs, x ≠ []) : IsClosed final xs :=
  fun _ hlast => h [] (List.mem_of_getLast? hlast) rfl

theorem IsClosed.of_cons {final : Bool} {x : Bytes} {xs : List Bytes} (h : IsClosed final (x :: xs)) :
    IsClosed final xs := by
  cases xs with
  | nil => exact fun _ => nofun
  | cons y ys => exact fun hfinal hlast => h hfinal (by rw [List.getLast?_cons_cons, hlast])

theorem IsClosed.cons {final : Bool} {x : Bytes} {xs : List Bytes} (hx : x ≠ []) (h : IsClosed final xs) :
    IsClosed final (x :: xs) := by
  cases xs with
  | nil => simpa [IsClosed] using fun _ => hx
  | cons y ys => exact fun hfinal hlast => h hfinal (by rw [← hlast, List.getLast?_cons_cons])

/-- A byte of a line does not end it; it may open or close a quote. -/
theorem exists_of_isLine_cons {inside : Bool} {b : UInt8} {rest : Bytes}
    (h : isLine inside (b :: rest) = true) :
    ∃ now, now = (if b == quote then !inside else inside) ∧ (b == newline && !now) = false ∧
      isLine now rest = true := by
  refine ⟨_, rfl, ?_⟩
  simp only [Csv.isLine] at h
  generalize (if b == quote then !inside else inside) = now at h ⊢
  cases hend : b == newline && !now with
  | true => simp [hend] at h
  | false => exact ⟨rfl, by simpa [hend] using h⟩

theorem isLine_of_not_mem {line : Bytes} (hquote : quote ∉ line) (hnewline : newline ∉ line) :
    isLine false line = true := by
  induction line with
  | nil => rfl
  | cons b rest ih =>
    simp only [List.mem_cons, not_or] at hquote hnewline
    simp [isLine, Ne.symm hquote.1, Ne.symm hnewline.1, ih hquote.2 hnewline.2]

theorem IsRecord.isLine {record : Bytes} (h : IsRecord record) : isLine false record = true :=
  isLine_of_not_mem h.noQuote h.noNewline

/-- A line feed at the very end would end the line or stand in a quote that is left open. -/
theorem isLine_append_newline (inside : Bool) (line : Bytes) : isLine inside (line ++ [newline]) = false := by
  induction line generalizing inside with
  | nil => cases inside <;> rfl
  | cons b rest ih =>
    simp only [List.cons_append, Csv.isLine, ih]
    exact ite_self false

/-- The first line is dropped, whatever follows it. -/
theorem dropLine_append {inside : Bool} {line : Bytes} (h : isLine inside line = true) (rest : Bytes) :
    dropLine inside (line ++ newline :: rest) = rest := by
  induction line generalizing inside with
  | nil =>
    obtain rfl : inside = false := by simpa [Csv.isLine] using h
    rfl
  | cons b line ih =>
    obtain ⟨now, hnow, hend, hline⟩ := exists_of_isLine_cons h
    simp only [List.cons_append, dropLine, ← hnow, hend]
    exact ih hline

theorem LineScan.foldl_line {inside : Bool} {line : Bytes} (h : Csv.isLine inside line = true)
    (before : List Bytes) (begun : Bytes) :
    line.foldl LineScan.step ⟨before, begun, inside⟩ = ⟨before, line.reverse ++ begun, false⟩ := by
  induction line generalizing inside begun with
  | nil =>
    obtain rfl : inside = false := by simpa [Csv.isLine] using h
    rfl
  | cons b line ih =>
    obtain ⟨now, hnow, hend, hline⟩ := exists_of_isLine_cons h
    have hstep : LineScan.step ⟨before, begun, inside⟩ b = ⟨before, b :: begun, now⟩ := by
      simp only [step, ← hnow, hend, Bool.false_eq_true, if_false]
    rw [List.foldl_cons, hstep, ih hline]
    simp

theorem LineScan.foldl_joinLines {xs : List Bytes} (h : ∀ x ∈ xs, Csv.isLine false x = true)
    (before : List Bytes) :
    (joinLines xs).foldl LineScan.step ⟨before, [], false⟩ = ⟨xs.reverse ++ before, [], false⟩ := by
  induction xs generalizing before with
  | nil => rfl
  | cons x xs ih =>
    have hnewline (done : List Bytes) (line : Bytes) :
        LineScan.step ⟨done, line, false⟩ newline = ⟨line.reverse :: done, [], false⟩ := rfl
    rw [joinLines, List.flatMap_cons, List.foldl_append, List.foldl_append,
      foldl_line (h x List.mem_cons_self), List.foldl_cons, List.foldl_nil, hnewline]
    refine (ih (fun y hy => h y (List.mem_cons_of_mem _ hy)) _).trans ?_
    simp

/-- Whole lines and one more that is not ended. -/
theorem endedLines_append {xs : List Bytes} (h : ∀ x ∈ xs, isLine false x = true) {rest : Bytes}
    (hrest : isLine false rest = true) : endedLines (joinLines xs ++ rest) = (xs, rest) := by
  rw [endedLines, scanLines, List.foldl_append, LineScan.foldl_joinLines h, LineScan.foldl_line hrest]
  simp

/-- Lines are whole lines and, if there is no line feed at the end, one that is not ended. -/
theorem exists_writeLines (final : Bool) {xs : List Bytes} (h : IsClosed final xs) :
    ∃ ended rest, writeLines final xs = joinLines ended ++ rest ∧
      (if rest.isEmpty then ended else ended ++ [rest]) = xs := by
  cases final with
  | true => exact ⟨xs, [], by simp [writeLines], by simp⟩
  | false =>
    obtain rfl | ⟨ended, rest, rfl⟩ := List.eq_nil_or_concat' xs
    · exact ⟨[], [], rfl, rfl⟩
    · have hrest : rest ≠ [] := by simpa using h rfl
      refine ⟨ended, rest, ?_, by simp [hrest]⟩
      simp [writeLines, joinLines]

theorem writeLines_cons (final : Bool) (x : Bytes) {xs : List Bytes} (h : xs ≠ []) :
    writeLines final (x :: xs) = x ++ newline :: writeLines final xs := by
  have hjoin : joinLines (x :: xs) = (x ++ [newline]) ++ joinLines xs := rfl
  cases final with
  | true => simp [writeLines, hjoin]
  | false =>
    obtain ⟨y, ys, rfl⟩ := List.exists_cons_of_ne_nil h
    have hne : joinLines (y :: ys) ≠ [] := by simp [joinLines]
    simp only [writeLines, hjoin, Bool.false_eq_true, if_false]
    rw [List.dropLast_append_of_ne_nil hne]
    simp

/-- Lines are cut as they were written. -/
theorem lines_writeLines (final : Bool) {xs : List Bytes} (h : ∀ x ∈ xs, isLine false x = true)
    (hclosed : IsClosed final xs) : lines (writeLines final xs) = xs := by
  have hlines : endedLines (joinLines xs) = (xs, []) := by
    simpa using endedLines_append h (rfl : isLine false [] = true)
  -- A line feed that the last line lacks is added before lines are cut.
  have hended : (if (writeLines final xs).isEmpty || (writeLines final xs).getLast? == some newline
      then writeLines final xs else writeLines final xs ++ [newline]) = joinLines xs := by
    obtain rfl | ⟨before, last, rfl⟩ := List.eq_nil_or_concat' xs
    · cases final <;> rfl
    · have hjoin : joinLines (before ++ [last]) = joinLines before ++ (last ++ [newline]) := by
        simp [joinLines]
      cases final with
      | true => simp [writeLines, hjoin]
      | false =>
        have hlast : last ≠ [] := by simpa using hclosed rfl
        have hline : isLine false last = true := h last (by simp)
        have hend : last.getLast? ≠ some newline := by
          intro hend
          obtain ⟨begin, rfl⟩ := List.getLast?_eq_some_iff.mp hend
          rw [isLine_append_newline] at hline
          cases hline
        have hdrop : (joinLines before ++ (last ++ [newline])).dropLast = joinLines before ++ last := by
          rw [← List.append_assoc, List.dropLast_concat]
        simp [writeLines, hjoin, hdrop, hlast, hend]
  unfold lines
  simp only [hended, hlines, List.isEmpty_nil, if_true]

/-- Where there is no line feed, the first line is all there is. -/
theorem dropLine_of_isLine {inside : Bool} {line : Bytes} (h : isLine inside line = true) :
    dropLine inside line = [] := by
  induction line generalizing inside with
  | nil => rfl
  | cons b line ih =>
    obtain ⟨now, hnow, hend, hline⟩ := exists_of_isLine_cons h
    simp only [dropLine, ← hnow, hend]
    exact ih hline

/-- The first of several lines is dropped with its line feed. -/
theorem dropLine_writeLines (final : Bool) {line : Bytes} (h : isLine false line = true) (xs : List Bytes) :
    dropLine false (writeLines final (line :: xs)) = writeLines final xs := by
  by_cases hxs : xs = []
  · subst hxs
    cases final with
    | true => simpa [writeLines, joinLines] using dropLine_append h []
    | false => simpa [writeLines, joinLines] using dropLine_of_isLine h
  · rw [writeLines_cons final line hxs]
    exact dropLine_append h _

/-! ## Records -/

/-- The fields of a record without quotes: what stands between its commas. -/
def plainFields (record : Bytes) : List Field := (record.splitOn comma).map fun raw => ⟨raw, false⟩

/-- The fields of bytes without quotes and line feeds do not depend on the records before them. -/
theorem RecordScan.foldl_plain {line : Bytes} (hquote : quote ∉ line) (hnewline : newline ∉ line)
    (fields : List Field) (raw : Bytes) : ∃ fields' raw',
      (line ≠ [] ∨ fields ≠ [] ∨ raw ≠ [] → fields' ≠ [] ∨ raw' ≠ []) ∧
      (⟨raw'.reverse, false⟩ :: fields').reverse =
        fields.reverse ++ (line.splitOnPPrepend (· == comma) raw).map (fun raw => ⟨raw, false⟩) ∧
      ∀ before, line.foldl step ⟨before, fields, raw, false, false⟩ =
        ⟨before, fields', raw', false, false⟩ := by
  induction line generalizing fields raw with
  | nil => exact ⟨fields, raw, by simp, by simp, fun _ => rfl⟩
  | cons b line ih =>
    simp only [List.mem_cons, not_or] at hquote hnewline
    have hb : (b == quote) = false := by simpa using Ne.symm hquote.1
    have hb' : (b == newline) = false := by simpa using Ne.symm hnewline.1
    -- A comma ends the field at hand; any other byte is put to it.
    by_cases hcomma : b = comma
    · obtain ⟨fields', raw', hne, hcut, hscan⟩ :=
        ih hquote.2 hnewline.2 (⟨raw.reverse, false⟩ :: fields) []
      refine ⟨fields', raw', fun _ => hne (by simp), ?_, fun before => ?_⟩
      · rw [hcut, List.splitOnPPrepend_cons_eq_if, if_pos (beq_iff_eq.mpr hcomma),
          List.splitOnPPrepend_nil_right]
        simp
      · rw [List.foldl_cons, ← hscan]
        simp [step, hcomma, field, comma, quote]
    · obtain ⟨fields', raw', hne, hcut, hscan⟩ := ih hquote.2 hnewline.2 fields (b :: raw)
      refine ⟨fields', raw', fun _ => hne (by simp), ?_, fun before => ?_⟩
      · rw [hcut, List.splitOnPPrepend_cons_eq_if, if_neg (mt beq_iff_eq.mp hcomma)]
      · rw [List.foldl_cons, ← hscan]
        simp [step, hb, hb', hcomma]

/-- A record without quotes is one record behind others too, if a line feed ends it. Without a line feed it is
one unless it is blank. -/
theorem records_of_record {record : Bytes} (h : IsRecord record) :
    (record ≠ [] → records record = [⟨plainFields record, false⟩]) ∧
      ∀ before, (record ++ [newline]).foldl RecordScan.step ⟨before, [], [], false, false⟩ =
        ⟨⟨plainFields record, true⟩ :: before, [], [], false, false⟩ := by
  obtain ⟨fields, raw, hne, hcut, hscan⟩ := RecordScan.foldl_plain h.noQuote h.noNewline [] []
  have hfields : (⟨raw.reverse, false⟩ :: fields).reverse = plainFields record := by
    rw [hcut, List.splitOnPPrepend_nil_right]
    rfl
  refine ⟨fun hrecord => ?_, fun before => ?_⟩
  · have hbegun : (raw.isEmpty && fields.isEmpty) = false := by
      rcases hne (.inl hrecord) with hne | hne <;> simp [hne]
    rw [records, RecordScan.start, hscan, ← hfields]
    simp [RecordScan.finish, hbegun, RecordScan.field]
  · rw [List.foldl_append, hscan, ← hfields]
    simp [RecordScan.step, RecordScan.field, newline, quote, comma]

/-- The records of whole lines. -/
theorem records_joinLines {xs : List Bytes} (h : ∀ x ∈ xs, IsRecord x) :
    records (joinLines xs) = xs.map fun x => ⟨plainFields x, true⟩ := by
  have hscan (before : List Record) : (joinLines xs).foldl RecordScan.step ⟨before, [], [], false, false⟩ =
      ⟨(xs.map fun x => ⟨plainFields x, true⟩).reverse ++ before, [], [], false, false⟩ := by
    induction xs generalizing before with
    | nil => rfl
    | cons x xs ih =>
      rw [joinLines, List.flatMap_cons, List.foldl_append, (records_of_record (h x List.mem_cons_self)).2]
      refine (ih (fun y hy => h y (List.mem_cons_of_mem _ hy)) _).trans ?_
      simp
  rw [records, RecordScan.start, hscan]
  simp [RecordScan.finish]

/-! ## Blocks -/

/-- The lines that have been gathered. -/
def Blocks.held (b : Blocks) : List Bytes := b.done.reverse.flatten ++ b.lines.reverse

theorem Blocks.held_add (b : Blocks) (line : Bytes) : (b.add line).held = b.held ++ [line] := by
  simp only [add]
  split
  · rename_i hnone
    simp [held, List.isEmpty_iff.mp hnone]
  · split <;> simp [held]

/-- Blocks are whole lines in groups, and what is not ended. -/
theorem exists_blocks (size : Nat) {xs : List Bytes} (h : ∀ x ∈ xs, isLine false x = true) {rest : Bytes}
    (hrest : isLine false rest = true) : ∃ groups : List (List Bytes), groups.flatten = xs ∧
      blocks size (joinLines xs ++ rest) =
        if rest.isEmpty then groups.map joinLines else groups.map joinLines ++ [rest] := by
  -- However lines are grouped, no line is lost or moved.
  have hfold (b : Blocks) : (xs.foldl Blocks.add b).held = b.held ++ xs := by
    clear h
    induction xs generalizing b with
    | nil => simp
    | cons x xs ih => rw [List.foldl_cons, ih, Blocks.held_add, List.append_assoc, List.singleton_append]
  have hheld := hfold ⟨[], [], 0, size⟩
  simp only [blocks, endedLines_append h hrest]
  generalize xs.foldl Blocks.add ⟨[], [], 0, size⟩ = b at hheld
  refine ⟨(if b.lines.isEmpty then b.done else b.lines.reverse :: b.done).reverse, ?_, rfl⟩
  simp only [Blocks.held, List.reverse_nil, List.flatten_nil, List.nil_append] at hheld
  split
  · rename_i hnone
    simpa [List.isEmpty_iff.mp hnone] using hheld
  · simpa using hheld

/-- The blocks of lines: whole lines in groups, and a last line without a line feed. -/
theorem exists_blocks_writeLines (size : Nat) (final : Bool) {xs : List Bytes}
    (h : ∀ x ∈ xs, isLine false x = true) (hclosed : IsClosed final xs) :
    ∃ (groups : List (List Bytes)) (rest : List Bytes), groups.flatten ++ rest = xs ∧
      blocks size (writeLines final xs) = groups.map joinLines ++ rest ∧ ∀ x ∈ rest, x ≠ [] := by
  obtain ⟨ended, rest, hwritten, hxs⟩ := exists_writeLines final hclosed
  rw [hwritten, ← hxs]
  rw [← hxs] at h
  by_cases hne : rest = []
  · subst hne
    obtain ⟨groups, hgroups, hblocks⟩ := exists_blocks size (by simpa using h) (rfl : isLine false [] = true)
    exact ⟨groups, [], by simpa using hgroups, by simpa using hblocks, nofun⟩
  · simp only [List.isEmpty_iff, hne, if_false] at h ⊢
    obtain ⟨hended, hrest⟩ := List.forall_mem_append.mp h
    obtain ⟨groups, hgroups, hblocks⟩ := exists_blocks size hended (hrest rest (by simp))
    exact ⟨groups, [rest], by rw [hgroups], by simpa [hne] using hblocks, by simpa using hne⟩

/-- All blocks of records without quotes together have these records, each with the fields between its commas. -/
theorem fields_of_blocks (size : Nat) (final : Bool) {xs : List Bytes} (h : ∀ x ∈ xs, IsRecord x)
    (hclosed : IsClosed final xs) :
    ((blocks size (writeLines final xs)).flatMap records).map Record.fields = xs.map plainFields := by
  obtain ⟨groups, rest, rfl, hblocks, hne⟩ :=
    exists_blocks_writeLines size final (fun x hx => (h x hx).isLine) hclosed
  have hgroups : (groups.map joinLines).flatMap records =
      groups.flatten.map fun x => ⟨plainFields x, true⟩ := by
    have hgroup : ∀ group ∈ groups, records (joinLines group) = group.map fun x => ⟨plainFields x, true⟩ :=
      fun group hgroup => records_joinLines fun x hx =>
        h x (List.mem_append_left _ (List.mem_flatten.mpr ⟨group, hgroup, hx⟩))
    rw [List.flatMap_map, List.flatMap_congr hgroup, List.map_flatten, List.flatMap_def]
  have hrest : rest.flatMap records = rest.map fun x => ⟨plainFields x, false⟩ := by
    rw [List.flatMap_congr fun x hx => (records_of_record (h x (List.mem_append_right _ hx))).1 (hne x hx)]
    exact List.flatMap_pure_eq_map _ rest
  rw [hblocks, List.flatMap_append, hgroups, hrest]
  simp [Function.comp_def]

end TableProfile.Csv
