import TableProfile.Proofs.InferenceWindow
import TableProfile.Proofs.StrictCells

/-!
# Tables that say what their data says

Content without quotes is a header and records, one a line, blank lines too (`cutLines`). The fields of a
record are what stands between its commas, each without one carriage return at its end (`fieldsOf`): the
reader drops it wherever a field ends, not only at the end of a line.

A row is read from its own record and a cell from its own field, so the table is compared with the content
field by field (`SaysAll`). A block is refused if it is not well-formed where a column is text; so is each
field then, since blocks are put together of lines, and lines of fields, at ASCII bytes.

* `saysAll_of_loadBytes`: a table that is loaded says what its data says.
* `strict_loading`: and a field that denotes no cell of its column keeps the table from being loaded.
* `trailing_return_dropped`: a carriage return before a comma is lost.
-/
namespace TableProfile

/-! ## Cells of a column -/

/-- The cell of a column at a row, as it was read. -/
def Cells.cell? : Cells → ℕ → Option Csv.Value
  | .int _ cs, i => cs[i]?.map fun c => c.elim .missing .int
  | .float _ cs, i => cs[i]?.map fun c => c.elim .missing .float
  | .bool cs, i => cs[i]?.map fun c => c.elim .missing .bool
  | .str cs, i => cs[i]?.map fun c => c.elim .missing .text
  | _, _ => none

namespace Csv

/-- The cells of a column are the values that were read for it, if they are of its type. -/
theorem cell?_cellsOf {type : CellType} {column : List Value} {i : ℕ} {v : Value} (hv : column[i]? = some v)
    (htype : v = .missing ∨ ∃ field, Denotes type field v) : (cellsOf type column).cell? i = some v := by
  rcases htype with rfl | ⟨field, hfield⟩
  · cases type <;> simp [cellsOf, Cells.cell?, hv]
  · cases hfield <;> simp [cellsOf, Cells.cell?, hv]

theorem dtype_cellsOf (type : CellType) (column : List Value) : (cellsOf type column).dtype = type.dtype := by
  cases type <;> rfl

/-! ## Content without quotes -/

/-- The lines of content without quotes: what stands between its line feeds, and behind the last one unless
that is nothing. -/
def cutLines (content : Bytes) : List Bytes :=
  let pieces := content.splitOn newline
  if pieces.getLast? = some [] then pieces.dropLast else pieces

/-- The fields of a record without quotes, without a carriage return at the end of each. -/
def fieldsOf (record : Bytes) : List Bytes := (record.splitOn comma).map dropReturn

theorem notMem_of_mem_splitOn {b : UInt8} {bytes : Bytes} : ∀ piece ∈ bytes.splitOn b, b ∉ piece := by
  have hcut (begun : Bytes) (hbegun : b ∉ begun) : ∀ piece ∈ bytes.splitOnPPrepend (· == b) begun, b ∉ piece := by
    induction bytes generalizing begun with
    | nil => simpa using hbegun
    | cons c rest ih =>
      rw [List.splitOnPPrepend_cons_eq_if]
      split
      · rw [← List.splitOnPPrepend_nil_right]
        exact List.forall_mem_cons.mpr ⟨by simpa using hbegun, ih [] List.not_mem_nil⟩
      · rename_i hc
        refine ih (c :: begun) fun hmem => ?_
        rcases List.mem_cons.mp hmem with rfl | hmem
        · exact hc (beq_self_eq_true b)
        · exact hbegun hmem
  exact hcut [] List.not_mem_nil

/-- Lines that a line feed ends, and one that none ends. -/
theorem intercalate_newline (ended : List Bytes) (rest : Bytes) :
    [newline].intercalate (ended ++ [rest]) = joinLines ended ++ rest := by
  induction ended with
  | nil => simp [joinLines]
  | cons first ended ih =>
    rw [List.cons_append, List.intercalate_cons_of_ne_nil (by simp), ih]
    simp [joinLines]

/-- Content is its lines, one below the other. -/
theorem exists_of_cutLines {content : Bytes} (hquote : quote ∉ content) :
    ∃ final, content = writeLines final (cutLines content) ∧ IsClosed final (cutLines content) ∧
      ∀ line ∈ cutLines content, IsRecord line := by
  obtain ⟨ended, rest, hpieces⟩ := (List.eq_nil_or_concat' (content.splitOn newline)).resolve_left
    (List.splitOnP_ne_nil _ _)
  have hcontent : content = joinLines ended ++ rest := by
    rw [← intercalate_newline, ← hpieces, List.intercalate_splitOn]
  have hrecords : ∀ line ∈ ended ++ [rest], IsRecord line := by
    refine fun line hline => ⟨fun hmem => hquote ?_, notMem_of_mem_splitOn line (hpieces ▸ hline)⟩
    rw [hcontent, List.mem_append, joinLines, List.mem_flatMap]
    rcases List.mem_append.mp hline with hline | hline
    · exact .inl ⟨line, hline, List.mem_append_left _ hmem⟩
    · exact .inr (List.mem_singleton.mp hline ▸ hmem)
  unfold cutLines
  rw [hpieces]
  by_cases hrest : rest = []
  · subst hrest
    refine ⟨true, ?_, ?_, ?_⟩
    · simpa [writeLines] using hcontent
    · simp [IsClosed]
    · simpa using fun line hline => hrecords line (List.mem_append_left _ hline)
  · refine ⟨false, ?_, ?_, ?_⟩
    · simpa [writeLines, hrest, joinLines] using hcontent
    · simp [IsClosed, hrest]
    · simpa [hrest] using hrecords

/-! ## Well-formed fields -/

theorem isValid_of_joinLines {xs : List Bytes} (h : Utf8.isValid (joinLines xs) = true) :
    ∀ x ∈ xs, Utf8.isValid x = true := by
  induction xs with
  | nil => exact nofun
  | cons x xs ih =>
    rw [joinLines, List.flatMap_cons, List.append_assoc, List.singleton_append,
      Utf8.isValid_append x (by decide), Bool.and_eq_true] at h
    exact List.forall_mem_cons.mpr ⟨h.1, ih h.2⟩

theorem dropReturn_eq (field : Bytes) :
    dropReturn field = field ∨ field = dropReturn field ++ [carriage] := by
  unfold dropReturn
  split
  · rename_i b rest hreverse
    have hfield : field = rest.reverse ++ [b] := by
      rw [← List.reverse_cons, ← hreverse, List.reverse_reverse]
    split
    · rename_i hb
      exact .inr (by rw [hfield, eq_of_beq hb])
    · exact .inl rfl
  · rename_i hreverse
    exact .inl (List.reverse_eq_nil_iff.mp hreverse).symm

theorem isValid_dropReturn {field : Bytes} (h : Utf8.isValid field = true) :
    Utf8.isValid (dropReturn field) = true := by
  rcases dropReturn_eq field with heq | heq
  · rwa [heq]
  · rw [heq, Utf8.isValid_append _ (by decide), Bool.and_eq_true] at h
    exact h.1

/-- The fields of a record that is well-formed are. -/
theorem isValid_fieldsOf {record : Bytes} (h : Utf8.isValid record = true) :
    ∀ field ∈ fieldsOf record, Utf8.isValid field = true := by
  intro field hfield
  obtain ⟨raw, hraw, rfl⟩ := List.mem_map.mp hfield
  rw [← @List.intercalate_splitOn _ record _ _ comma] at h
  exact isValid_dropReturn (Utf8.isValid_of_mem_intercalate (by decide) h raw hraw)

/-- What is read in blocks is well-formed in each record, if any column is text. -/
theorem isValid_of_readBlocks {specs : List ColumnSpec} {bytes : Bytes} {final : Bool} {xs : List Bytes}
    {read : List (List (List Value))} (hbody : body specs bytes = writeLines final xs)
    (hrecords : ∀ x ∈ xs, IsRecord x) (hclosed : IsClosed final xs) (h : readBlocks specs bytes = .ok read)
    (htext : specs.any (·.type == .text) = true) : ∀ x ∈ xs, Utf8.isValid x = true := by
  obtain ⟨groups, rest, rfl, hblocks, -⟩ :=
    exists_blocks_writeLines blockSize final (fun x hx => (hrecords x hx).isLine) hclosed
  rw [readBlocks, hbody, hblocks] at h
  have hvalid : ∀ block ∈ groups.map joinLines ++ rest, Utf8.isValid block = true := by
    intro block hblock
    obtain ⟨rows, hrows⟩ := forall_of_mapM_ok h block hblock
    unfold readBlock at hrows
    split at hrows
    · cases hrows
    · rename_i hrefused
      simpa [htext] using hrefused
  obtain ⟨hgroups, hrest⟩ := List.forall_mem_append.mp hvalid
  refine List.forall_mem_append.mpr ⟨fun x hx => ?_, hrest⟩
  obtain ⟨group, hgroup, hx⟩ := List.mem_flatten.mp hx
  exact isValid_of_joinLines (hgroups _ (List.mem_map_of_mem hgroup)) x hx

/-! ## Rows -/

/-- The cell of a row holds the field at its place. -/
theorem holds_readRow {specs : List ColumnSpec} {number : ℕ} {fields : List Field} {row : List Value}
    (h : readRow false number specs fields = .ok row) (hplain : ∀ f ∈ fields, f.quoted = false)
    (hvalid : specs.any (·.type == .text) = true → ∀ f ∈ fields, Utf8.isValid (dropReturn f.raw) = true)
    {j : ℕ} {c : ColumnSpec} (hc : specs[j]? = some c) :
    ∃ v, row[j]? = some v ∧ Holds c.type (fields[j]?.map fun f => dropReturn f.raw) v := by
  induction specs generalizing number fields row j with
  | nil => simp at hc
  | cons spec specs ih =>
    cases fields with
    | nil =>
      rw [readRow] at h
      obtain ⟨rest, hrest, rfl⟩ := exists_of_map_ok h
      cases j with
      | zero => exact ⟨.missing, rfl, holds_none c.type⟩
      | succ j => simpa using ih hrest (by simp) (by simp) (by simpa using hc)
    | cons f fields =>
      simp only [readRow] at h
      split at h
      · cases h
      · rename_i v hv
        obtain ⟨rest, hrest, rfl⟩ := exists_of_map_ok h
        obtain ⟨hf, hplain⟩ := List.forall_mem_cons.mp hplain
        cases j with
        | zero =>
          obtain rfl : spec = c := by simpa using hc
          rw [hf] at hv
          refine ⟨v, rfl, holds_read (fun htype => hvalid ?_ f List.mem_cons_self) hv⟩
          simp [htype]
        | succ j =>
          have hrow := ih hrest hplain
            (fun htext g hg => hvalid (by simp [htext]) g (List.mem_cons_of_mem _ hg))
            (by simpa using hc)
          simpa using hrow

/-- No field beyond the columns holds anything. -/
theorem surplus_readRow {specs : List ColumnSpec} {number : ℕ} {fields : List Field} {row : List Value}
    (h : readRow false number specs fields = .ok row) :
    ∀ f ∈ fields.drop specs.length, f.raw = [] := by
  induction specs generalizing number fields row with
  | nil =>
    cases fields with
    | nil => exact nofun
    | cons f fields =>
      rw [readRow] at h
      split at h
      · rename_i hlast
        simp only [Bool.and_eq_true, List.isEmpty_iff] at hlast
        simp [hlast]
      · cases h
  | cons spec specs ih =>
    cases fields with
    | nil => simp
    | cons f fields =>
      simp only [readRow] at h
      split at h
      · cases h
      · obtain ⟨rest, hrest, -⟩ := exists_of_map_ok h
        exact ih hrest

end Csv

/-! ## Tables -/

open Csv

/-- A table says all that its data say: one row for each record, and in it a cell for each column that holds
the field at its place; beyond the columns no field has anything in it. -/
structure SaysAll (specs : List ColumnSpec) (records : List Bytes) (d : Dataset) : Prop where
  rows : d.rowCount = records.length
  columns : d.columns.map (fun c => (c.name, c.dtype)) = specs.map fun s => (s.name, s.type.dtype)
  cells : ∀ (i j : ℕ) (record : Bytes) (c : Column) (s : ColumnSpec), records[i]? = some record →
    d.columns[j]? = some c → specs[j]? = some s →
    ∃ v, c.cells.cell? i = some v ∧ Holds s.type (fieldsOf record)[j]? v
  surplus : ∀ record ∈ records, ∀ f ∈ (fieldsOf record).drop specs.length, f = []

/-- A record has a field that is neither a gap nor a cell of its column. -/
def Misfits (specs : List ColumnSpec) (record : Bytes) : Prop :=
  ∃ (j : ℕ) (s : ColumnSpec) (f : Bytes), specs[j]? = some s ∧ (fieldsOf record)[j]? = some f ∧
    ¬ IsGap s.type f ∧ ∀ v, ¬ Denotes s.type f v

variable {header content : Bytes} {records : List Bytes}

theorem fieldsOf_eq (record : Bytes) : fieldsOf record = (plainFields record).map fun f => dropReturn f.raw := by
  rw [fieldsOf, plainFields, List.map_map]
  rfl

/-- A table that is loaded says what its data says. -/
theorem saysAll_of_loadBytes {name : String} {final : Bool} {specs : List ColumnSpec} {d : Dataset}
    (hheader : IsHeader header) (hrecords : ∀ x ∈ records, IsRecord x) (hclosed : IsClosed final records)
    (hspecs : schema? (writeLines final (header :: records)) = some specs) (hne : specs ≠ [])
    (hd : loadBytes name (writeLines final (header :: records)) = .ok d) : SaysAll specs records d := by
  obtain ⟨-, table, htable, rfl⟩ := exists_of_loadBytes hd
  obtain ⟨specs', read, hschema, hread, rfl⟩ := exists_of_read htable
  obtain rfl : specs' = specs := Option.some.inj (hschema.symm.trans hspecs)
  have hbody := body_table final hheader records specs'
  have hrows := rows_of_readBlocks hbody hrecords hclosed hread
  have hvalid := isValid_of_readBlocks hbody hrecords hclosed hread
  have hrow {i : ℕ} {record : Bytes} (hi : records[i]? = some record) :
      ∃ row, read.flatten[i]? = some row ∧ rowOf specs' (plainFields record) = .ok row := by
    have hget := congrArg (·[i]?) hrows
    simp only [List.getElem?_map, hi, Option.map_some] at hget
    obtain ⟨row, hflat, hok⟩ := Option.map_eq_some_iff.mp hget.symm
    exact ⟨row, hflat, hok.symm⟩
  constructor
  · have hlength := congrArg List.length hrows
    rw [List.length_map, List.length_map] at hlength
    rw [rowCount_columnsOf hne, hlength]
  · refine List.ext_getElem? fun j => ?_
    simp only [columnsOf, List.getElem?_map, List.getElem?_mapIdx, Option.map_map]
    congr 1
    funext s
    exact Prod.ext rfl (dtype_cellsOf s.type _)
  · intro i j record c s hi hc hs
    obtain ⟨row, hflat, hrow⟩ := hrow hi
    have hplain : ∀ f ∈ plainFields record, f.quoted = false := by
      intro f hf
      obtain ⟨raw, -, rfl⟩ := List.mem_map.mp hf
      rfl
    have hfields (htext : specs'.any (·.type == .text) = true) :
        ∀ f ∈ plainFields record, Utf8.isValid (dropReturn f.raw) = true := by
      intro f hf
      refine isValid_fieldsOf (hvalid htext record (List.mem_of_getElem? hi)) _ ?_
      rw [fieldsOf_eq]
      exact List.mem_map_of_mem hf
    obtain ⟨v, hv, hholds⟩ := holds_readRow hrow hplain hfields hs
    rw [← List.getElem?_map, ← fieldsOf_eq] at hholds
    refine ⟨v, ?_, hholds⟩
    simp only [columnsOf, List.getElem?_mapIdx, hs, Option.map_some, Option.some.injEq] at hc
    rw [← hc]
    refine cell?_cellsOf ?_ hholds.missing_or
    rw [List.getElem?_map, hflat, Option.map_some, hv, Option.getD_some]
  · intro record hrecord f hf
    obtain ⟨i, hi⟩ := List.getElem?_of_mem hrecord
    obtain ⟨row, -, hread⟩ := hrow hi
    rw [fieldsOf_eq, ← List.map_drop] at hf
    obtain ⟨g, hg, rfl⟩ := List.mem_map.mp hf
    rw [surplus_readRow hread g hg]
    rfl

/-- A table with a field that is no cell of its column is not what is loaded. -/
theorem SaysAll.not_misfits {specs : List ColumnSpec} {d : Dataset} (h : SaysAll specs records d) {record : Bytes}
    (hrecord : record ∈ records) : ¬ Misfits specs record := by
  rintro ⟨j, s, f, hs, hf, hgap, hno⟩
  obtain ⟨i, hi⟩ := List.getElem?_of_mem hrecord
  have hcolumn : ∃ c, d.columns[j]? = some c := by
    have hget := congrArg (·[j]?) h.columns
    simp only [List.getElem?_map, hs, Option.map_some] at hget
    obtain ⟨c, hc, -⟩ := Option.map_eq_some_iff.mp hget
    exact ⟨c, hc⟩
  obtain ⟨c, hc⟩ := hcolumn
  obtain ⟨v, -, hholds⟩ := h.cells i j record c s hi hc hs
  exact hno v (hholds.denotes f hf hgap)

/-- **Strict loading.** Content without quotes whose first line is a header with text has columns of certain
types. If it is loaded, the table says all that the records say: a cell is missing exactly where its field is
missing or a gap, and has the value of its field elsewhere. If a field is neither a gap nor a cell of its
column's type, the content is refused. -/
theorem strict_loading {name : String} (hname : FileName.isCsv name = true) (hquote : quote ∉ content)
    (hlines : cutLines content = header :: records)
    (htext : skipEndings (Utf8.withoutMark header) ≠ []) :
    ∃ specs, schema? content = some specs ∧
      (∀ d, loadBytes name content = .ok d → SaysAll specs records d) ∧
      ((∃ record ∈ records, Misfits specs record) →
        ∃ fault, loadBytes name content = .error (.malformed fault)) := by
  obtain ⟨final, hcontent, hclosed, hrecord⟩ := exists_of_cutLines hquote
  rw [hlines] at hcontent hclosed hrecord
  obtain ⟨hfirst, hrecords⟩ := List.forall_mem_cons.mp hrecord
  have hheader : IsHeader header := ⟨hfirst.isLine, htext⟩
  have hrest : IsClosed final records := hclosed.of_cons
  obtain ⟨specs, hspecs, hne⟩ := schema?_table final hheader (fun x hx => (hrecords x hx).isLine) hrest
  have hloaded (d : Dataset) (hd : loadBytes name content = .ok d) : SaysAll specs records d :=
    saysAll_of_loadBytes hheader hrecords hrest hspecs hne (hcontent ▸ hd)
  refine ⟨specs, hcontent ▸ hspecs, hloaded, ?_⟩
  rintro ⟨record, hmem, hmisfits⟩
  have hnonempty : content ≠ [] := by
    rintro rfl
    cases hlines
  rcases loadBytes_cases hname hnonempty with ⟨d, hd⟩ | hfault
  · exact absurd hmisfits ((hloaded d hd).not_misfits hmem)
  · exact hfault

/-- Gaps, a short record and a blank line; and a word that only looks like a truth value. -/
theorem strict_loading_gaps :
    let content := Utf8.encode "a,b\n1,x\n ,\n\n7\r\n"
    (∃ specs d, schema? content = some specs ∧ loadBytes "t.csv" content = .ok d ∧
      SaysAll specs [Utf8.encode "1,x", Utf8.encode " ,", [], Utf8.encode "7\r"] d) ∧
      ∃ fault, loadBytes "t.csv" (Utf8.encode "a\nfalſe\n") = .error (.malformed fault) := by
  intro content
  have hname : FileName.isCsv "t.csv" = true := by decide +kernel
  obtain ⟨specs, hspecs, hloaded, -⟩ := @strict_loading (Utf8.encode "a,b") content
    [Utf8.encode "1,x", Utf8.encode " ,", [], Utf8.encode "7\r"] "t.csv" hname (by decide +kernel)
    (by decide +kernel) (by decide +kernel)
  obtain ⟨specs', hspecs', -, hrefused⟩ := @strict_loading (Utf8.encode "a") (Utf8.encode "a\nfalſe\n")
    [Utf8.encode "falſe"] "t.csv" hname (by decide +kernel) (by decide +kernel) (by decide +kernel)
  constructor
  · have hload : (loadBytes "t.csv" content).toOption.isSome = true := by decide +kernel
    cases hd : loadBytes "t.csv" content with
    | error e =>
      rw [hd] at hload
      cases hload
    | ok d => exact ⟨specs, d, hspecs, rfl, hloaded d hd⟩
  · have hbool : schema? (Utf8.encode "a\nfalſe\n") = some [⟨"a", .bool⟩] := by decide +kernel
    obtain rfl : [⟨"a", .bool⟩] = specs' := Option.some.inj (hbool.symm.trans hspecs')
    refine hrefused ⟨_, List.mem_singleton_self _, 0, _, Utf8.encode "falſe", rfl, by decide +kernel, ?_, ?_⟩
    · exact mt (isGap_iff_nil (.inr rfl)).mp (by decide +kernel)
    · intro v hv
      cases hv with
      | @bool _ b hword => cases b <;> exact absurd hword (by decide +kernel)

/-- A carriage return before a comma is a field with something in it, and its cell is missing. -/
theorem trailing_return_dropped :
    let content := Utf8.encode "a,b\n\r,y\n"
    let record := Utf8.encode "\r,y"
    cutLines content = [Utf8.encode "a,b", record] ∧ record.splitOn comma = [[carriage], Utf8.encode "y"] ∧
      ∃ d c, loadBytes "data.csv" content = .ok d ∧ d.columns[0]? = some c ∧ c.dtype = .str ∧
        c.cells.cell? 0 = some .missing := by
  intro content record
  refine ⟨by decide +kernel, by decide +kernel,
    ⟨"data.csv", none, [⟨"a", .str [none]⟩, ⟨"b", .str [some "y"]⟩], [1]⟩, ⟨"a", .str [none]⟩, ?_, rfl, rfl, rfl⟩
  decide +kernel

end TableProfile
