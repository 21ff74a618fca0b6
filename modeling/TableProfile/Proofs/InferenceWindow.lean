import TableProfile.Proofs.LoadedTables
import TableProfile.Proofs.PlainLines

/-!
# Rows behind the inference window

The types of columns are inferred from the first lines of the data, as many as the window holds. So a table
that has as many rows keeps its columns when more records are written below it (`schema?_window`). As each
row is read from its own record (`rows_of_readBlocks`), whatever block that stands in and whatever follows
it, the rows that were there stay the same; a later record that does not fit the columns is an error.

* `schema?_window`: the columns of a table do not depend on records behind the window.
* `rows_of_readBlocks`: the rows of plain records.
* `take_columnsOf`: the first rows of columns.
* `later_records_keep_types`: a table with more records.
-/
namespace TableProfile

/-! ## First rows -/

/-- The cells of the first rows. -/
def Cells.take (rows : Nat) : Cells → Cells
  | int t cs => int t (cs.take rows)
  | float t cs => float t (cs.take rows)
  | bool cs => bool (cs.take rows)
  | str cs => str (cs.take rows)
  | cat cs => cat (cs.take rows)
  | date cs => date (cs.take rows)
  | time cs => time (cs.take rows)
  | null n => null (min rows n)
  | list cs => list (cs.take rows)

/-- A column's first rows. -/
def Column.take (rows : Nat) (c : Column) : Column := ⟨c.name, c.cells.take rows⟩

theorem Column.dtype_take (rows : Nat) (c : Column) : (c.take rows).dtype = c.dtype := by
  unfold dtype take
  cases c.cells <;> rfl

/-- The first rows of a table have its names and types. -/
theorem Dataset.columnTypes_of_take {d d' : Dataset} {rows : Nat}
    (h : d'.columns.map (·.take rows) = d.columns) : d'.columnTypes = d.columnTypes := by
  unfold columnTypes
  rw [← h, List.map_map]
  refine List.map_congr_left fun c _ => ?_
  simp only [Function.comp_apply, Column.kind, Column.dtype_take]
  rfl

namespace Csv

theorem take_cellsOf (type : CellType) (column more : List Value) :
    (cellsOf type (column ++ more)).take column.length = cellsOf type column := by
  have htake {α : Type} (f : Value → α) :
      ((column ++ more).map f).take column.length = column.map f := by
    rw [List.map_append, List.take_left' (List.length_map _)]
  cases type <;> simp only [cellsOf, Cells.take, htake]

theorem take_columnsOf (specs : List ColumnSpec) (rows more : List (List Value)) :
    (columnsOf specs (rows ++ more)).map (·.take rows.length) = columnsOf specs rows := by
  refine List.ext_getElem? fun i => ?_
  simp only [columnsOf, List.getElem?_map, List.getElem?_mapIdx, Option.map_map]
  congr 1
  funext c
  have hcells := take_cellsOf c.type (rows.map fun row => row[i]?.getD .missing)
    (more.map fun row => row[i]?.getD .missing)
  rw [List.length_map] at hcells
  simp only [Function.comp_apply, Column.take, List.map_append, hcells]

theorem height_cellsOf (type : CellType) (column : List Value) :
    (cellsOf type column).height = column.length := by
  cases type <;> simp [cellsOf, Cells.height]

/-- A table that has columns has the rows that were read. -/
theorem rowCount_columnsOf {specs : List ColumnSpec} (h : specs ≠ []) (name : String)
    (rows : List (List Value)) (pieces : List Nat) :
    Dataset.rowCount ⟨name, none, columnsOf specs rows, pieces⟩ = rows.length := by
  obtain ⟨c, specs, rfl⟩ := List.exists_cons_of_ne_nil h
  simp [Dataset.rowCount, columnsOf, height_cellsOf]

/-! ## Rows of plain records -/

/-- The fields of a record as a row; a comma at the very end opens no field, as at the end of the data. -/
def rowOf (specs : List ColumnSpec) (fields : List Field) : Except Fault (List Value) :=
  readRow false 1 specs fields

/-- A record that can be read where a line feed ends it gives the same row at the end of the data. -/
theorem readRow_of_ended {ended : Bool} {number : Nat} {specs : List ColumnSpec} {fields : List Field}
    {row : List Value} (h : readRow ended number specs fields = .ok row) :
    readRow false number specs fields = .ok row := by
  induction specs generalizing number fields row with
  | nil =>
    cases fields with
    | nil => exact h
    | cons f fields =>
      rw [readRow] at h ⊢
      split at h
      · rename_i hlast
        simp only [Bool.and_eq_true] at hlast
        rw [← h, if_pos]
        simp [hlast]
      · cases h
  | cons spec specs ih =>
    cases fields with
    | nil =>
      rw [readRow] at h ⊢
      obtain ⟨rest, hrest, rfl⟩ := exists_of_map_ok h
      rw [ih hrest]
      rfl
    | cons f fields =>
      simp only [readRow] at h ⊢
      split at h
      · cases h
      · obtain ⟨rest, hrest, rfl⟩ := exists_of_map_ok h
        rw [ih hrest]
        rfl

theorem rows_of_readRows {specs : List ColumnSpec} {records : List Record} {done rows : List (List Value)}
    (h : readRows specs done records = .ok rows) : ∃ new : List (List Value), rows = new.reverse ++ done ∧
      records.map (fun r => rowOf specs r.fields) = new.map .ok := by
  induction records generalizing done with
  | nil => exact ⟨[], (Except.ok.inj h).symm, rfl⟩
  | cons r records ih =>
    rw [readRows] at h
    split at h
    · cases h
    · rename_i row hrow
      obtain ⟨new, rfl, hnew⟩ := ih h
      refine ⟨row :: new, by simp, ?_⟩
      rw [List.map_cons, List.map_cons, hnew, rowOf, readRow_of_ended hrow]

theorem rows_of_readBlock {specs : List ColumnSpec} {block : Bytes} {rows : List (List Value)}
    (h : readBlock specs block = .ok rows) :
    (records block).map (fun r => rowOf specs r.fields) = rows.map .ok := by
  unfold readBlock at h
  split at h
  · cases h
  · obtain ⟨done, hdone, rfl⟩ := exists_of_map_ok h
    obtain ⟨new, rfl, hnew⟩ := rows_of_readRows hdone
    simpa using hnew

theorem rows_of_mapM {specs : List ColumnSpec} {blocks : List Bytes} {read : List (List (List Value))}
    (h : blocks.mapM (readBlock specs) = .ok read) :
    (blocks.flatMap records).map (fun r => rowOf specs r.fields) = read.flatten.map .ok := by
  induction blocks generalizing read with
  | nil =>
    cases h
    rfl
  | cons block blocks ih =>
    obtain ⟨rows, others, hblock, hrest, rfl⟩ := exists_of_mapM_cons_ok h
    rw [List.flatMap_cons, List.map_append, rows_of_readBlock hblock, ih hrest, List.flatten_cons,
      List.map_append]

/-- Each record without quotes gives the row that it gives by itself, whatever block it stands in. -/
theorem rows_of_readBlocks {specs : List ColumnSpec} {bytes : Bytes} {final : Bool} {xs : List Bytes}
    {read : List (List (List Value))} (hbody : body specs bytes = writeLines final xs)
    (hrecords : ∀ x ∈ xs, IsRecord x) (hclosed : IsClosed final xs) (h : readBlocks specs bytes = .ok read) :
    xs.map (fun x => rowOf specs (plainFields x)) = read.flatten.map .ok := by
  rw [readBlocks, hbody] at h
  have hrows := rows_of_mapM h
  have hfields := congrArg (List.map (rowOf specs)) (fields_of_blocks blockSize final hrecords hclosed)
  rw [List.map_map, List.map_map] at hfields
  exact hfields.symm.trans hrows

/-! ## Columns of plain records -/

/-- A line with text: the header of what stands below it. A line without text would leave that to the first
record, and behind an open quote the records would be part of the header. -/
structure IsHeader (header : Bytes) : Prop where
  line : isLine false header = true
  text : skipEndings (Utf8.withoutMark header) ≠ []

theorem withoutMark_eq (bytes : Bytes) :
    Utf8.withoutMark bytes = if [0xEF, 0xBB, 0xBF] <+: bytes then bytes.drop 3 else bytes := by
  unfold Utf8.withoutMark
  split
  · simp
  · rename_i h
    rw [if_neg]
    rintro ⟨rest, rfl⟩
    exact h rest rfl

/-- No line feed stands in a byte order mark. -/
theorem withoutMark_append (header rest : Bytes) :
    Utf8.withoutMark (header ++ newline :: rest) = Utf8.withoutMark header ++ newline :: rest := by
  -- So a mark that begins in the header ends there too.
  have hmark : [0xEF, 0xBB, 0xBF] <+: header ++ newline :: rest ↔ [0xEF, 0xBB, 0xBF] <+: header := by
    match header with
    | [] | [_] | [_, _] => simp [newline]
    | _ :: _ :: _ :: header => simp
  rw [withoutMark_eq, withoutMark_eq]
  by_cases h : [0xEF, 0xBB, 0xBF] <+: header
  · have hlength : 3 ≤ header.length := h.length_le
    rw [if_pos h, if_pos (hmark.mpr h), List.drop_append_of_le_length hlength]
  · rw [if_neg h, if_neg (hmark.not.mpr h)]

theorem isLine_withoutMark {header : Bytes} (h : isLine false header = true) :
    isLine false (Utf8.withoutMark header) = true := by
  unfold Utf8.withoutMark
  split
  · rename_i rest
    exact h
  · exact h

theorem skipEndings_append {header : Bytes} (h : skipEndings header ≠ []) (rest : Bytes) :
    skipEndings (header ++ rest) = skipEndings header ++ rest := by
  unfold skipEndings at h ⊢
  rw [List.dropWhile_append, if_neg (by simpa using h)]

theorem isLine_skipEndings {header : Bytes} (h : isLine false header = true) :
    isLine false (skipEndings header) = true := by
  induction header with
  | nil => rfl
  | cons b rest ih =>
    rw [skipEndings, List.dropWhile_cons]
    split
    · rename_i hb
      obtain ⟨now, hnow, -, hrest⟩ := exists_of_isLine_cons h
      have hquote : (b == quote) = false := by
        rcases (Bool.or_eq_true _ _).mp hb with hb | hb
        · rw [eq_of_beq hb]
          rfl
        · rw [eq_of_beq hb]
          rfl
      rw [hquote] at hnow
      subst hnow
      exact ih hrest
    · exact h

variable {header : Bytes} {xs : List Bytes}

/-- The header as a line, without a byte order mark and line endings. -/
theorem IsHeader.isLine (h : IsHeader header) : isLine false (skipEndings (Utf8.withoutMark header)) = true :=
  isLine_skipEndings (isLine_withoutMark h.line)

/-- A byte order mark is one of the header. -/
theorem withoutMark_writeLines (final : Bool) (header : Bytes) (xs : List Bytes) :
    Utf8.withoutMark (writeLines final (header :: xs)) = writeLines final (Utf8.withoutMark header :: xs) := by
  by_cases hxs : xs = []
  · subst hxs
    cases final with
    | true => simpa [writeLines, joinLines] using withoutMark_append header []
    | false => simp [writeLines, joinLines]
  · rw [writeLines_cons final header hxs, withoutMark_append, ← writeLines_cons final _ hxs]

/-- Line endings before the text of a header are left out with it. -/
theorem skipEndings_writeLines (final : Bool) (h : IsHeader header) (xs : List Bytes) :
    skipEndings (Utf8.withoutMark (writeLines final (header :: xs))) =
      writeLines final (skipEndings (Utf8.withoutMark header) :: xs) := by
  rw [withoutMark_writeLines]
  by_cases hxs : xs = []
  · subst hxs
    cases final with
    | true => simpa [writeLines, joinLines] using skipEndings_append h.text [newline]
    | false => simp [writeLines, joinLines]
  · rw [writeLines_cons final _ hxs, skipEndings_append h.text, ← writeLines_cons final _ hxs]

/-- The lines of a table are its header and its records. -/
theorem lines_table (final : Bool) (h : IsHeader header) (hlines : ∀ x ∈ xs, Csv.isLine false x = true)
    (hclosed : IsClosed final xs) :
    lines (skipEndings (Utf8.withoutMark (writeLines final (header :: xs)))) =
      skipEndings (Utf8.withoutMark header) :: xs := by
  rw [skipEndings_writeLines final h]
  exact lines_writeLines final (List.forall_mem_cons.mpr ⟨h.isLine, hlines⟩) (hclosed.cons h.text)

/-- The data of a table are its records, whatever its columns. -/
theorem body_table (final : Bool) (h : IsHeader header) (xs : List Bytes) (specs : List ColumnSpec) :
    body specs (writeLines final (header :: xs)) = writeLines final xs := by
  simp only [body]
  split
  · rw [skipEndings_writeLines final h]
    exact dropLine_writeLines final h.isLine xs
  · rw [withoutMark_writeLines]
    exact dropLine_writeLines final (isLine_withoutMark h.line) xs

/-- Records that are not blank are lines of a table. -/
theorem lines_of_plain (final : Bool) {xs : List Bytes} (h : ∀ x ∈ xs, IsPlain x) :
    (∀ x ∈ xs, Csv.isLine false x = true) ∧ IsClosed final xs :=
  ⟨fun x hx => (h x hx).isRecord.isLine, isClosed_of_nonempty final fun x hx => (h x hx).nonempty⟩

/-- **The window.** Records behind it have no part in the names and types of the columns. -/
theorem schema?_window (h : IsHeader header) {more : List Bytes} (hplain : ∀ x ∈ xs ++ more, IsPlain x)
    (hwindow : window ≤ xs.length) (final final' : Bool) :
    schema? (writeLines final' (header :: (xs ++ more))) = schema? (writeLines final (header :: xs)) := by
  obtain ⟨hlines, hclosed⟩ := lines_of_plain final fun x hx => hplain x (List.mem_append_left _ hx)
  obtain ⟨hlines', hclosed'⟩ := lines_of_plain final' hplain
  unfold schema?
  rw [lines_table final' h hlines' hclosed', lines_table final h hlines hclosed]
  simp only [columnTypes, List.take_append_of_le_length hwindow]

/-! ## Columns of a header -/

theorem trimLine_ne_nil {line : Bytes} (h : line ≠ []) : trimLine line ≠ [] := by
  unfold trimLine
  split
  · rename_i hlong
    unfold dropReturn
    split
    · split
      · rename_i b rest hreverse _
        have hlength := congrArg List.length hreverse
        rw [List.length_reverse, List.length_cons] at hlength
        intro hnil
        rw [List.reverse_eq_nil_iff.mp hnil, List.length_nil] at hlength
        omega
      · exact h
    · rename_i hnone
      exact absurd (List.reverse_eq_nil_iff.mp hnone) h
  · exact h

theorem headerNames_ne_nil {line : Bytes} (h : line ≠ []) : headerNames line ≠ [] := by
  obtain ⟨f, fields, hfields⟩ := List.exists_cons_of_ne_nil (firstFields_ne_nil (trimLine_ne_nil h))
  simp [headerNames, hfields, distinctNames]

theorem length_joinLine (seen : List (Option CellType)) (fields : List Field) :
    (joinLine seen fields).length = seen.length := by
  induction seen generalizing fields with
  | nil => cases fields <;> rfl
  | cons t seen ih => cases fields <;> simp [joinLine, ih]

theorem length_columnTypes (n : Nat) (xs : List Bytes) : (columnTypes n xs).length = n := by
  have hfold (seen : List (Option CellType)) (ys : List Bytes) :
      (ys.foldl (fun seen line => joinLine seen (firstFields (trimLine line))) seen).length =
        seen.length := by
    induction ys generalizing seen with
    | nil => rfl
    | cons y ys ih => rw [List.foldl_cons, ih, length_joinLine]
  simp [columnTypes, hfold]

theorem addColumn_ne_nil (specs : List ColumnSpec) (c : ColumnSpec) : addColumn specs c ≠ [] := by
  unfold addColumn
  split
  · rename_i hany
    obtain ⟨s, hs, -⟩ := List.any_eq_true.mp hany
    simpa using List.ne_nil_of_mem hs
  · simp

/-- A table with a header has a column. -/
theorem schema?_table (final : Bool) (h : IsHeader header) (hlines : ∀ x ∈ xs, Csv.isLine false x = true)
    (hclosed : IsClosed final xs) :
    ∃ specs, schema? (writeLines final (header :: xs)) = some specs ∧ specs ≠ [] := by
  have hfold (specs cs : List ColumnSpec) (hne : specs ≠ []) : cs.foldl addColumn specs ≠ [] := by
    induction cs generalizing specs with
    | nil => exact hne
    | cons c cs ih => exact ih _ (addColumn_ne_nil specs c)
  obtain ⟨name, names, hnames⟩ := List.exists_cons_of_ne_nil (headerNames_ne_nil h.text)
  have htypes := length_columnTypes (name :: names).length xs
  obtain ⟨type, types, htypes⟩ := List.exists_cons_of_length_eq_add_one htypes
  unfold schema?
  rw [lines_table final h hlines hclosed]
  simp only [hnames, htypes]
  refine ⟨_, rfl, ?_⟩
  rw [List.zipWith_cons_cons, List.foldl_cons]
  exact hfold _ _ (addColumn_ne_nil [] _)

/-! ## Tables of plain records -/

theorem exists_readRows {specs : List ColumnSpec} {records : List Record}
    (h : ∀ r ∈ records, ∃ row, readRow r.ended 1 specs r.fields = .ok row) (done : List (List Value)) :
    ∃ rows, readRows specs done records = .ok rows := by
  induction records generalizing done with
  | nil => exact ⟨done, rfl⟩
  | cons r records ih =>
    obtain ⟨row, hrow⟩ := h r List.mem_cons_self
    rw [readRows, hrow]
    exact ih (fun q hq => h q (List.mem_cons_of_mem _ hq)) _

theorem exists_mapM {specs : List ColumnSpec} {blocks : List Bytes}
    (h : ∀ block ∈ blocks, ∃ rows, readBlock specs block = .ok rows) :
    ∃ read, blocks.mapM (readBlock specs) = .ok read := by
  induction blocks with
  | nil => exact ⟨[], rfl⟩
  | cons block blocks ih =>
    obtain ⟨rows, hrows⟩ := h block List.mem_cons_self
    obtain ⟨read, hread⟩ := ih fun b hb => h b (List.mem_cons_of_mem _ hb)
    rw [List.mapM_cons, hrows, hread]
    exact ⟨rows :: read, rfl⟩

/-- Records that can be read wherever they stand make up a table, if no column is text. -/
theorem exists_readBlocks {specs : List ColumnSpec} {bytes : Bytes} {final : Bool}
    (hbody : body specs bytes = writeLines final xs) (hplain : ∀ x ∈ xs, IsPlain x)
    (htext : specs.any (·.type == .text) = false)
    (hrow : ∀ x ∈ xs, ∀ ended, ∃ row, readRow ended 1 specs (plainFields x) = .ok row) :
    ∃ read, readBlocks specs bytes = .ok read := by
  have hfields := fields_of_blocks blockSize final (fun x hx => (hplain x hx).isRecord)
    (lines_of_plain final hplain).2
  rw [readBlocks, hbody]
  refine exists_mapM fun block hblock => ?_
  have hreadable : ∀ r ∈ records block, ∃ row, readRow r.ended 1 specs r.fields = .ok row := by
    intro r hr
    have hmem := List.mem_map_of_mem (f := Record.fields) (List.mem_flatMap.mpr ⟨block, hblock, hr⟩)
    rw [hfields] at hmem
    obtain ⟨x, hx, heq⟩ := List.mem_map.mp hmem
    rw [← heq]
    exact hrow x hx r.ended
  obtain ⟨rows, hrows⟩ := exists_readRows hreadable []
  rw [readBlock, htext, hrows]
  exact ⟨rows.reverse, rfl⟩

end Csv

/-! ## Tables with more records -/

open Csv in
/-- A table of records that can be read wherever they stand is loaded, if no column is text. -/
theorem exists_loadBytes {name : String} {header : Bytes} {xs : List Bytes} {final : Bool}
    {specs : List ColumnSpec} (hname : FileName.isCsv name = true) (hheader : IsHeader header)
    (hplain : ∀ x ∈ xs, IsPlain x) (hxs : xs ≠ [])
    (hcompressed : isCompressed (writeLines final (header :: xs)) = false)
    (hspecs : schema? (writeLines final (header :: xs)) = some specs)
    (htext : specs.any (·.type == .text) = false)
    (hrow : ∀ x ∈ xs, ∀ ended, ∃ row, readRow ended 1 specs (plainFields x) = .ok row) :
    ∃ d, loadBytes name (writeLines final (header :: xs)) = .ok d := by
  obtain ⟨read, hread⟩ := exists_readBlocks (body_table final hheader xs specs) hplain htext hrow
  have hbytes : (writeLines final (header :: xs)).isEmpty = false := by
    rw [writeLines_cons final header hxs]
    simp
  refine ⟨⟨name, none, columnsOf specs read.flatten, read.map List.length⟩, ?_⟩
  simp only [loadBytes, hname, hbytes, Csv.read, hcompressed, hspecs, readAs_single, hread]
  rfl

open Csv in
/-- **Types do not change behind the window.** A table of a header and at least as many plain records as the
window holds is loaded. With more records below it, it is either refused as malformed or loaded with the same
names and types, one more row for each record, and the rows that were there before. -/
theorem later_records_keep_types {name : String} {header : Bytes} {xs more : List Bytes}
    {final : Bool} {d : Dataset} (hheader : IsHeader header) (hplain : ∀ x ∈ xs ++ more, IsPlain x)
    (hwindow : window ≤ xs.length) (hd : loadBytes name (writeLines final (header :: xs)) = .ok d)
    (final' : Bool) :
    (∃ fault, loadBytes name (writeLines final' (header :: (xs ++ more))) = .error (.malformed fault)) ∨
      ∃ d', loadBytes name (writeLines final' (header :: (xs ++ more))) = .ok d' ∧
        d'.columnTypes = d.columnTypes ∧ d'.rowCount = d.rowCount + more.length ∧
        d'.columns.map (·.take d.rowCount) = d.columns := by
  have hxs : xs ≠ [] := by
    rintro rfl
    simp [window] at hwindow
  have hmore : xs ++ more ≠ [] := List.append_ne_nil_of_left_ne_nil hxs more
  obtain ⟨hlines, hclosed⟩ := lines_of_plain final fun x hx => hplain x (List.mem_append_left _ hx)
  obtain ⟨specs, hspecs, hne⟩ := schema?_table final hheader hlines hclosed
  have hspecs' := (schema?_window hheader hplain hwindow final final').trans hspecs
  obtain ⟨hname, table, htable, rfl⟩ := exists_of_loadBytes hd
  obtain ⟨specs', read, hschema, hread, rfl⟩ := exists_of_read htable
  obtain rfl : specs' = specs := Option.some.inj (hschema.symm.trans hspecs)
  have hrows := rows_of_readBlocks (body_table final hheader xs specs')
    (fun x hx => (hplain x (List.mem_append_left _ hx)).isRecord) hclosed hread
  have hbytes : writeLines final' (header :: (xs ++ more)) ≠ [] := by
    rw [writeLines_cons final' header hmore]
    simp
  rcases loadBytes_cases hname hbytes with ⟨d', hload⟩ | hfault
  · obtain ⟨-, table', htable', rfl⟩ := exists_of_loadBytes hload
    obtain ⟨specs, read', hschema', hread', rfl⟩ := exists_of_read htable'
    obtain rfl : specs = specs' := Option.some.inj (hschema'.symm.trans hspecs')
    have hrows' := rows_of_readBlocks (body_table final' hheader (xs ++ more) specs)
      (fun x hx => (hplain x hx).isRecord) (lines_of_plain final' hplain).2 hread'
    -- The rows of the longer table are those of the records that both have, and then those of the others.
    rw [List.map_append, hrows] at hrows'
    obtain ⟨first, others, hflat, hfirst, hothers⟩ := List.append_eq_map_iff.mp hrows'
    obtain rfl : first = read.flatten := by
      have hinj : Function.Injective (Except.ok : List Value → Except Fault (List Value)) :=
        fun _ _ => Except.ok.inj
      exact hinj.list_map hfirst
    have hlength : others.length = more.length := by
      simpa using congrArg List.length hothers
    have htake := take_columnsOf specs read.flatten others
    rw [← hflat] at htake
    have hcount := rowCount_columnsOf hne name read.flatten (read.map List.length)
    refine .inr ⟨_, hload, ?_, ?_, ?_⟩
    · exact Dataset.columnTypes_of_take htake
    · rw [rowCount_columnsOf hne, hcount, hflat, List.length_append, hlength]
    · rw [hcount]
      exact htake
  · exact .inl hfault

namespace Csv

/-- A column that suggests a type in every line has that type. -/
theorem columnTypes_replicate {type : CellType} {line : Bytes}
    (hfirst : joinLine [none] (firstFields (trimLine line)) = [some type])
    (hjoin : joinLine [some type] (firstFields (trimLine line)) = [some type]) {n : Nat}
    (hn : 0 < n) : columnTypes 1 (List.replicate n line) = [type] := by
  have hfold (m : Nat) : (List.replicate m line).foldl
      (fun seen line => joinLine seen (firstFields (trimLine line))) [some type] = [some type] := by
    induction m with
    | zero => rfl
    | succ m ih => rw [List.replicate_succ, List.foldl_cons, hjoin, ih]
  obtain ⟨m, hm⟩ : ∃ m, min window n = m + 1 :=
    Nat.exists_eq_add_one.mpr (Nat.lt_min.mpr ⟨by decide, hn⟩)
  rw [columnTypes, List.take_replicate, hm, List.replicate_one, List.replicate_succ]
  simp only [List.foldl_cons, hfirst, hfold]
  rfl

/-- The digits one and two as records of a column of integers. -/
theorem plain_digits : ∀ x ∈ [[49], [50]], IsPlain x ∧
    ∀ ended, ∃ row, readRow ended 1 [⟨"a", .int⟩] (plainFields x) = .ok row := by
  have hone (ended : Bool) : readRow ended 1 [⟨"a", .int⟩] (plainFields [49]) = .ok [.int 1] := by
    cases ended <;> decide +kernel
  have htwo (ended : Bool) : readRow ended 1 [⟨"a", .int⟩] (plainFields [50]) = .ok [.int 2] := by
    cases ended <;> decide +kernel
  simp only [List.forall_mem_cons]
  exact ⟨⟨⟨by decide, by decide, by decide⟩, fun ended => ⟨_, hone ended⟩⟩,
    ⟨⟨by decide, by decide, by decide⟩, fun ended => ⟨_, htwo ended⟩⟩, List.forall_mem_nil _⟩

end Csv

open Csv in
/-- Ones below a header, at least as many as the window holds, and twos below them. -/
theorem exists_loadBytes_digits {n : Nat} (hn : window ≤ n) (more : List Bytes)
    (hmore : ∀ x ∈ more, x = [50]) :
    (∀ x ∈ List.replicate n [49] ++ more, IsPlain x) ∧
      ∃ d, loadBytes "t.csv" (writeLines true ([97] :: (List.replicate n [49] ++ more))) = .ok d := by
  have hheader : IsHeader [97] := ⟨by decide, by decide⟩
  have hpos : 0 < n := Nat.lt_of_lt_of_le (by decide) hn
  have hdigits : ∀ x ∈ List.replicate n [49] ++ more, x ∈ [[49], [50]] := by
    intro x hx
    rcases List.mem_append.mp hx with hx | hx
    · rw [List.eq_of_mem_replicate hx]
      exact List.mem_cons_self
    · rw [hmore x hx]
      decide
  have hplain : ∀ x ∈ List.replicate n [49] ++ more, IsPlain x := fun x hx =>
    (plain_digits x (hdigits x hx)).1
  have hones : List.replicate n ([49] : Bytes) ≠ [] := by
    rw [ne_eq, List.replicate_eq_nil_iff]
    omega
  have hschema : schema? (writeLines true ([97] :: List.replicate n [49])) = some [⟨"a", .int⟩] := by
    have hnames : headerNames [97] = ["a"] := by decide +kernel
    have hcut : skipEndings (Utf8.withoutMark [97]) = [97] := by decide
    have htypes : columnTypes 1 (List.replicate n [49]) = [.int] :=
      columnTypes_replicate (by decide +kernel) (by decide +kernel) hpos
    unfold schema?
    have hlines := lines_of_plain true fun x hx => hplain x (List.mem_append_left more hx)
    rw [lines_table true hheader hlines.1 hlines.2, hcut]
    simp only [hnames, List.length_singleton, htypes]
    rfl
  have hwindow : window ≤ (List.replicate n ([49] : Bytes)).length := by
    rwa [List.length_replicate]
  have hall := List.append_ne_nil_of_left_ne_nil hones more
  refine ⟨hplain, exists_loadBytes (by decide +kernel) hheader hplain hall ?_
    ((schema?_window hheader hplain hwindow true true).trans hschema) rfl
    fun x hx => (plain_digits x (hdigits x hx)).2⟩
  rw [writeLines_cons true [97] hall]
  rfl

open Csv in
/-- A column of integers with one more row. -/
theorem later_records_keep_types_two :
    ∃ d d', loadBytes "t.csv" (writeLines true ([97] :: List.replicate window [49])) = .ok d ∧
      loadBytes "t.csv" (writeLines true ([97] :: (List.replicate window [49] ++ [[50]]))) = .ok d' ∧
      d'.columnTypes = d.columnTypes ∧ d'.rowCount = d.rowCount + 1 := by
  obtain ⟨-, d, hd⟩ := exists_loadBytes_digits (Nat.le_refl window) [] nofun
  obtain ⟨hplain, d', hd'⟩ := exists_loadBytes_digits (Nat.le_refl window) [[50]] (by simp)
  rw [List.append_nil] at hd
  have hwindow : window ≤ (List.replicate window ([49] : Bytes)).length :=
    Nat.le_of_eq List.length_replicate.symm
  rcases later_records_keep_types ⟨by decide, by decide⟩ hplain hwindow hd true with
    ⟨fault, hfault⟩ | ⟨e, he, htypes, hrows, -⟩
  · cases hfault.symm.trans hd'
  · obtain rfl : e = d' := Except.ok.inj (he.symm.trans hd')
    exact ⟨d, e, hd, he, htypes, hrows⟩

end TableProfile
