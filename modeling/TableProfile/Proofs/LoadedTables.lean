import Mathlib.Data.List.Basic
import TableProfile.Files.Load

/-!
# Tables that are loaded

A dataset that is loaded from a file bears the name that the file's path is reported under. Its columns
are made of the values that were read: an integer that is read fits 64 bits, so a column of integers
never holds a number that its type does not hold.

* `read_fits`, `readRow_fits`: a value that is read fits its type.
* `exists_of_read`, `exists_of_loadBytes`: a dataset that is loaded from content holds the rows of its blocks.
* `exists_of_loadFile`: a dataset that is loaded from a path is read from some files.
* `loadBytes_held`, `loadFile_held`: the columns of every dataset that is loaded hold numbers of their
  types.
* `analyzeFile_fileName`: the name that an analysis bears.
-/
namespace TableProfile

/-! ## Successes -/

theorem exists_of_map_ok {ε α β : Type} {x : Except ε α} {f : α → β} {b : β}
    (h : x.map f = .ok b) : ∃ a, x = .ok a ∧ f a = b := by
  cases x with
  | error e => cases h
  | ok a => exact ⟨a, rfl, Except.ok.inj h⟩

theorem exists_of_mapM_cons_ok {ε α β : Type} {f : α → Except ε β} {x : α} {xs : List α} {ys : List β}
    (h : (x :: xs).mapM f = .ok ys) :
    ∃ y others, f x = .ok y ∧ xs.mapM f = .ok others ∧ ys = y :: others := by
  rw [List.mapM_cons] at h
  cases hx : f x with
  | error e =>
    rw [hx] at h
    cases h
  | ok y =>
    cases hrest : xs.mapM f with
    | error e =>
      rw [hx, hrest] at h
      cases h
    | ok others =>
      rw [hx, hrest] at h
      exact ⟨y, others, rfl, rfl, (Except.ok.inj h).symm⟩

/-- What is found for each of several is what was found for one of them. -/
theorem exists_of_mapM_ok {ε α β : Type} {f : α → Except ε β} {xs : List α} {ys : List β}
    (h : xs.mapM f = .ok ys) {y : β} (hy : y ∈ ys) : ∃ x, f x = .ok y := by
  induction xs generalizing ys with
  | nil =>
    cases h
    cases hy
  | cons x rest ih =>
    obtain ⟨first, others, hx, hrest, rfl⟩ := exists_of_mapM_cons_ok h
    rcases List.mem_cons.mp hy with rfl | hy
    · exact ⟨x, hx⟩
    · exact ih hrest hy

/-- Something is found for each of several if it is found for all. -/
theorem forall_of_mapM_ok {ε α β : Type} {f : α → Except ε β} {xs : List α} {ys : List β}
    (h : xs.mapM f = .ok ys) : ∀ x ∈ xs, ∃ y, f x = .ok y := by
  induction xs generalizing ys with
  | nil => exact nofun
  | cons x rest ih =>
    obtain ⟨first, others, hx, hrest, -⟩ := exists_of_mapM_cons_ok h
    exact List.forall_mem_cons.mpr ⟨⟨first, hx⟩, ih hrest⟩

/-! ## Values of a type -/

/-- The integers of a column are of its type. -/
def Cells.Held : Cells → Prop
  | .int type cells => ∀ cell ∈ cells, cell.all type.holds = true
  | _ => True

namespace Csv

/-- An integer of 64 bits, or a value of another kind. -/
def Value.Fits : Value → Prop
  | .int n => IntType.i64.holds n = true
  | _ => True

/-! ## Fields -/

theorem readInteger_holds {cs : List Char} {n : Int} (h : readInteger cs = some n) :
    IntType.i64.holds n = true := by
  simp only [readInteger] at h
  split at h
  · cases h
  · obtain ⟨hholds, hn⟩ := Option.ite_none_right_eq_some.mp h
    exact Option.some.inj hn ▸ hholds

/-- What is read as a number is missing or what some text reads as. -/
theorem readNumber_ok {read : List Char → Option Value} {f : Field} {v : Value}
    (h : readNumber read f = .ok v) : v = .missing ∨ ∃ cs, read cs = some v := by
  unfold readNumber at h
  split at h
  · exact Or.inl (Except.ok.inj h).symm
  · simp only at h
    split at h
    · rename_i w hread
      exact Or.inr ⟨_, hread.trans (congrArg some (Except.ok.inj h))⟩
    · split at h
      · exact Or.inl (Except.ok.inj h).symm
      · split at h
        · cases h
        · split at h
          · exact Or.inl (Except.ok.inj h).symm
          · split at h
            · rename_i w hread
              exact Or.inr ⟨_, hread.trans (congrArg some (Except.ok.inj h))⟩
            · cases h

theorem readBool_fits {f : Field} {v : Value} (h : readBool f = .ok v) : v.Fits := by
  unfold readBool at h
  simp only at h
  repeat' split at h
  all_goals cases h
  all_goals trivial

theorem readText_fits {f : Field} {v : Value} (h : readText f = .ok v) : v.Fits := by
  unfold readText at h
  repeat' split at h
  all_goals cases h
  all_goals trivial

theorem read_fits {type : CellType} {f : Field} {v : Value} (h : type.read f = .ok v) : v.Fits := by
  cases type with
  | int =>
    rw [CellType.read] at h
    rcases readNumber_ok h with rfl | ⟨cs, hcs⟩
    · trivial
    · obtain ⟨n, hn, rfl⟩ := Option.map_eq_some_iff.mp hcs
      exact readInteger_holds hn
  | float =>
    rw [CellType.read] at h
    rcases readNumber_ok h with rfl | ⟨cs, hcs⟩
    · trivial
    · obtain ⟨x, -, rfl⟩ := Option.map_eq_some_iff.mp hcs
      trivial
  | bool => exact readBool_fits h
  | text => exact readText_fits h

/-! ## Rows -/

theorem readRow_fits {ended : Bool} {number : Nat} {specs : List ColumnSpec} {fields : List Field}
    {row : List Value} (h : readRow ended number specs fields = .ok row) : ∀ v ∈ row, v.Fits := by
  induction specs generalizing number fields row with
  | nil =>
    obtain rfl : row = [] := by
      cases fields with
      | nil => exact (Except.ok.inj h).symm
      | cons f fields =>
        rw [readRow] at h
        split at h
        · exact (Except.ok.inj h).symm
        · cases h
    exact nofun
  | cons spec specs ih =>
    cases fields with
    | nil =>
      rw [readRow] at h
      obtain ⟨rest, hrest, rfl⟩ := exists_of_map_ok h
      exact List.forall_mem_cons.mpr ⟨trivial, ih hrest⟩
    | cons f fields =>
      simp only [readRow] at h
      split at h
      · cases h
      · rename_i v hv
        obtain ⟨rest, hrest, rfl⟩ := exists_of_map_ok h
        exact List.forall_mem_cons.mpr ⟨read_fits hv, ih hrest⟩

theorem readRows_fits {specs : List ColumnSpec} {records : List Record} {done rows : List (List Value)}
    (hdone : ∀ row ∈ done, ∀ v ∈ row, v.Fits) (h : readRows specs done records = .ok rows) :
    ∀ row ∈ rows, ∀ v ∈ row, v.Fits := by
  induction records generalizing done with
  | nil => exact Except.ok.inj h ▸ hdone
  | cons r rest ih =>
    rw [readRows] at h
    split at h
    · cases h
    · rename_i row hrow
      exact ih (List.forall_mem_cons.mpr ⟨readRow_fits hrow, hdone⟩) h

theorem readBlock_fits {specs : List ColumnSpec} {block : Bytes} {rows : List (List Value)}
    (h : readBlock specs block = .ok rows) : ∀ row ∈ rows, ∀ v ∈ row, v.Fits := by
  unfold readBlock at h
  split at h
  · cases h
  · obtain ⟨done, hdone, rfl⟩ := exists_of_map_ok h
    intro row hrow
    exact readRows_fits (List.forall_mem_nil _) hdone row (List.mem_reverse.mp hrow)

/-! ## Columns -/

theorem cellsOf_held (type : CellType) {column : List Value} (h : ∀ v ∈ column, v.Fits) :
    (cellsOf type column).Held := by
  cases type with
  | int =>
    intro cell hcell
    obtain ⟨v, hv, rfl⟩ := List.mem_map.mp hcell
    cases v with
    | int n => exact h _ hv
    | missing | float _ | bool _ | text _ => rfl
  | float | bool | text => trivial

theorem columnsOf_held (specs : List ColumnSpec) {rows : List (List Value)}
    (h : ∀ row ∈ rows, ∀ v ∈ row, v.Fits) : ∀ c ∈ columnsOf specs rows, c.cells.Held := by
  intro c hc
  obtain ⟨i, hi, rfl⟩ := List.mem_mapIdx.mp hc
  refine cellsOf_held _ fun v hv => ?_
  obtain ⟨row, hrow, rfl⟩ := List.mem_map.mp hv
  cases hvalue : row[i]? with
  | none => trivial
  | some v => exact h row hrow v (List.mem_of_getElem? hvalue)

theorem readAs_held {specs : List ColumnSpec} {files : List Bytes} {table : Table}
    (h : readAs specs files = .ok table) : ∀ c ∈ table.columns, c.cells.Held := by
  obtain ⟨read, hread, rfl⟩ := exists_of_map_ok h
  refine columnsOf_held specs fun row hrow => ?_
  obtain ⟨block, hblock, hrow⟩ := List.mem_flatten.mp hrow
  obtain ⟨file, hfile, hblock⟩ := List.mem_flatten.mp hblock
  obtain ⟨bytes, hbytes⟩ := exists_of_mapM_ok hread hfile
  obtain ⟨_, hrows⟩ := exists_of_mapM_ok hbytes hblock
  exact readBlock_fits hrows row hrow

/-- One file as a table: the rows of its blocks. -/
theorem readAs_single (specs : List ColumnSpec) (bytes : Bytes) :
    readAs specs [bytes] = (readBlocks specs bytes).map fun read =>
      ⟨columnsOf specs read.flatten, read.map List.length⟩ := by
  rw [readAs, List.mapM_cons, List.mapM_nil]
  cases readBlocks specs bytes with
  | error e => rfl
  | ok read =>
    show Except.ok _ = Except.ok _
    simp

theorem exists_of_read {bytes : Bytes} {table : Table} (h : read bytes = .ok table) :
    ∃ specs read, schema? bytes = some specs ∧ readBlocks specs bytes = .ok read ∧
      table = ⟨columnsOf specs read.flatten, read.map List.length⟩ := by
  unfold Csv.read at h
  split at h
  · cases h
  · split at h
    · cases h
    · rename_i specs hschema
      rw [readAs_single] at h
      obtain ⟨read, hread, rfl⟩ := exists_of_map_ok h
      exact ⟨specs, read, hschema, hread, rfl⟩

end Csv

/-! ## Datasets -/

/-- A dataset that is loaded from content holds the table that is read. -/
theorem exists_of_loadBytes {name : String} {bytes : Bytes} {d : Dataset}
    (h : loadBytes name bytes = .ok d) : FileName.isCsv name = true ∧
      ∃ table, Csv.read bytes = .ok table ∧ d = ⟨name, none, table.columns, table.pieces⟩ := by
  unfold loadBytes at h
  split at h
  · cases h
  · rename_i hname
    split at h
    · cases h
    · split at h
      · cases h
      · rename_i table htable
        exact ⟨by simpa using hname, table, htable, (Except.ok.inj h).symm⟩

/-- Content of a file name that fits is loaded or refused as malformed. -/
theorem loadBytes_cases {name : String} {bytes : Bytes} (hname : FileName.isCsv name = true)
    (hbytes : bytes ≠ []) : (∃ d, loadBytes name bytes = .ok d) ∨
      ∃ fault, loadBytes name bytes = .error (.malformed fault) := by
  unfold loadBytes
  rw [hname, List.isEmpty_eq_false_iff.mpr hbytes, if_neg (by decide), if_neg (by decide)]
  cases Csv.read bytes with
  | error fault => exact .inr ⟨fault, rfl⟩
  | ok table => exact .inl ⟨_, rfl⟩

/-- The columns of loaded content hold numbers of their types. -/
theorem loadBytes_held {name : String} {bytes : Bytes} {d : Dataset}
    (h : loadBytes name bytes = .ok d) : ∀ c ∈ d.columns, c.cells.Held := by
  obtain ⟨-, table, htable, rfl⟩ := exists_of_loadBytes h
  obtain ⟨specs, read, -, hread, rfl⟩ := Csv.exists_of_read htable
  refine Csv.columnsOf_held specs fun row hrow => ?_
  obtain ⟨block, hblock, hrow⟩ := List.mem_flatten.mp hrow
  obtain ⟨_, hrows⟩ := exists_of_mapM_ok hread hblock
  exact Csv.readBlock_fits hrows row hrow

/-- A dataset that is loaded from a path bears the path's name and holds a table of some files. -/
theorem exists_of_loadFile {t : FileTree} {here : Path} {path : String} {d : Dataset}
    (h : loadFile t here path = .ok d) :
    d.name = FileName.ofPath path ∧
      ∃ contents table, readFiles contents = .ok table ∧ d.columns = table.columns := by
  unfold loadFile at h
  cases hplace : t.walk? here path with
  | none => simp [hplace] at h
  | some place =>
    simp only [hplace] at h
    split at h
    · cases h
    · split at h
      · cases h
      · split at h
        · cases h
        · rename_i contents _
          obtain ⟨table, htable, rfl⟩ := exists_of_map_ok h
          exact ⟨rfl, contents, table, htable, rfl⟩

theorem loadFile_held {t : FileTree} {here : Path} {path : String} {d : Dataset}
    (h : loadFile t here path = .ok d) : ∀ c ∈ d.columns, c.cells.Held := by
  obtain ⟨-, contents, table, htable, hcolumns⟩ := exists_of_loadFile h
  rw [hcolumns]
  unfold readFiles at htable
  split at htable
  · cases htable
  · split at htable
    · cases htable
    · rename_i read hread
      exact Except.ok.inj htable ▸ Csv.readAs_held hread

/-! ## Analyses -/

theorem exists_of_analyzeLoaded {loaded : Except LoadError Dataset} {a : Analysis}
    (h : analyzeLoaded loaded = .ok a) : ∃ d, loaded = .ok d ∧ a.file = d.fileSummary := by
  cases loaded with
  | error e => cases h
  | ok d =>
    cases hd : analyzeDataset d with
    | error e => simp [analyzeLoaded, hd] at h
    | ok b =>
      obtain ⟨s, -, rfl⟩ := exists_of_map_ok hd
      simp only [analyzeLoaded, hd, Except.ok.injEq] at h
      exact ⟨d, rfl, h ▸ rfl⟩

/-- An analysis bears the name that its path is reported under. -/
theorem analyzeFile_fileName {t : FileTree} {here : Path} {path : String} {a : Analysis}
    (h : analyzeFile t here path = .ok a) : a.file.fileName = FileName.ofPath path := by
  obtain ⟨d, hd, hfile⟩ := exists_of_analyzeLoaded h
  rw [hfile, ← (exists_of_loadFile hd).1]
  rfl

end TableProfile
