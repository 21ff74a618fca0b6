import TableProfile.Proofs.LoadedTables
import TableProfile.Proofs.PlainLines

/-!
# Tables from files and from contents

A table is read from a file in one way and from content in another. A file is read by itself unless its path
is a pattern, and then both ways find the same columns and rows (`readFiles_single`), with one exception: a
file of a single byte that ends no line holds no table, while as content it is a header without rows. A
pattern is read from the files that it stands for, of which the file of that name need not be one.

* `kind_of_sources`, `kind_of_readFiles`: what can go wrong in reading files is of one kind.
* `read_singleByte`: content of a single byte is read.
* `loads_alike_iff`: when a file and its content are loaded alike; their statistics are then the same.
-/
namespace TableProfile

/-! ## Kinds of errors -/

/-- Why a dataset cannot be loaded, without regard to the particulars. -/
inductive LoadError.Kind where
  | notFound | notCsv | empty | malformed
  deriving DecidableEq, Repr

def LoadError.kind : LoadError → LoadError.Kind
  | notFound _ => .notFound
  | notCsv _ => .notCsv
  | empty _ => .empty
  | malformed _ | noTable | noSource | noPattern | mixedExtensions _ _ | unlike _ => .malformed

/-- Two attempts to load fail with errors of one kind, or both give the same columns. -/
inductive LoadsAlike : Except LoadError Dataset → Except LoadError Dataset → Prop
  | failed {e e' : LoadError} (kind : e.kind = e'.kind) : LoadsAlike (.error e) (.error e')
  | loaded {d d' : Dataset} (columns : d.columns = d'.columns) : LoadsAlike (.ok d) (.ok d')

theorem kind_of_columnsOfFile {bytes : Bytes} {e : LoadError} (h : columnsOfFile bytes = .error e) :
    e.kind = .malformed := by
  unfold columnsOfFile at h
  repeat' split at h
  all_goals cases h
  all_goals rfl

theorem kind_of_inCommon {first second : Except LoadError (List Csv.ColumnSpec)} {e : LoadError}
    (hfirst : ∀ e, first = .error e → e.kind = .malformed)
    (hsecond : ∀ e, second = .error e → e.kind = .malformed) (h : inCommon first second = .error e) :
    e.kind = .malformed := by
  unfold inCommon at h
  split at h
  · cases h
    exact hfirst _ rfl
  · cases h
    exact hsecond _ rfl
  · split at h
    · cases h
      rfl
    · cases h

theorem kind_of_commonColumns (files : List Bytes) {e : LoadError} (h : commonColumns files = .error e) :
    e.kind = .malformed := by
  fun_induction commonColumns files generalizing e with
  | case1 =>
    rename_i ihfirst ihsecond
    exact kind_of_inCommon (fun _ => ihfirst) (fun _ => ihsecond) h
  | case2 =>
    cases h
    rfl
  | case3 => exact kind_of_columnsOfFile h

theorem kind_of_columnsOfFiles {files : List Bytes} {e : LoadError} (h : columnsOfFiles files = .error e) :
    e.kind = .malformed := by
  unfold columnsOfFiles at h
  split at h
  · cases h
    rfl
  · exact kind_of_columnsOfFile h
  · exact kind_of_inCommon (fun _ => kind_of_columnsOfFile) (fun _ => kind_of_commonColumns _) h

theorem kind_of_readFiles {files : List Bytes} {e : LoadError} (h : readFiles files = .error e) :
    e.kind = .malformed := by
  unfold readFiles at h
  split at h
  · rename_i hcolumns
    cases h
    exact kind_of_columnsOfFiles hcolumns
  · split at h
    · cases h
      rfl
    · cases h

theorem kind_of_sources {t : FileTree} {here place : Path} {path : String} {e : LoadError}
    (h : sources t here path place = .error e) : e.kind = .malformed := by
  unfold sources at h
  simp only at h
  repeat' split at h
  all_goals cases h
  all_goals rfl

/-! ## Content of one byte -/

/-- Content of a single byte that ends no line. -/
def SingleByte (bytes : Bytes) : Prop := ∃ b, bytes = [b] ∧ b ≠ Csv.newline ∧ b ≠ Csv.carriage

namespace Csv

theorem isCompressed_of_short {bytes : Bytes} (h : bytes.length < 2) : isCompressed bytes = false := by
  match bytes, h with
  | [], _ => rfl
  | [_], _ => simp [isCompressed]

/-- Behind a single byte there is no data. -/
theorem body_singleton (specs : List ColumnSpec) (b : UInt8) : body specs [b] = [] := by
  have hdrop : dropLine false [b] = [] := by simp [dropLine]
  have hmark : Utf8.withoutMark [b] = [b] := by simp [Utf8.withoutMark]
  simp only [body, hmark, skipEndings, List.dropWhile_cons, List.dropWhile_nil]
  split
  · split
    · rfl
    · exact hdrop
  · exact hdrop

/-- A single byte that ends no line is a header without rows. -/
theorem read_singleByte {bytes : Bytes} (h : SingleByte bytes) : ∃ table, read bytes = .ok table := by
  obtain ⟨b, rfl, hnewline, hcarriage⟩ := h
  have hskip : skipEndings (Utf8.withoutMark [b]) = [b] := by
    simp [Utf8.withoutMark, skipEndings, hnewline, hcarriage]
  obtain ⟨header, rest, hlines⟩ := List.exists_cons_of_ne_nil (lines_ne_nil (List.cons_ne_nil b []))
  have hcompressed : isCompressed [b] = false := isCompressed_of_short Nat.one_lt_two
  have hblocks (specs : List ColumnSpec) : readBlocks specs [b] = .ok [] := by
    rw [readBlocks, body_singleton]
    rfl
  unfold read
  rw [hcompressed, schema?, hskip, hlines]
  simp only [readAs_single, hblocks]
  exact ⟨_, rfl⟩

end Csv

/-! ## Tables of one file -/

/-- Content is read with the columns that are found in it, if it has any. -/
theorem toOption_read (bytes : Bytes) :
    (Csv.read bytes).toOption = (if Csv.isCompressed bytes then none else Csv.schema? bytes).bind
      fun specs => (Csv.readAs specs [bytes]).toOption := by
  unfold Csv.read
  split
  · rfl
  · cases Csv.schema? bytes <;> rfl

/-- So is a file that is read by itself. -/
theorem toOption_readFiles (bytes : Bytes) :
    (readFiles [bytes]).toOption = (columnsOfFile bytes).toOption.bind
      fun specs => (Csv.readAs specs [bytes]).toOption := by
  unfold readFiles
  rw [columnsOfFiles]
  cases columnsOfFile bytes with
  | error e => rfl
  | ok specs =>
    show _ = (Csv.readAs specs [bytes]).toOption
    dsimp only
    cases Csv.readAs specs [bytes] <;> rfl

/-- A file of a single byte holds no table. -/
theorem readFiles_singleByte {bytes : Bytes} (h : SingleByte bytes) :
    readFiles [bytes] = .error .noTable := by
  obtain ⟨b, rfl, -, -⟩ := h
  have hcompressed : Csv.isCompressed [b] = false := Csv.isCompressed_of_short Nat.one_lt_two
  simp [readFiles, columnsOfFiles, columnsOfFile, hcompressed]

/-- Any other file that is read by itself gives the table of its content. -/
theorem readFiles_single {bytes : Bytes} (h : bytes ≠ []) (hsingle : ¬ SingleByte bytes) :
    (readFiles [bytes]).toOption = (Csv.read bytes).toOption := by
  have hcolumns : (columnsOfFile bytes).toOption =
      if Csv.isCompressed bytes then none else Csv.schema? bytes := by
    unfold columnsOfFile
    split
    · rfl
    · split
      · rename_i hshort
        match bytes, h, hshort with
        | [b], _, _ =>
          have hending : b = Csv.newline ∨ b = Csv.carriage := by
            by_contra hno
            exact hsingle ⟨b, rfl, not_or.mp hno⟩
          rcases hending with rfl | rfl <;> decide +kernel
      · cases Csv.schema? bytes <;> rfl
  rw [toOption_readFiles, toOption_read, hcolumns]

/-! ## Loading -/

variable {t : FileTree} {here place : Path} {path : String} {bytes : Bytes}

/-- The table that a path is read as. -/
def fileTable (t : FileTree) (here : Path) (path : String) (place : Path) : Except LoadError Csv.Table :=
  match sources t here path place with
  | .error e => .error e
  | .ok contents => readFiles contents

theorem kind_of_fileTable {e : LoadError} (h : fileTable t here path place = .error e) :
    e.kind = .malformed := by
  unfold fileTable at h
  split at h
  · rename_i hsources
    cases h
    exact kind_of_sources hsources
  · exact kind_of_readFiles h

/-- A path to a file that is no pattern is read from that file alone. -/
theorem fileTable_of_plain (hfile : t.node? place = some (.file bytes)) (h : bytes ≠ [])
    (hplain : Pattern.isPattern path = false) : fileTable t here path place = readFiles [bytes] := by
  have hcontent : t.content? place = some bytes := by
    simp [FileTree.content?, hfile, h]
  have hsources : sources t here path place = .ok [bytes] := by
    simp [sources, FileTree.isDirectory, hfile, hplain, hcontent]
  rw [fileTable, hsources]

theorem loadFile_of_file (hplace : t.walk? here path = some place)
    (hfile : t.node? place = some (.file bytes)) :
    loadFile t here path =
      if FileName.isCsv (FileName.ofPath path) = false then .error (.notCsv (FileName.ofPath path))
      else if bytes = [] then .error (.empty (FileName.ofPath path))
      else (fileTable t here path place).map fun table =>
        ⟨FileName.ofPath path, some place.text, table.columns, table.pieces⟩ := by
  simp only [loadFile, hplace, hfile, fileTable]
  cases FileName.isCsv (FileName.ofPath path) with
  | false => rfl
  | true =>
    by_cases h : bytes = []
    · simp [h]
    · cases sources t here path place <;> simp [h, Except.map]

theorem loadBytes_eq (name : String) (bytes : Bytes) :
    loadBytes name bytes =
      if FileName.isCsv name = false then .error (.notCsv name)
      else if bytes = [] then .error (.empty name)
      else match Csv.read bytes with
        | .error fault => .error (.malformed fault)
        | .ok table => .ok ⟨name, none, table.columns, table.pieces⟩ := by
  unfold loadBytes
  cases FileName.isCsv name with
  | false => rfl
  | true => cases bytes <;> rfl

/-- Tables are loaded alike if they have the same columns or there are none. -/
theorem loadsAlike_tables {name : String} {shown : Option String} {x : Except LoadError Csv.Table}
    {y : Except Csv.Fault Csv.Table} (hkind : ∀ e, x = .error e → e.kind = .malformed) :
    LoadsAlike (x.map fun table => ⟨name, shown, table.columns, table.pieces⟩)
        (match y with
          | .error fault => .error (.malformed fault)
          | .ok table => .ok ⟨name, none, table.columns, table.pieces⟩) ↔
      x.toOption.map (·.columns) = y.toOption.map (·.columns) := by
  cases x with
  | error e =>
    cases y with
    | error fault => exact iff_of_true (.failed (hkind e rfl)) rfl
    | ok table => exact iff_of_false nofun nofun
  | ok table =>
    cases y with
    | error fault => exact iff_of_false nofun nofun
    | ok table' =>
      constructor
      · rintro ⟨⟩
        rename_i h
        exact congrArg some h
      · intro h
        exact .loaded (Option.some.inj h)

theorem summary_of_columns {d d' : Dataset} (h : d.columns = d'.columns) : summarize d = summarize d' := by
  have hrows : d.rowCount = d'.rowCount := by rw [Dataset.rowCount, Dataset.rowCount, h]
  rw [summarize, summarize, h, hrows]

/-- What is loaded alike has the same statistics. -/
theorem LoadsAlike.summary {x y : Except LoadError Dataset} (h : LoadsAlike x y) :
    (analyzeLoaded x).toOption.map (·.summary) = (analyzeLoaded y).toOption.map (·.summary) := by
  cases h with
  | failed => rfl
  | loaded columns =>
    rename_i d d'
    unfold analyzeLoaded
    dsimp only
    rw [analyzeDataset, analyzeDataset, summary_of_columns columns]
    cases summarize d' <;> rfl

/-- **Loading from a file and from its content.** A path that leads to a file and is no pattern is loaded like
the file's content, except exactly for a table's name with content of a single byte that ends no line. A
pattern is loaded like it exactly if the files that it stands for make up a table of the same columns as the
content, or if neither makes up a table. What is loaded alike has the same statistics. -/
theorem loads_alike_iff (hplace : t.walk? here path = some place)
    (hfile : t.node? place = some (.file bytes)) :
    let name := FileName.ofPath path
    let alike := LoadsAlike (loadFile t here path) (loadBytes name bytes)
    (Pattern.isPattern path = false → (alike ↔ ¬ (FileName.isCsv name = true ∧ SingleByte bytes))) ∧
      (Pattern.isPattern path = true → (alike ↔ FileName.isCsv name = true → bytes ≠ [] →
        (fileTable t here path place).toOption.map (·.columns) =
          (Csv.read bytes).toOption.map (·.columns))) ∧
      (alike → (analyzeFile t here path).toOption.map (·.summary) =
        (analyzeBytes name bytes).toOption.map (·.summary)) := by
  intro name alike
  -- Both ways judge the name and refuse empty content alike; behind that only the tables count.
  have halike : alike ↔ (FileName.isCsv name = true → bytes ≠ [] →
      (fileTable t here path place).toOption.map (·.columns) =
        (Csv.read bytes).toOption.map (·.columns)) := by
    simp only [alike, name, loadFile_of_file hplace hfile, loadBytes_eq]
    cases hcsv : FileName.isCsv (FileName.ofPath path) with
    | false => exact iff_of_true (.failed rfl) nofun
    | true =>
      by_cases hempty : bytes = []
      · simpa [hempty] using .failed rfl
      · simpa [hempty] using loadsAlike_tables fun _ => kind_of_fileTable
  refine ⟨fun hplain => ?_, fun _ => halike, fun h => h.summary⟩
  rw [halike, not_and]
  refine forall_congr' fun hcsv => ?_
  constructor
  · intro hsame hsingle
    obtain ⟨table, htable⟩ := Csv.read_singleByte hsingle
    have hbytes : bytes ≠ [] := by
      rintro rfl
      obtain ⟨_, h, -⟩ := hsingle
      cases h
    have h := hsame hbytes
    rw [fileTable_of_plain hfile hbytes hplain, readFiles_singleByte hsingle, htable] at h
    cases h
  · intro hsingle hbytes
    rw [fileTable_of_plain hfile hbytes hplain, readFiles_single hbytes hsingle]

/-- A table of one row, and a header of a single byte. -/
theorem loads_alike_iff_row :
    let t : FileTree := ⟨[(["t.csv"], [97, 10, 49, 10]), (["a.csv"], [97])], []⟩
    LoadsAlike (loadFile t [] "t.csv") (loadBytes "t.csv" [97, 10, 49, 10]) ∧
      ¬ LoadsAlike (loadFile t [] "./a.csv") (loadBytes "a.csv" [97]) := by
  intro t
  have hname : FileName.ofPath "t.csv" = "t.csv" ∧ FileName.ofPath "./a.csv" = "a.csv" := by
    decide +kernel
  have hrow := (@loads_alike_iff t [] ["t.csv"] "t.csv" [97, 10, 49, 10] (by decide +kernel)
    (by decide +kernel)).1 (by decide +kernel)
  have hheader := (@loads_alike_iff t [] ["a.csv"] "./a.csv" [97] (by decide +kernel)
    (by decide +kernel)).1 (by decide +kernel)
  rw [hname.1] at hrow
  rw [hname.2] at hheader
  constructor
  · refine hrow.mpr fun h => ?_
    obtain ⟨-, b, hb, -⟩ := h
    cases hb
  · intro h
    exact hheader.mp h ⟨by decide +kernel, 97, rfl, by decide, by decide⟩

/-- A header of a single byte is read as content, but not from a file. -/
theorem header_lost_in_file :
    let t : FileTree := ⟨[(["a.csv"], [97])], []⟩
    t.read? [] "a.csv" = some [97] ∧ FileName.isCsv "a.csv" = true ∧
      loadFile t [] "a.csv" = .error .noTable ∧
      loadBytes "a.csv" [97] = .ok ⟨"a.csv", none, [⟨"a", .str []⟩], []⟩ ∧
      ¬ LoadsAlike (loadFile t [] "a.csv") (loadBytes "a.csv" [97]) := by
  intro t
  have hfile : loadFile t [] "a.csv" = .error .noTable := by decide +kernel
  have hbytes : loadBytes "a.csv" [97] = .ok ⟨"a.csv", none, [⟨"a", .str []⟩], []⟩ := by decide +kernel
  refine ⟨by decide +kernel, by decide +kernel, hfile, hbytes, fun h => ?_⟩
  rw [hfile, hbytes] at h
  cases h

/-- Nor is a file whose name is read as a pattern and is no proper one. -/
example : loadFile ⟨[(["a[.csv"], [97, 10])], []⟩ [] "a[.csv" = .error .noPattern := by
  decide +kernel

end TableProfile
