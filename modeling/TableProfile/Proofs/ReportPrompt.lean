import TableProfile.Insight.Prompt
import TableProfile.Proofs.PresentFigures
import TableProfile.Proofs.Selection

/-!
# Report and prompt say the same of every column

Two texts are made of one analysis: the report, for a reader, and the prompt, for a model. Each is laid out
by itself, with its own wording and its own tests of what there is to show. The report gives the figures of
a column that has a mean; the prompt, of one that has mean, median, least and greatest value. Both are
there exactly if the column has a value (`describe_figures`). The report has its numeric part where a column
is named as numeric, and the prompt too; both list profiles there, which are those of the named columns.

What is said of a column is a list of labels, each with a text behind it (`NumericProfile.figures`,
`nullShare`, `frequent`). Both texts are layouts of these labelled texts, one to a line under the name of the
column. The blocks of texts before they are joined to lines are compared too, because names and values may
contain line breaks.

Results:
* `profiles_split`: the numeric profiles are those of the numeric columns, the others those of the rest.
* `Report.lines_numericBlock`, `Prompt.lines_numericEntry`, `Report.lines_categoryBlock`,
  `Prompt.lines_categoryEntry`: what the lines of one column show.
* `Report.summaryLines_eq`, `Prompt.userLines_eq`: what the two texts consist of, the columns in order.
* `report_prompt_agree`: the two texts show the same of every column.
-/
namespace TableProfile

/-! ## Two groups of columns -/

/-- Columns and their profiles fall into the same two groups, in order. -/
theorem profiles_split {columns : List Column} {profiles : List ColumnProfile}
    (h : List.Forall₂ (fun c p => c.profile = .ok p) columns profiles) :
    List.Forall₂ (fun c p => c.profile = .ok (.numeric p)) (columns.filter (·.kind.isNumeric))
        (profiles.filterMap ColumnProfile.numeric?) ∧
      List.Forall₂ (fun c p => c.profile = .ok (.category p)) (columns.filter (!·.kind.isNumeric))
        (profiles.filterMap ColumnProfile.category?) := by
  induction h with
  | nil => exact ⟨.nil, .nil⟩
  | @cons c p columns profiles hp _ ih =>
    rcases Column.profile_cases hp with ⟨cells, hnumbers, rfl⟩ | ⟨cells, hnumbers, -, rfl⟩
    · have hkind : c.kind.isNumeric = true := by
        rw [← Column.isSome_numbers, hnumbers]
        rfl
      rw [List.filter_cons_of_pos (by exact hkind), List.filter_cons_of_neg (by simp [hkind])]
      exact ⟨.cons hp ih.1, ih.2⟩
    · have hkind : c.kind.isNumeric = false := by
        rw [← Column.isSome_numbers, hnumbers]
        rfl
      rw [List.filter_cons_of_neg (by simp [hkind]), List.filter_cons_of_pos (by simp [hkind])]
      exact ⟨ih.1, .cons hp ih.2⟩

theorem map_column_eq {α : Type} {columns : List Column} {items : List α} {profile : α → ColumnProfile}
    (h : List.Forall₂ (fun c x => c.profile = .ok (profile x)) columns items) :
    items.map (fun x => (profile x).column) = columns.map Column.name := by
  induction h with
  | nil => rfl
  | cons hx _ ih => rw [List.map_cons, List.map_cons, Column.profile_column hx, ih]

theorem exists_column {α : Type} {columns : List Column} {items : List α} {profile : α → ColumnProfile}
    (h : List.Forall₂ (fun c x => c.profile = .ok (profile x)) columns items) {x : α} (hx : x ∈ items) :
    ∃ c ∈ columns, c.profile = .ok (profile x) := by
  induction h with
  | nil => cases hx
  | @cons c y columns items hy _ ih =>
    rcases List.mem_cons.mp hx with rfl | hx
    · exact ⟨c, List.mem_cons_self, hy⟩
    · obtain ⟨e, he, hprofile⟩ := ih hx
      exact ⟨e, List.mem_cons_of_mem c he, hprofile⟩

/-! ## What is said of one column -/

/-- A block of the report and an entry of the prompt say the same of a numeric column: its figures exactly
if it has a value, and its missing values. -/
structure SameNumeric (p : NumericProfile) (b : Report.NumericBlock) (e : Prompt.NumericEntry) :
    Prop where
  column : e.column = b.column
  shown : b.figures.isSome = true ↔ 0 < p.count
  figures : e.figures = b.figures
  nullCount : e.nullCount = b.nullCount
  nullPercent : e.nullPercent = b.nullPercent

/-- A block of the report and an entry of the prompt say the same of a column that is not numeric: how many
values it has and misses, and the frequent ones in their order. -/
structure SameCategory (b : Report.CategoryBlock) (e : Prompt.CategoryEntry) : Prop where
  column : e.column = b.column
  distinct : e.distinct = b.distinct
  nullCount : e.nullCount = b.nullCount
  nullPercent : e.nullPercent = b.nullPercent
  values : e.values = b.values.map (·.1)

/-- A column without values has no mean; any other has mean, median, least and greatest value. -/
theorem describe_figures (column : String) (cells : List (Option Float)) :
    let p := describe column cells
    (p.count = 0 ∧ p.mean = none) ∨
      (0 < p.count ∧ ∃ mean median least greatest, p.mean = some mean ∧ p.median = some median ∧
        p.least = some least ∧ p.greatest = some greatest) := by
  intro p
  obtain ⟨hmean, hmedian, hleast, hgreatest⟩ := describe_isSome column cells
  rcases Nat.eq_zero_or_pos p.count with hzero | hpos
  · have hnone : ¬ p.mean.isSome = true := fun h => (hmean.mp h).ne' hzero
    exact Or.inl ⟨hzero, Option.not_isSome_iff_eq_none.mp hnone⟩
  · obtain ⟨mean, hmean⟩ := Option.isSome_iff_exists.mp (hmean.mpr hpos)
    obtain ⟨median, hmedian⟩ := Option.isSome_iff_exists.mp (hmedian.mpr hpos)
    obtain ⟨least, hleast⟩ := Option.isSome_iff_exists.mp (hleast.mpr hpos)
    obtain ⟨greatest, hgreatest⟩ := Option.isSome_iff_exists.mp (hgreatest.mpr hpos)
    exact Or.inr ⟨hpos, mean, median, least, greatest, hmean, hmedian, hleast, hgreatest⟩

theorem sameNumeric_describe (column : String) (cells : List (Option Float)) :
    SameNumeric (describe column cells) (Report.numericBlock (describe column cells))
      (Prompt.numericEntry (describe column cells)) := by
  have hcases := describe_figures column cells
  generalize describe column cells = p at *
  rcases hcases with ⟨hzero, hnone⟩ | ⟨hpos, mean, median, least, greatest, hmean, hmedian, hleast, hgreatest⟩
  · refine ⟨rfl, ?_, ?_, rfl, rfl⟩
    · rw [Report.numericBlock, hnone, hzero]
      exact iff_of_false Bool.false_ne_true (lt_irrefl 0)
    · rw [Prompt.numericEntry, Report.numericBlock, hnone]
      rfl
  · refine ⟨rfl, ?_, ?_, rfl, rfl⟩
    · rw [Report.numericBlock, hmean]
      exact iff_of_true rfl hpos
    · rw [Prompt.numericEntry, Report.numericBlock, hmean, hmedian, hleast, hgreatest]
      rfl

theorem sameCategory (p : CategoryProfile) :
    SameCategory (Report.categoryBlock p) (Prompt.categoryEntry p) := by
  refine ⟨rfl, rfl, rfl, rfl, ?_⟩
  rw [Report.categoryBlock, List.map_map]
  rfl

/-! ## What stands behind which label -/

/-- Labels, each with the text behind it, one to a line. -/
def labelled (indent : String) (items : List (String × String)) : List String :=
  items.map fun item => indent ++ item.1 ++ ": " ++ item.2

/-- The figures of a numeric column. A column without values has none. -/
def NumericProfile.figures (p : NumericProfile) : List (String × String) :=
  if 0 < p.count then
    [("Mean", Report.value p.mean),
      ("Median", Report.value p.median),
      ("Std Dev", Report.value p.deviation),
      ("Min", Report.value p.least),
      ("Max", Report.value p.greatest)]
  else []

/-- How many values a column misses, and their share. -/
def nullShare (nulls : Nat) (percentage : Float) : String × String :=
  ("Null Count", Report.count nulls ++ " (" ++ Report.percent percentage ++ ")")

/-- Frequent values, if there are any. -/
def frequent (values : List String) : List (String × String) :=
  if values.isEmpty then [] else [("Most Frequent", String.intercalate ", " values)]

namespace Report

/-- What the report shows of a numeric column. -/
def numericLayout (p : NumericProfile) : List String :=
  ["  Column: " ++ p.column]
    ++ labelled "    " (p.figures
      ++ [("Count (non-null)", count p.count), nullShare p.nullCount p.nullPercentage])
    ++ [""]

/-- What the report shows of a column that is not numeric: of a frequent value also its count. -/
def categoryLayout (p : CategoryProfile) : List String :=
  ["  Column: " ++ p.column]
    ++ labelled "    " ([("Unique Values", count p.distinct), nullShare p.nullCount p.nullPercentage]
      ++ frequent (p.mostFrequent.map fun v => v.value ++ " (" ++ count v.count ++ ")"))
    ++ [""]

theorem lines_numericBlock (column : String) (cells : List (Option Float)) :
    (numericBlock (describe column cells)).lines = numericLayout (describe column cells) := by
  have hcases := describe_figures column cells
  generalize describe column cells = p at *
  rw [NumericBlock.lines, numericBlock, numericLayout, NumericProfile.figures]
  rcases hcases with ⟨hzero, hnone⟩ | ⟨hpos, mean, median, least, greatest, hmean, -⟩
  · rw [hnone, hzero]
    rfl
  · rw [hmean, if_pos hpos]
    rfl

theorem lines_categoryBlock (p : CategoryProfile) : (categoryBlock p).lines = categoryLayout p := by
  rw [CategoryBlock.lines, categoryBlock, categoryLayout, frequent]
  cases p.mostFrequent with
  | nil => rfl
  | cons v later =>
    simp only [List.map_map, Function.comp_def]
    rfl

end Report

namespace Prompt

/-- What the prompt shows of a numeric column. -/
def numericLayout (p : NumericProfile) : List String :=
  ["", p.column ++ ":"]
    ++ labelled "  - " (p.figures ++ [nullShare p.nullCount p.nullPercentage])

/-- What the prompt shows of a column that is not numeric. -/
def categoryLayout (p : CategoryProfile) : List String :=
  ["", p.column ++ ":"]
    ++ labelled "  - " ([("Unique Values", Report.count p.distinct),
        nullShare p.nullCount p.nullPercentage]
      ++ frequent (p.mostFrequent.map ValueCount.value))

theorem lines_numericEntry (column : String) (cells : List (Option Float)) :
    (numericEntry (describe column cells)).lines = numericLayout (describe column cells) := by
  have hcases := describe_figures column cells
  generalize describe column cells = p at *
  rw [NumericEntry.lines, numericEntry, numericLayout, NumericProfile.figures]
  rcases hcases with ⟨hzero, hnone⟩ | ⟨hpos, mean, median, least, greatest, hmean, hmedian, hleast, hgreatest⟩
  · rw [hnone, hzero]
    rfl
  · rw [hmean, hmedian, hleast, hgreatest, if_pos hpos]
    rfl

theorem lines_categoryEntry (p : CategoryProfile) : (categoryEntry p).lines = categoryLayout p := by
  rw [CategoryEntry.lines, categoryEntry, categoryLayout, frequent]
  cases p.mostFrequent <;> rfl

end Prompt

/-! ## What the texts consist of -/

/-- What the report has before its numeric part. -/
def Report.front (a : Analysis) : List String :=
  [rule '=', "CSV FILE ANALYSIS SUMMARY", rule '=', ""] ++ fileLines a.file ++ typeLines a.file

/-- What stands above the numeric columns in the report. -/
def Report.numericHead (s : Summary) : List String :=
  ["STATISTICAL SUMMARY", rule '-']
    ++ if s.numericColumns.isEmpty then ["No numerical columns found in this dataset.", ""]
      else ["Numerical Columns: " ++ String.intercalate ", " s.numericColumns, ""]

/-- What stands above the other columns in the report. -/
def Report.categoryHead (s : Summary) : List String :=
  if s.categories.isEmpty then [] else ["NON-NUMERICAL COLUMNS SUMMARY", rule '-']

/-- What the prompt has before its numeric part. -/
def Prompt.front (a : Analysis) : List String :=
  overviewLines a.file ++ ["", "STATISTICAL SUMMARY:"]

/-- What stands above the numeric columns in the prompt. -/
def Prompt.numericHead (s : Summary) : List String :=
  if s.numericColumns.isEmpty then [] else ["", "NUMERICAL COLUMNS:"]

/-- What stands above the other columns in the prompt. -/
def Prompt.categoryHead (s : Summary) : List String :=
  if s.categories.isEmpty then [] else ["", "NON-NUMERICAL COLUMNS:"]

section

variable {d : Dataset} {a : Analysis}

theorem summarize_of_analyze (h : analyzeDataset d = .ok a) : summarize d = .ok a.summary := by
  rw [analyzeDataset] at h
  cases hs : summarize d with
  | error e =>
    rw [hs] at h
    cases h
  | ok s =>
    rw [hs] at h
    cases h
    rfl

/-- Where no column is named as numeric, there are no numeric profiles and no correlations. -/
theorem numeric_eq_nil {s : Summary} (hs : summarize d = .ok s) (h : s.numericColumns.isEmpty = true) :
    s.numeric = [] ∧ s.correlations.pairs = [] := by
  obtain ⟨hprofiles, -, hnames, hcorrelations⟩ := (summarize_ok_iff d s).mp hs
  rw [List.isEmpty_iff] at h
  have hcolumns : d.numericColumns = [] := List.map_eq_nil_iff.mp (hnames.symm.trans h)
  have hnumeric := numeric_columns hprofiles
  rw [hcorrelations, hcolumns]
  refine ⟨List.map_eq_nil_iff.mp (hnumeric.trans ?_), rfl⟩
  exact List.map_eq_nil_iff.mpr hcolumns

/-- A numeric profile is what `describe` says of some cells. -/
theorem describe_of_mem_numeric {s : Summary} (hs : summarize d = .ok s) {p : NumericProfile}
    (hp : p ∈ s.numeric) : ∃ column cells, p = describe column cells := by
  obtain ⟨hprofiles, -, -, -⟩ := (summarize_ok_iff d s).mp hs
  obtain ⟨c, -, hc⟩ := exists_column (profiles_split hprofiles).1 hp
  rcases Column.profile_cases hc with ⟨cells, -, hdescribe⟩ | ⟨cells, -, -, hfrequencies⟩
  · cases hdescribe
    exact ⟨c.name, cells, rfl⟩
  · cases hfrequencies

/-- Where a head is only there if there are items, nothing is there at all without them. -/
theorem guarded_append {α β : Type} (items : List α) (head : List String) (block : α → β)
    (lines : β → List String) :
    (if items.isEmpty then [] else head ++ (items.map block).flatMap lines) =
      (if items.isEmpty then [] else head) ++ items.flatMap fun x => lines (block x) := by
  rw [List.flatMap_map]
  cases items <;> rfl

/-- The report, part by part. -/
theorem Report.summaryLines_eq (h : analyzeDataset d = .ok a) : summaryLines a =
    front a ++ numericHead a.summary ++ a.summary.numeric.flatMap numericLayout
      ++ correlationLines a.summary ++ categoryHead a.summary
      ++ a.summary.categories.flatMap categoryLayout ++ [rule '='] := by
  have hs := summarize_of_analyze h
  have hblocks : (a.summary.numeric.map numericBlock).flatMap NumericBlock.lines =
      a.summary.numeric.flatMap numericLayout := by
    rw [List.flatMap_map]
    refine List.flatMap_congr fun p hp => ?_
    obtain ⟨column, cells, rfl⟩ := describe_of_mem_numeric hs hp
    exact lines_numericBlock column cells
  have hnumeric : numericLines a.summary = numericHead a.summary
      ++ a.summary.numeric.flatMap numericLayout := by
    rw [numericLines, numericHead, hblocks]
    split
    · rename_i hempty
      rw [(numeric_eq_nil hs hempty).1]
      rfl
    · rw [List.append_assoc]
  have hcategory : categoryLines a.summary = categoryHead a.summary
      ++ a.summary.categories.flatMap categoryLayout := by
    rw [categoryLines, guarded_append, categoryHead]
    simp only [lines_categoryBlock]
  rw [summaryLines, hnumeric, hcategory]
  simp only [front, List.append_assoc]

/-- The user message of the prompt, part by part. -/
theorem Prompt.userLines_eq (h : analyzeDataset d = .ok a) : userLines a =
    front a ++ numericHead a.summary ++ a.summary.numeric.flatMap numericLayout
      ++ correlationLines a.summary ++ categoryHead a.summary
      ++ a.summary.categories.flatMap categoryLayout ++ ["", instructions] := by
  have hs := summarize_of_analyze h
  have hentries : (a.summary.numeric.map numericEntry).flatMap NumericEntry.lines =
      a.summary.numeric.flatMap numericLayout := by
    rw [List.flatMap_map]
    refine List.flatMap_congr fun p hp => ?_
    obtain ⟨column, cells, rfl⟩ := describe_of_mem_numeric hs hp
    exact lines_numericEntry column cells
  have hnumeric : numericLines a.summary = numericHead a.summary
      ++ a.summary.numeric.flatMap numericLayout ++ correlationLines a.summary := by
    rw [numericLines, numericHead, hentries]
    split
    · rename_i hempty
      obtain ⟨hnil, hpairs⟩ := numeric_eq_nil hs hempty
      rw [correlationLines, hnil, hpairs]
      rfl
    · rfl
  have hcategory : categoryLines a.summary = categoryHead a.summary
      ++ a.summary.categories.flatMap categoryLayout := by
    rw [categoryLines, guarded_append, categoryHead]
    simp only [lines_categoryEntry]
  rw [userLines, hnumeric, hcategory]
  simp only [front, List.append_assoc]

/-- **Report and prompt agree.** Both list the numeric columns of the table and then the others, each in
column order. Of a numeric column they show the same figures behind the same labels, and they show them
exactly if it has a value. Of any column the counts and percentages are the same, and so are the frequent
values and their order. -/
theorem report_prompt_agree (h : analyzeDataset d = .ok a) :
    let s := a.summary
    let blocks := s.numeric.map Report.numericBlock
    let otherBlocks := s.categories.map Report.categoryBlock
    Report.summary a = String.intercalate "\n" (Report.front a ++ Report.numericHead s
        ++ s.numeric.flatMap Report.numericLayout ++ Report.correlationLines s
        ++ Report.categoryHead s ++ s.categories.flatMap Report.categoryLayout
        ++ [Report.rule '=']) ∧
      (Prompt.ofAnalysis a).user = String.intercalate "\n" (Prompt.front a ++ Prompt.numericHead s
        ++ s.numeric.flatMap Prompt.numericLayout ++ Prompt.correlationLines s
        ++ Prompt.categoryHead s ++ s.categories.flatMap Prompt.categoryLayout
        ++ ["", Prompt.instructions]) ∧
      blocks.map (·.column) = (d.columns.filter (·.kind.isNumeric)).map Column.name ∧
      otherBlocks.map (·.column) = (d.columns.filter (!·.kind.isNumeric)).map Column.name ∧
      (∀ p ∈ s.numeric, SameNumeric p (Report.numericBlock p) (Prompt.numericEntry p)) ∧
      ∀ p ∈ s.categories, SameCategory (Report.categoryBlock p) (Prompt.categoryEntry p) := by
  intro s blocks otherBlocks
  have hs : summarize d = .ok s := summarize_of_analyze h
  obtain ⟨hprofiles, -, -, -⟩ := (summarize_ok_iff d s).mp hs
  obtain ⟨hnumeric, hcategory⟩ := profiles_split hprofiles
  refine ⟨?_, ?_, ?_, ?_, fun p hp => ?_, fun p _ => sameCategory p⟩
  · rw [Report.summary, Report.joinLines, Report.summaryLines_eq h]
  · rw [Prompt.ofAnalysis, Prompt.userMessage, Prompt.userLines_eq h]
  · rw [← map_column_eq hnumeric]
    exact List.map_map
  · rw [← map_column_eq hcategory]
    exact List.map_map
  · obtain ⟨column, cells, rfl⟩ := describe_of_mem_numeric hs hp
    exact sameNumeric_describe column cells

end

theorem report_prompt_agree_missing :
    let d : Dataset := ⟨"t.csv", none, [⟨"n", .int .i64 [some 1, none]⟩,
      ⟨"t", .str [some "x", some "x"]⟩, ⟨"m", .float .f64 [none, none]⟩], [2]⟩
    ∃ a, analyzeDataset d = .ok a ∧
      (a.summary.numeric.map Report.numericBlock).map (·.column) = ["n", "m"] ∧
      (a.summary.categories.map Report.categoryBlock).map (·.column) = ["t"] ∧
      ∀ p ∈ a.summary.numeric, SameNumeric p (Report.numericBlock p) (Prompt.numericEntry p) := by
  intro d
  obtain ⟨a, ha⟩ : ∃ a, analyzeDataset d = .ok a := ⟨_, rfl⟩
  obtain ⟨-, -, hnumeric, hcategory, hsame, -⟩ := report_prompt_agree ha
  exact ⟨a, ha, hnumeric, hcategory, hsame⟩

end TableProfile
