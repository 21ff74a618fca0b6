import Mathlib.Data.Finset.Card
import Mathlib.Data.Multiset.MapFold
import TableProfile.Proofs.CalendarTexts
import TableProfile.Proofs.FrequencyRanking
import TableProfile.Proofs.Selection

/-!
# Distinct texts and distinct cells

A profile counts the texts of cells. It counts the cells themselves exactly if different cells of the
column have different texts (`counts_iff_injOn`): one text for two values makes the number of texts the
smaller one, and texts that tell their values make each count of a text the count of a value.

Texts, truth values and dates tell their values by their texts, a time of day only to the second, to which
it is written (`CellValue.Alike.rendered_eq_iff`). So the times of one second are counted as one value.

* `counts_iff_injOn`: the texts are counted like the cells exactly if no two values have one text.
* `distinct_cells_iff`: a profile counts the cells of its column cut to the second, and the cells themselves
  exactly if no two different times of the column are in one second.
* `times_counted_as_one`: two times in one second, counted as one.
-/
namespace TableProfile

/-! ## Cells -/

/-- A cell of a column that is not numeric. -/
inductive CellValue where
  | text (s : String)
  | truth (b : Bool)
  /-- A date, as days from 1970-01-01. -/
  | day (days : Int)
  /-- A time of day, as nanoseconds from midnight. -/
  | time (nanoseconds : Nat)
  deriving DecidableEq, Repr

namespace CellValue

/-- The text of a cell. -/
def rendered : CellValue → String
  | text s => s
  | truth b => Cells.boolText b
  | day days => Calendar.dateText days
  | time nanoseconds => Calendar.timeText nanoseconds

/-- A time of day without what is beyond its second. -/
def toSecond : CellValue → CellValue
  | time nanoseconds => time (nanoseconds / 1000000000 * 1000000000)
  | v => v

theorem rendered_toSecond (v : CellValue) : v.toSecond.rendered = v.rendered := by
  cases v with
  | text s => rfl
  | truth b => rfl
  | day days => rfl
  | time nanoseconds =>
    exact (Calendar.timeText_eq_iff _ _).mpr (Nat.mul_div_cancel _ (by decide))

theorem map_rendered_toSecond (cells : List (Option CellValue)) :
    (cells.map (·.map toSecond)).map (·.map rendered) = cells.map (·.map rendered) := by
  rw [List.map_map]
  refine List.map_congr_left fun cell _ => ?_
  rw [Function.comp_apply, Option.map_map]
  exact congrFun (congrArg Option.map (funext rendered_toSecond)) cell

end CellValue

/-- The cells of a column that is not numeric. -/
def Cells.held : Cells → List (Option CellValue)
  | .str cs | .cat cs => cs.map (·.map .text)
  | .bool cs => cs.map (·.map .truth)
  | .date cs => cs.map (·.map .day)
  | .time cs => cs.map (·.map .time)
  | .null rows => List.replicate rows none
  | .int .. | .float .. | .list _ => []

theorem Cells.texts_eq {c : Cells} {cells : List (Option String)} (h : c.texts = .ok cells) :
    cells = c.held.map (·.map CellValue.rendered) := by
  cases c with
  | str cs =>
    cases h
    simp [Cells.held, Function.comp_def, CellValue.rendered]
  | cat cs =>
    cases h
    simp [Cells.held, Function.comp_def, CellValue.rendered]
  | bool cs =>
    cases h
    simp [Cells.held, Function.comp_def, CellValue.rendered]
  | date cs =>
    cases h
    simp [Cells.held, Function.comp_def, CellValue.rendered]
  | time cs =>
    cases h
    simp [Cells.held, Function.comp_def, CellValue.rendered]
  | null rows =>
    cases h
    simp [Cells.held]
  | int type cs => cases h
  | float type cs => cases h
  | list cs => cases h

/-- Two cells of one type. -/
inductive CellValue.Alike : CellValue → CellValue → Prop where
  | text (a b : String) : Alike (.text a) (.text b)
  | truth (a b : Bool) : Alike (.truth a) (.truth b)
  | day (a b : Int) : Alike (.day a) (.day b)
  | time (a b : Nat) : Alike (.time a) (.time b)

theorem mem_map_cells {α : Type} {cs : List (Option α)} {f : α → CellValue} {v : CellValue}
    (h : some v ∈ cs.map (·.map f)) : ∃ a, f a = v := by
  obtain ⟨cell, -, hcell⟩ := List.mem_map.mp h
  obtain ⟨a, -, ha⟩ := Option.map_eq_some_iff.mp hcell
  exact ⟨a, ha⟩

/-- The cells of one column are of one type. -/
theorem Cells.alike {c : Cells} {v w : CellValue} (hv : some v ∈ c.held) (hw : some w ∈ c.held) :
    v.Alike w := by
  have halike {α : Type} {cs : List (Option α)} {f : α → CellValue} (hf : ∀ a b, (f a).Alike (f b))
      (hv : some v ∈ cs.map (·.map f)) (hw : some w ∈ cs.map (·.map f)) : v.Alike w := by
    obtain ⟨a, rfl⟩ := mem_map_cells hv
    obtain ⟨b, rfl⟩ := mem_map_cells hw
    exact hf a b
  cases c with
  | str cs => exact halike CellValue.Alike.text hv hw
  | cat cs => exact halike CellValue.Alike.text hv hw
  | bool cs => exact halike CellValue.Alike.truth hv hw
  | date cs => exact halike CellValue.Alike.day hv hw
  | time cs => exact halike CellValue.Alike.time hv hw
  | null rows => cases List.eq_of_mem_replicate hv
  | int type cs => cases hv
  | float type cs => cases hv
  | list cs => cases hv

theorem boolText_inj {a b : Bool} (h : Cells.boolText a = Cells.boolText b) : a = b := by
  revert a b
  decide

/-- Two cells of one type have one text exactly if they are the same to the second. -/
theorem CellValue.Alike.rendered_eq_iff {v w : CellValue} (h : v.Alike w) :
    v.rendered = w.rendered ↔ v.toSecond = w.toSecond := by
  refine ⟨fun heq => ?_, fun heq => ?_⟩
  · cases h with
    | text a b => exact congrArg CellValue.text heq
    | truth a b => exact congrArg CellValue.truth (boolText_inj heq)
    | day a b => exact congrArg CellValue.day (Calendar.dateText_injective heq)
    | time a b => rw [toSecond, toSecond, (Calendar.timeText_eq_iff a b).mp heq]
  · rw [← rendered_toSecond v, heq, rendered_toSecond]

/-! ## Counts -/

/-- A profile counts cells: it tells how many different ones there are, and each entry, of five at most,
stands for one of them, by its text, and tells how often it occurs. -/
structure CountsCells (cells : List (Option CellValue)) (p : CategoryProfile) : Prop where
  distinct : p.distinct = cells.reduceOption.toFinset.card
  listed : p.mostFrequent.length = min 5 p.distinct
  entry : ∀ e ∈ p.mostFrequent, ∃ v, some v ∈ cells ∧
    (∀ w, some w ∈ cells → (w.rendered = e.value ↔ w = v)) ∧ e.count = cells.count (some v)

section
variable (cells : List (Option CellValue)) (column : String)

theorem distinct_rendered : (frequencies column (cells.map (·.map CellValue.rendered))).distinct =
    (cells.reduceOption.toFinset.image CellValue.rendered).card := by
  have hranking := ranking_ranked (cells.map (·.map CellValue.rendered))
  calc (frequencies column (cells.map (·.map CellValue.rendered))).distinct
    _ = (Frequency.tally (cells.map (·.map CellValue.rendered))).length := rfl
    _ = (cells.map (·.map CellValue.rendered)).reduceOption.toFinset.card := by
      rw [← hranking.length_eq, List.length_map, (Frequency.ranked_perm _).length_eq]
    _ = (cells.reduceOption.toFinset.image CellValue.rendered).card := by
      rw [List.reduceOption_map]
      exact congrArg Finset.card (Multiset.toFinset_map _ (cells.reduceOption : Multiset CellValue))

variable {cells}

/-- Where texts tell their values, a text occurs as often as its value. -/
theorem count_rendered (h : Set.InjOn CellValue.rendered {v | some v ∈ cells}) {v : CellValue}
    (hv : some v ∈ cells) :
    (cells.map (·.map CellValue.rendered)).count (some v.rendered) = cells.count (some v) := by
  rw [List.count, List.count, List.countP_map]
  refine List.countP_congr fun cell hcell => ?_
  rw [Function.comp_apply, beq_iff_eq, beq_iff_eq]
  cases cell with
  | none => exact ⟨nofun, nofun⟩
  | some w => rw [Option.map_some, Option.some.injEq, Option.some.injEq, h.eq_iff hcell hv]

/-- **The texts of cells are counted like the cells** exactly if no two values have one text. -/
theorem counts_iff_injOn : CountsCells cells (frequencies column (cells.map (·.map CellValue.rendered))) ↔
    Set.InjOn CellValue.rendered {v | some v ∈ cells} := by
  have hset : {v | some v ∈ cells} = (cells.reduceOption.toFinset : Set CellValue) := by
    ext v
    simp [List.reduceOption_mem_iff]
  have hranking := ranking_ranked (cells.map (·.map CellValue.rendered))
  have hlisted := mostFrequent_eq hranking column
  constructor
  · intro h
    rw [hset]
    exact Finset.card_image_iff.mp ((distinct_rendered cells column).symm.trans h.distinct)
  · intro h
    refine ⟨?_, ?_, ?_⟩
    · rw [distinct_rendered, Finset.card_image_iff.mpr (hset ▸ h)]
    · rw [hlisted, List.length_map, List.length_take, List.length_map, (Frequency.ranked_perm _).length_eq]
      rfl
    · intro e he
      rw [hlisted] at he
      obtain ⟨u, hu, rfl⟩ := List.mem_map.mp he
      obtain ⟨cell, hcell, hrendered⟩ := List.mem_map.mp ((hranking.mem u).mp (List.mem_of_mem_take hu))
      obtain ⟨v, rfl, rfl⟩ := Option.map_eq_some_iff.mp hrendered
      exact ⟨v, hcell, fun w hw => h.eq_iff hw hcell, count_rendered h hcell⟩

end

/-! ## Columns -/

/-- No two different times of a column are in one second. -/
def SecondsApart (cells : List (Option CellValue)) : Prop :=
  ∀ t u, some (.time t) ∈ cells → some (.time u) ∈ cells → t / 1000000000 = u / 1000000000 → t = u

theorem Cells.injOn_rendered_iff (c : Cells) :
    Set.InjOn CellValue.rendered {v | some v ∈ c.held} ↔ SecondsApart c.held := by
  constructor
  · intro h t u ht hu heq
    exact CellValue.time.inj (h ht hu ((Calendar.timeText_eq_iff t u).mpr heq))
  · intro h v hv w hw heq
    have hseconds := (Cells.alike hv hw).rendered_eq_iff.mp heq
    cases Cells.alike hv hw with
    | text a b => exact hseconds
    | truth a b => exact hseconds
    | day a b => exact hseconds
    | time t u => rw [h t u hv hw ((Calendar.timeText_eq_iff t u).mp heq)]

/-- Only a column of times holds one. -/
theorem Cells.dtype_of_time {c : Cells} {t : Nat} (h : some (.time t) ∈ c.held) : c.dtype = .time := by
  have hnot {α : Type} {cs : List (Option α)} {f : α → CellValue} (hf : ∀ a, f a ≠ .time t) :
      some (CellValue.time t) ∉ cs.map (·.map f) := by
    intro hmem
    obtain ⟨a, ha⟩ := mem_map_cells hmem
    exact hf a ha
  cases c with
  | time cs => rfl
  | str cs => exact absurd h (hnot nofun)
  | cat cs => exact absurd h (hnot nofun)
  | bool cs => exact absurd h (hnot nofun)
  | date cs => exact absurd h (hnot nofun)
  | null rows => cases List.eq_of_mem_replicate h
  | int type cs => cases h
  | float type cs => cases h
  | list cs => cases h

/-- The texts of cells cut to the second tell them. -/
theorem Cells.injOn_rendered_toSecond (c : Cells) :
    Set.InjOn CellValue.rendered {v | some v ∈ c.held.map (·.map CellValue.toSecond)} := by
  intro v hv w hw heq
  obtain ⟨cell, hcell, hv⟩ := List.mem_map.mp hv
  obtain ⟨v, rfl, rfl⟩ := Option.map_eq_some_iff.mp hv
  obtain ⟨cell, hcell', hw⟩ := List.mem_map.mp hw
  obtain ⟨w, rfl, rfl⟩ := Option.map_eq_some_iff.mp hw
  rw [CellValue.rendered_toSecond, CellValue.rendered_toSecond] at heq
  exact (Cells.alike hcell hcell').rendered_eq_iff.mp heq

theorem category_profile_at {d : Dataset} {s : Summary} (h : summarize d = .ok s) {i : Nat} {c : Column}
    (hc : d.columns[i]? = some c) (hkind : c.kind.isNumeric = false) :
    s.columns[i]? = some (.category (frequencies c.name (c.cells.held.map (·.map CellValue.rendered)))) := by
  obtain ⟨p, hp, hok⟩ := profile_at ((summarize_ok_iff d s).mp h).1 hc
  rcases Column.profile_cases hok with ⟨cells, hnumbers, -⟩ | ⟨cells, -, htexts, rfl⟩
  · rw [← Column.isSome_numbers, hnumbers] at hkind
    cases hkind
  · rw [hp, Cells.texts_eq htexts]

/-- **A profile counts the cells of its column to the second.** In a table that has a summary, each column
that is not numeric has a profile that tells how many different cells there are and which ones are frequent,
where times of one second are the same. It counts the cells themselves exactly if no two different times of
the column are in one second; so it does in every column of texts, truth values or dates. -/
theorem distinct_cells_iff {d : Dataset} {s : Summary} (h : summarize d = .ok s) {i : Nat} {c : Column}
    (hc : d.columns[i]? = some c) (hkind : c.kind.isNumeric = false) :
    ∃ p, s.columns[i]? = some (.category p) ∧ p.column = c.name ∧
      (CountsCells c.cells.held p ↔ SecondsApart c.cells.held) ∧
      (c.dtype ≠ .time → SecondsApart c.cells.held) ∧
      CountsCells (c.cells.held.map (·.map CellValue.toSecond)) p := by
  refine ⟨_, category_profile_at h hc hkind, rfl, ?_, fun htime => ?_, ?_⟩
  · rw [counts_iff_injOn, Cells.injOn_rendered_iff]
  · intro t u ht
    exact absurd (Cells.dtype_of_time ht) htime
  · rw [← CellValue.map_rendered_toSecond]
    exact (counts_iff_injOn c.name).mpr (Cells.injOn_rendered_toSecond c.cells)

theorem distinct_cells_iff_times :
    let cells : List (Option Nat) := [some 1500000000, none, some 2000000000, some 1500000000]
    let d : Dataset := ⟨"t.csv", none, [⟨"t", .time cells⟩], [4]⟩
    ∃ s p, summarize d = .ok s ∧ s.columns[0]? = some (.category p) ∧
      p.distinct = 2 ∧ p.mostFrequent = [⟨"00:00:01", 2⟩, ⟨"00:00:02", 1⟩] ∧
      CountsCells (Cells.time cells).held p := by
  intro cells d
  obtain ⟨s, hs⟩ : ∃ s, summarize d = .ok s := ⟨_, rfl⟩
  obtain ⟨p, hp, -, hcounts, -⟩ := distinct_cells_iff hs (i := 0) (c := ⟨"t", .time cells⟩) rfl rfl
  have hprofile : p = frequencies "t" (cells.map (·.map Calendar.timeText)) := by
    cases hs
    exact ColumnProfile.category.inj (Option.some.inj hp).symm
  have hapart : SecondsApart (Cells.time cells).held := by
    intro t u ht hu heq
    have hmem {t : Nat} (h : some (CellValue.time t) ∈ (Cells.time cells).held) :
        t = 1500000000 ∨ t = 2000000000 ∨ t = 1500000000 := by simpa [Cells.held, cells] using h
    have ht' := hmem ht
    have hu' := hmem hu
    omega
  have hranking : Ranking (cells.map (·.map Calendar.timeText)) ["00:00:01", "00:00:02"] :=
    ⟨fun v => by
      have htexts : cells.map (·.map Calendar.timeText) =
          [some "00:00:01", none, some "00:00:02", some "00:00:01"] := by decide
      rw [htexts]
      simp
      tauto, by decide⟩
  refine ⟨s, p, hs, hp, ?_, ?_, hcounts.mpr hapart⟩
  · rw [hprofile]
    decide
  · rw [hprofile, mostFrequent_eq hranking]
    decide

/-- A column of the times `00:00:00.000000000` and `00:00:00.000000001`: one value is counted, twice. -/
theorem times_counted_as_one :
    let cells : List (Option Nat) := [some 0, some 1]
    let d : Dataset := ⟨"t.csv", none, [⟨"t", .time cells⟩], [2]⟩
    ∃ s p, summarize d = .ok s ∧ s.columns[0]? = some (.category p) ∧ p.distinct = 1 ∧
      p.mostFrequent = [⟨"00:00:00", 2⟩] ∧ ¬ CountsCells (Cells.time cells).held p := by
  intro cells d
  have hranking : Ranking (cells.map (·.map Calendar.timeText)) ["00:00:00"] :=
    ⟨fun v => by
      have htexts : cells.map (·.map Calendar.timeText) = [some "00:00:00", some "00:00:00"] := by decide
      rw [htexts]
      simp, by decide⟩
  have hlisted : (frequencies "t" (cells.map (·.map Calendar.timeText))).mostFrequent =
      [⟨"00:00:00", 2⟩] := by
    rw [mostFrequent_eq hranking]
    decide
  refine ⟨_, frequencies "t" (cells.map (·.map Calendar.timeText)), rfl, rfl, by decide, hlisted, ?_⟩
  intro h
  exact absurd h.distinct (by decide)

end TableProfile
