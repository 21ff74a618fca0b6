import Mathlib.Data.List.Flatten
import Mathlib.Data.List.Nodup
import Mathlib.Data.List.ProdSigma
import TableProfile.Proofs.ReportPrompt

/-!
# Correlations in report and prompt

The prompt has one entry for each pair of columns that has a correlation. The report goes through the
columns and lists for each the other ones that it is correlated with, and looks every correlation up by two
names. Where names are distinct a look-up by the names of a pair, in either order, finds this pair
(`get?_left_right`), so the report lists each pair twice, once under either column (`mem_listed_iff`,
`listed_twice`). Columns and partners come in column order, each pair of names once (`listed_sublist`).
The lines of the report show a column with the listed entries of this column below it (`flatMap_lines`).

* `correlation_listing`: the report lists the pairs of the prompt in both directions and no others.
-/
namespace TableProfile

/-! ## Entries -/

namespace Prompt.CorrelationEntry

/-- The names of the two columns. -/
def names (e : CorrelationEntry) : String × String := (e.left, e.right)

/-- The same correlation, seen from the other column. -/
def swap (e : CorrelationEntry) : CorrelationEntry := ⟨e.right, e.left, e.coefficient⟩

/-- Whether two entries are of the same two columns, in either order. -/
def alike (e x : CorrelationEntry) : Bool := x.names == e.names || x.names == e.swap.names

/-- Whether an entry is of a column. -/
def involves (e : CorrelationEntry) (column : String) : Bool := e.left == column || e.right == column

theorem alike_iff (e x : CorrelationEntry) :
    e.alike x = true ↔ x.names = e.names ∨ x.names = e.swap.names := by
  rw [alike, Bool.or_eq_true, beq_iff_eq, beq_iff_eq]

end Prompt.CorrelationEntry

namespace Report

/-- What the report lists: under the heading `left` the partner `right`. -/
def listed (t : CorrelationTable) : List Prompt.CorrelationEntry :=
  (correlationBlocks t).flatMap fun b => b.partners.map fun partner => ⟨b.column, partner.1, partner.2⟩

end Report

namespace CorrelationTable

/-! ## Looking a pair up -/

variable {columns : List NumericColumn}

/-- A pair is found by its two names. -/
theorem get?_left_right (hnames : (columns.map (·.name)).Nodup) {p : CorrelationPair}
    (hp : p ∈ pairsOf columns) :
    (ofColumns columns).get? p.left p.right = some p.coefficient ∧
      (ofColumns columns).get? p.right p.left = some p.coefficient := by
  obtain ⟨c, hc, d, hd, hleft, hright, hr⟩ := pair_of_mem hp
  have hne : c ≠ d := by
    rintro rfl
    exact left_ne_right hnames hp (hleft.trans hright.symm)
  rw [hleft, hright, get?_ofColumns hnames hc hd hne, get?_ofColumns hnames hd hc hne.symm,
    pearson_comm d.cells, hr]
  exact ⟨rfl, rfl⟩

/-- What two names find is the coefficient of a pair of these names. -/
theorem exists_of_get? {t : CorrelationTable} {a b : String} {r : Float} (h : t.get? a b = some r) :
    ∃ p ∈ t.pairs, joins a b p = true ∧ p.coefficient = r := by
  rw [get?_eq, Option.map_eq_some_iff] at h
  obtain ⟨p, hfind, hr⟩ := h
  exact ⟨p, List.mem_of_find?_eq_some hfind, List.find?_some hfind, hr⟩

/-- The names of a pair are names of columns. -/
theorem names_mem {p : CorrelationPair} (hp : p ∈ pairsOf columns) :
    p.left ∈ columns.map (·.name) ∧ p.right ∈ columns.map (·.name) := by
  obtain ⟨c, hc, d, hd, hleft, hright, -⟩ := pair_of_mem hp
  rw [hleft, hright]
  exact ⟨List.mem_map_of_mem hc, List.mem_map_of_mem hd⟩

end CorrelationTable

/-! ## What the report lists -/

namespace Report

open CorrelationTable

theorem mem_partners_iff {t : CorrelationTable} {column : String} {partner : String × String} :
    partner ∈ partners t column ↔ partner.1 ∈ t.columns ∧ partner.1 ≠ column ∧
      ∃ r, t.get? column partner.1 = some r ∧ figure r = partner.2 := by
  obtain ⟨other, text⟩ := partner
  simp only [partners, List.mem_filterMap, List.mem_filter, Option.map_eq_some_iff, bne_iff_ne,
    Prod.mk.injEq]
  constructor
  · rintro ⟨_, ⟨hmem, hne⟩, r, hr, rfl, rfl⟩
    exact ⟨hmem, hne, r, hr, rfl⟩
  · rintro ⟨hmem, hne, r, hr, rfl⟩
    exact ⟨other, ⟨hmem, hne⟩, r, hr, rfl, rfl⟩

theorem mem_correlationBlocks_iff {t : CorrelationTable} {b : CorrelationBlock} :
    b ∈ correlationBlocks t ↔
      b.column ∈ t.columns ∧ b.partners = partners t b.column ∧ b.partners ≠ [] := by
  obtain ⟨column, listed⟩ := b
  simp only [correlationBlocks, List.mem_filter, List.mem_map, CorrelationBlock.mk.injEq,
    Bool.not_eq_true', List.isEmpty_eq_false_iff]
  constructor
  · rintro ⟨⟨c, hc, rfl, rfl⟩, hne⟩
    exact ⟨hc, rfl, hne⟩
  · rintro ⟨hc, rfl, hne⟩
    exact ⟨⟨column, hc, rfl, rfl⟩, hne⟩

theorem mem_listed {t : CorrelationTable} {x : Prompt.CorrelationEntry} :
    x ∈ listed t ↔ x.left ∈ t.columns ∧ (x.right, x.coefficient) ∈ partners t x.left := by
  rw [listed, List.mem_flatMap]
  constructor
  · rintro ⟨b, hb, hx⟩
    obtain ⟨hcolumn, hpartners, -⟩ := mem_correlationBlocks_iff.mp hb
    obtain ⟨partner, hpartner, rfl⟩ := List.mem_map.mp hx
    exact ⟨hcolumn, hpartners ▸ hpartner⟩
  · rintro ⟨hcolumn, hpartner⟩
    refine ⟨⟨x.left, partners t x.left⟩, ?_, List.mem_map.mpr ⟨_, hpartner, rfl⟩⟩
    exact mem_correlationBlocks_iff.mpr ⟨hcolumn, rfl, List.ne_nil_of_mem hpartner⟩

/-- The partners of a column are the other columns that it has a correlation with, in column order. -/
theorem partners_names (t : CorrelationTable) (column : String) : (partners t column).map (·.1) =
    (t.columns.filter (· != column)).filter fun other => (t.get? column other).isSome := by
  have hguard : (fun other => ((t.get? column other).map fun r => (other, figure r)).map (·.1)) =
      Option.guard fun other => (t.get? column other).isSome := by
    funext other
    cases h : t.get? column other <;> simp [Option.guard, h]
  rw [partners, List.map_filterMap, hguard, List.filterMap_eq_filter]

/-- Columns and their partners come in column order. -/
theorem listed_sublist (t : CorrelationTable) :
    ((listed t).map (·.names)).Sublist (t.columns ×ˢ t.columns) := by
  have hpartners (c : String) : ((partners t c).map fun partner => (c, partner.1)).Sublist
      (t.columns.map fun other => (c, other)) := by
    have hnames : ((partners t c).map (·.1)).Sublist t.columns := by
      rw [partners_names]
      exact List.filter_sublist.trans List.filter_sublist
    have hmap := hnames.map fun other => (c, other)
    rwa [List.map_map] at hmap
  have hall : (listed t).map (·.names) = (correlationBlocks t).flatMap fun b =>
      b.partners.map fun partner => (b.column, partner.1) := by
    rw [listed, List.map_flatMap]
    congr 1
    funext b
    exact List.map_map
  rw [hall]
  refine (List.filter_sublist.flatMap _).trans ?_
  rw [List.flatMap_map]
  exact List.Sublist.flatMap_right _ fun c _ => hpartners c

section

variable {columns : List NumericColumn}

/-- Under distinct names the report lists the entries of the prompt in both directions, and no others. -/
theorem mem_listed_iff (hnames : (columns.map (·.name)).Nodup) {x : Prompt.CorrelationEntry} :
    x ∈ listed (ofColumns columns) ↔
      x ∈ (ofColumns columns).pairs.map Prompt.correlationEntry ∨
        x.swap ∈ (ofColumns columns).pairs.map Prompt.correlationEntry := by
  obtain ⟨column, other, text⟩ := x
  rw [mem_listed, mem_partners_iff, List.mem_map, List.mem_map]
  constructor
  · rintro ⟨-, -, -, r, hr, htext⟩
    obtain ⟨p, hp, hjoins, rfl⟩ := exists_of_get? hr
    obtain rfl : figure p.coefficient = text := htext
    rcases (joins_iff _ _ p).mp hjoins with ⟨hleft, hright⟩ | ⟨hleft, hright⟩
    · obtain rfl : p.left = column := hleft
      obtain rfl : p.right = other := hright
      exact Or.inl ⟨p, hp, rfl⟩
    · obtain rfl : p.left = other := hleft
      obtain rfl : p.right = column := hright
      exact Or.inr ⟨p, hp, rfl⟩
  · rintro (⟨p, hp, hentry⟩ | ⟨p, hp, hentry⟩)
    · cases hentry
      obtain ⟨hleft, hright⟩ := names_mem hp
      exact ⟨hleft, hright, (left_ne_right hnames hp).symm, _, (get?_left_right hnames hp).1, rfl⟩
    · cases hentry
      obtain ⟨hleft, hright⟩ := names_mem hp
      exact ⟨hright, hleft, left_ne_right hnames hp, _, (get?_left_right hnames hp).2, rfl⟩

/-- Under distinct names no two entries of the report have the same heading and partner. -/
theorem listed_names_nodup (hnames : (columns.map (·.name)).Nodup) :
    ((listed (ofColumns columns)).map (·.names)).Nodup :=
  (hnames.product hnames).sublist (listed_sublist _)

/-- The report lists an entry of the prompt twice, once in either direction. -/
theorem listed_twice (hnames : (columns.map (·.name)).Nodup) {e : Prompt.CorrelationEntry}
    (he : e ∈ (ofColumns columns).pairs.map Prompt.correlationEntry) :
    ((listed (ofColumns columns)).filter e.alike).Perm [e, e.swap] := by
  have hkeys := listed_names_nodup hnames
  have hmem : e ∈ listed (ofColumns columns) := (mem_listed_iff hnames).mpr (Or.inl he)
  have hswap : e.swap ∈ listed (ofColumns columns) := (mem_listed_iff hnames).mpr (Or.inr he)
  have hne : e ≠ e.swap := by
    obtain ⟨p, hp, rfl⟩ := List.mem_map.mp he
    exact fun heq => left_ne_right hnames hp (congrArg Prompt.CorrelationEntry.left heq)
  refine (List.perm_ext_iff_of_nodup (hkeys.of_map.filter _) ?_).mpr fun x => ?_
  · exact List.nodup_cons.mpr ⟨fun h => hne (List.mem_singleton.mp h), List.nodup_singleton _⟩
  · rw [List.mem_filter, Prompt.CorrelationEntry.alike_iff, List.mem_pair]
    constructor
    · rintro ⟨hx, hsame | hsame⟩
      · exact Or.inl (List.inj_on_of_nodup_map hkeys hx hmem hsame)
      · exact Or.inr (List.inj_on_of_nodup_map hkeys hx hswap hsame)
    · rintro (rfl | rfl)
      · exact ⟨hmem, Or.inl rfl⟩
      · exact ⟨hswap, Or.inr rfl⟩

/-- A column has a partner exactly if an entry of the prompt is of it. -/
theorem partners_ne_nil_iff (hnames : (columns.map (·.name)).Nodup) {c : String}
    (hc : c ∈ columns.map (·.name)) : partners (ofColumns columns) c ≠ [] ↔
      ∃ e ∈ (ofColumns columns).pairs.map Prompt.correlationEntry, e.involves c = true := by
  simp only [Prompt.CorrelationEntry.involves, Bool.or_eq_true, beq_iff_eq]
  constructor
  · intro hne
    obtain ⟨partner, hpartner⟩ := List.exists_mem_of_ne_nil _ hne
    have hlisted : ⟨c, partner.1, partner.2⟩ ∈ listed (ofColumns columns) :=
      mem_listed.mpr ⟨hc, hpartner⟩
    rcases (mem_listed_iff hnames).mp hlisted with hmem | hmem
    · exact ⟨_, hmem, Or.inl rfl⟩
    · exact ⟨_, hmem, Or.inr rfl⟩
  · rintro ⟨e, he, rfl | rfl⟩
    · exact List.ne_nil_of_mem (mem_listed.mp ((mem_listed_iff hnames).mpr (Or.inl he))).2
    · exact List.ne_nil_of_mem
        (mem_listed.mp ((mem_listed_iff (x := e.swap) hnames).mpr (Or.inr he))).2

/-- The headings of the report are the columns that an entry of the prompt is of, in column order. -/
theorem headings_eq (hnames : (columns.map (·.name)).Nodup) :
    (correlationBlocks (ofColumns columns)).map (·.column) =
      (columns.map (·.name)).filter fun c =>
        ((ofColumns columns).pairs.map Prompt.correlationEntry).any fun e => e.involves c := by
  rw [correlationBlocks, List.filter_map, List.map_map]
  refine Eq.trans (List.map_id _) (List.filter_congr fun c hc => Bool.eq_iff_iff.mpr ?_)
  rw [List.any_eq_true, ← partners_ne_nil_iff hnames hc, ← List.isEmpty_eq_false_iff,
    ← Bool.not_eq_true']
  rfl

end

end Report

/-! ## Lines -/

/-- What stands above the correlations in the report. -/
def Report.correlationHead (s : Summary) : List String :=
  if s.numericColumns.length ≤ 1 then [] else ["CORRELATIONS (Numerical Columns)", rule '-']

/-- What stands below the correlations in the report. -/
def Report.correlationTail (s : Summary) : List String :=
  if s.numericColumns.length ≤ 1 then []
  else (if s.correlations.pairs.isEmpty then [noCorrelations] else []) ++ [""]

/-- What stands above the correlations in the prompt. -/
def Prompt.correlationHead (s : Summary) : List String :=
  if s.correlations.pairs.isEmpty then [] else ["", "CORRELATIONS:"]

namespace Report

variable {s : Summary}

theorem correlationBlocks_eq_nil {t : CorrelationTable} (h : t.pairs = []) :
    correlationBlocks t = [] := by
  refine List.eq_nil_iff_forall_not_mem.mpr fun b hb => ?_
  obtain ⟨-, hpartners, hne⟩ := mem_correlationBlocks_iff.mp hb
  obtain ⟨partner, hpartner⟩ := List.exists_mem_of_ne_nil _ hne
  rw [hpartners] at hpartner
  obtain ⟨-, -, r, hr, -⟩ := mem_partners_iff.mp hpartner
  obtain ⟨p, hp, -⟩ := CorrelationTable.exists_of_get? hr
  rw [h] at hp
  cases hp

/-- A single numeric column has no correlations. -/
theorem pairs_eq_nil {d : Dataset} (hs : summarize d = .ok s) (h : s.numericColumns.length ≤ 1) :
    s.correlations.pairs = [] := by
  obtain ⟨-, -, hnames, hcorrelations⟩ := (summarize_ok_iff d s).mp hs
  rw [hnames, List.length_map] at h
  rw [hcorrelations]
  cases hcolumns : d.numericColumns with
  | nil => rfl
  | cons c later =>
    rw [hcolumns, List.length_cons] at h
    obtain rfl : later = [] := List.length_eq_zero_iff.mp (by omega)
    rfl

theorem correlationLines_eq {d : Dataset} (hs : summarize d = .ok s) :
    correlationLines s = correlationHead s
      ++ (correlationBlocks s.correlations).flatMap CorrelationBlock.lines ++ correlationTail s := by
  rw [correlationLines, correlationHead, correlationTail]
  split
  · rename_i hone
    rw [correlationBlocks_eq_nil (pairs_eq_nil hs hone)]
    rfl
  · rw [List.append_assoc]

/-- The entries under the heading of a block. -/
def CorrelationBlock.entries (b : CorrelationBlock) : List Prompt.CorrelationEntry :=
  b.partners.map fun partner => ⟨b.column, partner.1, partner.2⟩

theorem CorrelationBlock.left_of_mem_entries {b : CorrelationBlock} {x : Prompt.CorrelationEntry}
    (hx : x ∈ b.entries) : x.left = b.column := by
  obtain ⟨partner, -, rfl⟩ := List.mem_map.mp hx
  rfl

/-- Under distinct headings the entries of a block are found among all by their first name. -/
theorem filter_left_entries {blocks : List CorrelationBlock} (hnames : (blocks.map (·.column)).Nodup)
    {b : CorrelationBlock} (hb : b ∈ blocks) :
    (blocks.flatMap CorrelationBlock.entries).filter (·.left == b.column) = b.entries := by
  induction blocks with
  | nil => cases hb
  | cons c later ih =>
    obtain ⟨hfresh, hlater⟩ := List.nodup_cons.mp hnames
    have hne (e : CorrelationBlock) (he : e ∈ later) : e.column ≠ c.column := fun heq =>
      hfresh (List.mem_map.mpr ⟨e, he, heq⟩)
    rw [List.flatMap_cons, List.filter_append]
    rcases List.mem_cons.mp hb with rfl | hb
    · have hown : b.entries.filter (·.left == b.column) = b.entries :=
        List.filter_eq_self.mpr fun x hx => beq_iff_eq.mpr (CorrelationBlock.left_of_mem_entries hx)
      have hothers : (later.flatMap CorrelationBlock.entries).filter (·.left == b.column) = [] := by
        refine List.filter_eq_nil_iff.mpr fun x hx heq => ?_
        obtain ⟨e, he, hx⟩ := List.mem_flatMap.mp hx
        exact hne e he ((CorrelationBlock.left_of_mem_entries hx).symm.trans (beq_iff_eq.mp heq))
      rw [hown, hothers, List.append_nil]
    · have hother : c.entries.filter (·.left == b.column) = [] := by
        refine List.filter_eq_nil_iff.mpr fun x hx heq => ?_
        exact hne b hb ((beq_iff_eq.mp heq).symm.trans (CorrelationBlock.left_of_mem_entries hx))
      rw [hother, List.nil_append, ih hlater hb]

/-- What the blocks show: under each heading the listed entries of this column, with partner and
coefficient. -/
theorem flatMap_lines {t : CorrelationTable} (hnames : t.columns.Nodup) :
    (correlationBlocks t).flatMap CorrelationBlock.lines =
      ((correlationBlocks t).map (·.column)).flatMap fun c => ("  " ++ c ++ ":") ::
        ((listed t).filter (·.left == c)).map fun x => "    ↔ " ++ x.right ++ ": " ++ x.coefficient := by
  have hheadings : ((correlationBlocks t).map (·.column)).Sublist t.columns := by
    rw [correlationBlocks, List.filter_map, List.map_map]
    exact (List.map_id _).symm ▸ List.filter_sublist
  rw [List.flatMap_map]
  refine List.flatMap_congr fun b hb => ?_
  have hentries : (listed t).filter (·.left == b.column) = b.entries :=
    filter_left_entries (hnames.sublist hheadings) hb
  rw [hentries, CorrelationBlock.entries, List.map_map]
  rfl

/-- The line for no correlations is not a line of a column or a partner. -/
theorem noCorrelations_not_mem_lines (b : CorrelationBlock) : noCorrelations ∉ b.lines := by
  intro h
  rcases List.mem_cons.mp h with heading | h
  · have hlast := congrArg (fun line => line.toList.getLast?) heading
    simp only [String.toList_append] at hlast
    rw [List.getLast?_append_of_ne_nil _ (by decide)] at hlast
    revert hlast
    decide
  · obtain ⟨⟨other, r⟩, -, hline⟩ := List.mem_map.mp h
    have hthird := congrArg (fun line => line.toList[2]?) hline
    simp [noCorrelations] at hthird

/-- The report has the line for no correlations exactly if there are none. -/
theorem noCorrelations_mem_iff (h : 2 ≤ s.numericColumns.length) :
    noCorrelations ∈ correlationLines s ↔ s.correlations.pairs = [] := by
  have hmany : ¬ s.numericColumns.length ≤ 1 := by omega
  have hblocks : noCorrelations ∉ (correlationBlocks s.correlations).flatMap CorrelationBlock.lines := by
    intro hmem
    obtain ⟨b, -, hb⟩ := List.mem_flatMap.mp hmem
    exact noCorrelations_not_mem_lines b hb
  have hhead : noCorrelations ∉ ["CORRELATIONS (Numerical Columns)", rule '-'] := by decide
  rw [correlationLines, if_neg hmany, List.mem_append, List.mem_append, List.mem_append,
    or_iff_left (by decide), or_iff_right (not_or.mpr ⟨hhead, hblocks⟩)]
  cases s.correlations.pairs with
  | nil => exact iff_of_true List.mem_cons_self rfl
  | cons p rest => exact iff_of_false List.not_mem_nil (List.cons_ne_nil p rest)

end Report

theorem Prompt.correlationLines_eq (s : Summary) : Prompt.correlationLines s =
    Prompt.correlationHead s
      ++ (s.correlations.pairs.map correlationEntry).map fun e =>
        "  - " ++ e.left ++ " <-> " ++ e.right ++ ": " ++ e.coefficient := by
  rw [correlationLines, correlationHead]
  cases s.correlations.pairs with
  | nil => rfl
  | cons p rest => rfl

theorem Prompt.correlationLines_eq_nil_iff (s : Summary) :
    Prompt.correlationLines s = [] ↔ s.correlations.pairs = [] := by
  rw [correlationLines]
  cases s.correlations.pairs with
  | nil => exact iff_of_true rfl rfl
  | cons p rest => exact iff_of_false (List.cons_ne_nil _ _) (List.cons_ne_nil p rest)

/-- **The report lists the correlations of the prompt in both directions.** Under a column it lists the
others that an entry of the prompt joins it with, with the same coefficient and in column order, and so
each entry twice. A column is a heading exactly if an entry is of it, and no column is listed under itself.
With two numeric columns or more the report says that there are no correlations exactly if the prompt has
no part for them. -/
theorem correlation_listing {d : Dataset} {a : Analysis} (h : analyzeDataset d = .ok a)
    (hnames : d.columnNames.Nodup) :
    let s := a.summary
    let names := (d.columns.filter (·.kind.isNumeric)).map Column.name
    let listed := Report.listed s.correlations
    let entries := s.correlations.pairs.map Prompt.correlationEntry
    let headings := names.filter fun c => entries.any fun e => e.involves c
    Report.correlationLines s <:+: Report.summaryLines a ∧
      Prompt.correlationLines s <:+: Prompt.userLines a ∧
      Report.correlationLines s = Report.correlationHead s
        ++ (headings.flatMap fun c => ("  " ++ c ++ ":") ::
          (listed.filter (·.left == c)).map fun x => "    ↔ " ++ x.right ++ ": " ++ x.coefficient)
        ++ Report.correlationTail s ∧
      Prompt.correlationLines s = Prompt.correlationHead s
        ++ entries.map (fun e => "  - " ++ e.left ++ " <-> " ++ e.right ++ ": " ++ e.coefficient) ∧
      (∀ x, x ∈ listed ↔ x ∈ entries ∨ x.swap ∈ entries) ∧
      (listed.map (·.names)).Sublist (names ×ˢ names) ∧
      (∀ e ∈ entries, (listed.filter e.alike).Perm [e, e.swap]) ∧
      (Report.correlationBlocks s.correlations).map (·.column) = headings ∧
      (∀ x ∈ listed, x.left ≠ x.right) ∧
      (2 ≤ s.numericColumns.length →
        (Report.noCorrelations ∈ Report.correlationLines s ↔ Prompt.correlationLines s = [])) := by
  intro s names listed entries headings
  have hs : summarize d = .ok s := summarize_of_analyze h
  obtain ⟨-, -, -, hcorrelations⟩ := (summarize_ok_iff d s).mp hs
  have hnodup : (d.numericColumns.map (·.name)).Nodup := numeric_names_nodup hnames
  have hcolumns : d.numericColumns.map (·.name) = names := numeric_names d.columns
  have hheadings : (Report.correlationBlocks s.correlations).map (·.column) = headings := by
    simp only [headings, entries, ← hcolumns, hcorrelations]
    exact Report.headings_eq hnodup
  have hblocks := Report.flatMap_lines (t := s.correlations) (by rw [hcorrelations]; exact hnodup)
  refine ⟨?_, ?_, ?_, Prompt.correlationLines_eq s, fun x => ?_, ?_, fun e he => ?_, hheadings,
    fun x hx => ?_, fun hmany => ?_⟩
  · rw [Report.summaryLines_eq h, List.append_assoc, List.append_assoc]
    exact List.infix_append _ _ _
  · rw [Prompt.userLines_eq h, List.append_assoc, List.append_assoc]
    exact List.infix_append _ _ _
  · rw [Report.correlationLines_eq hs, hblocks, hheadings]
  · simp only [listed, entries, hcorrelations]
    exact Report.mem_listed_iff hnodup
  · rw [← hcolumns]
    simp only [listed, hcorrelations]
    exact Report.listed_sublist _
  · simp only [listed, entries, hcorrelations] at he ⊢
    exact Report.listed_twice hnodup he
  · exact (Report.mem_partners_iff.mp (Report.mem_listed.mp hx).2).2.1.symm
  · rw [Report.noCorrelations_mem_iff hmany, Prompt.correlationLines_eq_nil_iff]

theorem correlation_listing_constant :
    let d : Dataset := ⟨"t.csv", none, [⟨"x", .int .i64 [some 1, none, some 3]⟩,
      ⟨"c", .int .i64 [some 1, some 1, some 1]⟩, ⟨"y", .int .i64 [some 4, some 9, some 2]⟩], [3]⟩
    let e : Prompt.CorrelationEntry := ⟨"x", "y", "-1.0000"⟩
    ∃ a, analyzeDataset d = .ok a ∧
      ((Report.listed a.summary.correlations).filter e.alike).Perm [e, e.swap] ∧
      (Report.correlationBlocks a.summary.correlations).map (·.column) = ["x", "y"] ∧
      Report.noCorrelations ∉ Report.correlationLines a.summary := by
  intro d e
  obtain ⟨a, ha⟩ : ∃ a, analyzeDataset d = .ok a := ⟨_, rfl⟩
  have hpairs : a.summary.correlations.pairs.map Prompt.correlationEntry = [e] := by
    have hall : (CorrelationTable.ofColumns d.numericColumns).pairs.map Prompt.correlationEntry = [e] := by
      decide +kernel
    rw [((summarize_ok_iff d a.summary).mp (summarize_of_analyze ha)).2.2.2, hall]
  obtain ⟨-, -, -, hprompt, -, -, htwice, hheadings, -, hnone⟩ := correlation_listing ha (by decide)
  rw [hpairs] at hprompt htwice hheadings
  refine ⟨a, ha, htwice e List.mem_cons_self, hheadings, fun hmem => ?_⟩
  have hcolumns : a.summary.numericColumns = ["x", "c", "y"] :=
    ((summarize_ok_iff d a.summary).mp (summarize_of_analyze ha)).2.2.1
  rw [(hnone (by rw [hcolumns]; decide)).mp hmem] at hprompt
  exact absurd (List.append_eq_nil_iff.mp hprompt.symm).2 (List.cons_ne_nil _ _)

end TableProfile
