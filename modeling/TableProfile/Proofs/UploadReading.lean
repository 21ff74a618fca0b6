import TableProfile.Proofs.FormReading
import TableProfile.Proofs.TextPieces

/-!
# What is read from an upload

A well-formed upload is a list of parts. Whether it is too large is a matter of all of them; its files are
those of the parts that are files, in order; and of the parts that wish for insights the last one decides
(`foldl_add_wantsInsights`). A wish is granted by one of four words (`isYes_iff`).

* `read_ok_iff`: when an upload has a form, and which one (`ofParts`).
* `read_upload`: the form of an upload, however its contents are cut into chunks.
-/
namespace TableProfile

/-! ## Words that mean yes -/

/-- A text that is one of four words in any case of its letters, with white space around it. -/
def SaysYes (text : String) : Prop :=
  ∃ before word behind, text.toList = before ++ word ++ behind ∧
    (∀ c ∈ before ++ behind, Blank.isBlank c = true) ∧
    String.ofList (word.map Char.toLower) ∈ ["true", "on", "1", "yes"]

/-- The capital letters and the small ones are not white space. -/
theorem Blank.isBlank_toLower (c : Char) : isBlank c.toLower = isBlank c := by
  simp only [isBlank, toNat_toLower]
  split
  · rw [Bool.eq_iff_iff]
    simp only [Bool.or_eq_true, Bool.and_eq_true, decide_eq_true_eq, beq_iff_eq]
    omega
  · rfl

/-- The letters of the four words are not white space. -/
theorem isBlank_of_yes {word : List Char}
    (h : String.ofList (word.map Char.toLower) ∈ ["true", "on", "1", "yes"]) :
    ∀ c ∈ word, Blank.isBlank c = false := by
  have hwords : (["true", "on", "1", "yes"].all fun w => w.toList.all (!Blank.isBlank ·)) = true := by
    decide
  intro c hc
  have hword := List.all_eq_true.mp hwords _ h
  rw [String.toList_ofList] at hword
  have hlower : Blank.isBlank c.toLower = false := by
    simpa using List.all_eq_true.mp hword _ (List.mem_map_of_mem hc)
  rwa [Blank.isBlank_toLower] at hlower

namespace Form

theorem isYes_iff (text : String) : isYes text = true ↔ SaysYes text := by
  rw [isYes, List.contains_iff_mem]
  constructor
  · intro h
    obtain ⟨before, behind, htext, hblank⟩ := Blank.exists_trimChars text.toList
    exact ⟨before, _, behind, htext, hblank, h⟩
  · rintro ⟨before, word, behind, htext, hblank, h⟩
    have hword := isBlank_of_yes h
    rw [htext, Blank.trimChars_eq hblank (fun c hc => hword c (List.mem_of_mem_head? hc))
      fun c hc => hword c (List.mem_of_getLast? hc)]
    exact h

/-! ## The wish -/

theorem add_wantsInsights (f : Form) (p : Part) :
    (f.add p p.content).wantsInsights =
      if p.isWish then isYes (Utf8.decodeLossy p.content) else f.wantsInsights := by
  unfold add Part.isWish
  split
  · split <;> simp [*]
  · simp [*]
  · split <;> simp_all

/-- Of the parts that wish for insights the last one decides. -/
theorem foldl_add_wantsInsights (parts : List Part) (f : Form) :
    (parts.foldl (fun f p => f.add p p.content) f).wantsInsights =
      (parts.filter Part.isWish).getLast?.elim f.wantsInsights
        fun p => isYes (Utf8.decodeLossy p.content) := by
  induction parts generalizing f with
  | nil => rfl
  | cons p rest ih =>
    rw [List.foldl_cons, ih, add_wantsInsights]
    by_cases h : p.isWish = true
    · rw [if_pos h, List.filter_cons_of_pos h, List.getLast?_cons, Option.elim_some]
      cases (rest.filter Part.isWish).getLast? with
      | none => rw [Option.elim_none, Option.getD_none]
      | some q => rw [Option.elim_some, Option.getD_some]
    · rw [if_neg h, List.filter_cons_of_neg h]

/-- The form of parts: their files in order, and what the last of their wishes says. -/
def ofParts (parts : List Part) : Form where
  files := parts.filterMap Part.file?
  wantsInsights :=
    (parts.filter Part.isWish).getLast?.elim false fun p => isYes (Utf8.decodeLossy p.content)

theorem foldl_add_empty (parts : List Part) :
    parts.foldl (fun f p => f.add p p.content) empty = ofParts parts := by
  have hfiles : (parts.foldl (fun f p => f.add p p.content) empty).files =
      parts.filterMap Part.file? := by
    rw [foldl_add_files]
    rfl
  have hwish : (parts.foldl (fun f p => f.add p p.content) empty).wantsInsights =
      (parts.filter Part.isWish).getLast?.elim false fun p => isYes (Utf8.decodeLossy p.content) :=
    foldl_add_wantsInsights parts empty
  rw [ofParts, ← hfiles, ← hwish]

/-- An upload has a form if it is well-formed and not too large. -/
theorem read_ok_iff (limit : Nat) (u : Upload) (f : Form) :
    Form.read limit u = .ok f ↔ u.size ≤ limit ∧ u.fault = none ∧ f = ofParts u.parts := by
  rw [read_eq, foldl_add_empty, ← Nat.not_lt]
  by_cases hsize : limit < u.size
  · simp [hsize]
  · cases hfault : u.fault with
    | some cause => simp [hsize]
    | none => simp [hsize, eq_comm]

end Form

/-! ## Chunks -/

/-- A part with its content in one chunk. -/
def Part.whole (p : Part) : Part := { p with chunks := [p.content] }

theorem Part.content_whole (p : Part) : p.whole.content = p.content := List.append_nil _

theorem Part.totalSize_whole (parts : List Part) :
    totalSize (parts.map whole) = totalSize parts := by
  rw [totalSize, totalSize, List.map_map]
  exact congrArg total (List.map_congr_left fun p _ => congrArg List.length p.content_whole)

namespace Form

/-- How contents are cut into chunks does not matter. -/
theorem read_whole (limit : Nat) (u : Upload) :
    Form.read limit ⟨u.parts.map Part.whole, u.fault⟩ = Form.read limit u := by
  have hsize : Upload.size ⟨u.parts.map Part.whole, u.fault⟩ = u.size :=
    Part.totalSize_whole u.parts
  have hadd (f : Form) (p : Part) : f.add p.whole p.whole.content = f.add p p.content := by
    rw [Part.content_whole]
    rfl
  rw [read_eq, read_eq, hsize, List.foldl_map]
  simp only [hadd]

/-- **The form of an upload.** A well-formed upload is too large exactly if the contents of all its parts
together exceed the limit. Otherwise it has a form: the files are those of the parts in order, and
insights are wanted exactly if the last part that wishes for them says yes. Other chunks of the same
contents give the same. -/
theorem read_upload {limit : Nat} {u : Upload} (h : u.fault = none) :
    ((∃ e, Form.read limit u = .error e ∧ e.status = 413) ↔ limit < u.size) ∧
      (u.size ≤ limit → ∃ f, Form.read limit u = .ok f ∧
        f.files = u.parts.filterMap Part.file? ∧
        (f.wantsInsights = true ↔ ∃ p, (u.parts.filter Part.isWish).getLast? = some p ∧
          SaysYes (Utf8.decodeLossy p.content))) ∧
      ∀ v : Upload, v.fault = none → v.parts.map Part.whole = u.parts.map Part.whole →
        Form.read limit v = Form.read limit u := by
  refine ⟨?_, fun hsize => ?_, fun v hv hparts => ?_⟩
  · rw [read_eq, h]
    by_cases hsize : limit < u.size
    · rw [if_pos hsize]
      exact ⟨fun _ => hsize, fun _ => ⟨_, rfl, rfl⟩⟩
    · rw [if_neg hsize]
      refine ⟨?_, fun hlt => absurd hlt hsize⟩
      rintro ⟨e, he, -⟩
      cases he
  · refine ⟨ofParts u.parts, (read_ok_iff limit u _).mpr ⟨hsize, h, rfl⟩, rfl, ?_⟩
    rw [ofParts]
    cases (u.parts.filter Part.isWish).getLast? with
    | none => simp
    | some p => simp [isYes_iff]
  · rw [← read_whole limit v, ← read_whole limit u, hparts, hv, h]

/-- The parts hold ten bytes together. -/
theorem read_upload_ten :
    let parts : List Part :=
      [⟨some "note", none, [[120], [121]]⟩, ⟨some "files", some "t.csv", [[97], [10, 49], []]⟩,
        ⟨some "include_ai_insights", none, [[110, 111]]⟩,
        ⟨some "include_ai_insights", none, [[32], [79, 78]]⟩]
    (∃ e, Form.read 9 ⟨parts, none⟩ = .error e ∧ e.status = 413) ∧
      ∃ f, Form.read 10 ⟨parts, none⟩ = .ok f ∧ f.files = [⟨"t.csv", [97, 10, 49]⟩] ∧
        f.wantsInsights = true ∧ Form.read 10 ⟨parts.map Part.whole, none⟩ = .ok f := by
  intro parts
  obtain ⟨htooLarge, -, -⟩ := @read_upload 9 ⟨parts, none⟩ rfl
  obtain ⟨-, hform, hchunks⟩ := @read_upload 10 ⟨parts, none⟩ rfl
  obtain ⟨f, hread, hfiles, hwish⟩ := hform (by decide)
  refine ⟨htooLarge.mpr (by decide), f, hread, hfiles, hwish.mpr ⟨_, rfl, ?_⟩, ?_⟩
  · exact ⟨[' '], ['O', 'N'], [], by decide +kernel, List.forall_mem_singleton.mpr rfl, by decide⟩
  · rw [hchunks ⟨parts.map Part.whole, none⟩ rfl rfl, hread]

end Form

end TableProfile
