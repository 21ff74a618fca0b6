import Mathlib.Data.String.Basic
import TableProfile.Json.Value

/-!
# Fields of JSON objects

`Json.ofFields` puts fields into an object one after another. The fields stay in the order of their
keys (`ordered_putField`), and while they do, leaving out the fields of some keys commutes with putting
a field in (`filter_putField`). So an object without some keys is the object of the other fields.

* `ofFields_of_ordered`: fields in order are an object as they are.
* `without_ofFields`: deleting keys from an object.
* `mapField_ofFields`: changing the value of one key.
* `get?_ofFields`: looking a key up.
-/
namespace TableProfile.Json

/-- Fields whose keys are in order, each once. -/
def Ordered (fields : List (String × Json)) : Prop := fields.Pairwise fun f g => f.1 < g.1

/-- An object without the fields of the given keys; any other value as it is. -/
def without (keys : List String) : Json → Json
  | .obj fields => .obj (fields.filter fun f => !keys.contains f.1)
  | v => v

/-- An object with the value of one key changed; any other value as it is. -/
def mapField (key : String) (change : Json → Json) : Json → Json
  | .obj fields => .obj (fields.map fun f => (f.1, if f.1 = key then change f.2 else f.2))
  | v => v

/-- An array with every item changed; any other value as it is. -/
def mapItems (change : Json → Json) : Json → Json
  | .arr items => .arr (items.map change)
  | v => v

/-- The value of a key of an object; nothing if it has no such key or the value is no object. -/
def get? (key : String) : Json → Option Json
  | .obj fields => (fields.find? (·.1 == key)).map (·.2)
  | _ => none

/-! ## Putting a field in -/

theorem mem_putField {key : String} {value : Json} {fields : List (String × Json)}
    {f : String × Json} (h : f ∈ putField key value fields) : f = (key, value) ∨ f ∈ fields := by
  induction fields with
  | nil => simpa [putField] using h
  | cons g rest ih =>
    simp only [putField] at h
    split at h
    · exact List.mem_cons.mp h
    · split at h
      · rcases List.mem_cons.mp h with rfl | h
        · exact Or.inl rfl
        · exact Or.inr (List.mem_cons_of_mem _ h)
      · rcases List.mem_cons.mp h with rfl | h
        · exact Or.inr List.mem_cons_self
        · exact (ih h).imp_right (List.mem_cons_of_mem _)

theorem ordered_putField {fields : List (String × Json)} (h : Ordered fields) (key : String)
    (value : Json) : Ordered (putField key value fields) := by
  induction fields with
  | nil => exact List.pairwise_singleton _ _
  | cons g rest ih =>
    obtain ⟨hg, hrest⟩ := List.pairwise_cons.mp h
    simp only [putField]
    split
    · rename_i hlt
      refine List.pairwise_cons.mpr ⟨fun f hf => ?_, h⟩
      rcases List.mem_cons.mp hf with rfl | hf
      · exact hlt
      · exact String.lt_trans hlt (hg f hf)
    · split
      · rename_i heq
        subst heq
        exact List.pairwise_cons.mpr ⟨hg, hrest⟩
      · rename_i hlt hne
        refine List.pairwise_cons.mpr ⟨fun f hf => ?_, ih hrest⟩
        rcases mem_putField hf with rfl | hf
        · exact lt_of_le_of_ne (not_lt.mp hlt) (Ne.symm hne)
        · exact hg f hf

/-- A field in front of all others is put in front. -/
theorem putField_of_lt {key : String} {value : Json} {fields : List (String × Json)}
    (h : ∀ f ∈ fields, key < f.1) : putField key value fields = (key, value) :: fields := by
  cases fields with
  | nil => rfl
  | cons g rest => simp [putField, h g List.mem_cons_self]

/-- A field behind all others is put behind. -/
theorem putField_of_gt {key : String} {value : Json} {fields : List (String × Json)}
    (h : ∀ f ∈ fields, f.1 < key) : putField key value fields = fields ++ [(key, value)] := by
  induction fields with
  | nil => rfl
  | cons g rest ih =>
    have hlt : g.1 < key := h g List.mem_cons_self
    rw [putField, if_neg (lt_asymm hlt), if_neg hlt.ne', ih fun f hf => h f (List.mem_cons_of_mem _ hf)]
    rfl

/-- Without order this fails: a field left out may be the one that the new field stops at. -/
theorem filter_putField (p : String → Bool) (key : String) (value : Json)
    {fields : List (String × Json)} (h : Ordered fields) :
    (putField key value fields).filter (fun f => p f.1) =
      if p key then putField key value (fields.filter fun f => p f.1)
      else fields.filter fun f => p f.1 := by
  induction fields with
  | nil => by_cases hk : p key <;> simp [putField, hk]
  | cons g rest ih =>
    obtain ⟨hg, hrest⟩ := List.pairwise_cons.mp h
    simp only [putField]
    split
    · rename_i hlt
      by_cases hk : p key
      · have hall : ∀ f ∈ (g :: rest).filter (fun f => p f.1), key < f.1 := by
          intro f hf
          rcases List.mem_cons.mp (List.mem_filter.mp hf).1 with rfl | hf
          · exact hlt
          · exact String.lt_trans hlt (hg f hf)
        rw [List.filter_cons_of_pos (by exact hk), if_pos hk, putField_of_lt hall]
      · rw [List.filter_cons_of_neg (by exact hk), if_neg hk]
    · split
      · rename_i hlt heq
        subst heq
        by_cases hk : p g.1 <;> simp [hk, putField]
      · rename_i hlt hne
        by_cases hgp : p g.1
        · rw [List.filter_cons_of_pos (by exact hgp), ih hrest, List.filter_cons_of_pos (by exact hgp)]
          split
          · simp [putField, hlt, hne]
          · rfl
        · rw [List.filter_cons_of_neg (by exact hgp), ih hrest, List.filter_cons_of_neg (by exact hgp)]

/-! ## Objects of fields -/

theorem filter_foldl (p : String → Bool) (fields done : List (String × Json)) (h : Ordered done) :
    (fields.foldl (fun done (k, v) => putField k v done) done).filter (fun f => p f.1) =
      (fields.filter fun f => p f.1).foldl (fun done (k, v) => putField k v done)
        (done.filter fun f => p f.1) := by
  induction fields generalizing done with
  | nil => rfl
  | cons f rest ih =>
    rw [List.foldl_cons, ih _ (ordered_putField h f.1 f.2), filter_putField p f.1 f.2 h]
    by_cases hf : p f.1 <;> simp [hf]

theorem ordered_foldl {fields done : List (String × Json)} (h : Ordered done) :
    Ordered (fields.foldl (fun done (k, v) => putField k v done) done) := by
  induction fields generalizing done with
  | nil => exact h
  | cons f rest ih => exact ih (ordered_putField h f.1 f.2)

theorem mem_foldl {fields done : List (String × Json)} {f : String × Json}
    (h : f ∈ fields.foldl (fun done (k, v) => putField k v done) done) : f ∈ fields ∨ f ∈ done := by
  induction fields generalizing done with
  | nil => exact Or.inr h
  | cons g rest ih =>
    rcases ih h with h | h
    · exact Or.inl (List.mem_cons_of_mem _ h)
    · rcases mem_putField h with rfl | h
      · exact Or.inl List.mem_cons_self
      · exact Or.inr h

theorem foldl_of_ordered (fields done : List (String × Json)) (h : Ordered (done ++ fields)) :
    fields.foldl (fun done (k, v) => putField k v done) done = done ++ fields := by
  induction fields generalizing done with
  | nil => exact (List.append_nil done).symm
  | cons f rest ih =>
    have hbehind : ∀ g ∈ done, g.1 < f.1 := fun g hg =>
      (List.pairwise_append.mp h).2.2 g hg f List.mem_cons_self
    have hmore : Ordered (done ++ [f] ++ rest) := by rwa [List.append_assoc]
    calc rest.foldl (fun done (k, v) => putField k v done) (putField f.1 f.2 done)
      _ = rest.foldl (fun done (k, v) => putField k v done) (done ++ [f]) := by
          rw [putField_of_gt hbehind]
      _ = done ++ f :: rest := by rw [ih _ hmore, List.append_assoc, List.singleton_append]

/-- Fields in order are an object as they are. -/
theorem ofFields_of_ordered {fields : List (String × Json)} (h : Ordered fields) :
    ofFields fields = .obj fields := by
  rw [ofFields, foldl_of_ordered fields [] h]
  rfl

/-- An object without some keys is the object of the other fields. -/
theorem without_ofFields (keys : List String) (fields : List (String × Json)) :
    (ofFields fields).without keys = ofFields (fields.filter fun f => !keys.contains f.1) := by
  simp only [ofFields, without]
  rw [filter_foldl (fun k => !keys.contains k) fields [] List.Pairwise.nil]
  rfl

theorem map_putField (change : String → Json → Json) (key : String) (value : Json)
    (fields : List (String × Json)) :
    (putField key value fields).map (fun f => (f.1, change f.1 f.2)) =
      putField key (change key value) (fields.map fun f => (f.1, change f.1 f.2)) := by
  induction fields with
  | nil => rfl
  | cons g rest ih =>
    simp only [putField, List.map_cons]
    split
    · rfl
    · split
      · rfl
      · simp [ih]

theorem map_foldl (change : String → Json → Json) (fields done : List (String × Json)) :
    (fields.foldl (fun done (k, v) => putField k v done) done).map (fun f => (f.1, change f.1 f.2)) =
      (fields.map fun f => (f.1, change f.1 f.2)).foldl (fun done (k, v) => putField k v done)
        (done.map fun f => (f.1, change f.1 f.2)) := by
  induction fields generalizing done with
  | nil => rfl
  | cons f rest ih => rw [List.foldl_cons, ih, map_putField]; rfl

/-- Changing the value of a key of an object is changing it among the fields. -/
theorem mapField_ofFields (key : String) (change : Json → Json) (fields : List (String × Json)) :
    (ofFields fields).mapField key change =
      ofFields (fields.map fun f => (f.1, if f.1 = key then change f.2 else f.2)) := by
  simp only [ofFields, mapField]
  rw [map_foldl (fun k v => if k = key then change v else v) fields []]
  rfl

theorem find?_putField (k key : String) (value : Json) (fields : List (String × Json)) :
    (putField key value fields).find? (·.1 == k) =
      if key = k then some (key, value) else fields.find? (·.1 == k) := by
  induction fields with
  | nil => by_cases h : key = k <;> simp [putField, h]
  | cons g rest ih =>
    simp only [putField]
    split
    · by_cases h : key = k <;> simp [h]
    · split
      · rename_i heq
        by_cases h : key = k
        · simp [h]
        · simp [h, ← heq]
      · rename_i hne
        rw [List.find?_cons, ih, List.find?_cons]
        by_cases h : key = k
        · subst h
          have hg : (g.1 == key) = false := beq_eq_false_iff_ne.mpr (Ne.symm hne)
          simp [hg]
        · simp [h]

theorem find?_foldl (k : String) (fields done : List (String × Json)) :
    (fields.foldl (fun done (key, value) => putField key value done) done).find? (·.1 == k) =
      (fields.reverse.find? (·.1 == k)).or (done.find? (·.1 == k)) := by
  induction fields generalizing done with
  | nil => rfl
  | cons f rest ih =>
    rw [List.foldl_cons, ih, find?_putField, List.reverse_cons, List.find?_append, Option.or_assoc]
    by_cases h : f.1 = k
    · subst h
      simp
    · simp [h]

/-- A key of an object has the last of the values that it is given among the fields. -/
theorem get?_ofFields (key : String) (fields : List (String × Json)) :
    (ofFields fields).get? key = (fields.reverse.find? (·.1 == key)).map (·.2) := by
  simp only [ofFields, get?]
  rw [find?_foldl, List.find?_nil, Option.or_none]

end TableProfile.Json
