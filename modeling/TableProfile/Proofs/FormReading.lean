import TableProfile.Server.Form
import TableProfile.Table.Column

/-!
# What reading a form comes to

`Form.read` takes parts and their chunks one after another and stops as soon as it has read too much.
Seen from outside only the contents matter: the reading stops exactly if all of them together exceed the
limit (`readParts_eq`), and otherwise every part is added to the form with the whole of its content. The
files of the form are then those of the parts in order (`foldl_add_files`).
-/
namespace TableProfile

/-- The number of bytes in parts. -/
def Part.totalSize (parts : List Part) : Nat := total (parts.map fun p => p.content.length)

theorem Part.totalSize_cons (p : Part) (parts : List Part) :
    totalSize (p :: parts) = p.chunks.flatten.length + totalSize parts := rfl

/-- The number of bytes in the parts of an upload. -/
def Upload.size (u : Upload) : Nat := Part.totalSize u.parts

/-- The file that a part is, if it is one. -/
def Part.file? (p : Part) : Option UploadedFile :=
  match p.name, p.fileName with
  | some "files", some fileName => if fileName == "" then none else some ⟨fileName, p.content⟩
  | _, _ => none

/-- A part that says whether insights are wanted. -/
def Part.isWish (p : Part) : Bool := p.name == some "include_ai_insights"

namespace Form

theorem readChunks_eq (limit : Nat) (chunks : List Bytes) (total : Nat) (done : Bytes)
    (h : total ≤ limit) :
    readChunks limit total done chunks =
      if limit < total + chunks.flatten.length then none
      else some (total + chunks.flatten.length, done ++ chunks.flatten) := by
  induction chunks generalizing total done with
  | nil => simp [readChunks]; omega
  | cons chunk rest ih =>
    simp only [readChunks, List.flatten_cons, List.length_append]
    split
    · rw [if_pos (by omega)]
    · rw [ih _ _ (by omega)]
      simp only [Nat.add_assoc, List.append_assoc]

/-- Reading parts fails exactly if their contents exceed what is left of the limit. -/
theorem readParts_eq (limit : Nat) (parts : List Part) (before : Nat) (f : Form)
    (h : before ≤ limit) :
    readParts limit before f parts =
      if limit < before + Part.totalSize parts then .error (.tooLarge limit)
      else .ok (parts.foldl (fun f p => f.add p p.content) f) := by
  induction parts generalizing before f with
  | nil => rw [if_neg (by simpa [Part.totalSize, total] using h)]; rfl
  | cons p rest ih =>
    rw [Part.totalSize_cons, ← Nat.add_assoc, readParts, readChunks_eq limit p.chunks before [] h]
    by_cases hp : limit < before + p.chunks.flatten.length
    · rw [if_pos hp, if_pos (by omega)]
    · rw [if_neg hp]
      exact ih _ _ (by omega)

theorem add_files (f : Form) (p : Part) :
    (f.add p p.content).files = f.files ++ p.file?.toList := by
  unfold add Part.file?
  split
  · split <;> simp [*]
  · simp [*]
  · split <;> simp_all

theorem foldl_add_files (parts : List Part) (f : Form) :
    (parts.foldl (fun f p => f.add p p.content) f).files = f.files ++ parts.filterMap Part.file? := by
  induction parts generalizing f with
  | nil => simp
  | cons p rest ih =>
    rw [List.foldl_cons, ih, add_files, List.filterMap_cons]
    cases p.file? <;> simp

/-- Reading an upload: too large, malformed, or the form of all its parts. -/
theorem read_eq (limit : Nat) (u : Upload) :
    Form.read limit u =
      if limit < u.size then .error (.tooLarge limit)
      else match u.fault with
        | some cause => .error (.malformed cause)
        | none => .ok (u.parts.foldl (fun f p => f.add p p.content) .empty) := by
  rw [Form.read, readParts_eq limit u.parts 0 .empty (Nat.zero_le _), Nat.zero_add, Upload.size]
  by_cases h : limit < Part.totalSize u.parts
  · simp [h]
  · cases hf : u.fault <;> simp [h]

end Form

end TableProfile
