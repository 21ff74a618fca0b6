import TableProfile.Csv.Cell

/-!
# Why content is no table
-/
namespace TableProfile.Csv

inductive Fault where
  /-- There is no header. -/
  | noData
  /-- The content begins like a compressed file. -/
  | compressed
  /-- Bytes that are to become text are no text. -/
  | invalidUtf8
  /-- A record has more fields than there are columns. -/
  | surplusField
  /-- A field does not fit its column; `number` counts columns from one. -/
  | badCell (field : String) (type : CellType) (column : String) (number : Nat) (cause : CellFault)
  deriving DecidableEq, Repr

/-- What is said of a fault. Where in the file it was met is not part of it, so `N` stands for that number. -/
def Fault.message : Fault → String
  | .noData => "no data: empty CSV"
  | .compressed => "cannot read compressed CSV file; compile with feature 'decompress'"
  | .invalidUtf8 => "invalid utf-8 sequence"
  | .surplusField =>
    "found more fields than defined in 'Schema'\n\nConsider setting 'truncate_ragged_lines=true'."
  | .badCell field type column number cause =>
    "could not parse `" ++ field ++ "` as dtype `" ++ type.dtype.label ++ "` at column '" ++ column
      ++ "' (column number " ++ toString number ++ ")\n\n"
      ++ "The current offset in the file is N bytes.\n\n"
      ++ "You might want to try:\n"
      ++ "- increasing `infer_schema_length` (e.g. `infer_schema_length=10000`),\n"
      ++ "- specifying correct dtype with the `schema_overrides` argument\n"
      ++ "- setting `ignore_errors` to `True`,\n"
      ++ "- adding `" ++ field ++ "` to the `null_values` list.\n\n"
      ++ "Original error: ```" ++ cause.message ++ "```"

end TableProfile.Csv
