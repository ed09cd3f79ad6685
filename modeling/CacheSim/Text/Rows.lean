/-!
# Rows of fields

Records in lines, their fields separated by commas.  A field is quoted if it
holds a character that would be misread; a quote inside a quoted field is
doubled.  A record whose line would be empty is written as a quoted empty
field.  All records have as many fields as the first one.
-/

namespace CacheSim.Rows

/-- A record with another number of fields than the one before it. -/
structure LengthMismatch where
  found : Nat
  previous : Nat
  deriving DecidableEq

/-- The wording of a mismatch. -/
def LengthMismatch.message (e : LengthMismatch) : String :=
  s!"CSV error: found record with {e.found} fields, "
    ++ s!"but the previous record has {e.previous} fields"

/-- A character that a reader would not take as part of a plain field. -/
def isSpecial (c : Char) : Bool :=
  c = ',' || c = '"' || c = '\r' || c = '\n'

/-- A field between quotes. -/
def quote (field : String) : String :=
  "\"" ++ String.ofList (field.toList.flatMap fun c => if c = '"' then ['"', '"'] else [c]) ++ "\""

/-- A field as it is written. -/
def field (s : String) : String :=
  if s.any isSpecial then quote s else s

/-- One line. -/
def record (fields : List String) : String :=
  let line := ",".intercalate (fields.map field)
  (if line.isEmpty then quote "" else line) ++ "\n"

/-- All records, one a line. -/
def write (records : List (List String)) : Except LengthMismatch String := do
  match records with
  | [] => return ""
  | first :: _ =>
    let lines ← records.mapM fun r =>
      if r.length = first.length then .ok (record r)
      else .error { found := r.length, previous := first.length }
    return String.join lines

end CacheSim.Rows
