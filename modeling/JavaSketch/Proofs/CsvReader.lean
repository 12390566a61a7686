import JavaSketch.Csv

/-!
# Reading comma-separated tables

A reader takes a table in one character after the other.  Fields are divided by
commas and rows end with CR LF; a field that begins with a double quote goes on to
the next quote that stands alone, and two quotes in a row are a quote of the field.
A quote or a line feed elsewhere, a carriage return without its line feed and a
quote that is never closed are refused.  The row end after the last row may be absent.

**Invariant.**  From the start of a field the reader takes in the characters of
the field and is at its end (`AtFieldEnd`), whether the field was written with
quotes or without; a comma or a row end then closes it.

**Results.**
* `foldlM_fieldChars`: a field is taken in as it was before it was written.
* `foldlM_rowChars`: so are the fields of a row.
* `readBytes_write`: the bytes of a table are read as the table.
-/

namespace JavaSketch
namespace Csv

/-- What a reader has seen of the field it is in. -/
inductive Phase
  | start
  | plain
  | quoted
  /-- A quote inside quotes, which closes the field or is the first of two. -/
  | quoteSeen
  /-- The carriage return of a row end. -/
  | returnSeen
  deriving DecidableEq

/-- What a reader has taken in so far. -/
structure Reader where
  phase : Phase
  field : List Char
  /-- The fields of the row before the one it is in. -/
  row : List (List Char)
  /-- The rows before the one it is in. -/
  rows : List (List (List Char))

namespace Reader

/-- A reader at the start of a field. -/
def atStart (row : List (List Char)) (rows : List (List (List Char))) : Reader :=
  ⟨.start, [], row, rows⟩

def take (reader : Reader) (c : Char) (phase : Phase) : Reader :=
  { reader with phase := phase, field := reader.field ++ [c] }

def endField (reader : Reader) : Reader :=
  atStart (reader.row ++ [reader.field]) reader.rows

def endRow (reader : Reader) : Reader :=
  atStart [] (reader.rows ++ [reader.row ++ [reader.field]])

/-- A character after the last one of a field. -/
def separate (reader : Reader) (c : Char) : Option Reader :=
  if c = ',' then some reader.endField
  else if c = '\r' then some { reader with phase := .returnSeen }
  else none

/-- A character inside or after a field without quotes. -/
def takePlain (reader : Reader) (c : Char) : Option Reader :=
  if c = ',' ∨ c = '\r' then reader.separate c
  else if c = '"' ∨ c = '\n' then none
  else some (reader.take c .plain)

/-- One character. -/
def step (reader : Reader) (c : Char) : Option Reader :=
  match reader.phase with
  | .start => if c = '"' then some { reader with phase := .quoted } else reader.takePlain c
  | .plain => reader.takePlain c
  | .quoted =>
      if c = '"' then some { reader with phase := .quoteSeen }
      else some (reader.take c .quoted)
  | .quoteSeen =>
      if c = '"' then some (reader.take c .quoted) else reader.separate c
  | .returnSeen => if c = '\n' then some reader.endRow else none

/-- The rows of a table that ends here. -/
def finish (reader : Reader) : Option (List (List (List Char))) :=
  match reader.phase with
  | .start => if reader.row = [] then some reader.rows else some reader.endRow.rows
  | .plain | .quoteSeen => some reader.endRow.rows
  | .quoted | .returnSeen => none

/-- Whether a reader has taken in all of a field of some row. -/
structure AtFieldEnd (reader : Reader) (field : List Char) (row : List (List Char))
    (rows : List (List (List Char))) : Prop where
  phase : reader.phase = .start ∨ reader.phase = .plain ∨ reader.phase = .quoteSeen
  field : reader.field = field
  row : reader.row = row
  rows : reader.rows = rows

end Reader

/-- The rows of a table. -/
def read (cs : List Char) : Option (List (List (List Char))) :=
  (cs.foldlM Reader.step (Reader.atStart [] [])).bind Reader.finish

/-- The rows of a table in UTF-8. -/
def readBytes (bytes : ByteArray) : Option (List (List String)) := do
  let text ← String.fromUTF8? bytes
  let rows ← read text.toList
  return rows.map (·.map String.ofList)

namespace Reader

section Fields

variable {field : List Char} {row : List (List Char)} {rows : List (List (List Char))}

theorem takePlain_of_not_special {c : Char} (h : isSpecial c = false) (reader : Reader) :
    reader.takePlain c = some (reader.take c .plain) := by
  simp only [isSpecial, Bool.or_eq_false_iff, beq_eq_false_iff_ne] at h
  obtain ⟨⟨⟨hcomma, hquote⟩, hreturn⟩, hfeed⟩ := h
  simp [takePlain, hcomma, hquote, hreturn, hfeed]

theorem step_of_not_special {c : Char} (h : isSpecial c = false) {reader : Reader}
    (hphase : reader.phase = .start ∨ reader.phase = .plain) :
    reader.step c = some (reader.take c .plain) := by
  have hquote : c ≠ '"' := by
    rintro rfl
    simp [isSpecial] at h
  rcases hphase with hstart | hplain
  · simp [step, hstart, hquote, takePlain_of_not_special h]
  · simp [step, hplain, takePlain_of_not_special h]

/-- A field without special characters is taken in as it stands. -/
theorem foldlM_plain {cs : List Char} (h : cs.any isSpecial = false) (reader : Reader)
    (hphase : reader.phase = .start ∨ reader.phase = .plain) :
    ∃ later, cs.foldlM step reader = some later ∧
      later.AtFieldEnd (reader.field ++ cs) reader.row reader.rows := by
  induction cs generalizing reader with
  | nil =>
      refine ⟨reader, rfl, ?_, by simp, rfl, rfl⟩
      rcases hphase with hstart | hplain
      · exact Or.inl hstart
      · exact Or.inr (Or.inl hplain)
  | cons c cs ih =>
      rw [List.any_cons, Bool.or_eq_false_iff] at h
      obtain ⟨later, hlater, hend⟩ := ih h.2 (reader.take c .plain) (Or.inr rfl)
      refine ⟨later, ?_, ?_⟩
      · rw [List.foldlM_cons, step_of_not_special h.1 hphase]
        exact hlater
      · simpa [take] using hend

/-- Between quotes a field is taken in with one quote for each two. -/
theorem foldlM_doubled (cs : List Char) (reader : Reader) (hphase : reader.phase = .quoted) :
    (cs.flatMap fun c => if c = '"' then ['"', '"'] else [c]).foldlM step reader =
      some { reader with field := reader.field ++ cs } := by
  induction cs generalizing reader with
  | nil => simp
  | cons c cs ih =>
      have htaken : (if c = '"' then ['"', '"'] else [c]).foldlM step reader =
          some (reader.take c .quoted) := by
        by_cases hquote : c = '"'
        · subst hquote
          simp [step, hphase, take]
        · simp [step, hphase, hquote]
      have hrest := ih (reader.take c .quoted) rfl
      rw [List.flatMap_cons, List.foldlM_append, htaken]
      simpa [take, hphase] using hrest

theorem foldlM_quotedField (cs : List Char) (row : List (List Char))
    (rows : List (List (List Char))) :
    ∃ later, (quotedField cs).foldlM step (atStart row rows) = some later ∧
      later.AtFieldEnd cs row rows := by
  have hopen : (atStart row rows).step '"' = some ⟨.quoted, [], row, rows⟩ := rfl
  have hinside := foldlM_doubled cs ⟨.quoted, [], row, rows⟩ rfl
  refine ⟨⟨.quoteSeen, cs, row, rows⟩, ?_, Or.inr (Or.inr rfl), rfl, rfl, rfl⟩
  rw [quotedField, List.cons_append, List.foldlM_cons, hopen, Option.bind_eq_bind,
    Option.bind_some, List.foldlM_append, hinside]
  rfl

/-- A field is taken in as it was before it was written. -/
theorem foldlM_fieldChars (field : List Char) (row : List (List Char))
    (rows : List (List (List Char))) :
    ∃ later, (fieldChars field).foldlM step (atStart row rows) = some later ∧
      later.AtFieldEnd field row rows := by
  unfold fieldChars
  split
  · exact foldlM_quotedField field row rows
  · rename_i hplain
    exact foldlM_plain (by simpa using hplain) (atStart row rows) (Or.inl rfl)

theorem AtFieldEnd.step_eq_separate {reader : Reader} (h : reader.AtFieldEnd field row rows)
    {c : Char} (hc : c = ',' ∨ c = '\r') : reader.step c = reader.separate c := by
  have hquote : c ≠ '"' := by
    rintro rfl
    simp at hc
  rcases h.phase with hphase | hphase | hphase <;> simp [step, hphase, hquote, takePlain, hc]

theorem AtFieldEnd.step_comma {reader : Reader} (h : reader.AtFieldEnd field row rows) :
    reader.step ',' = some (atStart (row ++ [field]) rows) := by
  rw [h.step_eq_separate (Or.inl rfl), ← h.field, ← h.row, ← h.rows]
  rfl

theorem AtFieldEnd.foldlM_rowEnd {reader : Reader} (h : reader.AtFieldEnd field row rows) :
    ['\r', '\n'].foldlM step reader = some (atStart [] (rows ++ [row ++ [field]])) := by
  have hreturn : reader.step '\r' = some { reader with phase := .returnSeen } := by
    rw [h.step_eq_separate (Or.inr rfl)]
    rfl
  rw [List.foldlM_cons, hreturn, ← h.field, ← h.row, ← h.rows]
  rfl

end Fields

theorem foldlM_joinWith (first : List Char) (rest row : List (List Char))
    (rows : List (List (List Char))) :
    (Text.joinWith ',' ((first :: rest).map fieldChars) ++ ['\r', '\n']).foldlM step
        (atStart row rows) =
      some (atStart [] (rows ++ [row ++ first :: rest])) := by
  induction rest generalizing first row with
  | nil =>
      obtain ⟨later, hlater, hend⟩ := foldlM_fieldChars first row rows
      rw [List.map_singleton, Text.joinWith, List.foldlM_append, hlater]
      exact hend.foldlM_rowEnd
  | cons next rest ih =>
      obtain ⟨later, hlater, hend⟩ := foldlM_fieldChars first row rows
      have hrest := ih next (row ++ [first])
      rw [List.map_cons] at hrest
      rw [List.map_cons, List.map_cons, Text.joinWith, List.append_assoc, List.foldlM_append,
        hlater, Option.bind_eq_bind, Option.bind_some, List.cons_append, List.foldlM_cons,
        hend.step_comma, Option.bind_eq_bind, Option.bind_some, hrest, List.append_assoc,
        List.singleton_append]

/-- A row with a field is taken in as it was before it was written. -/
theorem foldlM_rowChars {fields : List (List Char)} (h : fields ≠ [])
    (rows : List (List (List Char))) :
    (rowChars fields ++ ['\r', '\n']).foldlM step (atStart [] rows) =
      some (atStart [] (rows ++ [fields])) := by
  unfold rowChars
  split
  · rename_i hempty
    subst hempty
    rfl
  · cases fields with
    | nil => exact absurd rfl h
    | cons first rest => exact foldlM_joinWith first rest [] rows

theorem foldlM_tableChars {table : List (List (List Char))}
    (h : ∀ fields ∈ table, fields ≠ []) (rows : List (List (List Char))) :
    (tableChars table).foldlM step (atStart [] rows) = some (atStart [] (rows ++ table)) := by
  induction table generalizing rows with
  | nil => simp [tableChars]
  | cons fields table ih =>
      have hfields := foldlM_rowChars (h fields List.mem_cons_self) rows
      have hrest := ih (fun other hother => h other (List.mem_cons_of_mem fields hother))
        (rows ++ [fields])
      unfold tableChars at hrest ⊢
      rw [List.flatMap_cons, List.foldlM_append, hfields, Option.bind_eq_bind,
        Option.bind_some, hrest, List.append_assoc, List.singleton_append]

end Reader

theorem read_tableChars {table : List (List (List Char))} (h : ∀ fields ∈ table, fields ≠ []) :
    read (tableChars table) = some table := by
  rw [read, Reader.foldlM_tableChars h []]
  rfl

theorem fromUTF8?_toUTF8 (text : String) : String.fromUTF8? text.toUTF8 = some text :=
  dif_pos text.isValidUTF8

/-- A table whose rows have fields is read from its bytes. -/
theorem readBytes_write {rows : List (List String)} (h : ∀ fields ∈ rows, fields ≠ []) :
    readBytes (write rows).toUTF8 = some rows := by
  have hchars : ∀ fields ∈ rows.map (·.map String.toList), fields ≠ [] := by
    intro fields hfields
    obtain ⟨texts, htexts, rfl⟩ := List.mem_map.mp hfields
    simpa using h texts htexts
  have hback : (rows.map (·.map String.toList)).map (·.map String.ofList) = rows := by
    simp [Function.comp_def]
  have hread := read_tableChars hchars
  rw [readBytes, fromUTF8?_toUTF8, Option.bind_eq_bind, Option.bind_some, write,
    String.toList_ofList, hread, Option.bind_eq_bind, Option.bind_some, hback]
  rfl

end Csv
end JavaSketch
