import JavaSketch.Proofs.CsvReader
import JavaSketch.Variable.Table
import Mathlib.Algebra.GroupWithZero.Nat

/-!
# The table of variables, read back

The rows of a class are told apart by their number of fields: only the row with the
name of a class has one.  A table is cut at the rows of one field, whatever they
say, and each piece is a class with its column names and its variables.

**Results.**
* `cut_tableRows`: the pieces of the written table.
* `write_read_back`: reading the bytes of a table gives back the summaries.
-/

namespace JavaSketch
namespace VariableTable

/-- A piece of a table: a row of one field and the rows up to the next such row. -/
structure TableSection where
  name : String
  rows : List (List String)
  deriving DecidableEq

/-- The rows before the first row of one field, and the pieces from there on. -/
def cut : List (List String) → List (List String) × List TableSection
  | [] => ([], [])
  | row :: rows =>
      let (body, sections) := cut rows
      match row with
      | [name] => ([], ⟨name, body⟩ :: sections)
      | _ => (row :: body, sections)

/-- The variable of a row, whose last field is empty. -/
def recordOf? (row : List String) : Option VariableRecord :=
  match row with
  | [name, declaredType, scope, purpose] =>
      if purpose = "" then some ⟨name, declaredType, scope⟩ else none
  | _ => none

/-- The summary of a piece, which begins with the names of the columns. -/
def summaryOf? (piece : TableSection) : Option ClassSummary :=
  match piece.rows with
  | [] => none
  | header :: rows =>
      if header = columns then (rows.mapM recordOf?).map (ClassSummary.mk piece.name) else none

/-- The piece of a class. -/
def sectionOf (summary : ClassSummary) : TableSection :=
  ⟨summary.className, columns :: summary.records.map recordRow⟩

theorem cut_cons_of_length_ne_one {row : List String} (h : row.length ≠ 1)
    (rows : List (List String)) :
    cut (row :: rows) = (row :: (cut rows).1, (cut rows).2) := by
  match row with
  | [] => rfl
  | [name] => exact absurd rfl h
  | _ :: _ :: _ => rfl

theorem cut_append {body : List (List String)} (h : ∀ row ∈ body, row.length ≠ 1)
    (rows : List (List String)) :
    cut (body ++ rows) = (body ++ (cut rows).1, (cut rows).2) := by
  induction body with
  | nil => rfl
  | cons row body ih =>
      have hbody := ih fun other hother => h other (List.mem_cons_of_mem row hother)
      rw [List.cons_append, cut_cons_of_length_ne_one (h row List.mem_cons_self), hbody]
      rfl

theorem cut_classRows (summary : ClassSummary) (rows : List (List String)) :
    cut (classRows summary ++ rows) =
      ([], ⟨summary.className, (sectionOf summary).rows ++ (cut rows).1⟩ :: (cut rows).2) := by
  have hlength : ∀ row ∈ (sectionOf summary).rows, row.length ≠ 1 := by
    intro row hrow
    rcases List.mem_cons.mp hrow with rfl | hrecord
    · decide
    · obtain ⟨record, _, rfl⟩ := List.mem_map.mp hrecord
      simp [recordRow]
  have hclass : classRows summary = [summary.className] :: (sectionOf summary).rows := rfl
  rw [hclass, List.cons_append, cut, cut_append hlength]

/-- The pieces of a table are those of its classes, whatever their fields say. -/
theorem cut_tableRows (summaries : List ClassSummary) :
    cut (tableRows summaries) = ([], summaries.map sectionOf) := by
  induction summaries with
  | nil => rfl
  | cons summary rest ih =>
      unfold tableRows at ih ⊢
      rw [List.flatMap_cons, cut_classRows, ih, List.append_nil]
      rfl

theorem mapM_map_eq_some {α β : Type} {f : α → β} {g : β → Option α}
    (h : ∀ a, g (f a) = some a) (as : List α) : (as.map f).mapM g = some as := by
  induction as with
  | nil => rfl
  | cons a as ih => simp [h, ih]

theorem summaryOf?_sectionOf (summary : ClassSummary) :
    summaryOf? (sectionOf summary) = some summary := by
  have hrecords : (summary.records.map recordRow).mapM recordOf? = some summary.records :=
    mapM_map_eq_some (fun record => by simp [recordRow, recordOf?]) summary.records
  simp [summaryOf?, sectionOf, hrecords]

theorem ne_nil_of_mem_tableRows {summaries : List ClassSummary} {row : List String}
    (h : row ∈ tableRows summaries) : row ≠ [] := by
  obtain ⟨summary, _, hrow⟩ := List.mem_flatMap.mp h
  simp only [classRows, List.mem_cons, List.mem_map] at hrow
  rcases hrow with rfl | rfl | ⟨record, _, rfl⟩ <;> simp [columns, recordRow]

/-- The count of a table is the number of rows after the column names. -/
theorem count_eq_sum (summaries : List ClassSummary) :
    count summaries =
      ((summaries.map sectionOf).map fun piece => piece.rows.tail.length).sum := by
  have hrows : (fun summary => (sectionOf summary).rows.tail.length) =
      fun summary => summary.records.length := by
    funext summary
    simp [sectionOf]
  rw [List.map_map, Function.comp_def, hrows, count, List.length_flatMap]

/-- **Nothing is lost in the table.**  The bytes of a table are read as rows that,
cut at those of one field, are the classes in their order, each with the names of the
columns and one row of four fields for each variable, the last of them empty; read as
summaries the pieces are those that were written.  The count is that of the rows of
variables. -/
theorem write_read_back (summaries : List ClassSummary) :
    ∃ rows, Csv.readBytes (write summaries).toUTF8 = some rows ∧
      cut rows = ([], summaries.map fun summary =>
        ⟨summary.className, ["Name", "Data type", "Scope", "Purpose"] ::
          summary.records.map fun record =>
            [record.name, record.declaredType, record.scope, ""]⟩) ∧
      (cut rows).2.mapM summaryOf? = some summaries ∧
      count summaries = ((cut rows).2.map fun piece => piece.rows.tail.length).sum := by
  have hcut := cut_tableRows summaries
  refine ⟨tableRows summaries,
    Csv.readBytes_write fun row hrow => ne_nil_of_mem_tableRows hrow, hcut, ?_, ?_⟩
  · rw [hcut]
    exact mapM_map_eq_some summaryOf?_sectionOf summaries
  · rw [hcut]
    exact count_eq_sum summaries

end VariableTable
end JavaSketch
