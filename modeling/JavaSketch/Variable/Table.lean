import JavaSketch.Csv
import JavaSketch.Variable.Summary

/-!
# The table of variables

The summaries of all classes are written as one table: for each class a row with
its name, a row of column names and a row for each variable, whose last column is
left for a reader to fill in.

**Results.**
* `length_tableRows`: two rows for each class and one for each variable.
-/

namespace JavaSketch
namespace VariableTable

/-- The names of the columns. -/
def columns : List String :=
  ["Name", "Data type", "Scope", "Purpose"]

/-- The row of a variable. -/
def recordRow (record : VariableRecord) : List String :=
  [record.name, record.declaredType, record.scope, ""]

/-- The rows of a class. -/
def classRows (summary : ClassSummary) : List (List String) :=
  [summary.className] :: columns :: summary.records.map recordRow

/-- The rows of all classes. -/
def tableRows (summaries : List ClassSummary) : List (List String) :=
  summaries.flatMap classRows

/-- The number of variables in the table. -/
def count (summaries : List ClassSummary) : Nat :=
  (summaries.flatMap (·.records)).length

/-- The table as text. -/
def write (summaries : List ClassSummary) : String :=
  Csv.write (tableRows summaries)

theorem length_tableRows (summaries : List ClassSummary) :
    (tableRows summaries).length = 2 * summaries.length + count summaries := by
  induction summaries with
  | nil => rfl
  | cons summary rest ih =>
      simp only [tableRows, count, List.flatMap_cons, List.length_append, classRows,
        List.length_cons, List.length_map] at ih ⊢
      omega

end VariableTable
end JavaSketch
