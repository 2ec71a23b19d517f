import RowGraph.Error.Basic
import RowGraph.Row
import RowGraph.Schema.Descriptor

/-!
Insertions: a batch of rows for one table.

The rows of a batch agree on whether they carry a key.  A batch without keys leaves the key column
out and asks the database to generate one.
-/

namespace RowGraph

structure Insert where
  target : Descriptor
  /-- The columns written, in the order of the table. -/
  columns : List String
  /-- For each row a value for each column. -/
  rows : List (List Value)
  /-- The database generates the key, which is then read back. -/
  returningKey : Bool

namespace Insert

def lacksKey (d : Descriptor) (row : Row) : Bool :=
  (row.get d.primaryKey).isNull

/-- The columns that a batch writes: those with a member, and those that its first row holds. -/
def columnsFor (d : Descriptor) (row : Row) : List String :=
  ((d.columns.filter fun c => !(c.isKey && lacksKey d row)).filter fun c =>
    c.member.isSome || row.contains c.name).map (·.name)

def ofRow (d : Descriptor) (row : Row) : Insert :=
  let columns := columnsFor d row
  ⟨d, columns, [columns.map row.get], lacksKey d row⟩

/-- The batch with a further row.  A column that the row does not hold is written as null. -/
def push (i : Insert) (row : Row) : Outcome Insert :=
  if lacksKey i.target row = i.returningKey then
    .ok { i with rows := i.rows ++ [i.columns.map row.get] }
  else .error (.adhoc (.mixedBatch i.target.model))

end Insert
end RowGraph
