import RowGraph.Error.Basic
import RowGraph.Row
import RowGraph.Schema.Descriptor

/-!
Updates: for each row of a batch, the columns that changed.
-/

namespace RowGraph

structure UpdateRow where
  key : Value
  /-- The columns that change and their values. -/
  assignments : Keyed String Value

structure Update where
  target : Descriptor
  rows : List UpdateRow

namespace Update

def ofModel (d : Descriptor) : Update := ⟨d, []⟩

/-- The column that a changed field is written to.  A collection has none. -/
def columnOf (d : Descriptor) (field : String) : Outcome (Option String) :=
  match d.storage? field with
  | some column => .ok (some column)
  | none =>
    if (d.relation? field).isSome then .ok none
    else .error (.invalidSchema (.noSuchMember d.model field))

/-- The assignments with that of a further changed field.  The key is never assigned, and a column
only once. -/
def assign (d : Descriptor) (row : Row) (assignments : Keyed String Value) (field : String) :
    Outcome (Keyed String Value) := do
  match ← columnOf d field with
  | none => return assignments
  | some column =>
    if column == d.primaryKey || assignments.has column then return assignments
    else return assignments ++ [(column, row.get column)]

/-- The update with a further row, of which the given fields changed. -/
def push (u : Update) (row : Row) (dirty : List String) : Outcome Update :=
  let key := row.get u.target.primaryKey
  if key.isNull then .error (.adhoc (.updateWithoutKey u.target.model))
  else do
    let assignments ← dirty.foldlM (assign u.target row) []
    return { u with rows := u.rows ++ [⟨key, assignments⟩] }

def isNoop (u : Update) : Bool :=
  u.rows.all (·.assignments.isEmpty)

end Update
end RowGraph
