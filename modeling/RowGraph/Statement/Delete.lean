import RowGraph.Statement.Compilation

/-!
Deletions: the rows of one table that meet a condition.
-/

namespace RowGraph

structure Delete where
  /-- The name under which the condition speaks of the table. -/
  param : String
  target : Descriptor
  filter : Option Condition

namespace Delete

def ofModel (registry : Registry) (model : String) : Outcome Delete := do
  return ⟨Parameters.defaultName, ← registry.descriptor model, none⟩

def params (d : Delete) : Parameters :=
  Parameters.root (some d.param) d.target

def byKey (registry : Registry) (model : String) (key : Value) : Outcome Delete := do
  let d ← ofModel registry model
  let column := d.target.keyColumn
  let key ← key.convert column.ty
  return { d with filter := some (.eq (.member d.param column.name) (.constant key)) }

def restrict (d : Delete) (registry : Registry) (e : Expr) : Outcome Delete := do
  let scope ← Scope.filter registry d.params
  let condition ← scope.compile e
  return { d with filter := some (Condition.conjoin d.filter condition) }

end Delete
end RowGraph
