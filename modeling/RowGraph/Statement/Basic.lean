import RowGraph.Statement.Delete
import RowGraph.Statement.Insert
import RowGraph.Statement.Select
import RowGraph.Statement.Update

/-!
Statements of the four kinds.
-/

namespace RowGraph

inductive Statement where
  | select (s : Select)
  | insert (i : Insert)
  | update (u : Update)
  | delete (d : Delete)

namespace Statement

def kindName : Statement → String
  | select _ => "select"
  | insert _ => "insert"
  | update _ => "update"
  | delete _ => "delete"

/-- The conditions that stand in the statement's text, that of its filter first. -/
def conditions : Statement → List Condition
  | select s => s.filter.toList ++ s.links.map (·.condition)
  | delete d => d.filter.toList
  | insert _ => []
  | update _ => []

end Statement
end RowGraph
