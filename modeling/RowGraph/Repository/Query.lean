import RowGraph.Statement.Select

/-!
Queries: what a caller asks for, recorded as written.

A query is turned into a selection when it runs.  Filters may speak of the parameters that includes
add, so the includes come first.
-/

namespace RowGraph

structure Query where
  model : String
  name : Option String
  filters : List Expr
  includes : List Join

namespace Query

def ofModel (model : String) : Query := ⟨model, none, [], []⟩

def build (q : Query) (registry : Registry) : Outcome Select :=
  Select.build registry q.model q.name (q.includes.map .join ++ q.filters.map .restrict)

/-! ## Text of queries in messages -/

def inspectOption : Option String → String
  | some text => "Some(" ++ text ++ ")"
  | none => "None"

def inspectList (texts : List String) : String :=
  "[" ++ String.intercalate ", " texts ++ "]"

def inspect (q : Query) : String :=
  "Query \x7b name: " ++ inspectOption (q.name.map Text.quoted)
    ++ ", filters: " ++ inspectList (q.filters.map Expr.inspect)
    ++ ", includes: " ++ inspectList (q.includes.map fun j =>
      "Join \x7b member: " ++ Text.quoted j.member
        ++ ", left: " ++ inspectOption (j.left.map Text.quoted)
        ++ ", right: " ++ inspectOption (j.right.map Text.quoted)
        ++ ", condition: " ++ inspectOption (j.on.map Expr.inspect) ++ " \x7d")
    ++ " \x7d"

end Query
end RowGraph
