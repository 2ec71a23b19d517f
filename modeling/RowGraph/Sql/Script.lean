import RowGraph.Sql.Aliases
import RowGraph.Sql.Fragment
import RowGraph.Statement.Basic

/-!
The text of conditions and statements.
-/

namespace RowGraph
namespace Sql

/-! ## Conditions -/

/-- A column, named together with its parameter where a statement reads several tables. -/
def ofColumn (qualified : Bool) (param column : String) : List Fragment :=
  [.text (if qualified then param ++ "." ++ column else column)]

/-- A condition.  Conversions matter to evaluation only and are not written.  A call with the wrong
number of arguments has no text; such conditions are refused before they are written. -/
def ofCondition (qualified : Bool) : Condition → List Fragment
  | .binary op lhs rhs =>
    .text "(" :: ofCondition qualified lhs ++ .text (") " ++ op.symbol ++ " (")
      :: ofCondition qualified rhs ++ [.text ")"]
  | .call .contains [list, item] =>
    .text "(" :: ofCondition qualified item ++ .text ") IN " :: ofCondition qualified list
  | .call (.convert _) [c] => ofCondition qualified c
  | .call _ _ => []
  | .constant v => ofValue v
  | .member param column => ofColumn qualified param column
  | .parameter param key => ofColumn qualified param key

def ofFilter (qualified : Bool) : Option Condition → List Fragment
  | some c => .text " WHERE " :: ofCondition qualified c
  | none => []

/-! ## Selections -/

def ofAliased (column : String × String) (n : Nat) : List Fragment :=
  [.text (column.1 ++ "." ++ column.2 ++ " AS " ++ aliasName n)]

def ofLinkCondition (l : Link) : List Fragment :=
  if l.isDefault then [.text l.fragment] else ofCondition true l.condition

def ofLink (params : Parameters) (l : Link) : List Fragment :=
  [.text " LEFT JOIN ", .table (params.table l.right), .text (" " ++ l.right ++ " ON ")]
    ++ ofLinkCondition l

def ofSelect (s : Select) (aliases : AliasTable) : List Fragment × AliasTable :=
  let (ns, aliases) := aliases.assignAll s.readColumns
  (.text "SELECT " :: commas (List.zipWith ofAliased s.readColumns ns)
    ++ [.text " FROM ", .table (s.params.table s.rootName), .text (" " ++ s.rootName)]
    ++ s.links.flatMap (ofLink s.params) ++ ofFilter true s.filter, aliases)

/-! ## Insertions -/

def ofTuple (row : List Value) : List Fragment :=
  .text "(" :: commas (row.map ofValue) ++ [.text ")"]

def ofInsert (flavor : Flavor) (i : Insert) : List Fragment :=
  let hook := if i.returningKey then flavor.keyHook? else none
  let columns :=
    if i.columns.isEmpty then [] else [.text (" (" ++ String.intercalate ", " i.columns ++ ")")]
  let before :=
    if hook = some .output then [.text (" OUTPUT INSERTED." ++ i.target.primaryKey)] else []
  let rows :=
    if i.columns.isEmpty then [.text " DEFAULT VALUES"]
    else .text " VALUES " :: commas (i.rows.map ofTuple)
  let after :=
    if hook = some .returning then [.text (" RETURNING " ++ i.target.primaryKey)] else []
  [.text "INSERT INTO ", .table i.target.table] ++ columns ++ before ++ rows ++ after ++ [.text ";"]

/-! ## Updates -/

def ofAssignment (assignment : String × Value) : List Fragment :=
  .text (assignment.1 ++ " = ") :: ofValue assignment.2

def ofUpdateRow (d : Descriptor) (row : UpdateRow) : List Fragment :=
  [.text "UPDATE ", .table d.table, .text " SET "] ++ commas (row.assignments.map ofAssignment)
    ++ .text (" WHERE " ++ d.primaryKey ++ " = ") :: ofValue row.key ++ [.text ";"]

/-- An update is one statement for each row that changes, on lines of their own. -/
def ofUpdate (u : Update) : List Fragment :=
  separated "\n" ((u.rows.filter (!·.assignments.isEmpty)).map (ofUpdateRow u.target))

/-! ## Deletions -/

def ofDelete (d : Delete) : List Fragment :=
  [.text "DELETE FROM ", .table d.target.table] ++ ofFilter false d.filter ++ [.text ";"]

/-! ## Statements -/

/-- The fragments of a statement, and the aliases after those that it uses. -/
def ofStatement (flavor : Flavor) (aliases : AliasTable) : Statement → List Fragment × AliasTable
  | .select s => ofSelect s aliases
  | .insert i => (ofInsert flavor i, aliases)
  | .update u => (ofUpdate u, aliases)
  | .delete d => (ofDelete d, aliases)

end Sql
end RowGraph
