import RowGraph.Error.Basic
import RowGraph.Row
import RowGraph.Sql.Aliases
import RowGraph.Statement.Parameters

/-!
Result rows regrouped by parameter.

A joined result repeats the columns of one instance in many rows.  Each row is split into the parts
that belong to the parameters of the statement, and of the parts of one parameter the first of each
key is kept.  A part without a key is the unmatched side of a left join and is left out.
-/

namespace RowGraph
namespace Graph

/-- The parameter and column before and after the first dot of a name. -/
def splitDot? (name : String) : Option (String × String) :=
  let cs := name.toList
  match cs.dropWhile (· != '.') with
  | [] => none
  | _ :: column => some (String.ofList (cs.takeWhile (· != '.')), String.ofList column)

/-- The parameter and column that a result column holds: those of its alias, or those it spells
out. -/
def locate (aliases : Sql.AliasTable) (name : String) : Outcome (String × String) :=
  match aliases.resolve? name with
  | some column => .ok column
  | none =>
    match splitDot? name with
    | some column => .ok column
    | none => .error (.invalidResult (.unknownAlias name))

def addEntry (aliases : Sql.AliasTable) (parts : Keyed String Row) (entry : String × Value) :
    Outcome (Keyed String Row) := do
  let (param, column) ← locate aliases entry.1
  return parts.change param .empty fun part => part.insert column entry.2

/-- A result row as one row for each parameter that it has columns of. -/
def split (aliases : Sql.AliasTable) (row : Row) : Outcome (Keyed String Row) :=
  row.entries.foldlM (addEntry aliases) []

/-- For each parameter of a statement the rows kept for it, by key. -/
abbrev Groups := Keyed String (Keyed Key Row)

namespace Groups

def empty (params : Parameters) : Groups :=
  params.entries.map fun entry => (entry.1, [])

def rows (groups : Groups) (param : String) : List Row :=
  ((groups.find? param).getD []).map Prod.snd

/-- The groups with one more part of a result row. -/
def add (params : Parameters) (groups : Groups) (part : String × Row) : Outcome Groups :=
  match params.find? part.1 with
  | none => .error (.invalidResult (.unknownParameter part.1))
  | some d =>
    match (part.2.get d.primaryKey).toKey? with
    | none => .ok groups
    | some key => .ok (groups.change part.1 [] fun group => group.putNew key part.2)

def addRow (params : Parameters) (aliases : Sql.AliasTable) (groups : Groups) (row : Row) :
    Outcome Groups := do
  (← split aliases row).foldlM (add params) groups

def ofRows (params : Parameters) (aliases : Sql.AliasTable) (rows : List Row) : Outcome Groups :=
  rows.foldlM (addRow params aliases) (empty params)

end Groups
end Graph
end RowGraph
