/-!
Dialects.  They differ in how a key that the database generated is read back, in how placeholders
are spelled and in how truth values are written.
-/

namespace RowGraph
namespace Sql

inductive Flavor where
  /-- Plain statements, with no way to read back a generated key. -/
  | generic
  | mssql
  | mysql
  | postgresql
  | sqlite
  deriving DecidableEq

/-- How the key that an insertion generates is read back. -/
inductive KeyHook where
  /-- A clause before the values. -/
  | output
  /-- A clause after the values. -/
  | returning
  /-- A statement of its own, run after the insertion. -/
  | followUp (statement : String)
  deriving DecidableEq

namespace Flavor

def name : Flavor → String
  | generic => "Generic"
  | mssql => "Mssql"
  | mysql => "Mysql"
  | postgresql => "Postgresql"
  | sqlite => "Sqlite"

def keyHook? : Flavor → Option KeyHook
  | generic => none
  | mssql => some .output
  | mysql => some (.followUp "SELECT LAST_INSERT_ID();")
  | postgresql => some .returning
  | sqlite => some (.followUp "SELECT last_insert_rowid();")

/-- The `n`-th placeholder, counted from one. -/
def placeholder (flavor : Flavor) (n : Nat) : String :=
  match flavor with
  | generic | mysql => "?"
  | mssql => "@p" ++ toString n
  | postgresql => "$" ++ toString n
  | sqlite => "?" ++ toString n

end Flavor
end Sql
end RowGraph
