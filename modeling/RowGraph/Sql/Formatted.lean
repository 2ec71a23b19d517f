import RowGraph.Sql.Script

/-!
Serialization: a statement as text that a database can run.

What can be refused is refused before anything is written: an insertion whose generated key the
dialect cannot read back, then the calls in conditions whose arguments do not fit.  A refused
statement gives no aliases.
-/

namespace RowGraph
namespace Sql

structure Formatted where
  /-- The text; empty when there is nothing to do. -/
  sql : String
  /-- The values of the placeholders, in order. -/
  params : List Scalar
  aliases : AliasTable
  /-- A statement to run afterwards, which reads a generated key back. -/
  followUp : Option String
  deriving DecidableEq

/-- The statement that reads back the key that an insertion generates, if the dialect needs one. -/
def followUp (flavor : Flavor) : Statement → Outcome (Option String)
  | .insert i =>
    if i.returningKey then
      match flavor.keyHook? with
      | some (.followUp sql) => .ok (some sql)
      | some _ => .ok none
      | none => .error (.missingDialectHook (.generatedKey flavor i.target.table))
    else .ok none
  | _ => .ok none

/-- Refuse conditions with a call whose arguments do not fit. -/
def checkCalls (conditions : List Condition) : Outcome Unit :=
  match conditions.findSome? Condition.badCall? with
  | some (f, given) => .error (.unsupportedExpression (.writtenCall f given))
  | none => .ok ()

/-- The text of a statement, with aliases that go on from the given ones. -/
def Format.serialize (format : Format) (st : Statement) (aliases : AliasTable) :
    Outcome Formatted := do
  let followUp ← Sql.followUp format.flavor st
  checkCalls st.conditions
  let (fragments, aliases) := ofStatement format.flavor aliases st
  return ⟨layout format fragments, bound format fragments, aliases, followUp⟩

end Sql
end RowGraph
