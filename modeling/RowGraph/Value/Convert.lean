import RowGraph.Error.Basic

/-!
Reading values as values of a type, with the refusal that says which value was meant for which type.
-/

namespace RowGraph
namespace Value

def read (ty : ColumnType) (v : Value) : Outcome Value :=
  match v.read? ty with
  | some w => .ok w
  | none => .error (.typeConversion v ty.targetName)

/-- The value converted to the given type; null belongs to every type. -/
def convert (ty : ColumnType) (v : Value) : Outcome Value :=
  match v.convert? ty with
  | some w => .ok w
  | none => .error (.typeConversion v ty.targetName)

inductive Reading where
  /-- A value of the type, which null is not. -/
  | required (ty : ColumnType)
  /-- A value of the type or null. -/
  | nullable (ty : ColumnType)
  | any
  deriving DecidableEq

def readAs : Reading → Value → Outcome Value
  | .required ty, v => v.read ty
  | .nullable ty, v => v.convert ty
  | .any, v => .ok v

/-- Whether an item is in a list, in the sense of a database.  Null is in no list. -/
def includes (list item : Value) : Outcome Bool :=
  match list with
  | .list items => .ok (!item.isNull && items.any (·.equals item))
  | .scalar v => .error (.typeConversion v "List")

end Value
end RowGraph
