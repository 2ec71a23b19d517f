import RowGraph.Condition.Eval
import RowGraph.Statement.Compilation

/-!
Links: joins along a collection, with the pair of key columns that belong together.

A link says two things about its two parameters.  Its condition is what the database joins on; its
predicate is the equality of the two keys, by which the rows that come back are paired again.
-/

namespace RowGraph

structure Link where
  left : String
  /-- The parameter of the related model. -/
  right : String
  /-- The collection of the owner that the link follows. -/
  member : String
  target : String
  foreignKey : String
  primaryKey : String
  condition : Condition

namespace Link

def predicate (l : Link) : Condition :=
  .eq (.member l.left l.primaryKey) (.member l.right l.foreignKey)

def fragment (l : Link) : String :=
  l.left ++ "." ++ l.primaryKey ++ " = " ++ l.right ++ "." ++ l.foreignKey

/-- Whether the database joins on the equality of the keys alone. -/
def isDefault (l : Link) : Bool :=
  l.condition.same l.predicate

def pairs (l : Link) (leftRow rightRow : Row) : Outcome Bool :=
  l.predicate.evalBool (Assignment.pair l.left leftRow l.right rightRow).input

/-! ## Finding the keys -/

/-- The columns of two parameters that a condition makes equal, the left one first. -/
def equated? (left right : String) : Condition → Option (String × String)
  | .binary .eq lhs rhs =>
    match lhs.column?, rhs.column? with
    | some (l, primaryKey), some (r, foreignKey) =>
      if l = left ∧ r = right then some (primaryKey, foreignKey) else none
    | _, _ => none
  | _ => none

/-- The keys named by a condition: those of the first conjunct that makes a left column equal to a
right one. -/
def keyPair (c : Condition) (left right : String) : Outcome (String × String) :=
  match c.conjuncts.findSome? (equated? left right) with
  | some keys => .ok keys
  | none => .error (.ambiguousCondition (.noKeyPair c left right))

/-- The only column of the related table that holds a key of the owning one. -/
def boundColumn (left right : Descriptor) (member : String) : Outcome String :=
  match (right.columnsBoundTo left.table).map (·.name) with
  | [name] => .ok name
  | [] => .error (.invalidSchema (.missingForeignKey left.model member))
  | names =>
    .error (.invalidSchema (.ambiguousForeignKey left.model member
      (names.map fun name => right.table ++ "." ++ name)))

/-- The foreign key of a collection: the declared one, or the only column that can be it. -/
def foreignKeyOf (left right : Descriptor) (relation : Relation) : Outcome String :=
  match relation.foreignKey with
  | some name => .ok name
  | none => boundColumn left right relation.member

def paramType (params : Parameters) (name : String) : Outcome Descriptor :=
  match params.find? name with
  | some d => .ok d
  | none => .error (.ambiguousCondition (.unknownParameter name))

def relationOf (d : Descriptor) (member : String) : Outcome Relation :=
  match d.relation? member with
  | some relation => .ok relation
  | none => .error (.invalidSchema (.unresolvableRelation d.model member))

/-- The link along a collection between two registered parameters.  A condition of the caller names
its keys itself; without one the declarations do. -/
def build (registry : Registry) (params : Parameters) (left member right : String)
    (on : Option Expr) : Outcome Link := do
  let leftType ← paramType params left
  let rightType ← paramType params right
  let relation ← relationOf leftType member
  if relation.target ≠ rightType.model then
    .error (.invalidSchema
      (.wrongTarget leftType.model member relation.target right rightType.model))
  else
    match on with
    | some e => do
      let condition ← (Scope.join registry params left right).compile e
      let (primaryKey, foreignKey) ← keyPair condition left right
      return ⟨left, right, member, relation.target, foreignKey, primaryKey, condition⟩
    | none => do
      let foreignKey ← foreignKeyOf leftType rightType relation
      let primaryKey := relation.primaryKey
      return ⟨left, right, member, relation.target, foreignKey, primaryKey,
        .eq (.member left primaryKey) (.member right foreignKey)⟩

end Link
end RowGraph
