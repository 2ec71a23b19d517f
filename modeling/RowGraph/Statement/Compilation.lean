import RowGraph.Schema.Registry
import RowGraph.Statement.Parameters
import RowGraph.Value.Convert

/-!
From expressions to conditions.

An expression is compiled in a scope.  A filter knows the default parameter of its statement; a join
condition knows the two parameters that it joins.  Members become columns of their parameters, and
each comparison is turned so that the column of the scope's own parameter comes first.

Databases hand back integers of 64 bits.  A narrow integer column is therefore widened where it meets
an integer that may be wider, and the integers it is compared with are written in 64 bits.
-/

namespace RowGraph

structure Scope where
  registry : Registry
  params : Parameters
  /-- The parameter whose column comes first in a comparison. -/
  left : String
  /-- The parameter joined to it; none in a filter. -/
  right : Option String

/-- A compiled side of a comparison, with the type of the column it reads. -/
structure Operand where
  condition : Condition
  ty : Option ColumnType

namespace Operand

def isInteger (o : Operand) : Bool :=
  o.ty.any (·.isInteger)

/-- The operand as an integer of 64 bits, when it reads a narrower column. -/
def widened (o : Operand) : Condition :=
  if o.ty.any (·.isNarrow) then .convert .i64 o.condition else o.condition

def integer? (o : Operand) : Option Value :=
  match o.condition with
  | .constant v => if v.toInt?.isSome then some v else none
  | _ => none

/-- The sides of a comparison, brought to one integer type.  Of integer columns both are widened
when their types differ; a constant integer is written in the widest type. -/
def unify (lhs rhs : Operand) : Outcome (Condition × Condition) :=
  match lhs.isInteger, rhs.integer? with
  | true, some v => do return (lhs.widened, .constant (← v.convert .i64))
  | _, _ =>
    if lhs.isInteger && rhs.isInteger && lhs.ty != rhs.ty then .ok (lhs.widened, rhs.widened)
    else .ok (lhs.condition, rhs.condition)

end Operand

inductive Side where
  | left
  | right
  | other
  | constant
  deriving DecidableEq

namespace Scope

/-- The scope of a filter over the default parameter. -/
def filter (registry : Registry) (params : Parameters) : Outcome Scope :=
  match params.default? with
  | some (left, _) => .ok ⟨registry, params, left, none⟩
  | none => .error (.adhoc .filterWithoutDefault)

/-- The scope of a condition that joins one parameter to another. -/
def join (registry : Registry) (params : Parameters) (left right : String) : Scope :=
  ⟨registry, params, left, some right⟩

/-! ## Parameters of members -/

def isOf (s : Scope) (model name : String) : Bool :=
  (s.params.find? name).any (·.model == model)

/-- The parameter that a member without a named one is read from: the left one if it is of the
member's model, else the right one, else the only parameter of that model. -/
def implicitParam (s : Scope) (model : String) : Outcome String :=
  if s.isOf model s.left then .ok s.left
  else
    match s.right.filter (s.isOf model) with
    | some right => .ok right
    | none =>
      match (s.params.entries.filter fun entry => entry.2.model == model).map Prod.fst with
      | [name] => .ok name
      | [] => .error (.ambiguousCondition (.noParameterOf model))
      | names => .error (.ambiguousCondition (.severalParametersOf model names))

/-- The parameter that a member is read from. -/
def param (s : Scope) (m : Member) : Outcome String :=
  match m.param with
  | .named name =>
    if s.params.contains name then .ok name
    else .error (.ambiguousCondition (.unknownParameter name))
  | .implicit => s.implicitParam m.model

/-! ## Columns of members -/

def column (param : String) (d : Descriptor) (name : String) : Operand :=
  ⟨.member param name, (d.column? name).map (·.ty)⟩

def fieldOperand (param : String) (d : Descriptor) (field : String) : Outcome Operand :=
  match d.storage? field with
  | some name => .ok (column param d name)
  | none =>
    if (d.relation? field).isSome then
      .error (.unsupportedExpression (.hasManyOperand d.model field))
    else .error (.unsupportedExpression (.noSuchMember d.model field))

/-- The column of a reference followed to the key of its target, which is the reference's own
column. -/
def keyOperand (s : Scope) (param : String) (d : Descriptor) (m : Member)
    (navigation key : String) : Outcome Operand :=
  match d.reference? navigation with
  | none => .error (.unsupportedExpression (.navigation m))
  | some reference => do
    let target ← s.registry.descriptor reference.target
    if target.keyColumn.member = some key then return column param d reference.column
    else .error (.unsupportedExpression (.navigation m))

def memberOperand (s : Scope) (m : Member) : Outcome Operand := do
  let param ← s.param m
  match s.params.find? param with
  | none => .error (.ambiguousCondition (.unknownParameter param))
  | some d =>
    if d.model ≠ m.model then
      .error (.unsupportedExpression (.foreignMember m.model param d.model))
    else
      match m.path with
      | [] => return ⟨.parameter param d.keyColumn.name, some d.keyColumn.ty⟩
      | [field] => fieldOperand param d field
      | [navigation, key] => s.keyOperand param d m navigation key
      | _ => .error (.unsupportedExpression (.navigation m))

/-- A side of a comparison: a member or a constant that is not a list. -/
def operand (s : Scope) : Expr → Outcome Operand
  | .member m => s.memberOperand m
  | .value (.list _) => .error (.unsupportedExpression .listOperand)
  | .value v => .ok ⟨.constant v, none⟩
  | e => .error (.unsupportedExpression (.notOperand e))

/-! ## Comparisons -/

def side (s : Scope) (o : Operand) : Side :=
  match o.condition.root? with
  | none => .constant
  | some root => if root = s.left then .left else if some root = s.right then .right else .other

/-- Whether the sides of a comparison have to change places, if it is clear.  In a filter the side of
the default parameter comes first; a join pairs its two parameters, or one of them with a
constant. -/
def swaps? (isJoin : Bool) (lhs rhs : Side) : Option Bool :=
  match isJoin, lhs, rhs with
  | _, .constant, .constant => none
  | false, .constant, _ => some true
  | false, _, .constant => some false
  | false, .left, .other => some false
  | false, .other, .left => some true
  | false, _, _ => none
  | true, .left, .right => some false
  | true, .right, .left => some true
  | true, .left, .constant | true, .right, .constant => some false
  | true, .constant, .left | true, .constant, .right => some true
  | true, _, _ => none

def compare (s : Scope) (op : Operator) (lhs rhs : Operand) : Outcome Condition :=
  match swaps? s.right.isSome (s.side lhs) (s.side rhs) with
  | none =>
    .error (.ambiguousCondition (.unoriented lhs.condition op rhs.condition s.left))
  | some swap => do
    let (first, op, second) := if swap then (rhs, op.converse, lhs) else (lhs, op, rhs)
    let (l, r) ← first.unify second
    return .binary op l r

/-! ## Set membership -/

/-- Membership of a compiled member in a list of constants. -/
def among (item : Operand) (items : List Value) : Outcome Condition :=
  if item.isInteger && items.all (·.toInt?.isSome) then do
    return .contains (.constant (.list (← items.mapM (·.convert .i64)))) item.widened
  else .ok (.contains (.constant (.list items)) item.condition)

/-- Membership of a member in a constant list. -/
def membership (s : Scope) (item list : Expr) : Outcome Condition :=
  match item, list with
  | .member m, .value (.list items) =>
    if items.any (·.isList) then .error (.unsupportedExpression .nestedList)
    else do among (← s.memberOperand m) items
  | .member _, _ => .error (.unsupportedExpression .membershipInNonConstant)
  | _, _ => .error (.unsupportedExpression .membershipOfNonMember)

/-! ## Expressions -/

/-- The condition that an expression says in this scope. -/
def compile (s : Scope) : Expr → Outcome Condition
  | .binary op lhs rhs =>
    if op.isLogical then do return .binary op (← s.compile lhs) (← s.compile rhs)
    else if op = .in then s.membership lhs rhs
    else do s.compare op (← s.operand lhs) (← s.operand rhs)
  | .inList item list => s.membership item list
  | .not _ => .error (.unsupportedExpression .negation)
  | .isNull _ => .error (.unsupportedExpression .nullTest)
  | e => .error (.unsupportedExpression (.notPredicate e))

end Scope
end RowGraph
