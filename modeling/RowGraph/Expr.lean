import RowGraph.Operator
import RowGraph.Value.Basic

/-!
Predicates as a caller writes them.

An expression speaks of models and their members, not of tables and columns.  A member starts at a
parameter of the statement, named or left to be found by its model, and may follow one reference.
-/

namespace RowGraph

/-! ## Members -/

/-- How a member names the parameter it starts at. -/
inductive ParamRef where
  /-- Whichever parameter of the member's model is in scope. -/
  | implicit
  /-- The parameter of this name. -/
  | named (name : String)
  deriving DecidableEq

/-- A chain of member names read from a parameter of a model.  The empty chain is the parameter
itself. -/
structure Member where
  param : ParamRef
  model : String
  path : List String
  deriving DecidableEq

namespace Member

/-- The member of a model, read from whichever parameter of that model is in scope. -/
def ofModel (model : String) (path : List String) : Member :=
  ⟨.implicit, model, path⟩

/-- The member read from the parameter of the given name. -/
def rootedAt (m : Member) (param : String) : Member :=
  { m with param := .named param }

/-- The member as a dotted path from its parameter or, without one, from its model. -/
def dotted (m : Member) : String :=
  let root := match m.param with
    | .implicit => m.model
    | .named name => name
  String.intercalate "." (root :: m.path)

end Member

/-! ## Expressions -/

inductive Expr where
  | binary (op : Operator) (lhs rhs : Expr)
  | inList (item list : Expr)
  | isNull (e : Expr)
  | member (m : Member)
  | not (e : Expr)
  | value (v : Value)
  deriving DecidableEq

instance : Coe Member Expr := ⟨Expr.member⟩
instance : Coe Value Expr := ⟨Expr.value⟩

namespace Expr

def eq (lhs rhs : Expr) : Expr := binary .eq lhs rhs
def and (lhs rhs : Expr) : Expr := binary .and lhs rhs
def or (lhs rhs : Expr) : Expr := binary .or lhs rhs

/-- The two expressions are written alike, floating-point constants being compared as numbers. -/
def same : Expr → Expr → Bool
  | binary op lhs rhs, binary op' lhs' rhs' => op == op' && lhs.same lhs' && rhs.same rhs'
  | inList item list, inList item' list' => item.same item' && list.same list'
  | isNull e, isNull e' => e.same e'
  | member m, member m' => m == m'
  | not e, not e' => e.same e'
  | value v, value v' => v.same v'
  | _, _ => false

end Expr

namespace Member

def compareWith (op : Operator) (m : Member) (rhs : Expr) : Expr :=
  .binary op m rhs

def within (m : Member) (items : Expr) : Expr :=
  .inList m items

end Member

/-! ## Text of expressions in messages -/

def ParamRef.inspect : ParamRef → String
  | implicit => "Implicit"
  | named name => "Named(" ++ Text.quoted name ++ ")"

def Member.inspect (m : Member) : String :=
  "ExprMember \x7b param: " ++ m.param.inspect ++ ", model: ModelRef(" ++ m.model ++ "), path: ["
    ++ String.intercalate ", " (m.path.map Text.quoted) ++ "] \x7d"

def Expr.inspect : Expr → String
  | binary op lhs rhs =>
    "BinaryOp(ExprBinaryOp \x7b lhs: " ++ lhs.inspect ++ ", op: " ++ op.symbol ++ ", rhs: "
      ++ rhs.inspect ++ " \x7d)"
  | inList item list =>
    "InList(ExprInList \x7b expr: " ++ item.inspect ++ ", list: " ++ list.inspect ++ " \x7d)"
  | isNull e => "IsNull(" ++ e.inspect ++ ")"
  | member m => "Member(" ++ m.inspect ++ ")"
  | not e => "Not(" ++ e.inspect ++ ")"
  | value v => "Value(" ++ v.inspect ++ ")"

end RowGraph
