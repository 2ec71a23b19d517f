import RowGraph.Operator
import RowGraph.Value.Basic

/-!
Compiled predicates.

A condition names the parameters of its statement and the columns of their tables.  It refers to
nothing else, so it can be evaluated over rows and written as a statement's text alike.
-/

namespace RowGraph

inductive Builtin where
  /-- Membership of the second argument in the list that is the first. -/
  | contains
  /-- The single argument as a value of the given type. -/
  | convert (ty : ColumnType)
  deriving DecidableEq

namespace Builtin

def arity : Builtin → Nat
  | contains => 2
  | convert _ => 1

def name : Builtin → String
  | contains => "contains"
  | convert ty => "convert<" ++ ty.name ++ ">"

def inspect : Builtin → String
  | contains => "Contains"
  | convert ty => "Convert(" ++ ty.kindName ++ ")"

end Builtin

inductive Condition where
  | binary (op : Operator) (lhs rhs : Condition)
  | call (f : Builtin) (args : List Condition)
  | constant (v : Value)
  /-- A column of a parameter. -/
  | member (param column : String)
  /-- A parameter as a whole, which is compared by its key column. -/
  | parameter (param key : String)

namespace Condition

def eq (lhs rhs : Condition) : Condition := binary .eq lhs rhs
def and (lhs rhs : Condition) : Condition := binary .and lhs rhs

def convert (ty : ColumnType) (c : Condition) : Condition := call (.convert ty) [c]
def contains (list item : Condition) : Condition := call .contains [list, item]

/-! ## What a condition reads -/

/-- The column that an operand reads, seen through conversions. -/
def column? : Condition → Option (String × String)
  | member param column => some (param, column)
  | parameter param key => some (param, key)
  | call (.convert _) (c :: _) => c.column?
  | _ => none

/-- The parameter that an operand is rooted at, if it reads a column. -/
def root? (c : Condition) : Option String :=
  c.column?.map Prod.fst

mutual
/-- The roots of all parts of a condition from left to right, with repetitions. -/
def roots : Condition → List String
  | binary _ lhs rhs => lhs.roots ++ rhs.roots
  | call f args => (call f args).root?.toList ++ rootsOf args
  | constant _ => []
  | member param _ => [param]
  | parameter param _ => [param]

def rootsOf : List Condition → List String
  | [] => []
  | c :: rest => c.roots ++ rootsOf rest
end

/-- The parameters that a condition reads from, in the order of their first occurrence. -/
def params (c : Condition) : List String :=
  c.roots.eraseDups

/-! ## Conjunctions -/

/-- The parts of a condition that must all hold, from left to right.  Only conjunctions are taken
apart. -/
def conjuncts : Condition → List Condition
  | binary .and lhs rhs => lhs.conjuncts ++ rhs.conjuncts
  | c => [c]

@[simp] theorem conjuncts_and (lhs rhs : Condition) :
    (and lhs rhs).conjuncts = lhs.conjuncts ++ rhs.conjuncts := rfl

theorem conjuncts_ne_nil (c : Condition) : c.conjuncts ≠ [] := by
  fun_induction conjuncts c with
  | case1 lhs rhs ihl _ => simp [ihl]
  | case2 => simp

/-- A further condition beside those that are already asked for. -/
def conjoin (existing : Option Condition) (c : Condition) : Condition :=
  match existing with
  | some e => e.and c
  | none => c

/-! ## Equality -/

mutual
/-- The two conditions are built alike, floating-point constants being compared as numbers. -/
def same : Condition → Condition → Bool
  | binary op lhs rhs, binary op' lhs' rhs' => op == op' && lhs.same lhs' && rhs.same rhs'
  | call f args, call f' args' => f == f' && sameArgs args args'
  | constant v, constant v' => v.same v'
  | member param column, member param' column' => param == param' && column == column'
  | parameter param key, parameter param' key' => param == param' && key == key'
  | _, _ => false

def sameArgs : List Condition → List Condition → Bool
  | [], [] => true
  | c :: rest, c' :: rest' => c.same c' && sameArgs rest rest'
  | _, _ => false
end

/-! ## Text of conditions in messages -/

mutual
def inspect : Condition → String
  | binary op lhs rhs => "(" ++ lhs.inspect ++ " " ++ op.symbol ++ " " ++ rhs.inspect ++ ")"
  | call f args => f.name ++ "(" ++ inspectArgs args ++ ")"
  | constant v => v.inspect
  | member param column => param ++ "." ++ column
  | parameter param _ => param

def inspectArgs : List Condition → String
  | [] => ""
  | [c] => c.inspect
  | c :: d :: rest => c.inspect ++ ", " ++ inspectArgs (d :: rest)
end

/-! ## Calls with the wrong number of arguments -/

mutual
/-- The first call, from the outside in and from left to right, whose arguments do not fit its
function. -/
def badCall? : Condition → Option (Builtin × Nat)
  | binary _ lhs rhs => lhs.badCall? <|> rhs.badCall?
  | call f args => if args.length = f.arity then badCallIn? args else some (f, args.length)
  | constant _ => none
  | member _ _ => none
  | parameter _ _ => none

def badCallIn? : List Condition → Option (Builtin × Nat)
  | [] => none
  | c :: rest => c.badCall? <|> badCallIn? rest
end

end Condition
end RowGraph
