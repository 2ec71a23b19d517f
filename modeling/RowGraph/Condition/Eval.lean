import RowGraph.Condition.Basic
import RowGraph.Row
import RowGraph.Value.Convert

/-!
Evaluation of conditions over rows.

A comparison with null, or between values that do not compare, is false, as it is for a database
that keeps only the rows for which a condition is true.  A conjunction whose first part is false and
a disjunction whose first part is true do not look at their second part.
-/

namespace RowGraph

def Value.satisfies (op : Operator) (a b : Value) : Bool :=
  !a.isNull && !b.isNull &&
    match a.compare? b with
    | some order => op.holds order
    | none => false

namespace Condition

/-- A value taken as the answer of a predicate.  Null does not confirm. -/
def truth : Value → Outcome Bool
  | .bool b => .ok b
  | .null => .ok false
  | v => .error (.typeConversion v "Bool")

@[simp] theorem truth_bool (b : Bool) : truth (.bool b) = .ok b := rfl

def read (input : Input) (param column : String) : Outcome Value :=
  match input param column with
  | some v => .ok v
  | none => .error (.invalidResult (.noValue param column))

def eval (input : Input) : Condition → Outcome Value
  | binary .and lhs rhs => do
    if ← truth (← lhs.eval input) then
      return .bool (← truth (← rhs.eval input))
    else return .bool false
  | binary .or lhs rhs => do
    if ← truth (← lhs.eval input) then return .bool true
    else return .bool (← truth (← rhs.eval input))
  | binary .in lhs rhs => do
    let item ← lhs.eval input
    let list ← rhs.eval input
    return .bool (← list.includes item)
  | binary op lhs rhs => do
    let a ← lhs.eval input
    let b ← rhs.eval input
    return .bool (a.satisfies op b)
  | call .contains [list, item] => do
    let items ← list.eval input
    let v ← item.eval input
    return .bool (← items.includes v)
  | call (.convert ty) [c] => do (← c.eval input).convert ty
  | call f args => .error (.unsupportedExpression (.evaluatedCall f args.length))
  | constant v => .ok v
  | member param column => read input param column
  | parameter param key => read input param key

def evalBool (input : Input) (c : Condition) : Outcome Bool := do
  truth (← c.eval input)

theorem evalBool_and (input : Input) (lhs rhs : Condition) :
    (and lhs rhs).evalBool input =
      (do if ← lhs.evalBool input then rhs.evalBool input else .ok false) := by
  simp only [evalBool, and, eval, bind_assoc]
  congr 1
  funext v
  cases truth v with
  | error e => rfl
  | ok b =>
    cases b with
    | false => rfl
    | true =>
      cases h : rhs.eval input with
      | error e => rfl
      | ok w => cases hw : truth w <;> simp [bind, Except.bind, pure, Except.pure, hw]

theorem evalBool_or (input : Input) (lhs rhs : Condition) :
    (binary .or lhs rhs).evalBool input =
      (do if ← lhs.evalBool input then .ok true else rhs.evalBool input) := by
  simp only [evalBool, eval, bind_assoc]
  congr 1
  funext v
  cases truth v with
  | error e => rfl
  | ok b =>
    cases b with
    | true => rfl
    | false =>
      cases h : rhs.eval input with
      | error e => rfl
      | ok w => cases hw : truth w <;> simp [bind, Except.bind, pure, Except.pure, hw]

end Condition
end RowGraph
