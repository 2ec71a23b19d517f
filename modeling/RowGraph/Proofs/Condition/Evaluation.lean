import RowGraph.Proofs.Comparison
import RowGraph.Statement.Parameters

/-!
What a condition needs of the rows that it is evaluated on.

A condition can be evaluated on rows that have a value for every column that it reads.  Integer
columns have to hold integers there, because a condition may convert them.
-/

namespace RowGraph

/-! ## Rows that a condition can be evaluated on -/

mutual
/-- The parameters and columns that a condition reads. -/
def Condition.columns : Condition → List (String × String)
  | .binary _ lhs rhs => lhs.columns ++ rhs.columns
  | .call _ args => Condition.columnsOf args
  | .constant _ => []
  | .member param column => [(param, column)]
  | .parameter param key => [(param, key)]

def Condition.columnsOf : List Condition → List (String × String)
  | [] => []
  | c :: rest => c.columns ++ Condition.columnsOf rest
end

/-- The type of the column that a name denotes in the table of a parameter. -/
def Parameters.typeOf? (ps : Parameters) (param column : String) : Option ColumnType :=
  (ps.find? param).bind fun d => (d.column? column).map (·.ty)

/-- The rows at hand have a value for every column in the list, and for an integer column it is an
integer of any width or null. -/
def Supplies (input : Input) (ps : Parameters) (columns : List (String × String)) : Prop :=
  ∀ place ∈ columns, ∃ v, input place.1 place.2 = some v ∧
    ((ps.typeOf? place.1 place.2).any (·.isInteger) = true → v.IntegerOrNull)

theorem supplies_append {input : Input} {ps : Parameters} {as bs : List (String × String)} :
    Supplies input ps (as ++ bs) ↔ Supplies input ps as ∧ Supplies input ps bs :=
  List.forall_mem_append

/-! ## Evaluating single steps -/

/-- The condition reads one column and nothing else. -/
inductive Condition.IsColumn (param column : String) : Condition → Prop
  | member : IsColumn param column (.member param column)
  | parameter : IsColumn param column (.parameter param column)

namespace Condition.IsColumn

variable {param column : String} {c : Condition}

theorem columns_eq (h : c.IsColumn param column) : c.columns = [(param, column)] := by
  cases h <;> rfl

theorem eval_eq (h : c.IsColumn param column) {input : Input} {v : Value}
    (hv : input param column = some v) : c.eval input = .ok v := by
  cases h <;> rw [eval, read, hv]

end Condition.IsColumn

namespace Condition

/-- A comparison whose sides have values answers whether these satisfy it. -/
theorem evalBool_comparison {op : Operator} (hop : op.isComparison = true) {input : Input}
    {lhs rhs : Condition} {a b : Value} (ha : lhs.eval input = .ok a)
    (hb : rhs.eval input = .ok b) :
    (binary op lhs rhs).evalBool input = .ok (a.satisfies op b) := by
  cases op with
  | and => cases hop
  | or => cases hop
  | «in» => cases hop
  | _ =>
    simp only [evalBool, eval, ha, hb]
    rfl

/-- Membership in a constant list, of a member that has a value. -/
theorem evalBool_contains {input : Input} {item : Condition} {items : List Value} {v : Value}
    (hv : item.eval input = .ok v) :
    (contains (.constant (.list items)) item).evalBool input =
      .ok (!v.isNull && items.any (·.equals v)) := by
  rw [evalBool, contains, eval, hv]
  rfl

end Condition

end RowGraph
