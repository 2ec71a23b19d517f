/-!
Binary operators of predicates: the six comparisons, the two connectives and set membership.
-/

namespace RowGraph

inductive Operator where
  | eq
  | ne
  | lt
  | le
  | gt
  | ge
  | and
  | or
  | in
  deriving DecidableEq

namespace Operator

/-- The operator as it stands in statements and messages. -/
def symbol : Operator → String
  | eq => "="
  | ne => "<>"
  | lt => "<"
  | le => "<="
  | gt => ">"
  | ge => ">="
  | and => "AND"
  | or => "OR"
  | .in => "IN"

def isLogical : Operator → Bool
  | and | or => true
  | _ => false

/-- The six operators that compare two values. -/
def isComparison : Operator → Bool
  | eq | ne | lt | le | gt | ge => true
  | _ => false

/-- The operator that says the same of two operands once they have changed places. -/
def converse : Operator → Operator
  | lt => gt
  | le => ge
  | gt => lt
  | ge => le
  | op => op

/-- Whether two values that stand in the given order satisfy a comparison. -/
def holds (op : Operator) (order : Ordering) : Bool :=
  match op with
  | eq => order == .eq
  | ne => order != .eq
  | lt => order == .lt
  | le => order != .gt
  | gt => order == .gt
  | ge => order != .lt
  | _ => false

@[simp] theorem converse_converse (op : Operator) : op.converse.converse = op := by
  cases op <;> rfl

@[simp] theorem isComparison_converse (op : Operator) :
    op.converse.isComparison = op.isComparison := by
  cases op <;> rfl

theorem holds_converse (op : Operator) (order : Ordering) :
    op.converse.holds order.swap = op.holds order := by
  cases op <;> cases order <;> rfl

/-- The converse of a comparison is the one operator that holds of two values in the reverse order
where the comparison holds of them in their own. -/
theorem eq_converse_iff {op other : Operator} (hop : op.isComparison = true) :
    other = op.converse ↔ ∀ order : Ordering, other.holds order.swap = op.holds order := by
  constructor
  · rintro rfl order
    exact holds_converse op order
  · intro h
    -- The three orders tell the operators apart.
    have hlt := h .lt
    have heq := h .eq
    have hgt := h .gt
    revert hop hlt heq hgt
    cases op <;> cases other <;> decide

example : [eq, ne, lt, le, gt, ge].map converse = [eq, ne, gt, ge, lt, le] := rfl

end Operator
end RowGraph
