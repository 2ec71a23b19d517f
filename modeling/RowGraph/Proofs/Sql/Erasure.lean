import RowGraph.Proofs.Sql.Placeholders

/-!
What a text does not tell.

A condition that is written with literals leaves a few things out: conversions, the widths of
integers, whether a key column stands for its parameter as a whole, and whether the only null of a
list was put there because the list has no items.  Erasing all this from a condition changes no
character of its text.
-/

namespace RowGraph

/-- The value with its integer, if it is one, in the widest type. -/
def Scalar.written : Scalar → Scalar
  | .i16 n => .i64 n.toInt64
  | .i32 n => .i64 n.toInt64
  | v => v

mutual
/-- The value as its text shows it: integers have one width, and a list has at least one item. -/
def Value.written : Value → Value
  | .scalar v => .scalar v.written
  | .list [] => .list [.null]
  | .list (v :: rest) => .list (v.written :: Value.writtenOf rest)

def Value.writtenOf : List Value → List Value
  | [] => []
  | v :: rest => v.written :: Value.writtenOf rest
end

/-- The condition as its text shows it: without conversions, with the key column in place of a
parameter, and with constants as they are written. -/
def Condition.written : Condition → Condition
  | .binary op lhs rhs => .binary op lhs.written rhs.written
  | .call .contains [list, item] => .contains list.written item.written
  | .call (.convert _) [c] => c.written
  | .call f args => .call f args
  | .constant v => .constant v.written
  | .member param column => .member param column
  | .parameter param key => .member param key

/-! ## Erasing keeps the text -/

namespace Sql

theorem literal_written (flavor : Flavor) (v : Scalar) :
    literal flavor v.written = literal flavor v := by
  cases v with
  | i16 n => exact congrArg toString (Int16.toInt_toInt64 n)
  | i32 n => exact congrArg toString (Int32.toInt_toInt64 n)
  | _ => rfl

variable (flavor : Flavor) (tablePrefix : String)

mutual
theorem chars_ofValue_written : (v : Value) →
    (ofValue v.written).flatMap (Fragment.chars flavor tablePrefix) =
      (ofValue v).flatMap (Fragment.chars flavor tablePrefix)
  | .scalar v => by
    simp only [Value.written, ofValue, List.flatMap_singleton, Fragment.chars, literal_written]
  | .list [] => by
    simp [Value.written, ofValue, ofRest, Fragment.chars, literal]
  | .list (v :: rest) => by
    simp only [Value.written, ofValue, List.flatMap_cons, List.flatMap_append, List.cons_append,
      chars_ofValue_written v, chars_ofRest_written rest]

theorem chars_ofRest_written : (items : List Value) →
    (ofRest (Value.writtenOf items)).flatMap (Fragment.chars flavor tablePrefix) =
      (ofRest items).flatMap (Fragment.chars flavor tablePrefix)
  | [] => rfl
  | v :: rest => by
    simp only [Value.writtenOf, ofRest, List.flatMap_cons, List.flatMap_append, List.cons_append,
      chars_ofValue_written v, chars_ofRest_written rest]
end

theorem chars_ofCondition_written (qualified : Bool) (c : Condition) :
    (ofCondition qualified c.written).flatMap (Fragment.chars flavor tablePrefix) =
      (ofCondition qualified c).flatMap (Fragment.chars flavor tablePrefix) := by
  fun_induction ofCondition qualified c with
  | case1 op lhs rhs ihl ihr => simp [Condition.written, ofCondition, ihl, ihr]
  | case2 list item ihi ihl =>
    simp [Condition.written, Condition.contains, ofCondition, ihi, ihl]
  | case3 ty c ih => rw [Condition.written, ih]
  | case4 f args hcontains hconvert =>
    rw [Condition.written.eq_4 f args hcontains hconvert,
      ofCondition.eq_4 qualified f args hcontains hconvert]
  | case5 v => exact chars_ofValue_written flavor tablePrefix v
  | case6 param column => rfl
  | case7 param key => rfl

theorem layout_ofCondition_written (qualified : Bool) (c : Condition) :
    layout ⟨flavor, .inline, tablePrefix⟩ (ofCondition qualified c.written) =
      layout ⟨flavor, .inline, tablePrefix⟩ (ofCondition qualified c) := by
  rw [← String.toList_inj, toList_layout_inline, toList_layout_inline]
  exact chars_ofCondition_written flavor tablePrefix qualified c

end Sql
end RowGraph
