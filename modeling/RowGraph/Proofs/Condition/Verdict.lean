import RowGraph.Proofs.Comparison

/-!
Conditions in three-valued logic.

A database does not always say yes or no to a predicate.  A comparison with null is unknown, and what
is unknown is carried through connectives by Kleene's tables.  The verdict on a condition is defined
here on the condition alone; a conversion has no part in it, because statements do not write it.
-/

namespace RowGraph

/-- How a database decides a predicate.  Only the rows for which it holds are kept. -/
inductive Verdict where
  | holds
  | fails
  | unknown
  deriving DecidableEq

instance (op : Operator) (order : Ordering) : Decidable (op.Relates order) :=
  decidable_of_iff _ Value.holds_iff_relates

namespace Verdict

def and : Verdict → Verdict → Verdict
  | fails, _ => fails
  | _, fails => fails
  | holds, holds => holds
  | _, _ => unknown

def or : Verdict → Verdict → Verdict
  | holds, _ => holds
  | _, holds => holds
  | fails, fails => fails
  | _, _ => unknown

/-- A comparison is unknown where an operand is null or the two do not compare. -/
def ofComparison (op : Operator) (a b : Value) : Verdict :=
  if a = .null ∨ b = .null then unknown
  else
    match a.compare? b with
    | some order => if op.Relates order then holds else fails
    | none => unknown

/-- The items of a list as they are written: in place of no items stands one null. -/
def listed (items : List Value) : List Value :=
  if items.isEmpty then [.null] else items

/-- Membership in a list.  It does not fail where the item or some element is null, because that
element might be the item. -/
def ofMembership (item : Value) (items : List Value) : Verdict :=
  if ∃ e ∈ listed items, ofComparison .eq item e = holds then holds
  else if item = .null ∨ .null ∈ listed items then unknown
  else fails

theorem and_eq_holds {a b : Verdict} : a.and b = holds ↔ a = holds ∧ b = holds := by
  cases a <;> cases b <;> simp [and]

theorem or_eq_holds {a b : Verdict} : a.or b = holds ↔ a = holds ∨ b = holds := by
  cases a <;> cases b <;> simp [or]

theorem ofComparison_eq_holds {op : Operator} {a b : Value} :
    ofComparison op a b = holds ↔ Value.Related op a b := by
  rw [ofComparison, Value.Related]
  by_cases hnull : a = .null ∨ b = .null
  · rw [if_pos hnull]
    constructor
    · intro h
      cases h
    · rintro ⟨ha, hb, -⟩
      exact absurd hnull (not_or.mpr ⟨ha, hb⟩)
  · rw [if_neg hnull]
    obtain ⟨ha, hb⟩ := not_or.mp hnull
    cases a.compare? b with
    | none => simp
    | some order => simp [ha, hb]

/-- An element that equals a known item is known itself. -/
theorem ofComparison_eq_eq_holds {v e : Value} (hv : v ≠ .null) :
    ofComparison .eq v e = holds ↔ v.equals e = true := by
  rw [ofComparison_eq_holds, Value.Related, Value.equals, beq_iff_eq]
  constructor
  · rintro ⟨-, -, order, horder, rfl⟩
    exact horder
  · intro hequal
    refine ⟨hv, ?_, .eq, hequal, rfl⟩
    rintro rfl
    cases v with
    | list items => cases hequal
    | scalar v => cases v <;> simp_all [Value.compare?, Scalar.compare?, Scalar.toInt?]

theorem ofMembership_eq_holds {v : Value} {items : List Value} :
    ofMembership v items = holds ↔ v.OneOf items := by
  have hiff : ofMembership v items = holds ↔ ∃ e ∈ listed items, ofComparison .eq v e = holds := by
    rw [ofMembership]
    split
    next h => simp [h]
    next h =>
      simp only [h, iff_false]
      split <;> exact nofun
  rw [hiff, Value.OneOf]
  by_cases hv : v = .null
  · subst hv
    simp [ofComparison]
  · rw [listed]
    cases items with
    | nil => simp [ofComparison]
    | cons item rest => simp [ofComparison_eq_eq_holds hv, hv]

end Verdict

namespace Condition

/-- The value of an operand, conversions left aside. -/
def valueIn (input : Input) : Condition → Value
  | constant v => v
  | member param column => (input param column).getD .null
  | parameter param key => (input param key).getD .null
  | call (.convert _) [c] => c.valueIn input
  | _ => .null

def membershipIn (input : Input) (item list : Condition) : Verdict :=
  match list.valueIn input with
  | .list items => .ofMembership (item.valueIn input) items
  | .scalar _ => .unknown

/-- How a database decides the condition for the rows at hand. -/
def verdict (input : Input) : Condition → Verdict
  | binary .and lhs rhs => (lhs.verdict input).and (rhs.verdict input)
  | binary .or lhs rhs => (lhs.verdict input).or (rhs.verdict input)
  | binary .in item list => membershipIn input item list
  | binary op lhs rhs => .ofComparison op (lhs.valueIn input) (rhs.valueIn input)
  | call .contains [list, item] => membershipIn input item list
  | _ => .unknown

theorem verdict_comparison {op : Operator} (hop : op.isComparison = true) (input : Input)
    (lhs rhs : Condition) :
    (binary op lhs rhs).verdict input =
      .ofComparison op (lhs.valueIn input) (rhs.valueIn input) := by
  cases op with
  | and => cases hop
  | or => cases hop
  | «in» => cases hop
  | _ => rfl

end Condition
end RowGraph
