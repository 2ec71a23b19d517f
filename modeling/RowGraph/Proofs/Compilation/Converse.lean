import RowGraph.Proofs.Compilation.Rules

/-!
Comparisons written backwards.

A comparison says the same once its operands have changed places and its operator is the converse
one.  The compiler sees to the order of the operands by itself, so the main statement is more than
that: whichever comparisons of an expression are written backwards, it compiles in every scope to the
very condition that it compiles to as it stands, or to none in either form.
-/

namespace RowGraph

/-- The expression with the comparisons at the chosen places written backwards.  A place is the way
that leads to it from the whole expression, where each step goes to the first part or, if it is
`true`, to the second one. -/
def Expr.turn (chosen : List Bool → Bool) : Expr → Expr
  | .binary op lhs rhs =>
    let first := lhs.turn fun place => chosen (false :: place)
    let second := rhs.turn fun place => chosen (true :: place)
    if op.isComparison && chosen [] then .binary op.converse second first
    else .binary op first second
  | .inList item list =>
    .inList (item.turn fun place => chosen (false :: place))
      (list.turn fun place => chosen (true :: place))
  | .isNull e => .isNull (e.turn fun place => chosen (false :: place))
  | .not e => .not (e.turn fun place => chosen (false :: place))
  | .member m => .member m
  | .value v => .value v

namespace Scope

variable {s : Scope}

/-! ## Parts that hold no comparison -/

/-- A side of a comparison is a member or a constant, in which nothing can be turned. -/
theorem operand_turn {chosen : List Bool → Bool} {e : Expr} {o : Operand} :
    s.operand (e.turn chosen) = .ok o ↔ s.operand e = .ok o := by
  cases e with
  | binary op lhs rhs =>
    rw [Expr.turn]
    split
    next => simp [operand]
    next => simp [operand]
  | inList item list => simp [Expr.turn, operand]
  | isNull e => simp [Expr.turn, operand]
  | member m => rfl
  | not e => simp [Expr.turn, operand]
  | value v => rfl

theorem turn_eq_member_iff {chosen : List Bool → Bool} {e : Expr} {m : Member} :
    e.turn chosen = .member m ↔ e = .member m := by
  cases e <;> grind [Expr.turn]

theorem turn_eq_value_iff {chosen : List Bool → Bool} {e : Expr} {v : Value} :
    e.turn chosen = .value v ↔ e = .value v := by
  cases e <;> grind [Expr.turn]

theorem membership_turn {chosen chosen' : List Bool → Bool} {item list : Expr} {c : Condition} :
    s.membership (item.turn chosen) (list.turn chosen') = .ok c ↔ s.membership item list = .ok c := by
  simp only [membership_eq_ok_iff, turn_eq_member_iff, turn_eq_value_iff]

/-! ## Rules read backwards -/

theorem compile_connective_eq_ok_iff {op : Operator} (hop : op.isLogical = true) {lhs rhs : Expr}
    {c : Condition} :
    s.compile (.binary op lhs rhs) = .ok c ↔
      ∃ l r, s.compile lhs = .ok l ∧ s.compile rhs = .ok r ∧ c = .binary op l r := by
  simp only [compile_eq_ok_iff]
  constructor
  · intro h
    cases h with
    | connective _ hlhs hrhs => exact ⟨_, _, hlhs, hrhs, rfl⟩
    | comparison hcomparison => simp [hop, Operator.isComparison_iff] at hcomparison
    | isIn => cases hop
  · rintro ⟨l, r, hlhs, hrhs, rfl⟩
    exact .connective hop hlhs hrhs

theorem compile_comparison_eq_ok_iff {op : Operator} (hop : op.isComparison = true)
    {lhs rhs : Expr} {c : Condition} :
    s.compile (.binary op lhs rhs) = .ok c ↔
      ∃ o o', s.operand lhs = .ok o ∧ s.operand rhs = .ok o' ∧
        (s.Ordered op o o' c ∨ s.Ordered op.converse o' o c) := by
  rw [compile_eq_ok_iff]
  constructor
  · intro h
    cases h with
    | connective hlogical => simp [hlogical, Operator.isComparison_iff] at hop
    | comparison _ hlhs hrhs hc => exact ⟨_, _, hlhs, hrhs, hc⟩
    | isIn => cases hop
  · rintro ⟨o, o', hlhs, hrhs, hc⟩
    exact .comparison hop hlhs hrhs hc

/-- A comparison compiles to the same condition from either side. -/
theorem compile_converse_eq_ok_iff {op : Operator} (hop : op.isComparison = true) {lhs rhs : Expr}
    {c : Condition} :
    s.compile (.binary op.converse rhs lhs) = .ok c ↔ s.compile (.binary op lhs rhs) = .ok c := by
  have hconverse : op.converse.isComparison = true := by rw [Operator.isComparison_converse, hop]
  rw [compile_comparison_eq_ok_iff hop, compile_comparison_eq_ok_iff hconverse,
    Operator.converse_converse]
  constructor
  · rintro ⟨o, o', hrhs, hlhs, hc⟩
    exact ⟨o', o, hlhs, hrhs, hc.symm⟩
  · rintro ⟨o, o', hlhs, hrhs, hc⟩
    exact ⟨o', o, hrhs, hlhs, hc.symm⟩

/-! ## Expressions turned in any places -/

/-- Whichever comparisons of an expression are written backwards, it compiles exactly when it did,
and then to the same condition. -/
theorem compile_turn_eq_ok_iff (s : Scope) (chosen : List Bool → Bool) (e : Expr) (c : Condition) :
    s.compile (e.turn chosen) = .ok c ↔ s.compile e = .ok c := by
  induction e generalizing chosen c with
  | binary op lhs rhs ihl ihr =>
    cases hop : op.isComparison with
    | true =>
      -- Nothing inside the two sides can be turned, so only this comparison itself matters.
      have hkept : ∀ {first second : List Bool → Bool},
          s.compile (.binary op (lhs.turn first) (rhs.turn second)) = .ok c ↔
            s.compile (.binary op lhs rhs) = .ok c := by
        simp only [compile_comparison_eq_ok_iff hop, operand_turn, implies_true]
      simp only [Expr.turn, hop, Bool.true_and]
      split
      next => rw [compile_converse_eq_ok_iff hop, hkept]
      next => exact hkept
    | false =>
      simp only [Expr.turn, hop, Bool.false_and, Bool.false_eq_true, if_false]
      cases hlogical : op.isLogical with
      | true => simp only [compile_connective_eq_ok_iff hlogical, ihl, ihr]
      | false =>
        obtain rfl : op = .in := by
          by_contra hin
          have hcomparison := Operator.isComparison_iff.mpr ⟨hlogical, hin⟩
          rw [hop] at hcomparison
          cases hcomparison
        exact membership_turn
  | inList item list _ _ => exact membership_turn
  | isNull e _ => simp [Expr.turn, compile]
  | member m => rfl
  | not e _ => simp [Expr.turn, compile]
  | value v => rfl

/-- The second of two comparisons, turned. -/
example (m m' : Member) :
    (Expr.and (.binary .lt (.member m) (.member m')) (.binary .le (.member m) (.member m'))).turn
        (· == [true]) =
      .and (.binary .lt (.member m) (.member m')) (.binary .ge (.member m') (.member m)) := rfl

end Scope
end RowGraph
