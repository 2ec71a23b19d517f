import Mathlib
import RowGraph.Proofs.Compilation.Rules

/-!
What an expression says of the rows at hand.

The meaning of an expression is given here directly, without a condition in between: its members
stand for columns of the parameters that they start at, and its comparisons are read with the
operator and the operands as they are written.  The main statement is that compiling an expression
keeps this meaning.  Turning a comparison round, widening columns and constants and folding a path
into a column change nothing about it, and no condition that comes out of the compiler fails on rows
that supply what it reads.
-/

namespace RowGraph
namespace Scope

/-- The expression is true of the rows at hand, read as it is written. -/
def Means (s : Scope) (input : Input) : Expr → Prop
  | .binary .and lhs rhs => s.Means input lhs ∧ s.Means input rhs
  | .binary .or lhs rhs => s.Means input lhs ∨ s.Means input rhs
  | .binary .in item list | .inList item list =>
    ∃ v items, s.valueOf? input item = some v ∧ s.valueOf? input list = some (.list items) ∧
      v.OneOf items
  | .binary op lhs rhs =>
    ∃ a b, s.valueOf? input lhs = some a ∧ s.valueOf? input rhs = some b ∧ Value.Related op a b
  | _ => False

theorem compare_eq_ok {s : Scope} {op : Operator} {lhs rhs : Operand} {c : Condition}
    (h : s.compare op lhs rhs = .ok c) :
    (∃ l r, lhs.Unified l ∧ rhs.Unified r ∧ c = .binary op l r) ∨
    (∃ l r, lhs.Unified l ∧ rhs.Unified r ∧ c = .binary op.converse r l) := by
  rcases compare_eq_ok_iff.mp h with ⟨-, l, r, hunify, rfl⟩ | ⟨-, r, l, hunify, rfl⟩
  · obtain ⟨hl, hr⟩ := Operand.unify_eq_ok hunify
    exact Or.inl ⟨l, r, hl, hr, rfl⟩
  · obtain ⟨hr, hl⟩ := Operand.unify_eq_ok hunify
    exact Or.inr ⟨l, r, hl, hr, rfl⟩

/-- A compiled comparison answers whether the values of its operands satisfy it as it was written,
whichever side came to stand first. -/
theorem evalBool_compare {s : Scope} {op : Operator} {lhs rhs : Operand} {c : Condition}
    {input : Input} {a b : Value} (hop : op.isComparison = true)
    (h : s.compare op lhs rhs = .ok c) (ha : lhs.condition.eval input = .ok a)
    (haint : lhs.isNarrow = true → a.IntegerOrNull) (hb : rhs.condition.eval input = .ok b)
    (hbint : rhs.isNarrow = true → b.IntegerOrNull) :
    c.evalBool input = .ok (a.satisfies op b) := by
  rcases compare_eq_ok h with ⟨l, r, hl, hr, rfl⟩ | ⟨l, r, hl, hr, rfl⟩
  · obtain ⟨a', ha', hsa⟩ := hl.eval ha haint
    obtain ⟨b', hb', hsb⟩ := hr.eval hb hbint
    rw [Condition.evalBool_comparison hop ha' hb', hsa.satisfies hsb]
  · obtain ⟨a', ha', hsa⟩ := hl.eval ha haint
    obtain ⟨b', hb', hsb⟩ := hr.eval hb hbint
    have hconv : op.converse.isComparison = true := by rw [Operator.isComparison_converse, hop]
    rw [Condition.evalBool_comparison hconv hb' ha', Value.satisfies_converse,
      hsa.satisfies hsb]

/-- What a comparison reads are the columns of its two operands. -/
theorem columns_compare {s : Scope} {op : Operator} {lhs rhs : Operand} {c : Condition}
    {input : Input} {ps : Parameters} (h : s.compare op lhs rhs = .ok c)
    (hs : Supplies input ps c.columns) :
    Supplies input ps lhs.condition.columns ∧ Supplies input ps rhs.condition.columns := by
  rcases compare_eq_ok h with ⟨l, r, hl, hr, rfl⟩ | ⟨l, r, hl, hr, rfl⟩
  · rw [Condition.columns, hl.columns_eq, hr.columns_eq, supplies_append] at hs
    exact hs
  · rw [Condition.columns, hl.columns_eq, hr.columns_eq, supplies_append] at hs
    exact hs.symm

theorem among_eq_ok {o : Operand} {items : List Value} {c : Condition}
    (h : among o items = .ok c) :
    ∃ items' item, o.Unified item ∧ List.Forall₂ Value.SameNumber items items' ∧
      c = .contains (.constant (.list items')) item := by
  rw [among] at h
  split at h
  next hcond =>
    rw [Outcome.bind_eq_ok] at h
    obtain ⟨items', hitems, h⟩ := h
    cases h
    rw [Bool.and_eq_true, List.all_eq_true] at hcond
    exact ⟨items', o.widened, .widened,
      Value.sameNumber_of_convert hcond.2 (Outcome.mapM_eq_ok.mp hitems), rfl⟩
  next =>
    cases h
    exact ⟨items, o.condition, .same, List.forall₂_same.mpr fun v _ => .refl v, rfl⟩

theorem membership_eq_ok {s : Scope} {item list : Expr} {c : Condition}
    (h : s.membership item list = .ok c) :
    ∃ items o items' c', list = .value (.list items) ∧ s.operand item = .ok o ∧ o.Unified c' ∧
      List.Forall₂ Value.SameNumber items items' ∧
      c = .contains (.constant (.list items')) c' := by
  obtain ⟨m, items, rfl, rfl, -, o, ho, hamong⟩ := membership_eq_ok_iff.mp h
  obtain ⟨items', c', hunified, hitems, hc⟩ := among_eq_ok hamong
  exact ⟨items, o, items', c', rfl, ho, hunified, hitems, hc⟩

/-- What a membership reads are the columns of its item. -/
theorem columns_contains {o : Operand} {items : List Value} {c : Condition} (h : o.Unified c) :
    (Condition.contains (.constant (.list items)) c).columns = o.condition.columns := by
  rw [← h.columns_eq]
  exact List.append_nil _

/-- A compiled membership answers whether the value of its member is one of the items. -/
theorem evalBool_membership {s : Scope} {item list : Expr} {c : Condition} {input : Input}
    (distinct : ∀ entry ∈ s.params.entries, entry.2.NamesDistinct)
    (h : s.membership item list = .ok c) (hs : Supplies input s.params c.columns) :
    ∃ v items, s.valueOf? input item = some v ∧ s.valueOf? input list = some (.list items) ∧
      c.evalBool input = .ok (!v.isNull && items.any (·.equals v)) := by
  obtain ⟨items, o, items', c', rfl, ho, hunified, hitems, rfl⟩ := membership_eq_ok h
  rw [columns_contains hunified] at hs
  obtain ⟨v, hv, hvalue, hint⟩ := eval_operand distinct ho hs
  obtain ⟨w, hw, hsame⟩ := hunified.eval hv hint
  refine ⟨v, items, hvalue, rfl, ?_⟩
  rw [Condition.evalBool_contains hw, hsame.isNull, Value.any_equals_congr hsame hitems]

theorem means_comparison {s : Scope} {input : Input} {op : Operator} {lhs rhs : Expr}
    (hop : op.isComparison = true) :
    s.Means input (.binary op lhs rhs) ↔
      ∃ a b, s.valueOf? input lhs = some a ∧ s.valueOf? input rhs = some b ∧
        Value.Related op a b := by
  cases op with
  | and => cases hop
  | or => cases hop
  | «in» => cases hop
  | _ => exact Iff.rfl

/-- Compiling keeps the meaning of an expression: on rows that supply what it reads, the compiled
condition is evaluated without failing, and it is true exactly when the expression is. -/
theorem evalBool_compile {s : Scope} {e : Expr} {c : Condition} {input : Input}
    (distinct : ∀ entry ∈ s.params.entries, entry.2.NamesDistinct)
    (h : s.compile e = .ok c) (hs : Supplies input s.params c.columns) :
    ∃ b, c.evalBool input = .ok b ∧ (b = true ↔ s.Means input e) := by
  induction e generalizing c with
  | binary op lhs rhs ihl ihr =>
    rcases compile_binary h with ⟨hop, l, r, hl, hr, rfl⟩ | ⟨rfl, h⟩ | ⟨hop, l, r, hl, hr, h⟩
    · rw [Condition.columns, supplies_append] at hs
      obtain ⟨a, ha, hma⟩ := ihl hl hs.1
      obtain ⟨b, hb, hmb⟩ := ihr hr hs.2
      cases op with
      | and =>
        refine ⟨a && b, ?_, ?_⟩
        · show (Condition.and l r).evalBool input = _
          rw [Condition.evalBool_and, ha, hb]
          cases a <;> rfl
        · rw [Bool.and_eq_true, hma, hmb]
          exact Iff.rfl
      | or =>
        refine ⟨a || b, ?_, ?_⟩
        · rw [Condition.evalBool_or, ha, hb]
          cases a <;> rfl
        · rw [Bool.or_eq_true, hma, hmb]
          exact Iff.rfl
      | _ => cases hop
    · obtain ⟨v, items, hv, hitems, heval⟩ := evalBool_membership distinct h hs
      refine ⟨_, heval, ?_⟩
      rw [Value.oneOf_iff, Means, hv, hitems]
      simp
    · obtain ⟨hsl, hsr⟩ := columns_compare h hs
      obtain ⟨a, ha, hva, hinta⟩ := eval_operand distinct hl hsl
      obtain ⟨b, hb, hvb, hintb⟩ := eval_operand distinct hr hsr
      refine ⟨_, evalBool_compare hop h ha hinta hb hintb, ?_⟩
      rw [Value.satisfies_iff_related, means_comparison hop, hva, hvb]
      simp
  | inList item list _ _ =>
    obtain ⟨v, items, hv, hitems, heval⟩ := evalBool_membership distinct h hs
    refine ⟨_, heval, ?_⟩
    rw [Value.oneOf_iff, Means, hv, hitems]
    simp
  | isNull e _ => cases h
  | member m => cases h
  | not e _ => cases h
  | value v => cases h

/-! ### An instance -/

/-- Players with a narrow column, as a filter reads them. -/
def ofPlayers : Scope where
  registry := .ofCatalogue ⟨[]⟩
  params := .root none
    { model := "Player", table := "players", primaryKey := "id",
      columns := [⟨"id", some "id", .i64, none, true⟩, ⟨"age", some "age", .i16, none, false⟩],
      relations := [], references := [] }
  left := "x"
  right := none

/-- A comparison written with its constant first, or a membership. -/
def olderOrListed : Expr :=
  .or (.binary .lt (.value (.i32 5)) (.member (.ofModel "Player" ["age"])))
    (.inList (.member (.ofModel "Player" [])) (.value (.list [.i16 3, .null])))

theorem evalBool_compile_olderOrListed :
    (∀ entry ∈ ofPlayers.params.entries, entry.2.NamesDistinct) ∧
    ∃ c input, ofPlayers.compile olderOrListed = .ok c ∧
      Supplies input ofPlayers.params c.columns ∧
      ∃ b, c.evalBool input = .ok b ∧ (b = true ↔ ofPlayers.Means input olderOrListed) := by
  have distinct : ∀ entry ∈ ofPlayers.params.entries, entry.2.NamesDistinct := by decide +kernel
  have hcompile : ofPlayers.compile olderOrListed =
      .ok (.binary .or
        (.binary .gt (.convert .i64 (.member "x" "age")) (.constant (.i64 5)))
        (.contains (.constant (.list [.i16 3, .null])) (.parameter "x" "id"))) := by cbv
  have hsupplies : Supplies (fun _ column => some (if column = "age" then .null else .i32 3))
      ofPlayers.params [("x", "age"), ("x", "id")] := by
    intro place hplace
    simp only [List.mem_cons, List.not_mem_nil, or_false] at hplace
    rcases hplace with rfl | rfl
    · exact ⟨.null, rfl, fun _ => Or.inl rfl⟩
    · exact ⟨.i32 3, rfl, fun _ => Or.inr rfl⟩
  exact ⟨distinct, _, _, hcompile, hsupplies, evalBool_compile distinct hcompile hsupplies⟩

end Scope
end RowGraph
