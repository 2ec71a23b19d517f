import RowGraph.Proofs.Compilation.Shape
import RowGraph.Proofs.Condition.Verdict

/-!
Two truth values for three.

Conditions are evaluated with two truth values, whereas a database has a third one for what it does
not know.  Without negation the difference cannot be seen from outside: a condition that comes out of
the compiler is evaluated to true exactly where a database lets it hold, and to false where it fails
and where it is unknown.
-/

namespace RowGraph

theorem Condition.IsColumn.valueIn_eq {param column : String} {c : Condition}
    (h : c.IsColumn param column) (input : Input) :
    c.valueIn input = (input param column).getD .null := by
  cases h <;> rfl

theorem Condition.IsColumn.eval_eq_read {param column : String} {c : Condition}
    (h : c.IsColumn param column) (input : Input) :
    c.eval input = Condition.read input param column := by
  cases h <;> rfl

theorem Operand.valueIn_widened (o : Operand) (input : Input) :
    o.widened.valueIn input = o.condition.valueIn input := by
  rw [widened]
  split <;> rfl

/-- Unifying changes the value that an operand is evaluated to at most in the width of an integer. -/
theorem Operand.Unified.sameNumber {o : Operand} {c : Condition} (h : o.Unified c) {input : Input}
    {v : Value} (hv : o.condition.eval input = .ok v) (hvalue : o.condition.valueIn input = v)
    (hint : o.isNarrow = true → v.IntegerOrNull) :
    ∃ w, c.eval input = .ok w ∧ (c.valueIn input).SameNumber w := by
  cases h with
  | same => exact ⟨v, hv, hvalue ▸ .refl v⟩
  | widened =>
    obtain ⟨w, hw, hsame⟩ := eval_widened hv hint
    exact ⟨w, hw, by rw [valueIn_widened, hvalue]; exact hsame⟩
  | constant hc hn hw => exact ⟨_, rfl, .refl _⟩

namespace Scope

theorem valueIn_operand {s : Scope} {e : Expr} {o : Operand} (h : s.operand e = .ok o)
    {input : Input} {v : Value} (hv : o.condition.eval input = .ok v) :
    o.condition.valueIn input = v := by
  rcases operand_eq_ok h with ⟨m, rfl, hm⟩ | ⟨u, rfl, rfl⟩
  · obtain ⟨param, d, column, -, -, -, hcolumn, -⟩ := memberOperand_eq_ok hm
    rw [hcolumn.eval_eq_read, Condition.read] at hv
    rw [hcolumn.valueIn_eq]
    cases hread : input param column with
    | some found =>
      rw [hread] at hv
      cases hv
      rfl
    | none =>
      rw [hread] at hv
      cases hv
  · cases hv
    rfl

/-- A side of a comparison, or the item of a membership, is evaluated to the value that a database
sees there, up to the width of an integer. -/
theorem sameNumber_unified {s : Scope} {input : Input}
    (distinct : ∀ entry ∈ s.params.entries, entry.2.NamesDistinct) {e : Expr} {o : Operand}
    (ho : s.operand e = .ok o) {c : Condition} (hc : o.Unified c)
    (hs : Supplies input s.params c.columns) :
    ∃ w, c.eval input = .ok w ∧ (c.valueIn input).SameNumber w := by
  rw [hc.columns_eq] at hs
  obtain ⟨v, hv, -, hint⟩ := eval_operand distinct ho hs
  exact hc.sameNumber hv (valueIn_operand ho hv) hint

theorem evalBool_eq_verdict_of_comparison {input : Input} {op : Operator}
    (hop : op.isComparison = true) {lhs rhs : Condition} {a b : Value}
    (ha : lhs.eval input = .ok a) (hb : rhs.eval input = .ok b)
    (hsa : (lhs.valueIn input).SameNumber a) (hsb : (rhs.valueIn input).SameNumber b) :
    (Condition.binary op lhs rhs).evalBool input =
      .ok (decide ((Condition.binary op lhs rhs).verdict input = .holds)) := by
  rw [Condition.evalBool_comparison hop ha hb, Condition.verdict_comparison hop, ← hsa.satisfies hsb]
  congr 1
  rw [Bool.eq_iff_iff, decide_eq_true_iff, Value.satisfies_iff_related,
    Verdict.ofComparison_eq_holds]

theorem evalBool_eq_verdict_of_membership {input : Input} {item : Condition} {items : List Value}
    {v : Value} (hv : item.eval input = .ok v) (hsame : (item.valueIn input).SameNumber v) :
    (Condition.contains (.constant (.list items)) item).evalBool input =
      .ok (decide
        ((Condition.contains (.constant (.list items)) item).verdict input = .holds)) := by
  have hitems : List.Forall₂ Value.SameNumber items items :=
    List.forall₂_same.mpr fun e _ => .refl e
  rw [Condition.evalBool_contains hv, ← hsame.isNull, ← Value.any_equals_congr hsame hitems]
  congr 1
  rw [Bool.eq_iff_iff, decide_eq_true_iff, Value.oneOf_iff, ← Verdict.ofMembership_eq_holds]
  exact Iff.rfl

/-- A condition that comes out of the compiler is evaluated to true where a database lets it hold,
and to false wherever it does not. -/
theorem evalBool_compile_eq_verdict {s : Scope} {e : Expr} {c : Condition} {input : Input}
    (distinct : ∀ entry ∈ s.params.entries, entry.2.NamesDistinct)
    (h : s.compile e = .ok c) (hs : Supplies input s.params c.columns) :
    c.evalBool input = .ok (decide (c.verdict input = .holds)) := by
  have hcompiled := compiled_compile h
  clear h
  induction hcompiled with
  | @connective op l r hop hlhs hrhs ihl ihr =>
    rw [Condition.columns, supplies_append] at hs
    have hevalLeft := ihl hs.1
    have hevalRight := ihr hs.2
    cases op with
    | and =>
      show (Condition.and l r).evalBool input = _
      rw [Condition.evalBool_and, hevalLeft, hevalRight]
      simp only [Condition.verdict, Verdict.and_eq_holds]
      by_cases hholds : l.verdict input = .holds <;> simp [hholds]
    | or =>
      rw [Condition.evalBool_or, hevalLeft, hevalRight]
      simp only [Condition.verdict, Verdict.or_eq_holds]
      by_cases hholds : l.verdict input = .holds <;> simp [hholds]
    | _ => cases hop
  | comparison hop ho hlhs ho' hrhs =>
    rw [Condition.columns, supplies_append] at hs
    obtain ⟨a, ha, hsa⟩ := sameNumber_unified distinct ho hlhs hs.1
    obtain ⟨b, hb, hsb⟩ := sameNumber_unified distinct ho' hrhs hs.2
    exact evalBool_eq_verdict_of_comparison hop ha hb hsa hsb
  | membership ho hitem hflat =>
    rw [columns_contains hitem, ← hitem.columns_eq] at hs
    obtain ⟨v, hv, hsame⟩ := sameNumber_unified distinct ho hitem hs
    exact evalBool_eq_verdict_of_membership hv hsame

/-! ### A condition with each of the verdicts -/

/-- A comparison that may hold beside a membership. -/
def youngAndListed (ids : List Value) : Expr :=
  .and (.binary .lt (.member (.ofModel "Player" ["age"])) (.value (.i32 20)))
    (.inList (.member (.ofModel "Player" [])) (.value (.list ids)))

/-- Of a player of age 7 with the key 7 it is not known whether it is in a list without items; in a
list with its key it is, and in one with another key it is not. -/
theorem evalBool_compile_eq_verdict_youngAndListed :
    (∀ entry ∈ ofPlayers.params.entries, entry.2.NamesDistinct) ∧
    ∃ input,
      (∃ c, ofPlayers.compile (youngAndListed []) = .ok c ∧
        Supplies input ofPlayers.params c.columns ∧
        c.verdict input = .unknown ∧ c.evalBool input = .ok false) ∧
      (∃ c, ofPlayers.compile (youngAndListed [.i64 7]) = .ok c ∧
        Supplies input ofPlayers.params c.columns ∧
        c.verdict input = .holds ∧ c.evalBool input = .ok true) ∧
      ∃ c, ofPlayers.compile (youngAndListed [.i64 8]) = .ok c ∧
        Supplies input ofPlayers.params c.columns ∧
        c.verdict input = .fails ∧ c.evalBool input = .ok false := by
  have distinct : ∀ entry ∈ ofPlayers.params.entries, entry.2.NamesDistinct := by decide +kernel
  have hsupplies : Supplies (fun _ _ => some (.i64 7)) ofPlayers.params
      [("x", "age"), ("x", "id")] := by
    intro place _
    exact ⟨.i64 7, rfl, fun _ => Or.inr rfl⟩
  have hnone : ofPlayers.compile (youngAndListed []) =
      .ok (.and (.binary .lt (.convert .i64 (.member "x" "age")) (.constant (.i64 20)))
        (.contains (.constant (.list [])) (.parameter "x" "id"))) := by cbv
  have hseven : ofPlayers.compile (youngAndListed [.i64 7]) =
      .ok (.and (.binary .lt (.convert .i64 (.member "x" "age")) (.constant (.i64 20)))
        (.contains (.constant (.list [.i64 7])) (.parameter "x" "id"))) := by cbv
  have hother : ofPlayers.compile (youngAndListed [.i64 8]) =
      .ok (.and (.binary .lt (.convert .i64 (.member "x" "age")) (.constant (.i64 20)))
        (.contains (.constant (.list [.i64 8])) (.parameter "x" "id"))) := by cbv
  refine ⟨distinct, _, ⟨_, hnone, hsupplies, by decide +kernel, ?_⟩,
    ⟨_, hseven, hsupplies, by decide +kernel, ?_⟩, _, hother, hsupplies, by decide +kernel, ?_⟩
  · exact evalBool_compile_eq_verdict distinct hnone hsupplies
  · exact evalBool_compile_eq_verdict distinct hseven hsupplies
  · exact evalBool_compile_eq_verdict distinct hother hsupplies

end Scope
end RowGraph
