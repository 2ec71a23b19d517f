import RowGraph.Proofs.Compilation.Verdict
import RowGraph.Proofs.Condition.Conjuncts
import RowGraph.Proofs.Statement.LinkKeys

/-!
Rows that a condition joins are paired.

The database joins rows on the condition of a link, and the rows that come back are paired again by
the equality of its keys.  Where the caller gave the condition, the keys are those of the first
equation between the two parameters that must hold for it.  The equation may read its columns
through conversions and the keys are compared without them, but a conversion of an integer never
changes its number, so whatever else the condition says, the rows that it joins are paired.
-/

namespace RowGraph

namespace Condition

variable {input : Input}

/-- The two sides of an equation that holds have values, and these are equal. -/
theorem exists_of_evalBool_eq {lhs rhs : Condition}
    (h : (binary .eq lhs rhs).evalBool input = .ok true) :
    ∃ a b, lhs.eval input = .ok a ∧ rhs.eval input = .ok b ∧ a.satisfies .eq b = true := by
  simp only [evalBool, eval, Outcome.bind_eq_ok] at h
  obtain ⟨v, ⟨a, ha, b, hb, hv⟩, htruth⟩ := h
  cases hv
  exact ⟨a, b, ha, hb, Except.ok.inj htruth⟩

end Condition

/-! ## Sides of a comparison -/

theorem Condition.IsColumn.column?_eq {param column : String} {c : Condition}
    (h : c.IsColumn param column) : c.column? = some (param, column) := by
  cases h <;> rfl

theorem Condition.read_eq_ok {input : Input} {param column : String} {v : Value} :
    read input param column = .ok v ↔ input param column = some v := by
  rw [read]
  cases input param column with
  | none => simp
  | some found => simp

/-- An operand that reads a column has the value of the column. -/
theorem Scope.input_eq_of_column? {s : Scope} {e : Expr} {o : Operand} {input : Input}
    {place : String × String} {v : Value} (ho : s.operand e = .ok o)
    (hplace : o.condition.column? = some place) (hv : o.condition.eval input = .ok v) :
    input place.1 place.2 = some v := by
  rcases operand_eq_ok ho with ⟨m, rfl, hm⟩ | ⟨u, rfl, rfl⟩
  · obtain ⟨param, d, column, -, -, -, hcolumn, -⟩ := memberOperand_eq_ok hm
    rw [hcolumn.column?_eq] at hplace
    cases hplace
    rwa [hcolumn.eval_eq_read, Condition.read_eq_ok] at hv
  · cases hplace

/-- What unifying makes of an operand has the value of the column that it reads, up to the width of
an integer. -/
theorem Operand.Unified.sameNumber_of_column? {s : Scope} {e : Expr} {o : Operand}
    {c : Condition} {input : Input} {place : String × String} {w : Value} (hc : o.Unified c)
    (ho : s.operand e = .ok o) (hplace : c.column? = some place) (hw : c.eval input = .ok w) :
    ∃ v, input place.1 place.2 = some v ∧ v.SameNumber w := by
  cases hc with
  | same => exact ⟨w, Scope.input_eq_of_column? ho hplace hw, .refl w⟩
  | widened =>
    rw [Operand.widened] at hplace hw
    split at hw
    next hnarrow =>
      rw [if_pos hnarrow] at hplace
      rw [Condition.convert, Condition.eval, Outcome.bind_eq_ok] at hw
      obtain ⟨v, hv, hw⟩ := hw
      exact ⟨v, Scope.input_eq_of_column? ho hplace hv, Value.sameNumber_of_convert_integer rfl hw⟩
    next hwide =>
      rw [if_neg hwide] at hplace
      exact ⟨w, Scope.input_eq_of_column? ho hplace hw, .refl w⟩
  | constant hconst hn hconvert => cases hplace

namespace Scope

variable {s : Scope}

/-- What must hold for a compiled condition is a compiled condition. -/
theorem Compiled.of_mem_conjuncts {c part : Condition} (h : s.Compiled c)
    (hpart : part ∈ c.conjuncts) : s.Compiled part := by
  induction h with
  | @connective op lhs rhs hop hlhs hrhs ihl ihr =>
    cases op with
    | and =>
      rcases List.mem_append.mp hpart with hpart | hpart
      · exact ihl hpart
      · exact ihr hpart
    | or =>
      rw [Condition.conjuncts, List.mem_singleton] at hpart
      · exact hpart ▸ .connective hop hlhs hrhs
      · exact nofun
    | _ => cases hop
  | @comparison op e e' o o' lhs rhs hop ho hlhs ho' hrhs =>
    have hself : (Condition.binary op lhs rhs).conjuncts = [.binary op lhs rhs] := by
      cases op with
      | and => cases hop
      | _ => rfl
    rw [hself, List.mem_singleton] at hpart
    exact hpart ▸ .comparison hop ho hlhs ho' hrhs
  | membership ho hitem hflat =>
    have hself := List.mem_singleton.mp hpart
    exact hself ▸ .membership ho hitem hflat

/-- An equation between two columns that holds in compiled form holds of the columns themselves. -/
theorem Compiled.satisfies_columns {lhs rhs : Condition} (h : s.Compiled (.binary .eq lhs rhs))
    {input : Input} (hon : (Condition.binary .eq lhs rhs).evalBool input = .ok true)
    {left right : String × String} (hleft : lhs.column? = some left)
    (hright : rhs.column? = some right) :
    ∃ a b, input left.1 left.2 = some a ∧ input right.1 right.2 = some b ∧
      a.satisfies .eq b = true := by
  obtain ⟨a, b, ha, hb, hab⟩ := Condition.exists_of_evalBool_eq hon
  cases h with
  | connective hop => cases hop
  | comparison hop ho hlhs ho' hrhs =>
    obtain ⟨u, hu, hua⟩ := hlhs.sameNumber_of_column? ho hleft ha
    obtain ⟨v, hv, hvb⟩ := hrhs.sameNumber_of_column? ho' hright hb
    exact ⟨u, v, hu, hv, (hua.satisfies hvb .eq).trans hab⟩

end Scope

namespace Link

/-- Whatever condition the caller gave, the rows that it joins are paired by the keys of the link. -/
theorem pairs_of_evalBool_condition {registry : Registry} {ps : Parameters}
    {left member right : String} {e : Expr} {l : Link} (hne : left ≠ right)
    (h : build registry ps left member right (some e) = .ok l) {leftRow rightRow : Row}
    (hon : l.condition.evalBool (Assignment.pair left leftRow right rightRow).input = .ok true) :
    l.pairs leftRow rightRow = .ok true := by
  obtain ⟨rfl, rfl, -, owner, related, relation, -, -, -, -, horigin⟩ := build_cases h
  rcases horigin with ⟨e, -, hcompile, hkeys⟩ | ⟨hnone, -⟩
  · obtain ⟨lhs, rhs, hpart, hprimary, hforeign⟩ := exists_equation hkeys
    have hcompiled := (Scope.compiled_compile hcompile).of_mem_conjuncts hpart
    have hholds := Condition.evalBool_of_mem_conjuncts hon hpart
    obtain ⟨a, b, ha, hb, hab⟩ := hcompiled.satisfies_columns hholds hprimary hforeign
    rw [input_pair_left] at ha
    rw [input_pair_right hne] at hb
    rw [pairs_eq hne ha hb, hab]
  · cases hnone

/-! ### An instance -/

/-- Teams with their players, whose foreign key is narrower than the key that it refers to. -/
def teamsAndPlayers : Parameters where
  entries := [
    ("x", ⟨"Team", "Teams", "id", [⟨"id", some "id", .i64, none, true⟩],
      [⟨"players", "Player", none, some "team_id", "id"⟩], []⟩),
    ("x1", ⟨"Player", "Players", "id", [⟨"id", some "id", .i64, none, true⟩,
      ⟨"age", some "age", .i16, none, false⟩, ⟨"team_id", some "team", .i32, none, false⟩],
      [], []⟩)]
  default := some "x"

/-- The young and the old players of a team, with the sides of the equation the other way round. -/
def youngOrOld : Expr :=
  .and (.or (.binary .gt (.value (.i32 20)) (.member (.ofModel "Player" ["age"])))
      (.binary .ge (.member (.ofModel "Player" ["age"])) (.value (.i32 30))))
    (.eq (.member (.ofModel "Player" ["team"])) (.member (.ofModel "Team" [])))

theorem pairs_of_evalBool_condition_youngOrOld :
    ∃ l, build (.ofCatalogue ⟨[]⟩) teamsAndPlayers "x" "players" "x1" (some youngOrOld) = .ok l ∧
      ∃ team player, l.condition.evalBool (Assignment.pair "x" team "x1" player).input = .ok true ∧
        l.pairs team player = .ok true := by
  obtain ⟨l, hbuild, hcondition⟩ : ∃ l,
      build (.ofCatalogue ⟨[]⟩) teamsAndPlayers "x" "players" "x1" (some youngOrOld) = .ok l ∧
        l.condition = .and
          (.binary .or (.binary .lt (.convert .i64 (.member "x1" "age")) (.constant (.i64 20)))
            (.binary .ge (.convert .i64 (.member "x1" "age")) (.constant (.i64 30))))
          (.eq (.parameter "x" "id") (.convert .i64 (.member "x1" "team_id"))) :=
    ⟨_, by cbv, rfl⟩
  have hon : l.condition.evalBool (Assignment.pair "x" (.ofList [("id", .i64 4)])
      "x1" (.ofList [("age", .i16 33), ("team_id", .i32 4)])).input = .ok true := by
    rw [hcondition]
    cbv
  exact ⟨l, hbuild, _, _, hon, pairs_of_evalBool_condition (by decide) hbuild hon⟩

end Link
end RowGraph
