import RowGraph.Proofs.Compilation.Rules
import RowGraph.Sql.Script

/-!
Expressions that differ in how members are spelled.

A key can be reached by several paths: as the parameter itself and as its key member, and for a
reference as the reference and as the key of its target.  Where each member compiles as the one it
stands for does, whole expressions do: what compilation makes of operands depends on their types,
their roots and which of them are constants, and on nothing else about them.  A parameter as a whole
is written and evaluated as its key column, so conditions that are the same column by column mean
the same.
-/

namespace RowGraph

/-! ## Conditions column by column -/

mutual

/-- The condition with the key column in place of each parameter as a whole. -/
def Condition.columnwise : Condition → Condition
  | .binary op lhs rhs => .binary op lhs.columnwise rhs.columnwise
  | .call f args => .call f (Condition.columnwiseAll args)
  | .constant v => .constant v
  | .member param column => .member param column
  | .parameter param key => .member param key

def Condition.columnwiseAll : List Condition → List Condition
  | [] => []
  | c :: rest => c.columnwise :: Condition.columnwiseAll rest

end

namespace Condition

theorem columnwiseAll_eq (args : List Condition) :
    columnwiseAll args = args.map columnwise := by
  induction args with
  | nil => rfl
  | cons c rest ih => rw [columnwiseAll, ih, List.map_cons]

/-- A parameter as a whole is evaluated as its key column. -/
theorem eval_columnwise (input : Input) : (c : Condition) → c.columnwise.eval input = c.eval input
  | .binary op lhs rhs => by
    cases op <;>
      simp only [columnwise, eval, eval_columnwise input lhs, eval_columnwise input rhs]
  | .call .contains [list, item] => by
    rw [columnwise, columnwiseAll, columnwiseAll, columnwiseAll, eval, eval,
      eval_columnwise input list, eval_columnwise input item]
  | .call (.convert ty) [c] => by
    rw [columnwise, columnwiseAll, columnwiseAll, eval, eval, eval_columnwise input c]
  | .call .contains [] | .call .contains [_] | .call (.convert _) [] => rfl
  | .call .contains (_ :: _ :: _ :: _) | .call (.convert _) (_ :: _ :: _) => by
    simp [columnwise, columnwiseAll_eq, eval]
  | .constant _ => rfl
  | .member _ _ => rfl
  | .parameter _ _ => rfl

theorem evalBool_columnwise (input : Input) (c : Condition) :
    c.columnwise.evalBool input = c.evalBool input := by
  rw [evalBool, evalBool, eval_columnwise]

/-- A parameter as a whole is written as its key column. -/
theorem ofCondition_columnwise (qualified : Bool) :
    (c : Condition) → Sql.ofCondition qualified c.columnwise = Sql.ofCondition qualified c
  | .binary op lhs rhs => by
    rw [columnwise, Sql.ofCondition, Sql.ofCondition, ofCondition_columnwise qualified lhs,
      ofCondition_columnwise qualified rhs]
  | .call .contains [list, item] => by
    rw [columnwise, columnwiseAll, columnwiseAll, columnwiseAll, Sql.ofCondition, Sql.ofCondition,
      ofCondition_columnwise qualified list, ofCondition_columnwise qualified item]
  | .call (.convert ty) [c] => by
    rw [columnwise, columnwiseAll, columnwiseAll, Sql.ofCondition, Sql.ofCondition,
      ofCondition_columnwise qualified c]
  | .call .contains [] | .call .contains [_] | .call .contains (_ :: _ :: _ :: _) => rfl
  | .call (.convert _) [] | .call (.convert _) (_ :: _ :: _) => rfl
  | .constant _ => rfl
  | .member _ _ => rfl
  | .parameter _ _ => rfl

theorem column?_columnwise : (c : Condition) → c.columnwise.column? = c.column?
  | .binary _ _ _ => rfl
  | .call .contains _ => rfl
  | .call (.convert _) [] => rfl
  | .call (.convert _) (c :: _) => by
    rw [columnwise, columnwiseAll, column?, column?, column?_columnwise c]
  | .constant _ => rfl
  | .member _ _ => rfl
  | .parameter _ _ => rfl

theorem conjuncts_columnwise : (c : Condition) → c.columnwise.conjuncts = c.conjuncts.map columnwise
  | .binary op lhs rhs => by
    cases op with
    | and =>
      rw [columnwise, conjuncts, conjuncts, conjuncts_columnwise lhs, conjuncts_columnwise rhs,
        List.map_append]
    | _ => rfl
  | .call _ _ => rfl
  | .constant _ => rfl
  | .member _ _ => rfl
  | .parameter _ _ => rfl

/-! ## What compilation looks at -/

/-- A change of conditions that leaves alone how they are put together, where their columns are
rooted and which of them are constants. -/
structure Transparent (φ : Condition → Condition) : Prop where
  binary : ∀ op lhs rhs, φ (.binary op lhs rhs) = .binary op (φ lhs) (φ rhs)
  convert : ∀ ty c, φ (convert ty c) = convert ty (φ c)
  contains : ∀ v c, φ (contains (.constant v) c) = contains (.constant v) (φ c)
  constant_iff : ∀ c v, φ c = .constant v ↔ c = .constant v
  root? : ∀ c, (φ c).root? = c.root?

theorem transparent_id : Transparent id :=
  ⟨fun _ _ _ => rfl, fun _ _ => rfl, fun _ _ => rfl, fun _ _ => Iff.rfl, fun _ => rfl⟩

theorem transparent_columnwise : Transparent columnwise where
  binary _ _ _ := rfl
  convert _ _ := rfl
  contains _ _ := rfl
  constant_iff c v := by cases c <;> simp [columnwise]
  root? c := by rw [Condition.root?, Condition.root?, column?_columnwise]

end Condition

namespace Operand

/-- The operands are the same up to the change of their conditions. -/
structure Alike (φ : Condition → Condition) (o o' : Operand) : Prop where
  condition : φ o.condition = φ o'.condition
  ty : o.ty = o'.ty

variable {φ : Condition → Condition} {o o' p p' : Operand}

theorem Alike.refl (φ : Condition → Condition) (o : Operand) : Alike φ o o := ⟨rfl, rfl⟩

theorem Alike.symm (h : Alike φ o o') : Alike φ o' o := ⟨h.condition.symm, h.ty.symm⟩

theorem Alike.isInteger (h : Alike φ o o') : o'.isInteger = o.isInteger := by
  rw [Operand.isInteger, Operand.isInteger, h.ty]

variable (hφ : Condition.Transparent φ)
include hφ

theorem Alike.root? (h : Alike φ o o') : o'.condition.root? = o.condition.root? := by
  rw [← hφ.root?, ← h.condition, hφ.root?]

theorem Alike.integer? (h : Alike φ o o') : o'.integer? = o.integer? := by
  refine Option.ext fun v => ?_
  rw [integer?_eq_some_iff, integer?_eq_some_iff, ← hφ.constant_iff, ← h.condition,
    hφ.constant_iff]

theorem Alike.widened (h : Alike φ o o') : φ o.widened = φ o'.widened := by
  rw [Operand.widened, Operand.widened, h.ty]
  split
  next => rw [hφ.convert, hφ.convert, h.condition]
  next => exact h.condition

theorem Alike.unify (h : Alike φ o o') (hp : Alike φ p p') {l r : Condition}
    (hunify : o.unify p = .ok (l, r)) :
    ∃ l' r', o'.unify p' = .ok (l', r') ∧ φ l = φ l' ∧ φ r = φ r' := by
  rw [Operand.unify] at hunify
  rw [Operand.unify, h.isInteger, hp.integer? hφ, hp.isInteger, ← h.ty, ← hp.ty]
  split at hunify
  next v hint hconst =>
    obtain ⟨w, hw, hunify⟩ := Outcome.bind_eq_ok.mp hunify
    cases hunify
    rw [hw]
    exact ⟨o'.widened, .constant w, rfl, h.widened hφ, rfl⟩
  next =>
    split at hunify
    next hboth =>
      cases hunify
      exact ⟨o'.widened, p'.widened, if_pos hboth, h.widened hφ, hp.widened hφ⟩
    next hboth =>
      cases hunify
      exact ⟨o'.condition, p'.condition, if_neg hboth, h.condition, hp.condition⟩

end Operand

/-! ## Expressions compiled alike -/

/-- The second expression is the first one with members in place of others, each of them related to
the one it stands for. -/
inductive Expr.Respelled (R : Member → Member → Prop) : Expr → Expr → Prop
  | binary (op : Operator) {lhs lhs' rhs rhs' : Expr} (hlhs : Respelled R lhs lhs')
    (hrhs : Respelled R rhs rhs') : Respelled R (.binary op lhs rhs) (.binary op lhs' rhs')
  | inList {item item' list list' : Expr} (hitem : Respelled R item item')
    (hlist : Respelled R list list') : Respelled R (.inList item list) (.inList item' list')
  | isNull {e e' : Expr} (h : Respelled R e e') : Respelled R (.isNull e) (.isNull e')
  | member {m m' : Member} (h : R m m') : Respelled R (.member m) (.member m')
  | not {e e' : Expr} (h : Respelled R e e') : Respelled R (.not e) (.not e')
  | value (v : Value) : Respelled R (.value v) (.value v)

theorem Expr.Respelled.symm {R : Member → Member → Prop} {e e' : Expr} (h : e.Respelled R e') :
    e'.Respelled (fun m m' => R m' m) e := by
  induction h with
  | binary op _ _ ihl ihr => exact .binary op ihl ihr
  | inList _ _ ihi ihl => exact .inList ihi ihl
  | isNull _ ih => exact .isNull ih
  | member h => exact .member h
  | not _ ih => exact .not ih
  | value v => exact .value v

namespace Scope

variable {s : Scope} {φ : Condition → Condition} {R : Member → Member → Prop}

/-- Each member that compiles has an operand like that of the member it stands for. -/
def Follows (s : Scope) (φ : Condition → Condition) (R : Member → Member → Prop) : Prop :=
  ∀ m m' o, R m m' → s.memberOperand m = .ok o →
    ∃ o', s.memberOperand m' = .ok o' ∧ Operand.Alike φ o o'

theorem Follows.operand (hR : s.Follows φ R) {e e' : Expr} {o : Operand}
    (he : e.Respelled R e') (h : s.operand e = .ok o) :
    ∃ o', s.operand e' = .ok o' ∧ Operand.Alike φ o o' := by
  rcases operand_eq_ok h with ⟨m, rfl, hm⟩ | ⟨v, rfl, rfl⟩
  · cases he with
    | member hmember => exact hR m _ o hmember hm
  · cases he
    exact ⟨_, rfl, .refl φ _⟩

variable (hφ : Condition.Transparent φ)
include hφ

theorem Oriented.alike {o o' p p' : Operand} (ho : Operand.Alike φ o o')
    (hp : Operand.Alike φ p p') (h : s.Oriented o p) : s.Oriented o' p' := by
  cases h with
  | constant hfirst hsecond hjoined =>
    exact .constant (ho.root? hφ ▸ hfirst) (hp.root? hφ ▸ hsecond) hjoined
  | columns hfirst hsecond hne hjoined =>
    exact .columns (ho.root? hφ ▸ hfirst) (hp.root? hφ ▸ hsecond) hne hjoined

theorem Ordered.alike {op : Operator} {o o' p p' : Operand} {c : Condition}
    (ho : Operand.Alike φ o o') (hp : Operand.Alike φ p p') (h : s.Ordered op o p c) :
    ∃ c', s.Ordered op o' p' c' ∧ φ c = φ c' := by
  obtain ⟨horiented, l, r, hunify, rfl⟩ := h
  obtain ⟨l', r', hunify', hl, hr⟩ := ho.unify hφ hp hunify
  refine ⟨_, ⟨horiented.alike hφ ho hp, l', r', hunify', rfl⟩, ?_⟩
  rw [hφ.binary, hφ.binary, hl, hr]

theorem among_alike {o o' : Operand} {items : List Value} {c : Condition}
    (ho : Operand.Alike φ o o') (h : among o items = .ok c) :
    ∃ c', among o' items = .ok c' ∧ φ c = φ c' := by
  rw [among] at h
  rw [among, ho.isInteger]
  split at h
  next hint =>
    obtain ⟨items', hitems, h⟩ := Outcome.bind_eq_ok.mp h
    cases h
    refine ⟨.contains (.constant (.list items')) o'.widened, by rw [if_pos hint, hitems]; rfl, ?_⟩
    rw [hφ.contains, hφ.contains, ho.widened hφ]
  next hint =>
    cases h
    refine ⟨_, if_neg hint, ?_⟩
    rw [hφ.contains, hφ.contains, ho.condition]

theorem Follows.tested (hR : s.Follows φ R) {m m' : Member} {items : List Value} {c : Condition}
    (hm : R m m') (h : s.Tested m items c) : ∃ c', s.Tested m' items c' ∧ φ c = φ c' := by
  obtain ⟨hflat, o, ho, hamong⟩ := h
  obtain ⟨o', ho', halike⟩ := hR m m' o hm ho
  obtain ⟨c', hamong', hc⟩ := among_alike hφ halike hamong
  exact ⟨c', ⟨hflat, o', ho', hamong'⟩, hc⟩

/-- An expression whose members stand for others compiles as the expression with these does. -/
theorem Follows.compile (hR : s.Follows φ R) {e e' : Expr} {c : Condition}
    (he : e.Respelled R e') (h : s.compile e = .ok c) :
    ∃ c', s.compile e' = .ok c' ∧ φ c = φ c' := by
  simp only [compile_eq_ok_iff] at h ⊢
  induction h generalizing e' with
  | connective hop _ _ ihl ihr =>
    cases he with
    | binary _ hlhs hrhs =>
      obtain ⟨l', hl', hl⟩ := ihl hlhs
      obtain ⟨r', hr', hr⟩ := ihr hrhs
      exact ⟨_, .connective hop hl' hr', by rw [hφ.binary, hφ.binary, hl, hr]⟩
  | comparison hop ho hp hc =>
    cases he with
    | binary _ hlhs hrhs =>
      obtain ⟨o', ho', halike⟩ := hR.operand hlhs ho
      obtain ⟨p', hp', halike'⟩ := hR.operand hrhs hp
      rcases hc with hc | hc
      · obtain ⟨c', hc', hsame⟩ := hc.alike hφ halike halike'
        exact ⟨c', .comparison hop ho' hp' (Or.inl hc'), hsame⟩
      · obtain ⟨c', hc', hsame⟩ := hc.alike hφ halike' halike
        exact ⟨c', .comparison hop ho' hp' (Or.inr hc'), hsame⟩
  | isIn h =>
    cases he with
    | binary _ hitem hlist =>
      cases hitem with
      | member hm =>
        cases hlist
        obtain ⟨c', hc', hsame⟩ := hR.tested hφ hm h
        exact ⟨c', .isIn hc', hsame⟩
  | inList h =>
    cases he with
    | inList hitem hlist =>
      cases hitem with
      | member hm =>
        cases hlist
        obtain ⟨c', hc', hsame⟩ := hR.tested hφ hm h
        exact ⟨c', .inList hc', hsame⟩

end Scope
end RowGraph
