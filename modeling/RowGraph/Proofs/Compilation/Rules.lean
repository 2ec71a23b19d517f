import RowGraph.Proofs.Compilation.Operand

/-!
The rules by which expressions are compiled.

A comparison is compiled with one of its operands in front.  Which one that is depends on the
parameters that the two are rooted at; `Oriented` says when two operands stand in order, and a
comparison is compiled from the order it is written in or from the other one.  A membership is
compiled from a member and a list of single values.  `compile_eq_ok_iff` puts the rules together: an
expression compiles to a condition exactly when they derive it, so what holds of all compiled
conditions can be proved rule by rule.
-/

namespace RowGraph

theorem Operator.isComparison_iff {op : Operator} :
    op.isComparison = true ↔ op.isLogical = false ∧ op ≠ .in := by
  cases op <;> simp [isComparison, isLogical]

/-! ## Two operands in order -/

namespace Operand

/-- Where an integer column meets a constant integer, the constant is written in 64 bits and the
column is widened.  Otherwise both operands are widened or both stay as they are. -/
theorem unify_cases (lhs rhs : Operand) :
    (lhs.isInteger = true ∧ rhs.integer?.isSome = true ∧
      ∃ k, lhs.unify rhs = .ok (lhs.widened, .constant (.i64 k))) ∨
    ((lhs.isInteger = true → rhs.integer? = none) ∧
      (lhs.unify rhs = .ok (lhs.widened, rhs.widened) ∨
        lhs.unify rhs = .ok (lhs.condition, rhs.condition))) := by
  rw [unify]
  split
  next v hint hconst =>
    obtain ⟨n, hn⟩ := Option.isSome_iff_exists.mp (integer?_eq_some_iff.mp hconst).2
    obtain ⟨k, hk, -⟩ := Value.convert_of_toInt? hn
    exact Or.inl ⟨hint, by rw [hconst]; rfl, k, by rw [hk]; rfl⟩
  next hother =>
    refine Or.inr ⟨fun hint => ?_, ?_⟩
    · rw [Option.eq_none_iff_forall_ne_some]
      exact fun v hv => hother v hint hv
    · split
      next => exact Or.inl rfl
      next => exact Or.inr rfl

/-- Bringing two operands to one integer type never fails. -/
theorem exists_unify (lhs rhs : Operand) : ∃ l r, lhs.unify rhs = .ok (l, r) := by
  rcases lhs.unify_cases rhs with ⟨-, -, k, h⟩ | ⟨-, h | h⟩
  · exact ⟨_, _, h⟩
  · exact ⟨_, _, h⟩
  · exact ⟨_, _, h⟩

end Operand

namespace Scope

/-- The first operand stands before the second one: a column before a constant, and a column of the
left parameter before that of another one.  A join compares nothing but columns of its two
parameters. -/
inductive Oriented (s : Scope) (first second : Operand) : Prop
  | constant {param : String} (hfirst : first.condition.root? = some param)
    (hsecond : second.condition.root? = none)
    (hjoined : ∀ right, s.right = some right → param = s.left ∨ param = right) :
    Oriented s first second
  | columns {param : String} (hfirst : first.condition.root? = some s.left)
    (hsecond : second.condition.root? = some param) (hne : param ≠ s.left)
    (hjoined : ∀ right, s.right = some right → param = right) : Oriented s first second

variable {s : Scope}

/-- Exchanging the sides exchanges the answer. -/
theorem swaps?_comm (isJoin : Bool) (lhs rhs : Side) :
    swaps? isJoin rhs lhs = (swaps? isJoin lhs rhs).map (!·) := by
  cases isJoin <;> cases lhs <;> cases rhs <;> rfl

theorem swaps?_eq_false_cases {isJoin : Bool} {first second : Side} :
    swaps? isJoin first second = some false ↔
      (first ≠ .constant ∧ second = .constant ∧ (isJoin = true → first ≠ .other)) ∨
      (first = .left ∧ second = if isJoin then .right else .other) := by
  cases isJoin <;> cases first <;> cases second <;> simp [swaps?]

/-- Operands keep their places exactly when they stand in order. -/
theorem swaps?_eq_false_iff {first second : Operand} :
    swaps? s.right.isSome (s.side first) (s.side second) = some false ↔
      s.Oriented first second := by
  rw [swaps?_eq_false_cases]
  constructor
  · rintro (⟨hfirst, hsecond, hjoin⟩ | ⟨hfirst, hsecond⟩)
    · have hroot : second.condition.root? = none := by grind [side]
      obtain ⟨param, hparam⟩ : ∃ param, first.condition.root? = some param := by
        rw [← Option.ne_none_iff_exists']
        grind [side]
      exact .constant hparam hroot (by grind [side])
    · have hroot : first.condition.root? = some s.left := by grind [side]
      obtain ⟨param, hparam⟩ : ∃ param, second.condition.root? = some param := by
        rw [← Option.ne_none_iff_exists']
        grind [side]
      exact .columns hroot hparam (by grind [side]) (by grind [side])
  · intro h
    cases hright : s.right with
    | none =>
      cases h with
      | constant hfirst hsecond _ => exact Or.inl (by grind [side])
      | columns hfirst hsecond hne _ => exact Or.inr (by grind [side])
    | some right =>
      cases h with
      | constant hfirst hsecond hjoined =>
        have hside := hjoined right hright
        exact Or.inl (by grind [side])
      | columns hfirst hsecond hne hjoined =>
        have hside := hjoined right hright
        exact Or.inr (by grind [side])

theorem swaps?_eq_true_iff {first second : Operand} :
    swaps? s.right.isSome (s.side first) (s.side second) = some true ↔
      s.Oriented second first := by
  rw [← swaps?_eq_false_iff, swaps?_comm]
  cases swaps? s.right.isSome (s.side first) (s.side second) with
  | none => simp
  | some swap => cases swap <;> simp

/-- The condition compares the two operands in this order. -/
def Ordered (s : Scope) (op : Operator) (first second : Operand) (c : Condition) : Prop :=
  s.Oriented first second ∧ ∃ l r, first.unify second = .ok (l, r) ∧ c = .binary op l r

/-- A comparison compiles in the one order or in the other. -/
theorem compare_eq_ok_iff {op : Operator} {lhs rhs : Operand} {c : Condition} :
    s.compare op lhs rhs = .ok c ↔
      s.Ordered op lhs rhs c ∨ s.Ordered op.converse rhs lhs c := by
  rw [Ordered, Ordered, ← swaps?_eq_false_iff, ← swaps?_eq_true_iff, compare]
  cases swaps? s.right.isSome (s.side lhs) (s.side rhs) with
  | none => simp
  | some swap =>
    cases swap with
    | false => simp [Outcome.bind_eq_ok, -bind_pure_comp, eq_comm (a := c)]
    | true => simp [Outcome.bind_eq_ok, -bind_pure_comp, eq_comm (a := c)]

/-! ## Memberships -/

/-- A list of integers that meets an integer column is written in 64 bits.  Otherwise list and column
stay as they are. -/
theorem among_cases (o : Operand) (items : List Value) :
    (o.isInteger = true ∧ (∀ v ∈ items, v.toInt?.isSome = true) ∧
      ∃ items', (∀ v ∈ items', ∃ n, v = .i64 n) ∧
        among o items = .ok (.contains (.constant (.list items')) o.widened)) ∨
    (¬(o.isInteger = true ∧ ∀ v ∈ items, v.toInt?.isSome = true) ∧
      among o items = .ok (.contains (.constant (.list items)) o.condition)) := by
  rw [among]
  split
  next h =>
    rw [Bool.and_eq_true, List.all_eq_true] at h
    obtain ⟨items', hitems, -, hall⟩ := Outcome.exists_mapM (f := fun v => v.convert .i64)
      (Q := fun v => ∃ n, v = .i64 n) items (fun _ => ()) (fun _ => ()) fun v hv => by
        obtain ⟨n, hn⟩ := Option.isSome_iff_exists.mp (h.2 v hv)
        obtain ⟨k, hk, -⟩ := Value.convert_of_toInt? hn
        exact ⟨_, hk, rfl, k, rfl⟩
    exact Or.inl ⟨h.1, h.2, items', hall, by rw [hitems]; rfl⟩
  next h =>
    rw [Bool.and_eq_true, List.all_eq_true] at h
    exact Or.inr ⟨h, rfl⟩

/-- The condition tests the member for the items, which are single values. -/
def Tested (s : Scope) (m : Member) (items : List Value) (c : Condition) : Prop :=
  (∀ v ∈ items, v.isList = false) ∧ ∃ o, s.memberOperand m = .ok o ∧ among o items = .ok c

theorem membership_eq_ok_iff {item list : Expr} {c : Condition} :
    s.membership item list = .ok c ↔
      ∃ m items, item = .member m ∧ list = .value (.list items) ∧ s.Tested m items c := by
  constructor
  · intro h
    rw [membership.eq_def] at h
    split at h
    next m items =>
      split at h
      next => cases h
      next hflat =>
        rw [Outcome.bind_eq_ok] at h
        exact ⟨m, items, rfl, rfl, by simpa using hflat, h⟩
    next => cases h
    next => cases h
  · rintro ⟨m, items, rfl, rfl, hflat, ho⟩
    rw [membership, if_neg (by simpa using hflat), Outcome.bind_eq_ok]
    exact ho

/-! ## Expressions -/

/-- A binary expression that compiles is a connective, a membership or a comparison. -/
theorem compile_binary {op : Operator} {lhs rhs : Expr} {c : Condition}
    (h : s.compile (.binary op lhs rhs) = .ok c) :
    (op.isLogical = true ∧ ∃ l r, s.compile lhs = .ok l ∧ s.compile rhs = .ok r ∧
      c = .binary op l r) ∨
    (op = .in ∧ s.membership lhs rhs = .ok c) ∨
    (op.isComparison = true ∧ ∃ l r, s.operand lhs = .ok l ∧ s.operand rhs = .ok r ∧
      s.compare op l r = .ok c) := by
  rw [compile] at h
  split at h
  next hlogical =>
    rw [Outcome.bind_eq_ok] at h
    obtain ⟨l, hl, h⟩ := h
    rw [Outcome.bind_eq_ok] at h
    obtain ⟨r, hr, h⟩ := h
    cases h
    exact Or.inl ⟨hlogical, l, r, hl, hr, rfl⟩
  next hlogical =>
    split at h
    next hin => exact Or.inr (Or.inl ⟨hin, h⟩)
    next hin =>
      rw [Outcome.bind_eq_ok] at h
      obtain ⟨l, hl, h⟩ := h
      rw [Outcome.bind_eq_ok] at h
      obtain ⟨r, hr, h⟩ := h
      have hop := Operator.isComparison_iff.mpr ⟨by simpa using hlogical, hin⟩
      exact Or.inr (Or.inr ⟨hop, l, r, hl, hr, h⟩)

/-- What an expression compiles to, rule by rule. -/
inductive Compiles (s : Scope) : Expr → Condition → Prop
  | connective {op : Operator} {lhs rhs : Expr} {l r : Condition} (hop : op.isLogical = true)
    (hlhs : s.Compiles lhs l) (hrhs : s.Compiles rhs r) :
    s.Compiles (.binary op lhs rhs) (.binary op l r)
  | comparison {op : Operator} {lhs rhs : Expr} {o o' : Operand} {c : Condition}
    (hop : op.isComparison = true) (hlhs : s.operand lhs = .ok o) (hrhs : s.operand rhs = .ok o')
    (hc : s.Ordered op o o' c ∨ s.Ordered op.converse o' o c) :
    s.Compiles (.binary op lhs rhs) c
  | isIn {m : Member} {items : List Value} {c : Condition} (h : s.Tested m items c) :
    s.Compiles (.binary .in (.member m) (.value (.list items))) c
  | inList {m : Member} {items : List Value} {c : Condition} (h : s.Tested m items c) :
    s.Compiles (.inList (.member m) (.value (.list items))) c

/-- An expression compiles to what the rules derive for it. -/
theorem compile_eq_ok_iff {e : Expr} {c : Condition} : s.compile e = .ok c ↔ s.Compiles e c := by
  constructor
  · intro h
    induction e generalizing c with
    | binary op lhs rhs ihl ihr =>
      rcases compile_binary h with ⟨hop, l, r, hl, hr, rfl⟩ | ⟨rfl, h⟩ | ⟨hop, l, r, hl, hr, h⟩
      · exact .connective hop (ihl hl) (ihr hr)
      · obtain ⟨m, items, rfl, rfl, htested⟩ := membership_eq_ok_iff.mp h
        exact .isIn htested
      · exact .comparison hop hl hr (compare_eq_ok_iff.mp h)
    | inList item list _ _ =>
      obtain ⟨m, items, rfl, rfl, htested⟩ := membership_eq_ok_iff.mp h
      exact .inList htested
    | isNull e _ => cases h
    | member m => cases h
    | not e _ => cases h
    | value v => cases h
  · intro h
    induction h with
    | connective hop hlhs hrhs ihl ihr =>
      rw [compile, if_pos hop, ihl, ihr]
      rfl
    | comparison hop hlhs hrhs hc =>
      obtain ⟨hlogical, hin⟩ := Operator.isComparison_iff.mp hop
      rw [compile, if_neg (by simp [hlogical]), if_neg hin, hlhs, hrhs]
      exact compare_eq_ok_iff.mpr hc
    | isIn h => exact membership_eq_ok_iff.mpr ⟨_, _, rfl, rfl, h⟩
    | inList h => exact membership_eq_ok_iff.mpr ⟨_, _, rfl, rfl, h⟩

end Scope
end RowGraph
