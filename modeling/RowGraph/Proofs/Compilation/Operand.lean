import RowGraph.Proofs.Condition.Evaluation
import RowGraph.Proofs.Outcome
import RowGraph.Proofs.Schema.Lookup
import RowGraph.Statement.Compilation

/-!
Operands: what a member or a constant stands for before and after it is compiled.

A member is given its value directly: it starts at a parameter and ends at a column.  The operand
that it compiles to has the same value, and so has what unifying two operands makes of it, up to the
width of an integer.
-/

namespace RowGraph

/-! ## Members in place -/

/-- The column that a path from a row of the table ends at: the key for the empty path, the column
that stores a member, and for the key of a referenced instance the column of the reference. -/
def Descriptor.columnAt? (d : Descriptor) : List String → Option String
  | [] => some d.keyColumn.name
  | [member] => d.storage? member
  | [navigation, _] => (d.reference? navigation).map (·.column)
  | _ => none

namespace Scope

/-- The parameter that a member starts at: the named one, or the first of its model when the left
parameter is asked first, then the right one, then all of them. -/
def start? (s : Scope) (m : Member) : Option String :=
  match m.param with
  | .named name => some name
  | .implicit => (s.left :: s.right.toList ++ s.params.names).find? (s.isOf m.model)

/-- The value of an operand in the rows at hand. -/
def valueOf? (s : Scope) (input : Input) : Expr → Option Value
  | .member m => do
    let param ← s.start? m
    let d ← s.params.find? param
    let column ← d.columnAt? m.path
    input param column
  | .value v => some v
  | _ => none

end Scope

/-! ## Where members start -/

theorem Parameters.mem_names_of_find? {ps : Parameters} {name : String} {d : Descriptor}
    (hd : ps.find? name = some d) : name ∈ ps.names :=
  List.mem_map.mpr ⟨(name, d), Keyed.mem_of_find? hd, rfl⟩

namespace Scope

/-- The parameter of an implicit member is the left one, the right one or the only one of its
model, in this order. -/
theorem implicitParam_cases {s : Scope} {model name : String}
    (h : s.implicitParam model = .ok name) :
    (s.isOf model s.left = true ∧ name = s.left) ∨
    (s.isOf model s.left = false ∧ s.right.filter (s.isOf model) = some name) ∨
    (s.isOf model s.left = false ∧ s.right.filter (s.isOf model) = none ∧
      (s.params.entries.filter fun entry => entry.2.model == model).map Prod.fst = [name]) := by
  rw [implicitParam] at h
  by_cases hleft : s.isOf model s.left = true
  · rw [if_pos hleft] at h
    cases h
    exact Or.inl ⟨hleft, rfl⟩
  · rw [if_neg hleft] at h
    rw [Bool.not_eq_true] at hleft
    split at h
    next right hright =>
      cases h
      exact Or.inr (Or.inl ⟨hleft, hright⟩)
    next hright =>
      split at h
      next only honly =>
        cases h
        exact Or.inr (Or.inr ⟨hleft, hright, honly⟩)
      next => cases h
      next => cases h

theorem isOf_of_find? {s : Scope} {name : String} {d : Descriptor}
    (hd : s.params.find? name = some d) : s.isOf d.model name = true := by
  rw [isOf, hd]
  exact beq_self_eq_true d.model

/-- A parameter of a model is among the entries of that model. -/
theorem mem_entries_of_isOf {s : Scope} {model name : String} (h : s.isOf model name = true) :
    name ∈ (s.params.entries.filter fun entry => entry.2.model == model).map Prod.fst := by
  rw [isOf, Option.any_eq_true] at h
  obtain ⟨d, hd, hm⟩ := h
  exact List.mem_map.mpr ⟨(name, d), List.mem_filter.mpr ⟨Keyed.mem_of_find? hd, hm⟩, rfl⟩

/-- The parameter that a resolved member is read from is the one that it starts at. -/
theorem start?_of_param {s : Scope} {m : Member} {name : String} {d : Descriptor}
    (h : s.param m = .ok name) (hd : s.params.find? name = some d) (hm : d.model = m.model) :
    s.start? m = some name := by
  have hname : s.isOf m.model name = true := hm ▸ isOf_of_find? hd
  rw [param] at h
  rw [start?]
  cases hparam : m.param with
  | named given =>
    rw [hparam] at h
    by_cases hc : s.params.contains given = true
    · simp only [if_pos hc] at h
      cases h
      rfl
    · simp only [if_neg hc] at h
      cases h
  | implicit =>
    rw [hparam] at h
    rcases implicitParam_cases h with ⟨hleft, rfl⟩ | ⟨hleft, hright⟩ | ⟨hleft, hright, honly⟩
    · exact List.find?_cons_of_pos hleft
    · rw [Option.filter_eq_some_iff] at hright
      show (s.left :: (s.right.toList ++ _)).find? _ = _
      rw [List.find?_cons_of_neg (by simp [hleft]), hright.1]
      exact List.find?_cons_of_pos hname
    · rw [Option.filter_eq_none_iff] at hright
      have hskip : s.right.toList.find? (s.isOf m.model) = none := by
        rw [List.find?_eq_none]
        exact fun r hr => hright r (Option.mem_toList.mp hr)
      show (s.left :: (s.right.toList ++ _)).find? _ = _
      rw [List.find?_cons_of_neg (by simp [hleft]), List.find?_append, hskip, Option.none_or]
      cases hfind : s.params.names.find? (s.isOf m.model) with
      | none =>
        rw [List.find?_eq_none] at hfind
        exact absurd hname (hfind name (Parameters.mem_names_of_find? hd))
      | some found =>
        have hfound := mem_entries_of_isOf (List.find?_some hfind)
        rw [honly, List.mem_singleton] at hfound
        rw [hfound]
end Scope

/-! ## Compiled operands -/

namespace Operand

/-- The operand reads a column that may have to be widened. -/
def isNarrow (o : Operand) : Bool :=
  o.ty.any (·.isNarrow)

theorem isInteger_of_isNarrow {o : Operand} (h : o.isNarrow = true) : o.isInteger = true := by
  rw [isNarrow, Option.any_eq_true] at h
  obtain ⟨ty, hty, hn⟩ := h
  rw [isInteger, Option.any_eq_true]
  exact ⟨ty, hty, ColumnType.isInteger_of_isNarrow hn⟩

end Operand

/-- A key column that nothing flags is not narrow. -/
theorem Descriptor.keyColumn_mem_of_isNarrow {d : Descriptor}
    (h : d.keyColumn.ty.isNarrow = true) : d.keyColumn ∈ d.columns := by
  rw [keyColumn] at h ⊢
  cases hfind : d.columns.find? (·.isKey) with
  | none =>
    rw [hfind] at h
    cases h
  | some k => exact List.mem_of_find?_eq_some hfind

namespace Scope

/-- The operand that a path from a parameter of the given type is folded into. -/
inductive Folds (s : Scope) (param : String) (d : Descriptor) : List String → Operand → Prop
  | key : s.Folds param d [] ⟨.parameter param d.keyColumn.name, some d.keyColumn.ty⟩
  | stored {field name : String} (h : d.storage? field = some name) :
    s.Folds param d [field] (column param d name)
  | targetKey {navigation key : String} {reference : Reference} {target : Descriptor}
    (hreference : d.reference? navigation = some reference)
    (htarget : s.registry.descriptor reference.target = .ok target)
    (hkey : target.keyColumn.member = some key) :
    s.Folds param d [navigation, key] (column param d reference.column)

theorem fieldOperand_eq_ok_iff {param field : String} {d : Descriptor} {o : Operand} :
    fieldOperand param d field = .ok o ↔
      ∃ name, d.storage? field = some name ∧ o = column param d name := by
  rw [fieldOperand]
  cases d.storage? field with
  | some name => simp [eq_comm]
  | none =>
    dsimp only
    split
    next => simp
    next => simp

theorem keyOperand_eq_ok_iff {s : Scope} {param navigation key : String} {d : Descriptor}
    {m : Member} {o : Operand} :
    s.keyOperand param d m navigation key = .ok o ↔
      ∃ reference target, d.reference? navigation = some reference ∧
        s.registry.descriptor reference.target = .ok target ∧
        target.keyColumn.member = some key ∧ o = column param d reference.column := by
  rw [keyOperand]
  cases d.reference? navigation with
  | none => simp
  | some reference =>
    simp only [Outcome.bind_eq_ok, Option.some.injEq, exists_and_left, exists_eq_left']
    refine exists_congr fun target => and_congr_right fun _ => ?_
    split
    next hkey =>
      rw [Outcome.pure_eq_ok, eq_comm (a := o)]
      exact (and_iff_right hkey).symm
    next hkey => simp [hkey]

/-- A member compiles to what its path is folded into, from the parameter that it is read from and
that is of its model. -/
theorem memberOperand_eq_ok_iff {s : Scope} {m : Member} {o : Operand} :
    s.memberOperand m = .ok o ↔
      ∃ param d, s.param m = .ok param ∧ s.params.find? param = some d ∧ d.model = m.model ∧
        s.Folds param d m.path o := by
  rw [memberOperand, Outcome.bind_eq_ok]
  refine exists_congr fun param => ?_
  constructor
  · rintro ⟨hparam, h⟩
    split at h
    next => cases h
    next d hd =>
      refine ⟨d, hparam, hd, ?_⟩
      split at h
      next => cases h
      next hmodel =>
        refine ⟨not_not.mp hmodel, ?_⟩
        split at h
        next hpath =>
          cases h
          exact hpath ▸ .key
        next field hpath =>
          obtain ⟨name, hname, rfl⟩ := fieldOperand_eq_ok_iff.mp h
          exact hpath ▸ .stored hname
        next navigation key hpath =>
          obtain ⟨reference, target, hreference, htarget, hkey, rfl⟩ := keyOperand_eq_ok_iff.mp h
          exact hpath ▸ .targetKey hreference htarget hkey
        next => cases h
  · rintro ⟨d, hparam, hd, hmodel, hfolds⟩
    refine ⟨hparam, ?_⟩
    rw [hd]
    dsimp only
    rw [if_neg (not_not.mpr hmodel)]
    generalize hpath : m.path = path at hfolds
    cases hfolds with
    | key => rfl
    | stored h => exact fieldOperand_eq_ok_iff.mpr ⟨_, h, rfl⟩
    | targetKey hreference htarget hkey =>
      exact keyOperand_eq_ok_iff.mpr ⟨_, _, hreference, htarget, hkey, rfl⟩

/-- A member that compiles is a column of the parameter that it starts at.  It is widened only if
that column holds integers. -/
theorem memberOperand_eq_ok {s : Scope} {m : Member} {o : Operand} (h : s.memberOperand m = .ok o) :
    ∃ param d column, s.start? m = some param ∧ s.params.find? param = some d ∧
      d.columnAt? m.path = some column ∧ o.condition.IsColumn param column ∧
      (d.NamesDistinct → o.isNarrow = true →
        (s.params.typeOf? param column).any (·.isInteger) = true) := by
  obtain ⟨param, d, hparam, hd, hmodel, hfolds⟩ := memberOperand_eq_ok_iff.mp h
  have hstart := start?_of_param hparam hd hmodel
  have htype : ∀ column, s.params.typeOf? param column = (d.column? column).map (·.ty) := by
    intro column
    rw [Parameters.typeOf?, hd]
    rfl
  have hnarrow : ∀ column, d.NamesDistinct → (Scope.column param d column).isNarrow = true →
      (s.params.typeOf? param column).any (·.isInteger) = true := by
    intro column _ hn
    rw [htype]
    exact Operand.isInteger_of_isNarrow hn
  generalize m.path = path at hfolds
  cases hfolds with
  | key =>
    refine ⟨param, d, d.keyColumn.name, hstart, hd, rfl, .parameter, fun hdistinct hn => ?_⟩
    have hk : d.keyColumn ∈ d.columns := Descriptor.keyColumn_mem_of_isNarrow hn
    rw [htype, Descriptor.column?_eq_some hdistinct hk rfl]
    exact ColumnType.isInteger_of_isNarrow hn
  | @stored field name hstorage =>
    exact ⟨param, d, name, hstart, hd, hstorage, .member, hnarrow name⟩
  | @targetKey navigation key reference target hreference htarget hkey =>
    refine ⟨param, d, reference.column, hstart, hd, ?_, .member, hnarrow reference.column⟩
    rw [Descriptor.columnAt?, hreference]
    rfl

/-- An operand is a member or a single constant. -/
theorem operand_eq_ok {s : Scope} {e : Expr} {o : Operand} (h : s.operand e = .ok o) :
    (∃ m, e = .member m ∧ s.memberOperand m = .ok o) ∨
    ∃ v, e = .value (.scalar v) ∧ o = ⟨.constant (.scalar v), none⟩ := by
  cases e with
  | member m => exact Or.inl ⟨m, rfl, h⟩
  | value v =>
    cases v with
    | list items => cases h
    | scalar v =>
      cases h
      exact Or.inr ⟨v, rfl, rfl⟩
  | binary op lhs rhs => cases h
  | inList item list => cases h
  | isNull e => cases h
  | not e => cases h

/-- A compiled operand has the value that its expression has. -/
theorem eval_operand {s : Scope} {input : Input} {e : Expr} {o : Operand}
    (distinct : ∀ entry ∈ s.params.entries, entry.2.NamesDistinct)
    (h : s.operand e = .ok o) (hs : Supplies input s.params o.condition.columns) :
    ∃ v, o.condition.eval input = .ok v ∧ s.valueOf? input e = some v ∧
      (o.isNarrow = true → v.IntegerOrNull) := by
  rcases operand_eq_ok h with ⟨m, rfl, hm⟩ | ⟨v, rfl, rfl⟩
  · obtain ⟨param, d, column, hstart, hd, hpath, hcol, hnarrow⟩ := memberOperand_eq_ok hm
    have hentry := distinct (param, d) (Keyed.mem_of_find? hd)
    rw [hcol.columns_eq] at hs
    obtain ⟨v, hv, hint⟩ := hs (param, column) List.mem_cons_self
    refine ⟨v, hcol.eval_eq hv, ?_, fun hn => hint (hnarrow hentry hn)⟩
    simp only [valueOf?, hstart, hd, hpath, Option.bind_eq_bind, Option.bind_some]
    exact hv
  · exact ⟨.scalar v, rfl, rfl, fun h => by cases h⟩

end Scope

/-! ## Bringing operands to one width -/

namespace Operand

/-- What unifying operands makes of one of them: nothing, the widened column, or the constant
integer written in 64 bits. -/
inductive Unified (o : Operand) : Condition → Prop
  | same : Unified o o.condition
  | widened : Unified o o.widened
  | constant {v w : Value} {n : Int} (hc : o.condition = .constant v) (hn : v.toInt? = some n)
      (hw : v.convert .i64 = .ok w) : Unified o (.constant w)

theorem columns_widened (o : Operand) : o.widened.columns = o.condition.columns := by
  rw [widened]
  split
  next => exact List.append_nil _
  next => rfl

theorem Unified.columns_eq {o : Operand} {c : Condition} (h : o.Unified c) :
    c.columns = o.condition.columns := by
  cases h with
  | same => rfl
  | widened => exact columns_widened o
  | constant hc hn hw =>
    rw [hc]
    rfl

/-- Widening never fails on an integer or null, and never changes the number. -/
theorem eval_widened {o : Operand} {input : Input} {v : Value}
    (hv : o.condition.eval input = .ok v) (hint : o.isNarrow = true → v.IntegerOrNull) :
    ∃ w, o.widened.eval input = .ok w ∧ v.SameNumber w := by
  rw [widened]
  by_cases hnarrow : o.isNarrow = true
  · rw [isNarrow] at hnarrow
    rw [if_pos hnarrow]
    have heval : (Condition.convert .i64 o.condition).eval input = v.convert .i64 := by
      rw [Condition.convert, Condition.eval, hv]
      rfl
    rcases hint hnarrow with rfl | hsome
    · exact ⟨.null, heval, .refl _⟩
    · obtain ⟨n, hn⟩ := Option.isSome_iff_exists.mp hsome
      obtain ⟨w, hw, hsame⟩ := Value.convert_i64 hn
      exact ⟨w, heval.trans hw, hsame⟩
  · rw [isNarrow] at hnarrow
    rw [if_neg hnarrow]
    exact ⟨v, hv, .refl v⟩

theorem Unified.eval {o : Operand} {c : Condition} (h : o.Unified c) {input : Input} {v : Value}
    (hv : o.condition.eval input = .ok v) (hint : o.isNarrow = true → v.IntegerOrNull) :
    ∃ w, c.eval input = .ok w ∧ v.SameNumber w := by
  cases h with
  | same => exact ⟨v, hv, .refl v⟩
  | widened => exact eval_widened hv hint
  | @constant u w n hc hn hw =>
    rw [hc, Condition.eval] at hv
    cases hv
    obtain ⟨w', hw', hsame⟩ := Value.convert_i64 hn
    rw [hw] at hw'
    cases hw'
    exact ⟨w, rfl, hsame⟩

theorem integer?_eq_some_iff {o : Operand} {v : Value} :
    o.integer? = some v ↔ o.condition = .constant v ∧ v.toInt?.isSome = true := by
  rw [integer?]
  split
  next w hw =>
    rw [hw, Condition.constant.injEq]
    split
    next hsome => grind
    next hnone => grind
  next hother =>
    constructor
    · intro h
      cases h
    · rintro ⟨hw, -⟩
      exact (hother v hw).elim

theorem unify_eq_ok {lhs rhs : Operand} {l r : Condition} (h : lhs.unify rhs = .ok (l, r)) :
    lhs.Unified l ∧ rhs.Unified r := by
  rw [unify] at h
  split at h
  next v hint hconst =>
    rw [Outcome.bind_eq_ok] at h
    obtain ⟨w, hw, h⟩ := h
    cases h
    obtain ⟨hv, hsome⟩ := integer?_eq_some_iff.mp hconst
    obtain ⟨n, hn⟩ := Option.isSome_iff_exists.mp hsome
    exact ⟨.widened, .constant hv hn hw⟩
  next =>
    split at h
    next =>
      cases h
      exact ⟨.widened, .widened⟩
    next =>
      cases h
      exact ⟨.same, .same⟩

end Operand

end RowGraph
