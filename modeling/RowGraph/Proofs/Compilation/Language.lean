import Mathlib
import RowGraph.Proofs.Compilation.Rules
import RowGraph.Proofs.Schema.Failures

/-!
The language of filters.

A filter is a tree of connectives over comparisons and memberships.  What its members have to be is
said here of the parameters and their tables alone: where a member starts, and which paths lead to a
column.  The main statement is that the compiler of a filter accepts exactly these expressions, and
that it refuses any other one because it is not supported, is ambiguous, or navigates to a model
whose declarations do not fit together.
-/

namespace RowGraph

/-- The paths from a row of a table that end at one of its columns: the empty one, a member that is
stored in a column, a reference, and a reference followed by the key member of its target. -/
inductive Registry.Follows (r : Registry) (d : Descriptor) : List String → Prop
  | key : r.Follows d []
  | stored {column : Column} {field : String} (h : column ∈ d.columns)
    (hfield : column.member = some field) : r.Follows d [field]
  | reference {reference : Reference} (h : reference ∈ d.references) :
    r.Follows d [reference.member]
  | targetKey {navigation key : String} {reference : Reference} {target : Descriptor}
    (hreference : d.reference? navigation = some reference)
    (htarget : r.descriptor reference.target = .ok target)
    (hkey : target.keyColumn.member = some key) : r.Follows d [navigation, key]

theorem Descriptor.isSome_storage?_iff {d : Descriptor} {field : String} :
    (d.storage? field).isSome = true ↔
      (∃ column ∈ d.columns, column.member = some field) ∨
        ∃ reference ∈ d.references, reference.member = field := by
  rw [Option.isSome_iff_ne_none, ne_eq, storage?_eq_none_iff, not_and_or]
  simp only [ne_eq, not_forall, not_not, exists_prop]

/-- The members that an expression mentions. -/
def Expr.members : Expr → List Member
  | .binary _ lhs rhs => lhs.members ++ rhs.members
  | .inList item list => item.members ++ list.members
  | .isNull e => e.members
  | .not e => e.members
  | .member m => [m]
  | .value _ => []

namespace Scope

/-! ## Members that can be resolved -/

/-- The parameter that a member starts at.  It is the named one, if there is such a parameter;
without a name, the left one if it is of the member's model, else the right one if it is, else the
only one of that model. -/
inductive StartsAt (s : Scope) (m : Member) : String → Prop
  | named {name : String} (hparam : m.param = .named name) (h : name ∈ s.params.names) :
    s.StartsAt m name
  | left (hparam : m.param = .implicit) (hleft : s.isOf m.model s.left = true) :
    s.StartsAt m s.left
  | right {right : String} (hparam : m.param = .implicit) (hleft : s.isOf m.model s.left = false)
    (hright : s.right = some right) (h : s.isOf m.model right = true) : s.StartsAt m right
  | only {name : String} {d : Descriptor} (hparam : m.param = .implicit)
    (hleft : s.isOf m.model s.left = false)
    (hright : ∀ right, s.right = some right → s.isOf m.model right = false)
    (h : (s.params.entries.filter fun entry => entry.2.model == m.model) = [(name, d)]) :
    s.StartsAt m name

/-- The member starts at the parameter, which is of its model, and leads to a column. -/
def Resolves (s : Scope) (m : Member) (param : String) : Prop :=
  s.StartsAt m param ∧
    ∃ d, s.params.find? param = some d ∧ d.model = m.model ∧ s.registry.Follows d m.path

/-- The expressions of which a filter consists. -/
inductive Accepts (s : Scope) : Expr → Prop
  | connective {op : Operator} {lhs rhs : Expr} (hop : op.isLogical = true)
    (hlhs : s.Accepts lhs) (hrhs : s.Accepts rhs) : s.Accepts (.binary op lhs rhs)
  | withConstant {op : Operator} {m : Member} {v : Value} {param : String}
    (hop : op.isComparison = true) (hm : s.Resolves m param) (hv : v.isList = false) :
    s.Accepts (.binary op (.member m) (.value v))
  | ofConstant {op : Operator} {m : Member} {v : Value} {param : String}
    (hop : op.isComparison = true) (hm : s.Resolves m param) (hv : v.isList = false) :
    s.Accepts (.binary op (.value v) (.member m))
  | members {op : Operator} {m m' : Member} {param param' : String}
    (hop : op.isComparison = true) (hm : s.Resolves m param) (hm' : s.Resolves m' param')
    (hone : param = s.left ↔ param' ≠ s.left) : s.Accepts (.binary op (.member m) (.member m'))
  | isIn {m : Member} {items : List Value} {param : String} (hm : s.Resolves m param)
    (hflat : ∀ v ∈ items, v.isList = false) :
    s.Accepts (.binary .in (.member m) (.value (.list items)))
  | inList {m : Member} {items : List Value} {param : String} (hm : s.Resolves m param)
    (hflat : ∀ v ∈ items, v.isList = false) :
    s.Accepts (.inList (.member m) (.value (.list items)))

variable {s : Scope}

theorem param_eq_ok_iff {m : Member} {name : String} :
    s.param m = .ok name ↔ s.StartsAt m name := by
  rw [param]
  constructor
  · intro h
    split at h
    next given hparam =>
      split at h
      next hcontains =>
        cases h
        exact .named hparam (Keyed.has_iff.mp hcontains)
      next => cases h
    next hparam =>
      rcases implicitParam_cases h with ⟨hleft, rfl⟩ | ⟨hleft, hright⟩ | ⟨hleft, hright, honly⟩
      · exact .left hparam hleft
      · rw [Option.filter_eq_some_iff] at hright
        exact .right hparam hleft hright.1 hright.2
      · obtain ⟨entry, hentry, rfl⟩ := List.map_eq_singleton_iff.mp honly
        refine .only hparam hleft (fun right hr => ?_) hentry
        rw [Option.filter_eq_none_iff] at hright
        simpa using hright right hr
  · intro h
    cases h with
    | named hparam h =>
      rw [hparam]
      exact if_pos (Keyed.has_iff.mpr h)
    | left hparam hleft =>
      rw [hparam]
      exact if_pos hleft
    | right hparam hleft hright h =>
      have hfilter : s.right.filter (s.isOf m.model) = some name :=
        Option.filter_eq_some_iff.mpr ⟨hright, h⟩
      rw [hparam]
      dsimp only
      rw [implicitParam, if_neg (by simp [hleft]), hfilter]
    | only hparam hleft hright h =>
      have hfilter : s.right.filter (s.isOf m.model) = none := by
        rw [Option.filter_eq_none_iff]
        exact fun right hr => by simp [hright right hr]
      rw [hparam]
      dsimp only
      rw [implicitParam, if_neg (by simp [hleft]), hfilter, h]
      rfl

theorem exists_folds_iff (s : Scope) (param : String) {d : Descriptor} {path : List String} :
    (∃ o, s.Folds param d path o) ↔ s.registry.Follows d path := by
  constructor
  · rintro ⟨o, h⟩
    cases h with
    | key => exact .key
    | stored h =>
      rcases Descriptor.isSome_storage?_iff.mp (Option.isSome_of_eq_some h) with
        ⟨column, hcolumn, hfield⟩ | ⟨reference, hreference, rfl⟩
      · exact .stored hcolumn hfield
      · exact .reference hreference
    | targetKey hreference htarget hkey => exact .targetKey hreference htarget hkey
  · intro h
    cases h with
    | key => exact ⟨_, .key⟩
    | stored h hfield =>
      obtain ⟨name, hname⟩ := Option.isSome_iff_exists.mp
        (Descriptor.isSome_storage?_iff.mpr (Or.inl ⟨_, h, hfield⟩))
      exact ⟨_, .stored hname⟩
    | reference h =>
      obtain ⟨name, hname⟩ := Option.isSome_iff_exists.mp
        (Descriptor.isSome_storage?_iff.mpr (Or.inr ⟨_, h, rfl⟩))
      exact ⟨_, .stored hname⟩
    | targetKey hreference htarget hkey => exact ⟨_, .targetKey hreference htarget hkey⟩

theorem Folds.root?_eq {param : String} {d : Descriptor} {path : List String} {o : Operand}
    (h : s.Folds param d path o) : o.condition.root? = some param := by
  cases h <;> rfl

/-- The members that compile are those that can be resolved, and each is rooted where it starts. -/
theorem resolves_iff {m : Member} {param : String} :
    s.Resolves m param ↔ ∃ o, s.memberOperand m = .ok o ∧ o.condition.root? = some param := by
  rw [Resolves, ← param_eq_ok_iff]
  -- The operand has its root where the member starts, so the two speak of one parameter.
  simp only [memberOperand_eq_ok_iff, ← exists_folds_iff s param]
  constructor
  · rintro ⟨hstart, d, hd, hmodel, o, ho⟩
    exact ⟨o, ⟨param, d, hstart, hd, hmodel, ho⟩, ho.root?_eq⟩
  · rintro ⟨o, ⟨param', d, hstart, hd, hmodel, ho⟩, hroot⟩
    obtain rfl : param' = param := by
      rw [ho.root?_eq, Option.some_inj] at hroot
      exact hroot
    exact ⟨hstart, d, hd, hmodel, o, ho⟩

/-! ## What is accepted -/

theorem exists_resolves {m : Member} {o : Operand} (h : s.memberOperand m = .ok o) :
    ∃ param, s.Resolves m param ∧ o.condition.root? = some param := by
  obtain ⟨param, d, -, -, -, hfolds⟩ := memberOperand_eq_ok_iff.mp h
  exact ⟨param, resolves_iff.mpr ⟨o, h, hfolds.root?_eq⟩, hfolds.root?_eq⟩

/-- Of two operands in order, the first is a member; if both are, only the first is rooted at the
left parameter. -/
theorem accepts_of_oriented {op : Operator} (hop : op.isComparison = true) {e e' : Expr}
    {o o' : Operand} (he : s.operand e = .ok o) (he' : s.operand e' = .ok o')
    (h : s.Oriented o o') : s.Accepts (.binary op e e') ∧ s.Accepts (.binary op e' e) := by
  rcases operand_eq_ok he with ⟨m, rfl, hm⟩ | ⟨v, rfl, rfl⟩
  · obtain ⟨param, hparam, hroot⟩ := exists_resolves hm
    rcases operand_eq_ok he' with ⟨m', rfl, hm'⟩ | ⟨v, rfl, rfl⟩
    · obtain ⟨param', hparam', hroot'⟩ := exists_resolves hm'
      cases h with
      | constant hfirst hsecond hjoined =>
        rw [hroot'] at hsecond
        cases hsecond
      | columns hfirst hsecond hne hjoined =>
        obtain rfl : param = s.left := Option.some_inj.mp (hroot.symm.trans hfirst)
        obtain rfl := Option.some_inj.mp (hroot'.symm.trans hsecond)
        exact ⟨.members hop hparam hparam' (by simp [hne]),
          .members hop hparam' hparam (by simp [hne])⟩
    · exact ⟨.withConstant hop hparam rfl, .ofConstant hop hparam rfl⟩
  · cases h with
    | constant hfirst hsecond hjoined => cases hfirst
    | columns hfirst hsecond hne hjoined => cases hfirst

theorem accepts_of_compiles {e : Expr} {c : Condition} (h : s.Compiles e c) : s.Accepts e := by
  induction h with
  | connective hop _ _ ihl ihr => exact .connective hop ihl ihr
  | comparison hop hlhs hrhs hc =>
    rcases hc with hc | hc
    · exact (accepts_of_oriented hop hlhs hrhs hc.1).1
    · exact (accepts_of_oriented hop hrhs hlhs hc.1).2
  | isIn h =>
    obtain ⟨hflat, o, ho, -⟩ := h
    obtain ⟨param, hparam, -⟩ := exists_resolves ho
    exact .isIn hparam hflat
  | inList h =>
    obtain ⟨hflat, o, ho, -⟩ := h
    obtain ⟨param, hparam, -⟩ := exists_resolves ho
    exact .inList hparam hflat

theorem exists_compiles_of_oriented {op : Operator} (hop : op.isComparison = true) {e e' : Expr}
    {o o' : Operand} (he : s.operand e = .ok o) (he' : s.operand e' = .ok o')
    (h : s.Oriented o o') :
    (∃ c, s.Compiles (.binary op e e') c) ∧ ∃ c, s.Compiles (.binary op e' e) c := by
  obtain ⟨l, r, hunify⟩ := o.exists_unify o'
  refine ⟨⟨_, .comparison hop he he' (Or.inl ⟨h, l, r, hunify, rfl⟩)⟩,
    ⟨_, .comparison hop he' he (Or.inr ⟨h, l, r, hunify, rfl⟩)⟩⟩

theorem exists_tested {m : Member} {items : List Value} {param : String} (hm : s.Resolves m param)
    (hflat : ∀ v ∈ items, v.isList = false) : ∃ c, s.Tested m items c := by
  obtain ⟨o, ho, -⟩ := resolves_iff.mp hm
  rcases among_cases o items with ⟨-, -, items', -, h⟩ | ⟨-, h⟩
  · exact ⟨_, hflat, o, ho, h⟩
  · exact ⟨_, hflat, o, ho, h⟩

/-- In a filter, a constant beside a member is in order whatever the member is rooted at. -/
theorem oriented_constant (hright : s.right = none) {m : Member} {param : String}
    (hm : s.Resolves m param) (v : Value) :
    ∃ o, s.operand (.member m) = .ok o ∧ s.Oriented o ⟨.constant v, none⟩ := by
  obtain ⟨o, ho, hroot⟩ := resolves_iff.mp hm
  exact ⟨o, ho, .constant hroot rfl (by simp [hright])⟩

theorem operand_value {v : Value} (hv : v.isList = false) :
    s.operand (.value v) = .ok ⟨.constant v, none⟩ := by
  cases v with
  | scalar v => rfl
  | list items => cases hv

theorem exists_compiles_of_accepts (hright : s.right = none) {e : Expr} (h : s.Accepts e) :
    ∃ c, s.Compiles e c := by
  induction h with
  | connective hop _ _ ihl ihr =>
    obtain ⟨l, hl⟩ := ihl
    obtain ⟨r, hr⟩ := ihr
    exact ⟨_, .connective hop hl hr⟩
  | @withConstant op m v param hop hm hv =>
    obtain ⟨o, ho, horiented⟩ := oriented_constant hright hm v
    exact (exists_compiles_of_oriented hop ho (operand_value hv) horiented).1
  | @ofConstant op m v param hop hm hv =>
    obtain ⟨o, ho, horiented⟩ := oriented_constant hright hm v
    exact (exists_compiles_of_oriented hop ho (operand_value hv) horiented).2
  | @members op m m' param param' hop hm hm' hone =>
    obtain ⟨o, (ho : s.operand (.member m) = .ok o), hroot⟩ := resolves_iff.mp hm
    obtain ⟨o', (ho' : s.operand (.member m') = .ok o'), hroot'⟩ := resolves_iff.mp hm'
    have hjoined : ∀ {other : String} right, s.right = some right → other = right := by
      simp [hright]
    by_cases hfirst : param = s.left
    · have horiented : s.Oriented o o' :=
        .columns (hfirst ▸ hroot) hroot' (hone.mp hfirst) hjoined
      exact (exists_compiles_of_oriented hop ho ho' horiented).1
    · have hsecond : param' = s.left := by
        by_contra hne
        exact hfirst (hone.mpr hne)
      have horiented : s.Oriented o' o := .columns (hsecond ▸ hroot') hroot hfirst hjoined
      exact (exists_compiles_of_oriented hop ho' ho horiented).2
  | isIn hm hflat =>
    obtain ⟨c, hc⟩ := exists_tested hm hflat
    exact ⟨c, .isIn hc⟩
  | inList hm hflat =>
    obtain ⟨c, hc⟩ := exists_tested hm hflat
    exact ⟨c, .inList hc⟩

/-! ## What is refused -/

/-- The errors with which an expression over the given members is refused: it is not supported, it is
ambiguous, or the target of a reference that one of the members navigates cannot be described. -/
inductive Refusal (s : Scope) (members : List Member) : Error → Prop
  | unsupported (why : Unsupported) : s.Refusal members (.unsupportedExpression why)
  | ambiguous (why : Ambiguity) : s.Refusal members (.ambiguousCondition why)
  | target {m : Member} {param navigation key : String} {d : Descriptor} {reference : Reference}
    {why : SchemaMistake} (hm : m ∈ members) (hstart : s.StartsAt m param)
    (hd : s.params.find? param = some d) (hmodel : d.model = m.model)
    (hpath : m.path = [navigation, key]) (hreference : d.reference? navigation = some reference)
    (h : s.registry.descriptor reference.target = .error (.invalidSchema why)) :
    s.Refusal members (.invalidSchema why)

open Outcome

theorem Refusal.mono {members members' : List Member} (h : members ⊆ members') {e : Error}
    (he : s.Refusal members e) : s.Refusal members' e := by
  cases he with
  | unsupported why => exact .unsupported why
  | ambiguous why => exact .ambiguous why
  | target hm hstart hd hmodel hpath hreference hdescriptor =>
    exact .target (h hm) hstart hd hmodel hpath hreference hdescriptor

theorem Refusal.not_typeConversion {members : List Member} {e : Error}
    (h : s.Refusal members e) : e.is .typeConversion = false := by
  cases h <;> rfl

theorem failsWith_unsupported {α : Type} {members : List Member} (why : Unsupported) :
    FailsWith (s.Refusal members) (.error (.unsupportedExpression why) : Outcome α) :=
  .error (.unsupported why)

theorem failsWith_ambiguous {α : Type} {members : List Member} (why : Ambiguity) :
    FailsWith (s.Refusal members) (.error (.ambiguousCondition why) : Outcome α) :=
  .error (.ambiguous why)

theorem failsWith_param (m : Member) : FailsWith (s.Refusal [m]) (s.param m) := by
  rw [param]
  split
  next name hparam =>
    split
    next => exact .ok name
    next => exact failsWith_ambiguous _
  next hparam =>
    rw [implicitParam]
    split
    next => exact .ok s.left
    next =>
      split
      next right hright => exact .ok right
      next =>
        split
        next name honly => exact .ok name
        next => exact failsWith_ambiguous _
        next => exact failsWith_ambiguous _

theorem failsWith_fieldOperand (members : List Member) (param : String) (d : Descriptor)
    (field : String) : FailsWith (s.Refusal members) (fieldOperand param d field) := by
  rw [fieldOperand]
  split
  next name hname => exact .ok _
  next =>
    split
    next => exact failsWith_unsupported _
    next => exact failsWith_unsupported _

theorem failsWith_keyOperand {m : Member} {param navigation key : String} {d : Descriptor}
    (hstart : s.StartsAt m param) (hd : s.params.find? param = some d) (hmodel : d.model = m.model)
    (hpath : m.path = [navigation, key]) :
    FailsWith (s.Refusal [m]) (s.keyOperand param d m navigation key) := by
  rw [keyOperand]
  split
  next => exact failsWith_unsupported _
  next reference hreference =>
    refine FailsWith.bind (fun e he => ?_) fun target => ?_
    · obtain ⟨why, rfl⟩ := s.registry.failsWith_descriptor reference.target e he
      exact .target (List.mem_singleton_self m) hstart hd hmodel hpath hreference he
    · split
      next => exact .ok _
      next => exact failsWith_unsupported _

theorem failsWith_memberOperand (m : Member) :
    FailsWith (s.Refusal [m]) (s.memberOperand m) := by
  rw [memberOperand]
  refine (failsWith_param m).bind_of_ok fun param hparam => ?_
  have hstart := param_eq_ok_iff.mp hparam
  split
  next => exact failsWith_ambiguous _
  next d hd =>
    split
    next => exact failsWith_unsupported _
    next hmodel =>
      split
      next => exact .ok _
      next field hpath => exact failsWith_fieldOperand [m] param d field
      next navigation key hpath => exact failsWith_keyOperand hstart hd (not_not.mp hmodel) hpath
      next => exact failsWith_unsupported _

theorem failsWith_operand (e : Expr) : FailsWith (s.Refusal e.members) (s.operand e) := by
  cases e with
  | member m => exact failsWith_memberOperand m
  | value v =>
    cases v with
    | list items => exact failsWith_unsupported _
    | scalar v => exact .ok _
  | binary op lhs rhs => exact failsWith_unsupported _
  | inList item list => exact failsWith_unsupported _
  | isNull e => exact failsWith_unsupported _
  | not e => exact failsWith_unsupported _

/-- A comparison is refused only if it cannot be put in order: the conversion of its constant, which
is an integer, does not fail. -/
theorem failsWith_compare {members : List Member} (op : Operator) (lhs rhs : Operand) :
    FailsWith (s.Refusal members) (s.compare op lhs rhs) := by
  rw [compare]
  split
  next => exact failsWith_ambiguous _
  next swap hswap =>
    cases swap with
    | true =>
      obtain ⟨l, r, h⟩ := rhs.exists_unify lhs
      simp only [if_true, h, ok_bind]
      exact .ok _
    | false =>
      obtain ⟨l, r, h⟩ := lhs.exists_unify rhs
      simp only [Bool.false_eq_true, if_false, h, ok_bind]
      exact .ok _

theorem failsWith_among {members : List Member} (o : Operand) (items : List Value) :
    FailsWith (s.Refusal members) (among o items) := by
  rcases among_cases o items with ⟨-, -, items', -, h⟩ | ⟨-, h⟩
  · rw [h]
    exact .ok _
  · rw [h]
    exact .ok _

theorem failsWith_membership (item list : Expr) :
    FailsWith (s.Refusal (item.members ++ list.members)) (s.membership item list) := by
  rw [membership.eq_def]
  split
  next m items =>
    split
    next => exact failsWith_unsupported _
    next => exact (failsWith_memberOperand m).bind fun o => failsWith_among o items
  next => exact failsWith_unsupported _
  next => exact failsWith_unsupported _

/-- Whatever is compiled in whatever scope, it is refused for one of these reasons. -/
theorem failsWith_compile (e : Expr) : FailsWith (s.Refusal e.members) (s.compile e) := by
  induction e with
  | binary op lhs rhs ihl ihr =>
    have hl : ∀ e, s.Refusal lhs.members e → s.Refusal (lhs.members ++ rhs.members) e :=
      fun e => .mono (List.subset_append_left _ _)
    have hr : ∀ e, s.Refusal rhs.members e → s.Refusal (lhs.members ++ rhs.members) e :=
      fun e => .mono (List.subset_append_right _ _)
    rw [compile]
    split
    next => exact (ihl.mono hl).bind fun l => (ihr.mono hr).bind fun r => .ok _
    next =>
      split
      next => exact failsWith_membership lhs rhs
      next =>
        exact ((failsWith_operand lhs).mono hl).bind fun o =>
          ((failsWith_operand rhs).mono hr).bind fun o' => failsWith_compare op o o'
  | inList item list _ _ => exact failsWith_membership item list
  | isNull e _ => exact failsWith_unsupported _
  | member m => exact failsWith_unsupported _
  | not e _ => exact failsWith_unsupported _
  | value v => exact failsWith_unsupported _

/-! ## Filters -/

/-- Over parameters with a default one, the filter accepts exactly the expressions of its language.
It refuses the others as unsupported or ambiguous, or for a reference that is navigated to a model
without a description, and never because a value cannot be converted. -/
theorem filter_accepts_iff {registry : Registry} {params : Parameters} {left : String}
    {d : Descriptor} (h : params.default? = some (left, d)) :
    ∃ s, filter registry params = .ok s ∧ s = ⟨registry, params, left, none⟩ ∧ ∀ e,
      ((∃ c, s.compile e = .ok c) ↔ s.Accepts e) ∧
      ∀ err, s.compile e = .error err →
        s.Refusal e.members err ∧ err.is .typeConversion = false := by
  refine ⟨⟨registry, params, left, none⟩, by rw [filter, h], rfl, fun e => ⟨?_, fun err herr => ?_⟩⟩
  · simp only [compile_eq_ok_iff]
    exact ⟨fun ⟨c, hc⟩ => accepts_of_compiles hc, exists_compiles_of_accepts rfl⟩
  · have hrefusal := failsWith_compile e err herr
    exact ⟨hrefusal, hrefusal.not_typeConversion⟩

/-! ### An instance -/

def shelves : Catalogue where
  models := [
    ⟨"Author", "Authors", "id", [⟨"id", .column .i64 none none, false⟩]⟩,
    ⟨"Book", "Books", "id", [⟨"id", .column .i32 none none, false⟩,
      ⟨"author", .belongsTo "Author" none, false⟩]⟩]

/-- Books as the default parameter, beside their authors. -/
def booksAndAuthors : Parameters where
  entries := [
    ("x", ⟨"Book", "Books", "id", [⟨"id", some "id", .i32, none, true⟩,
      ⟨"author_id", none, .i64, some ⟨"Author", "Authors", "id"⟩, false⟩], [],
      [⟨"author", "Author", "author_id"⟩]⟩),
    ("x1", ⟨"Author", "Authors", "id", [⟨"id", some "id", .i64, none, true⟩], [], []⟩)]
  default := some "x"

/-- A comparison that follows a reference to its key, or a membership. -/
def knownAuthor : Expr :=
  .or (.eq (.member (.ofModel "Author" [])) (.member (.ofModel "Book" ["author", "id"])))
    (.binary .in (.member (.ofModel "Book" ["id"])) (.value (.list [.i16 1])))

/-- A comparison of two columns of the default parameter. -/
def ownAuthor : Expr :=
  .eq (.member (.ofModel "Book" ["id"])) (.member (.ofModel "Book" ["author"]))

theorem filter_accepts_knownAuthor :
    ∃ s, filter (.ofCatalogue shelves) booksAndAuthors = .ok s ∧ s.Accepts knownAuthor ∧
      ¬s.Accepts ownAuthor := by
  have hdefault : ∃ d, booksAndAuthors.default? = some ("x", d) := ⟨_, by cbv⟩
  obtain ⟨d, hd⟩ := hdefault
  obtain ⟨s, hs, rfl, haccepts⟩ := @filter_accepts_iff (.ofCatalogue shelves) _ _ _ hd
  refine ⟨_, hs, (haccepts knownAuthor).1.mp ⟨_, by cbv⟩, fun h => ?_⟩
  obtain ⟨c, hc⟩ := (haccepts ownAuthor).1.mpr h
  have herror : ∃ e, compile ⟨.ofCatalogue shelves, booksAndAuthors, "x", none⟩ ownAuthor =
      .error e := ⟨_, by cbv⟩
  obtain ⟨e, he⟩ := herror
  rw [he] at hc
  cases hc

end Scope
end RowGraph
