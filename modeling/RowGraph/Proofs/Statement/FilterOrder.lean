import Mathlib.Logic.Relation
import RowGraph.Proofs.Statement.Scoping

/-!
Filters before and after further joins.

A join registers a parameter, and a filter may leave the parameter of a member to be found among
those that are there.  Joining more never makes a filter mean something else: each of its members is
read from the parameter that it was read from, or it is refused, because several parameters are of
its model now.  So where a filter and a join can be taken in both orders the order does not matter.
-/

namespace RowGraph

namespace Outcome

variable {α β : Type}

/-- A member could be read from several parameters. -/
def Ambiguous (x : Outcome α) : Prop :=
  ∃ model names, x = .error (.ambiguousCondition (.severalParametersOf model names))

/-- What the first outcome gives, the second one gives too, unless a member has become ambiguous. -/
def Stays (x y : Outcome α) : Prop :=
  ∀ a, x = .ok a → y = .ok a ∨ y.Ambiguous

theorem stays_refl (x : Outcome α) : x.Stays x :=
  fun _ h => Or.inl h

theorem Stays.bind {x y : Outcome α} {f g : α → Outcome β} (h : x.Stays y)
    (hf : ∀ a, (f a).Stays (g a)) : (x >>= f).Stays (y >>= g) := by
  intro b hb
  obtain ⟨a, ha, hb⟩ := bind_eq_ok.mp hb
  rcases h a ha with hy | ⟨model, names, hy⟩
  · rw [hy]
    exact hf a b hb
  · rw [hy]
    exact Or.inr ⟨model, names, rfl⟩

end Outcome

/-! ## Scopes with further parameters -/

/-- The parameters are those of the first set, in place, and perhaps others after them. -/
structure Parameters.Extends (ps after : Parameters) : Prop where
  entries : ∃ more, after.entries = ps.entries ++ more
  default : after.default = ps.default

namespace Parameters

variable {ps after : Parameters}

theorem Extends.refl (ps : Parameters) : ps.Extends ps :=
  ⟨⟨[], (List.append_nil _).symm⟩, rfl⟩

theorem Extends.trans {last : Parameters} (h : ps.Extends after) (h' : after.Extends last) :
    ps.Extends last := by
  obtain ⟨more, hmore⟩ := h.entries
  obtain ⟨others, hothers⟩ := h'.entries
  exact ⟨⟨more ++ others, by rw [hothers, hmore, List.append_assoc]⟩, h'.default.trans h.default⟩

theorem Extends.find? (h : ps.Extends after) {name : String} {d : Descriptor}
    (hd : ps.find? name = some d) : after.find? name = some d := by
  obtain ⟨more, hmore⟩ := h.entries
  exact find?_append hmore hd

theorem Extends.contains (h : ps.Extends after) {name : String} (hname : ps.contains name = true) :
    after.contains name = true := by
  obtain ⟨d, hd⟩ := Option.isSome_iff_exists.mp hname
  exact Option.isSome_iff_exists.mpr ⟨d, h.find? hd⟩

end Parameters

namespace Scope

/-- The second scope is the first one with further parameters. -/
structure Grows (s t : Scope) : Prop where
  registry : t.registry = s.registry
  params : s.params.Extends t.params
  left : t.left = s.left
  right : t.right = s.right
  /-- The parameters that the scope is about are among those of the first. -/
  known : ∀ name, name = s.left ∨ s.right = some name → s.params.contains name = true

variable {s t : Scope}

theorem Grows.isOf_eq (h : s.Grows t) {name : String} (hname : s.params.contains name = true)
    (model : String) : t.isOf model name = s.isOf model name := by
  obtain ⟨d, hd⟩ := Option.isSome_iff_exists.mp hname
  have hs : s.params.find? name = some d := hd
  rw [isOf, isOf, hs, h.params.find? hs]

theorem Grows.isOf_left (h : s.Grows t) (model : String) :
    t.isOf model t.left = s.isOf model s.left := by
  rw [h.left]
  exact h.isOf_eq (h.known s.left (Or.inl rfl)) model

theorem Grows.filter_right (h : s.Grows t) (model : String) :
    t.right.filter (t.isOf model) = s.right.filter (s.isOf model) := by
  rw [h.right]
  cases hright : s.right with
  | none => rfl
  | some right => simp only [Option.filter, h.isOf_eq (h.known right (Or.inr hright))]

/-- A member that names no parameter is read from the one it was read from, unless there is another
one of its model now and the scope is about neither. -/
theorem Grows.stays_implicitParam (h : s.Grows t) (model : String) :
    (s.implicitParam model).Stays (t.implicitParam model) := by
  intro name hname
  rw [implicitParam, h.isOf_left, h.filter_right]
  rcases implicitParam_cases hname with ⟨hleft, rfl⟩ | ⟨hleft, hright⟩ | ⟨hleft, hright, honly⟩
  · rw [if_pos hleft, h.left]
    exact Or.inl rfl
  · rw [if_neg (by simp [hleft]), hright]
    exact Or.inl rfl
  · obtain ⟨more, hmore⟩ := h.params.entries
    rw [if_neg (by simp [hleft]), hright, hmore, List.filter_append, List.map_append, honly]
    cases (more.filter fun entry => entry.2.model == model).map Prod.fst with
    | nil => exact Or.inl rfl
    | cons other rest => exact Or.inr ⟨model, name :: other :: rest, rfl⟩

theorem Grows.stays_param (h : s.Grows t) (m : Member) : (s.param m).Stays (t.param m) := by
  rw [param, param]
  cases m.param with
  | implicit => exact h.stays_implicitParam m.model
  | named given =>
    intro name hname
    dsimp only at hname ⊢
    split at hname
    next hgiven =>
      cases hname
      exact Or.inl (if_pos (h.params.contains hgiven))
    next => cases hname

theorem Grows.stays_memberOperand (h : s.Grows t) (m : Member) :
    (s.memberOperand m).Stays (t.memberOperand m) := by
  have hkey : t.keyOperand = s.keyOperand := by
    unfold keyOperand
    rw [h.registry]
  rw [memberOperand, memberOperand, hkey]
  refine (h.stays_param m).bind fun param => ?_
  cases hd : s.params.find? param with
  | none =>
    intro o ho
    cases ho
  | some d =>
    rw [h.params.find? hd]
    exact Outcome.stays_refl _

theorem Grows.stays_operand (h : s.Grows t) (e : Expr) : (s.operand e).Stays (t.operand e) := by
  cases e with
  | member m => exact h.stays_memberOperand m
  | value v => cases v <;> exact Outcome.stays_refl _
  | binary op lhs rhs => exact Outcome.stays_refl _
  | inList item list => exact Outcome.stays_refl _
  | isNull e => exact Outcome.stays_refl _
  | not e => exact Outcome.stays_refl _

/-- Which side of a comparison comes first is a matter of the parameters that the scope is about. -/
theorem Grows.compare_eq (h : s.Grows t) : t.compare = s.compare := by
  have hside : t.side = s.side := by
    unfold side
    rw [h.left, h.right]
  funext op lhs rhs
  rw [compare, compare, hside, h.left, h.right]

theorem Grows.stays_membership (h : s.Grows t) (item list : Expr) :
    (s.membership item list).Stays (t.membership item list) := by
  cases item with
  | member m =>
    cases list with
    | value v =>
      cases v with
      | list items =>
        rw [membership, membership]
        split
        next => exact Outcome.stays_refl _
        next => exact (h.stays_memberOperand m).bind fun _ => Outcome.stays_refl _
      | scalar v => exact Outcome.stays_refl _
    | _ => exact Outcome.stays_refl _
  | _ => exact Outcome.stays_refl _

/-- An expression that can be compiled says the same in the larger scope, or it is ambiguous
there. -/
theorem Grows.stays_compile (h : s.Grows t) (e : Expr) : (s.compile e).Stays (t.compile e) := by
  induction e with
  | binary op lhs rhs ihl ihr =>
    rw [compile, compile]
    split
    next => exact ihl.bind fun _ => ihr.bind fun _ => Outcome.stays_refl _
    next =>
      split
      next => exact h.stays_membership lhs rhs
      next =>
        rw [h.compare_eq]
        exact (h.stays_operand lhs).bind fun _ => (h.stays_operand rhs).bind fun _ =>
          Outcome.stays_refl _
  | inList item list _ _ => exact h.stays_membership item list
  | isNull e _ => exact Outcome.stays_refl _
  | member m => exact Outcome.stays_refl _
  | not e _ => exact Outcome.stays_refl _
  | value v => exact Outcome.stays_refl _

/-- Further parameters make the scope of a filter a larger one. -/
theorem exists_filter_grows {r : Registry} {ps after : Parameters} (h : ps.Extends after)
    (hs : filter r ps = .ok s) : ∃ t, filter r after = .ok t ∧ s.Grows t := by
  rw [filter] at hs
  split at hs
  next left d hdefault =>
    cases hs
    rw [Parameters.default?, Option.bind_eq_some_iff] at hdefault
    obtain ⟨name, hname, hfind⟩ := hdefault
    obtain ⟨found, hfound, hpair⟩ := Option.map_eq_some_iff.mp hfind
    cases hpair
    have hafter : after.default? = some (left, d) := by
      rw [Parameters.default?, h.default, hname, Option.bind_some, h.find? hfound]
      rfl
    refine ⟨⟨r, after, left, none⟩, by rw [filter, hafter], rfl, h, rfl, rfl, ?_⟩
    rintro _ (rfl | hright)
    · exact Option.isSome_iff_exists.mpr ⟨d, hfound⟩
    · cases hright
  next => cases hs

end Scope

/-! ## Selections with further parameters -/

namespace Select

/-- The second selection is made of the first one by steps, each taken with any registry. -/
def Continues : Select → Select → Prop :=
  Relation.ReflTransGen fun s t => ∃ r st, s.step r st = .ok t

variable {c : Catalogue} {s t u : Select} {r : Registry} {e : Expr} {j : Join}

theorem extends_join (h : s.join r j = .ok t) : s.params.Extends t.params := by
  obtain ⟨owner, model, target, right, params, link, -, -, hparams, -, rfl⟩ := join_cases h
  obtain ⟨-, hentries, hdefault⟩ := Parameters.register_eq_ok hparams
  exact ⟨⟨_, hentries⟩, hdefault⟩

theorem extends_step {st : Step} (h : s.step r st = .ok t) : s.params.Extends t.params := by
  cases st with
  | restrict e =>
    obtain ⟨scope, condition, -, -, rfl⟩ := restrict_eq_ok h
    exact .refl s.params
  | join j => exact extends_join h
  | columns wanted =>
    obtain ⟨found, -, rfl⟩ := columns_eq_ok h
    exact .refl s.params

theorem Continues.extends (h : s.Continues t) : s.params.Extends t.params := by
  induction h with
  | refl => exact .refl s.params
  | tail _ hstep ih =>
    obtain ⟨r, st, hstep⟩ := hstep
    exact ih.trans (extends_step hstep)

/-- The filter first, and then the join. -/
def restrictThenJoin (s : Select) (r : Registry) (e : Expr) (j : Join) : Outcome Select := do
  (← s.restrict r e).join r j

/-- The join first, and then the filter. -/
def joinThenRestrict (s : Select) (r : Registry) (e : Expr) (j : Join) : Outcome Select := do
  (← s.join r j).restrict r e

/-- A join does not look at the filter. -/
theorem join_filter (s : Select) (r : Registry) (j : Join) (filter : Option Condition) :
    ({ s with filter := filter } : Select).join r j =
      (do return { (← s.join r j) with filter := filter }) := by
  simp only [join, rootName, bind_assoc, pure_bind]

theorem filter_join (h : s.join r j = .ok t) : t.filter = s.filter := by
  obtain ⟨owner, model, target, right, params, link, -, -, -, -, rfl⟩ := join_cases h
  rfl

/-- What a filter and then a join give, the join and then the filter give too, unless the filter is
ambiguous by then. -/
theorem stays_restrict_join (s : Select) (r : Registry) (e : Expr) (j : Join) :
    (s.restrictThenJoin r e j).Stays (s.joinThenRestrict r e j) := by
  intro u hu
  rw [joinThenRestrict]
  obtain ⟨restricted, hrestricted, hu⟩ := Outcome.bind_eq_ok.mp hu
  rw [restrict, Outcome.bind_eq_ok] at hrestricted
  obtain ⟨scope, hscope, hrestricted⟩ := hrestricted
  obtain ⟨condition, hcondition, hrestricted⟩ := Outcome.bind_eq_ok.mp hrestricted
  cases hrestricted
  rw [join_filter, Outcome.bind_eq_ok] at hu
  obtain ⟨t, ht, hu⟩ := hu
  cases hu
  obtain ⟨larger, hlarger, hgrows⟩ := Scope.exists_filter_grows (extends_join ht) hscope
  rw [ht, Outcome.ok_bind, restrict, hlarger, Outcome.ok_bind, filter_join ht]
  rcases hgrows.stays_compile e condition hcondition with hsame | ⟨model, names, hambiguous⟩
  · rw [hsame]
    exact Or.inl rfl
  · rw [hambiguous]
    exact Or.inr ⟨model, names, rfl⟩

theorem Reached.exists_filter (hs : Reached c s) (r : Registry) :
    ∃ scope, Scope.filter r s.params = .ok scope := by
  have hroot : s.rootName ∈ s.params.names := by
    rw [hs.wellFormed.names]
    exact List.mem_cons_self
  obtain ⟨d, hd⟩ := Option.isSome_iff_exists.mp (Keyed.has_iff.mpr hroot)
  have hdefault : s.params.default? = some (s.rootName, d) := by
    rw [Parameters.default?, hs.default_eq, Option.bind_some, Parameters.find?, hd]
    rfl
  exact ⟨⟨r, s.params, s.rootName, none⟩, by rw [Scope.filter, hdefault]⟩

/-- Where a filter and a join can be taken in both orders, they give one selection; and the filter
taken first can be taken last, unless the join makes a member of it ambiguous.  Whatever steps
follow, a member of a filter is read from the parameter that it would be read from now, and a filter
says what it would say now, or else the member and the filter are refused as ambiguous. -/
theorem Reached.restrict_join_comm (hs : Reached c s) (r : Registry) (e : Expr) (j : Join) :
    (∀ t u, s.restrictThenJoin r e j = .ok t → s.joinThenRestrict r e j = .ok u → t = u) ∧
    (s.restrictThenJoin r e j).Stays (s.joinThenRestrict r e j) ∧
    ∃ scope, Scope.filter r s.params = .ok scope ∧ ∀ t, s.Continues t →
      ∃ larger, Scope.filter r t.params = .ok larger ∧
        (∀ m, (scope.param m).Stays (larger.param m)) ∧
        ∀ e, (scope.compile e).Stays (larger.compile e) := by
  have hstays := stays_restrict_join s r e j
  refine ⟨?_, hstays, ?_⟩
  · intro t u ht hu
    rcases hstays t ht with hsame | ⟨model, names, hambiguous⟩
    · exact Except.ok.inj (hsame.symm.trans hu)
    · rw [hambiguous] at hu
      cases hu
  · obtain ⟨scope, hscope⟩ := hs.exists_filter r
    refine ⟨scope, hscope, fun t ht => ?_⟩
    obtain ⟨larger, hlarger, hgrows⟩ := Scope.exists_filter_grows ht.extends hscope
    exact ⟨larger, hlarger, hgrows.stays_param, hgrows.stays_compile⟩

/-! ### A filter of orders, and a further join -/

def ordersOfCustomer : Link :=
  { recentOrders with condition := .eq (.member "c" "id") (.member "x" "customer_id") }

def customersWithOrders : Select where
  params := ⟨largeItems.params.entries.take 2, some "c"⟩
  filter := none
  links := [ordersOfCustomer]
  projection := none

/-- Neither member names its parameter. -/
def lateOrders : Expr :=
  .and (.binary .gt (.member (.ofModel "Order" ["id"])) (.value (.scalar (.i64 7))))
    (.eq (.member (.ofModel "Order" ["customer_id"])) (.member (.ofModel "Customer" ["id"])))

def itemsOfLateOrders : Select where
  params := largeItems.params
  filter := some (.and (.binary .gt (.member "x" "id") (.constant (.scalar (.i64 7))))
    (.eq (.member "c" "id") (.member "x" "customer_id")))
  links := [ordersOfCustomer, itemsOfOrder]
  projection := none

/-- Items can be joined before and after the filter.  Once the orders are joined a second time, the
filter is ambiguous. -/
theorem restrict_join_comm_lateOrders :
    customersWithOrders.Reached shop ∧
      customersWithOrders.restrictThenJoin (.ofCatalogue shop) lateOrders
        ⟨"items", some "x", none, none⟩ = .ok itemsOfLateOrders ∧
      customersWithOrders.joinThenRestrict (.ofCatalogue shop) lateOrders
        ⟨"items", some "x", none, none⟩ = .ok itemsOfLateOrders ∧
      (customersWithOrders.joinThenRestrict (.ofCatalogue shop) lateOrders
        ⟨"orders", none, none, none⟩).Ambiguous := by
  have hbuild : build (.ofCatalogue shop) "Customer" (some "c")
      [.join ⟨"orders", none, none, none⟩] = .ok customersWithOrders := by cbv
  have hreached := reached_build .fresh hbuild
  have hfirst : customersWithOrders.restrictThenJoin (.ofCatalogue shop) lateOrders
      ⟨"items", some "x", none, none⟩ = .ok itemsOfLateOrders := by cbv
  have hsecond : (customersWithOrders.joinThenRestrict (.ofCatalogue shop) lateOrders
      ⟨"items", some "x", none, none⟩).isOk = true := by cbv
  refine ⟨hreached, hfirst, ?_, "Order", ["x", "x1"], by cbv⟩
  obtain ⟨-, hstays, -⟩ := Reached.restrict_join_comm hreached (.ofCatalogue shop) lateOrders
    ⟨"items", some "x", none, none⟩
  rcases hstays itemsOfLateOrders hfirst with hsame | ⟨model, names, hambiguous⟩
  · exact hsame
  · rw [hambiguous] at hsecond
    cases hsecond

end Select
end RowGraph
