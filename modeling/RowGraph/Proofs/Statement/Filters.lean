import RowGraph.Proofs.Condition.Conjuncts
import RowGraph.Proofs.Statement.FilterOrder
import RowGraph.Statement.Basic

/-!
What a filter has come to ask for.

Selections and deletions are restricted step by step, and every restriction stands beside the
earlier ones in a conjunction.  So the conjuncts of the filter are those of the restrictions, one
after another in the order in which they were made, whatever was joined and projected in between.
-/

namespace RowGraph

open Condition

/-- What an expression says as a filter of a statement with these parameters. -/
def Scope.filterOf (r : Registry) (ps : Parameters) (e : Expr) : Outcome Condition := do
  (← Scope.filter r ps).compile e

/-! ## Selections -/

namespace Select

/-- The conditions that a step adds to the filter, compiled over the parameters that there are. -/
def asks (s : Select) (r : Registry) : Step → Outcome (List Condition)
  | .restrict e => do return [← Scope.filterOf r s.params e]
  | .join _ => return []
  | .columns _ => return []

/-- Steps taken one after another, each with the registry as it is by then. -/
def perform (s : Select) (steps : List (Registry × Step)) : Outcome Select :=
  steps.foldlM (fun s taken => s.step taken.1 taken.2) s

/-- The conditions that steps add to the filter, each compiled where the step is taken. -/
def asked (s : Select) : List (Registry × Step) → Outcome (List Condition)
  | [] => return []
  | taken :: rest => do
    let now ← s.asks taken.1 taken.2
    let later ← (← s.step taken.1 taken.2).asked rest
    return now ++ later

theorem restrict_eq (s : Select) (r : Registry) (e : Expr) :
    s.restrict r e =
      (do return { s with filter := some (conjoin s.filter (← Scope.filterOf r s.params e)) }) := by
  rw [restrict, Scope.filterOf, bind_assoc]

/-- A step that cannot say what it asks for is not taken. -/
theorem step_of_asks_error {s : Select} {r : Registry} {st : Step} {err : Error}
    (h : s.asks r st = .error err) : s.step r st = .error err := by
  cases st with
  | restrict e =>
    rw [asks] at h
    rw [step, restrict_eq]
    cases hfilter : Scope.filterOf r s.params e with
    | error err' =>
      rw [hfilter] at h
      cases h
      rfl
    | ok c =>
      rw [hfilter] at h
      cases h
  | join j => cases h
  | columns wanted => cases h

/-- A step adds what it asks for and leaves the rest of the filter as it was. -/
theorem conjunctsOf_step {s t : Select} {r : Registry} {st : Step} (h : s.step r st = .ok t) :
    ∃ cs, s.asks r st = .ok cs ∧
      conjunctsOf t.filter = conjunctsOf s.filter ++ cs.flatMap conjuncts := by
  cases st with
  | restrict e =>
    rw [step, restrict_eq, Outcome.bind_eq_ok] at h
    obtain ⟨c, hc, h⟩ := h
    cases h
    refine ⟨[c], by rw [asks, hc]; rfl, ?_⟩
    rw [conjunctsOf_conjoin, List.flatMap_singleton]
  | join j =>
    refine ⟨[], rfl, ?_⟩
    rw [filter_join h, List.flatMap_nil, List.append_nil]
  | columns wanted =>
    obtain ⟨found, -, rfl⟩ := columns_eq_ok h
    exact ⟨[], rfl, (List.append_nil _).symm⟩

/-- After any steps the conjuncts of the filter are the earlier ones and then those of what the
steps asked for; and what keeps the steps from asking keeps them from being taken. -/
theorem conjunctsOf_perform (s : Select) (steps : List (Registry × Step)) :
    (fun t => conjunctsOf t.filter) <$> s.perform steps =
      (fun cs => conjunctsOf s.filter ++ cs.flatMap conjuncts) <$> s.asked steps := by
  induction steps generalizing s with
  | nil =>
    show Except.ok (conjunctsOf s.filter) = Except.ok (conjunctsOf s.filter ++ [])
    rw [List.append_nil]
  | cons taken rest ih =>
    rw [perform, List.foldlM_cons, asked]
    cases hstep : s.step taken.1 taken.2 with
    | error err =>
      cases hasks : s.asks taken.1 taken.2 with
      | error err' =>
        rw [step_of_asks_error hasks] at hstep
        cases hstep
        rfl
      | ok cs => rfl
    | ok t =>
      obtain ⟨cs, hcs, hconjuncts⟩ := conjunctsOf_step hstep
      rw [hcs, Outcome.ok_bind, Outcome.ok_bind, Outcome.ok_bind]
      refine (ih t).trans ?_
      rw [hconjuncts]
      cases t.asked rest with
      | error err => rfl
      | ok later =>
        refine congrArg Except.ok ?_
        simp only [List.flatMap_append, List.append_assoc]

/-- Restrictions leave the parameters alone, so all of them are compiled over those of the start. -/
theorem asked_restrictions (s : Select) (filters : List (Registry × Expr)) :
    s.asked (filters.map fun filter => (filter.1, .restrict filter.2)) =
      filters.mapM fun filter => Scope.filterOf filter.1 s.params filter.2 := by
  induction filters generalizing s with
  | nil => rfl
  | cons filter rest ih =>
    rw [List.map_cons, asked, asks, step, restrict_eq, List.mapM_cons]
    cases Scope.filterOf filter.1 s.params filter.2 with
    | error err => rfl
    | ok c =>
      simp only [Outcome.ok_bind, pure_bind]
      rw [ih]
      rfl

end Select

/-! ## Deletions -/

namespace Delete

/-- Restrictions made one after another, each with the registry as it is by then. -/
def restrictAll (d : Delete) (filters : List (Registry × Expr)) : Outcome Delete :=
  filters.foldlM (fun d filter => d.restrict filter.1 filter.2) d

theorem restrict_eq (d : Delete) (r : Registry) (e : Expr) :
    d.restrict r e =
      (do return { d with filter := some (conjoin d.filter (← Scope.filterOf r d.params e)) }) := by
  rw [restrict, Scope.filterOf, bind_assoc]

theorem conjunctsOf_restrictAll (d : Delete) (filters : List (Registry × Expr)) :
    (fun d' => conjunctsOf d'.filter) <$> d.restrictAll filters =
      (fun cs => conjunctsOf d.filter ++ cs.flatMap conjuncts) <$>
        filters.mapM fun filter => Scope.filterOf filter.1 d.params filter.2 := by
  induction filters generalizing d with
  | nil =>
    show Except.ok (conjunctsOf d.filter) = Except.ok (conjunctsOf d.filter ++ [])
    rw [List.append_nil]
  | cons filter rest ih =>
    rw [restrictAll, List.foldlM_cons, restrict_eq, List.mapM_cons]
    cases hfilter : Scope.filterOf filter.1 d.params filter.2 with
    | error err => rfl
    | ok c =>
      rw [Outcome.ok_bind, Outcome.ok_bind]
      refine (ih { d with filter := some (conjoin d.filter c) }).trans ?_
      rw [conjunctsOf_conjoin, params, params]
      cases rest.mapM fun filter => Scope.filterOf filter.1 (Parameters.root _ _) filter.2 with
      | error err => rfl
      | ok later =>
        refine congrArg Except.ok ?_
        simp only [List.flatMap_cons, List.append_assoc]

end Delete

/-! ## Conjunctions -/

/-- The conjuncts of a condition are what a search with a stack comes to, in one turn for each of
them and one for each conjunction above them: the parts at the end of the ways through conjunctions,
from left to right.  Conditions have the same conjuncts exactly when they differ by the bracketing of
their conjunctions alone.  A condition is evaluated as its conjuncts are, one after another, so it
holds where all of them hold.  After any steps of a selection, and after any restrictions of a
deletion, the conjuncts of the filter are those that were there and then those of every restriction
as it was compiled, in the order in which the restrictions were made. -/
theorem Condition.conjunction_by_parts :
    (∀ c : Condition,
      EndsAfter Search.turn (2 * c.conjuncts.length - 1) ⟨[c], []⟩ ⟨[], c.conjuncts⟩) ∧
    (∀ (c : Condition) (parts : List Condition), c.HasParts parts ↔ parts = c.conjuncts) ∧
    (∀ c d : Condition, Regrouped c d ↔ c.conjuncts = d.conjuncts) ∧
    (∀ (input : Input) (c : Condition), c.evalBool input = c.conjuncts.allM (·.evalBool input)) ∧
    (∀ (input : Input) (c : Condition),
      c.evalBool input = .ok true ↔ ∀ part ∈ c.conjuncts, part.evalBool input = .ok true) ∧
    (∀ (s : Select) (steps : List (Registry × Select.Step)),
      (fun t => conjunctsOf t.filter) <$> s.perform steps =
        (fun cs => conjunctsOf s.filter ++ cs.flatMap conjuncts) <$> s.asked steps) ∧
    (∀ (s : Select) (filters : List (Registry × Expr)),
      s.asked (filters.map fun filter => (filter.1, .restrict filter.2)) =
        filters.mapM fun filter => Scope.filterOf filter.1 s.params filter.2) ∧
    ∀ (d : Delete) (filters : List (Registry × Expr)),
      (fun d' => conjunctsOf d'.filter) <$> d.restrictAll filters =
        (fun cs => conjunctsOf d.filter ++ cs.flatMap conjuncts) <$>
          filters.mapM fun filter => Scope.filterOf filter.1 d.params filter.2 :=
  ⟨Search.endsAfter_conjuncts, fun _ _ => hasParts_iff, fun _ _ => regrouped_iff,
    evalBool_eq_allM, fun _ _ => evalBool_eq_ok_true_iff, Select.conjunctsOf_perform,
    Select.asked_restrictions, Delete.conjunctsOf_restrictAll⟩

/-! ### Restrictions before and after a join -/

namespace Select

/-- The large items of late orders, which are joined to their orders a second time, and of them the
largest. -/
def largestItems : List (Registry × Step) :=
  [(.ofCatalogue shop, .restrict lateOrders),
    (.ofCatalogue shop, .join ⟨"items", some "x", none, none⟩),
    (.ofCatalogue shop, .columns [("c", "id")]),
    (.ofCatalogue shop, .restrict (.binary .gt (.member ⟨.named "x1", "Item", ["amount"]⟩)
      (.value (.scalar (.i64 5)))))]

theorem conjunction_by_parts_largestItems :
    (fun t => conjunctsOf t.filter) <$> largeItems.perform largestItems =
      .ok [.binary .gt (.member "x1" "amount") (.constant (.scalar (.i64 3))),
        .binary .gt (.member "x" "id") (.constant (.scalar (.i64 7))),
        .eq (.member "c" "id") (.member "x" "customer_id"),
        .binary .gt (.member "x1" "amount") (.constant (.scalar (.i64 5)))] := by
  obtain ⟨-, -, -, -, -, hperform, -, -⟩ := Condition.conjunction_by_parts
  have hasked : largeItems.asked largestItems =
      .ok [.and (.binary .gt (.member "x" "id") (.constant (.scalar (.i64 7))))
          (.eq (.member "c" "id") (.member "x" "customer_id")),
        .binary .gt (.member "x1" "amount") (.constant (.scalar (.i64 5)))] := by cbv
  rw [hperform, hasked]
  rfl

end Select
end RowGraph
