import Mathlib.Logic.Relation
import RowGraph.Schema.Discovery

/-!
Which models are met when declarations are walked.

The walk meets exactly the models to which relations lead from a model where it starts.  In what
order the starts are given bears on the order in which models are met, and on nothing else.
-/

namespace RowGraph
namespace Catalogue

variable {c : Catalogue}

/-- A field of the first model is a relation to the second. -/
def PointsTo (c : Catalogue) (model related : String) : Prop :=
  related ∈ (c.decl model).related

/-- Relations lead from the first model to the second in any number of steps. -/
def LeadsTo (c : Catalogue) : String → String → Prop :=
  Relation.ReflTransGen c.PointsTo

/-- Whatever a known model points at is known or still pending. -/
def ClosedUpTo (c : Catalogue) (known pending : List String) : Prop :=
  ∀ model ∈ known, ∀ related, c.PointsTo model related → related ∈ known ∨ related ∈ pending

theorem ClosedUpTo.start {known : List String} (h : c.ClosedUpTo known []) (pending : List String) :
    c.ClosedUpTo known pending := fun model hmodel related hrelated =>
  Or.inl ((h model hmodel related hrelated).resolve_right List.not_mem_nil)

theorem ClosedUpTo.skip {known pending : List String} {model : String} (hmodel : model ∈ known)
    (h : c.ClosedUpTo known (model :: pending)) : c.ClosedUpTo known pending := by
  intro m hm related hrelated
  rcases h m hm related hrelated with hknown | hpending
  · exact Or.inl hknown
  · rcases List.mem_cons.mp hpending with rfl | hpending
    · exact Or.inl hmodel
    · exact Or.inr hpending

/-- A model that becomes known leaves the models that it points at to be met. -/
theorem ClosedUpTo.enter {known pending : List String} {model : String}
    (h : c.ClosedUpTo known (model :: pending)) :
    c.ClosedUpTo (known ++ [model]) ((c.decl model).related.reverse ++ pending) := by
  intro m hm related hrelated
  simp only [List.mem_append, List.mem_reverse, List.mem_singleton]
  rcases List.mem_append.mp hm with hm | hm
  · rcases h m hm related hrelated with hknown | hpending
    · exact Or.inl (Or.inl hknown)
    · rcases List.mem_cons.mp hpending with rfl | hpending
      · exact Or.inl (Or.inr rfl)
      · exact Or.inr (Or.inr hpending)
  · rw [List.mem_singleton] at hm
    subst hm
    exact Or.inr (Or.inl hrelated)

/-- A walk keeps what is known, meets what is pending, and leaves nothing to be met. -/
theorem discover_complete {known pending : List String} (h : c.ClosedUpTo known pending) :
    known ⊆ c.discover known pending ∧ pending ⊆ c.discover known pending ∧
      c.ClosedUpTo (c.discover known pending) [] := by
  fun_induction discover c known pending with
  | case1 known => exact ⟨List.Subset.refl _, List.nil_subset _, h⟩
  | case2 known model pending hmodel ih =>
    obtain ⟨hkept, hmet, hclosed⟩ := ih (h.skip hmodel)
    exact ⟨hkept, List.cons_subset.mpr ⟨hkept hmodel, hmet⟩, hclosed⟩
  | case3 known model pending hmodel ih =>
    obtain ⟨hkept, hmet, hclosed⟩ := ih h.enter
    have hentered := hkept (List.mem_append_right known (List.mem_singleton_self model))
    refine ⟨fun m hm => hkept (List.mem_append_left _ hm), ?_, hclosed⟩
    exact List.cons_subset.mpr ⟨hentered, fun m hm => hmet (List.mem_append_right _ hm)⟩

/-- A walk meets no model but those to which relations lead from a pending one. -/
theorem leadsTo_of_mem_discover {known pending : List String} {m : String}
    (h : m ∈ c.discover known pending) : m ∈ known ∨ ∃ start ∈ pending, c.LeadsTo start m := by
  fun_induction discover c known pending with
  | case1 known => exact Or.inl h
  | case2 known model pending hmodel ih =>
    rcases ih h with hknown | ⟨start, hstart, hleads⟩
    · exact Or.inl hknown
    · exact Or.inr ⟨start, List.mem_cons_of_mem model hstart, hleads⟩
  | case3 known model pending hmodel ih =>
    rcases ih h with hknown | ⟨start, hstart, hleads⟩
    · rcases List.mem_append.mp hknown with hknown | hknown
      · exact Or.inl hknown
      · rw [List.mem_singleton] at hknown
        exact Or.inr ⟨model, List.mem_cons_self, hknown ▸ Relation.ReflTransGen.refl⟩
    · rcases List.mem_append.mp hstart with hrelated | hstart
      · exact Or.inr ⟨model, List.mem_cons_self,
          Relation.ReflTransGen.head (List.mem_reverse.mp hrelated) hleads⟩
      · exact Or.inr ⟨start, List.mem_cons_of_mem model hstart, hleads⟩

theorem mem_of_leadsTo {known : List String} (h : c.ClosedUpTo known []) {start m : String}
    (hstart : start ∈ known) (hleads : c.LeadsTo start m) : m ∈ known := by
  induction hleads with
  | refl => exact hstart
  | tail _ hpoints ih => exact (h _ ih _ hpoints).resolve_right List.not_mem_nil

theorem mem_discover_iff {known pending : List String} (h : c.ClosedUpTo known []) {m : String} :
    m ∈ c.discover known pending ↔ m ∈ known ∨ ∃ start ∈ pending, c.LeadsTo start m := by
  obtain ⟨hkept, hmet, hclosed⟩ := discover_complete (h.start pending)
  refine ⟨leadsTo_of_mem_discover, ?_⟩
  rintro (hknown | ⟨start, hstart, hleads⟩)
  · exact hkept hknown
  · exact mem_of_leadsTo hclosed (hmet hstart) hleads

/-- The models known to a description are those to which relations lead from a registered model or
from the described one. -/
theorem mem_known_iff {registered : List String} {model m : String} :
    m ∈ c.known registered model ↔
      ∃ start, (start ∈ registered ∨ start = model) ∧ c.LeadsTo start m := by
  have hwalks : ∀ (starts known : List String), c.ClosedUpTo known [] →
      (m ∈ starts.foldl (fun known start => c.discover known [start]) known ↔
        m ∈ known ∨ ∃ start ∈ starts, c.LeadsTo start m) := by
    intro starts
    induction starts with
    | nil => simp
    | cons start rest ih =>
      intro known hclosed
      obtain ⟨-, -, hclosed'⟩ := discover_complete (hclosed.start [start])
      rw [List.foldl_cons, ih _ hclosed', mem_discover_iff hclosed]
      simp [or_assoc]
  rw [known, hwalks _ _ fun model hmodel => absurd hmodel List.not_mem_nil]
  simp only [List.not_mem_nil, false_or, List.mem_append, List.mem_singleton]

end Catalogue
end RowGraph
