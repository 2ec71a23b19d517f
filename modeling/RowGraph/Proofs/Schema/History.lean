import RowGraph.Proofs.Schema.Columns
import RowGraph.Schema.Registry

/-!
Registries by their history.

A registry starts with the declarations of a program and changes in two ways: models are registered,
and descriptors are asked for.  In whatever order that happens, every descriptor it gives out was
made from the declarations, though the models that counted then need not be those of today.
-/

namespace RowGraph

/-- The descriptor was made from the declarations, some models being registered at the time. -/
def Catalogue.Describes (c : Catalogue) (d : Descriptor) : Prop :=
  ∃ registered, c.resolve registered d.model = .ok d

theorem Catalogue.describes_of_resolve {c : Catalogue} {registered : List String}
    {model : String} {d : Descriptor} (h : c.resolve registered model = .ok d) :
    d.model = model ∧ c.Describes d := by
  have hmodel := (resolve_eq_ok h).1
  exact ⟨hmodel, registered, by rw [hmodel, h]⟩

namespace Registry

variable {c : Catalogue} {r : Registry}

/-- The registries that a program with the given declarations can come to have. -/
inductive Reached (c : Catalogue) : Registry → Prop
  | fresh : Reached c (ofCatalogue c)
  | register {r : Registry} (model : String) (hr : Reached c r) : Reached c (r.register model)
  | describe {r : Registry} (model : String) (hr : Reached c r) : Reached c (r.describe model).2
  | describeKnown {r : Registry} (model : String) (hr : Reached c r) :
      Reached c (r.describeKnown model).2

/-- What is given out again was made from the declarations, and stands under its model. -/
structure Sound (c : Catalogue) (r : Registry) : Prop where
  catalogue : r.catalogue = c
  described : ∀ entry ∈ r.described, entry.2.model = entry.1 ∧ c.Describes entry.2

theorem Sound.descriptor (hr : r.Sound c) {model : String} {d : Descriptor}
    (h : r.descriptor model = .ok d) : d.model = model ∧ c.Describes d := by
  rw [Registry.descriptor] at h
  cases hfind : r.described.find? model with
  | some found =>
    rw [hfind] at h
    cases h
    exact hr.described (model, d) (Keyed.mem_of_find? hfind)
  | none =>
    rw [hfind, hr.catalogue] at h
    exact Catalogue.describes_of_resolve h

/-- Describing a model gives what is known of it or what its declarations yield. -/
theorem fst_describe (r : Registry) (model : String) :
    (r.describe model).1 = r.descriptor model := by
  rw [Registry.describe]
  split
  next d h => exact h.symm
  next e h => exact h.symm

theorem Sound.describe (hr : r.Sound c) (model : String) : (r.describe model).2.Sound c := by
  rw [Registry.describe]
  cases hd : r.descriptor model with
  | error e => exact hr
  | ok d =>
    refine ⟨hr.catalogue, fun entry hentry => ?_⟩
    simp only [Keyed.putNew] at hentry
    split at hentry
    next => exact hr.described entry hentry
    next =>
      rw [List.mem_append, List.mem_singleton] at hentry
      rcases hentry with hentry | rfl
      · exact hr.described entry hentry
      · exact hr.descriptor hd

theorem Reached.sound (h : Reached c r) : r.Sound c := by
  induction h with
  | fresh => exact ⟨rfl, by simp [ofCatalogue]⟩
  | register model hr ih =>
    rw [Registry.register]
    split
    next => exact ih
    next => exact ⟨ih.catalogue, ih.described⟩
  | describe model hr ih => exact ih.describe model
  | describeKnown model hr ih =>
    rw [Registry.describeKnown]
    split
    next => exact ih.describe model
    next => exact ih

end Registry
end RowGraph
