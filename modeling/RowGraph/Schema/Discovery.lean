import RowGraph.Schema.Declaration

/-!
Which models a description has to know.

A model can be pointed at from any model that was registered and from any that these lead to, so
the declarations are walked from the registered models and from the model itself.  Relations may be
cyclic: a model that is known already is not entered again.
-/

namespace RowGraph
namespace Catalogue

def undiscovered (c : Catalogue) (known : List String) : Nat :=
  c.models.countP fun d => !known.contains d.model

theorem undiscovered_append_le (c : Catalogue) (known : List String) (model : String) :
    c.undiscovered (known ++ [model]) ≤ c.undiscovered known := by
  refine List.countP_mono_left ?_
  intro d _ hd
  simp_all

theorem undiscovered_append_lt {c : Catalogue} {known : List String} {model : String}
    (hk : model ∉ known) (hm : model ∈ c.models.map ModelDecl.model) :
    c.undiscovered (known ++ [model]) < c.undiscovered known := by
  obtain ⟨d, hd, rfl⟩ := List.mem_map.mp hm
  obtain ⟨before, after, hsplit⟩ := List.append_of_mem hd
  have hbefore := undiscovered_append_le ⟨before⟩ known d.model
  have hafter := undiscovered_append_le ⟨after⟩ known d.model
  unfold undiscovered at *
  rw [hsplit, List.countP_append, List.countP_append, List.countP_cons, List.countP_cons]
  rw [if_neg (by simp), if_pos (by simpa using hk)]
  simp only at hbefore hafter
  omega

/-- The models reachable from those pending, in the order in which they are met.  Each model met
puts the models that it points at in front of the others, the last of its fields foremost. -/
def discover (c : Catalogue) (known : List String) : List String → List String
  | [] => known
  | model :: pending =>
    if model ∈ known then c.discover known pending
    else c.discover (known ++ [model]) ((c.decl model).related.reverse ++ pending)
termination_by pending => (c.undiscovered known, pending.length)
decreasing_by
  · exact Prod.Lex.right _ (Nat.lt_succ_self _)
  · by_cases hm : model ∈ c.models.map ModelDecl.model
    · exact Prod.Lex.left _ _ (undiscovered_append_lt (by assumption) hm)
    · rw [related_decl_of_not_mem hm]
      rcases Nat.lt_or_eq_of_le (c.undiscovered_append_le known model) with h | h
      · exact Prod.Lex.left _ _ h
      · rw [h]
        exact Prod.Lex.right _ (Nat.lt_succ_self _)

/-- The models known to the description of a model: those reachable from the registered ones, one
after another, and from the model itself. -/
def known (c : Catalogue) (registered : List String) (model : String) : List String :=
  (registered ++ [model]).foldl (fun known m => c.discover known [m]) []

/-! ## Each model is met once -/

theorem nodup_discover (c : Catalogue) {known : List String} (pending : List String)
    (h : known.Nodup) : (c.discover known pending).Nodup := by
  fun_induction discover c known pending with
  | case1 => exact h
  | case2 _ _ _ _ ih => exact ih h
  | case3 known model pending hk ih =>
    refine ih (List.nodup_append.mpr ⟨h, by simp, ?_⟩)
    intro a ha b hb e
    rw [List.mem_singleton] at hb
    exact hk (hb ▸ e ▸ ha)

theorem nodup_known (c : Catalogue) (registered : List String) (model : String) :
    (c.known registered model).Nodup := by
  unfold known
  generalize registered ++ [model] = starts
  suffices ∀ ms : List String, ms.Nodup →
      (starts.foldl (fun known m => c.discover known [m]) ms).Nodup from
    this [] List.nodup_nil
  induction starts with
  | nil => exact fun ms h => h
  | cons m rest ih => exact fun ms h => ih _ (nodup_discover c [m] h)

end Catalogue
end RowGraph
