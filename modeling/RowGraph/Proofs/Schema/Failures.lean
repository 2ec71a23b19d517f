import RowGraph.Proofs.Outcome
import RowGraph.Schema.Registry

/-!
How a description fails.

A model is described from declarations alone.  Where they do not fit together the schema is at
fault, and nothing else can go wrong.
-/

namespace RowGraph

/-- The declarations do not fit together. -/
def Error.IsSchemaMistake (e : Error) : Prop :=
  ∃ why, e = .invalidSchema why

theorem Outcome.failsWith_invalidSchema {α : Type} (why : SchemaMistake) :
    FailsWith Error.IsSchemaMistake (.error (.invalidSchema why) : Outcome α) :=
  .error ⟨why, rfl⟩

namespace Catalogue

open Outcome

variable (c : Catalogue)

/-! ## Columns and references -/

theorem failsWith_keyOf (target : String) : FailsWith Error.IsSchemaMistake (c.keyOf target) := by
  rw [keyOf]
  split
  next => exact .ok _
  next => exact failsWith_invalidSchema _

theorem failsWith_bindingOf? (references : Option String) :
    FailsWith Error.IsSchemaMistake (c.bindingOf? references) := by
  cases references with
  | none => exact .ok none
  | some target =>
    rw [bindingOf?, bindingTo]
    intro e he
    refine failsWith_keyOf c target e ?_
    cases hkey : c.keyOf target with
    | error e' => rw [hkey] at he; cases he; rfl
    | ok found => rw [hkey] at he; cases he

theorem failsWith_addField (model primaryKey : String) (columns : List Column) (field : FieldDecl) :
    FailsWith Error.IsSchemaMistake (c.addField model primaryKey columns field) := by
  rw [addField.eq_def]
  split
  next ty column references hkind =>
    dsimp only
    split
    next => exact failsWith_invalidSchema _
    next => exact (failsWith_bindingOf? c references).bind fun binding => .ok _
  next => exact .ok columns

theorem failsWith_addReference (found : List Column × List Reference) (field : FieldDecl) :
    FailsWith Error.IsSchemaMistake (c.addReference found field) := by
  rw [addReference.eq_def]
  split
  next target column hkind => exact (failsWith_keyOf c target).bind fun key => .ok _
  next => exact .ok found

/-! ## Collections -/

theorem failsWith_inferForeignKey (owner member target : String) :
    FailsWith Error.IsSchemaMistake (c.inferForeignKey owner member target) := by
  rw [inferForeignKey]
  split
  next => exact .ok _
  next => exact .ok _
  next => exact failsWith_invalidSchema _

theorem failsWith_addRelation (owner primaryKey : String) (relations : List Relation)
    (field : FieldDecl) :
    FailsWith Error.IsSchemaMistake (c.addRelation owner primaryKey relations field) := by
  rw [addRelation.eq_def]
  split
  next target foreignKey key hkind =>
    dsimp only
    split
    next => exact .ok _
    next => exact (failsWith_inferForeignKey c owner field.name target).bind fun found => .ok _
  next => exact .ok relations

/-! ## Descriptors -/

/-- A model is described, or the schema is at fault. -/
theorem failsWith_resolve (registered : List String) (model : String) :
    FailsWith Error.IsSchemaMistake (c.resolve registered model) := by
  rw [resolve.eq_def]
  dsimp only
  split
  next => exact failsWith_invalidSchema _
  next primaryKey ty hkey =>
    exact (FailsWith.foldlM (failsWith_addField c _ primaryKey) _ []).bind fun declared =>
      (FailsWith.foldlM (failsWith_addReference c) _ (declared, [])).bind fun found =>
        (FailsWith.foldlM (failsWith_addRelation c _ primaryKey) _ []).bind fun relations => .ok _

end Catalogue

theorem Registry.failsWith_descriptor (r : Registry) (model : String) :
    Outcome.FailsWith Error.IsSchemaMistake (r.descriptor model) := by
  rw [descriptor]
  split
  next d hd => exact .ok d
  next => exact Catalogue.failsWith_resolve r.catalogue r.registered model

end RowGraph
