import RowGraph.Proofs.Lists
import RowGraph.Proofs.Schema.Columns

/-!
The collections of a descriptor, by the fields they come from.

There is one collection for each collection field, in the order of the fields.  It has the keys that
its field declares.  Where the field leaves the foreign key open, it is the column of the one
reference that the target has back to the owner; without a reference back it stays open, and with
several there is no descriptor.
-/

namespace RowGraph

namespace FieldDecl

def isCollection (f : FieldDecl) : Bool :=
  match f.kind with
  | .hasMany _ _ _ => true
  | _ => false

/-- The field is a reference to the model. -/
def pointsAt (model : String) (f : FieldDecl) : Bool :=
  match f.kind with
  | .belongsTo target _ => target == model
  | _ => false

theorem kind_of_pointsAt {model : String} {f : FieldDecl} (h : f.pointsAt model = true) :
    ∃ column, f.kind = .belongsTo model column := by
  rw [pointsAt.eq_def] at h
  split at h
  next target column hkind => exact ⟨column, by rw [hkind, beq_iff_eq.mp h]⟩
  next => cases h

/-- The only reference back at a model is one of the fields. -/
theorem mem_of_only_pointsAt {model : String} {fields : List FieldDecl} {g : FieldDecl}
    (h : fields.filter (·.pointsAt model) = [g]) : g ∈ fields ∧ g.pointsAt model = true :=
  List.mem_filter.mp (h ▸ List.mem_cons_self)

theorem exists_columnName?_of_pointsAt {model : String} {f : FieldDecl}
    (h : f.pointsAt model = true) :
    ∃ name, f.columnName? = some name ∧ f.ownReference? = some ⟨f.name, model, name⟩ := by
  obtain ⟨column, hkind⟩ := kind_of_pointsAt h
  rw [columnName?, ownReference?, hkind]
  exact ⟨_, rfl, rfl⟩

end FieldDecl

namespace Catalogue

variable {c : Catalogue}

/-- The collection is that of a field.  Its keys are declared there; a foreign key that the field
leaves open is looked for on the target. -/
def Collects (c : Catalogue) (owner primaryKey : String) (f : FieldDecl) (r : Relation) : Prop :=
  ∃ foreignKey key, f.kind = .hasMany r.target foreignKey key ∧ r.member = f.name ∧
    r.primaryKey = key.getD primaryKey ∧
    match foreignKey with
    | some column => r.foreignKey = some column ∧ r.inverse = none
    | none => c.inferForeignKey owner f.name r.target = .ok (r.foreignKey, r.inverse)

/-! ## References back at an owner -/

theorem backReferences_eq (target : ModelDecl) (owner : String) :
    backReferences target owner = (target.fields.filter (·.pointsAt owner)).filterMap fun g =>
      g.columnName?.map fun column => (column, g.name) := by
  rw [backReferences, List.filterMap_filter]
  congr 1
  funext f
  rw [FieldDecl.pointsAt, FieldDecl.columnName?]
  cases f.kind with
  | column ty column references => rfl
  | hasMany target foreignKey key => rfl
  | belongsTo target column => simp only [Option.map_some, beq_iff_eq]

/-- An inferred foreign key is that of the only reference back at the owner. -/
theorem inferForeignKey_eq_ok {owner member target : String} {column inverse : Option String}
    (h : c.inferForeignKey owner member target = .ok (column, inverse)) :
    ((c.decl target).fields.filter (·.pointsAt owner) = [] ∧ column = none ∧ inverse = none) ∨
      ∃ g, (c.decl target).fields.filter (·.pointsAt owner) = [g] ∧ column = g.columnName? ∧
        inverse = some g.name := by
  have hpoints : ∀ g ∈ (c.decl target).fields.filter (·.pointsAt owner),
      g.pointsAt owner = true := fun g hg => (List.mem_filter.mp hg).2
  rw [inferForeignKey, backReferences_eq] at h
  generalize (c.decl target).fields.filter (·.pointsAt owner) = back at h hpoints
  cases back with
  | nil =>
    cases h
    exact Or.inl ⟨rfl, rfl, rfl⟩
  | cons g rest =>
    obtain ⟨name, hname, -⟩ := FieldDecl.exists_columnName?_of_pointsAt (hpoints g (by simp))
    cases rest with
    | nil =>
      simp only [List.filterMap_cons, List.filterMap_nil, hname, Option.map_some] at h
      cases h
      exact Or.inr ⟨g, rfl, hname.symm, rfl⟩
    | cons g' rest =>
      obtain ⟨name', hname', -⟩ :=
        FieldDecl.exists_columnName?_of_pointsAt (hpoints g' (by simp))
      simp only [List.filterMap_cons, hname, hname', Option.map_some] at h
      cases h

/-! ## One collection for each field -/

theorem addRelation_eq_ok {owner primaryKey : String} {before after : List Relation}
    {f : FieldDecl} (h : c.addRelation owner primaryKey before f = .ok after) :
    (f.isCollection = false ∧ after = before) ∨
      f.isCollection = true ∧ ∃ r, after = before ++ [r] ∧ c.Collects owner primaryKey f r := by
  rw [addRelation.eq_def] at h
  rw [FieldDecl.isCollection]
  cases hkind : f.kind with
  | column ty column references =>
    simp only [hkind] at h
    cases h
    exact Or.inl ⟨rfl, rfl⟩
  | belongsTo target column =>
    simp only [hkind] at h
    cases h
    exact Or.inl ⟨rfl, rfl⟩
  | hasMany target foreignKey key =>
    refine Or.inr ⟨rfl, ?_⟩
    cases foreignKey with
    | some foreignKey =>
      simp only [hkind] at h
      cases h
      exact ⟨_, rfl, some foreignKey, key, hkind, rfl, rfl, rfl, rfl⟩
    | none =>
      simp only [hkind, Outcome.bind_eq_ok] at h
      obtain ⟨⟨column, inverse⟩, hinfer, h⟩ := h
      cases h
      exact ⟨_, rfl, none, key, hkind, rfl, rfl, hinfer⟩

theorem relationsOf_eq_ok {decl : ModelDecl} {primaryKey : String} {relations : List Relation}
    (h : c.relationsOf decl primaryKey = .ok relations) :
    List.Forall₂ (c.Collects decl.model primaryKey) (decl.fields.filter (·.isCollection))
      relations := by
  refine Outcome.foldlM_prefix_induction (P := fun done relations =>
    List.Forall₂ (c.Collects decl.model primaryKey) (done.filter (·.isCollection)) relations)
    .nil ?_ h
  intro done f before after hbefore hstep
  rw [List.filter_append, List.filter_singleton]
  rcases addRelation_eq_ok hstep with ⟨hno, rfl⟩ | ⟨hyes, r, rfl, hr⟩
  · rw [hno]
    simpa using hbefore
  · rw [hyes]
    exact List.rel_append hbefore (.cons hr .nil)

section Resolved

variable {registered : List String} {model : String} {d : Descriptor}

/-- The collections of a descriptor are those of the collection fields, in order. -/
theorem relations_resolve (h : c.resolve registered model = .ok d) :
    List.Forall₂ (c.Collects model d.primaryKey)
      ((c.decl model).fields.filter (·.isCollection)) d.relations := by
  obtain ⟨-, -, -, hrelations, -⟩ := resolve_eq_ok h
  have hforall := relationsOf_eq_ok hrelations
  rwa [model_decl] at hforall

end Resolved

/-- The collection is that of a field: its keys are declared there, or its foreign key is a column
that the target stores a field in. -/
def CollectsBy (c : Catalogue) (primaryKey : String) (r : Relation) (f : FieldDecl) :
    Prop :=
  ∃ foreignKey key, f.name = r.member ∧ f.kind = .hasMany r.target foreignKey key ∧
    r.primaryKey = key.getD primaryKey ∧
    (r.foreignKey = foreignKey ∨ ∃ g ∈ (c.decl r.target).fields, r.foreignKey = g.columnName?)

theorem Collects.collectsBy {owner primaryKey : String} {f : FieldDecl} {r : Relation}
    (h : c.Collects owner primaryKey f r) : c.CollectsBy primaryKey r f := by
  obtain ⟨foreignKey, key, hkind, hmember, hprimary, hforeign⟩ := h
  refine ⟨foreignKey, key, hmember.symm, hkind, hprimary, ?_⟩
  cases foreignKey with
  | some column => exact Or.inl hforeign.1
  | none =>
    rcases inferForeignKey_eq_ok hforeign with ⟨-, hnone, -⟩ | ⟨g, hback, hcolumn, -⟩
    · exact Or.inl hnone
    · exact Or.inr ⟨g, (FieldDecl.mem_of_only_pointsAt hback).1, hcolumn⟩

/-- Every collection of a descriptor is that of a field of its model. -/
theorem relation_cases {registered : List String} {model : String} {d : Descriptor}
    (h : c.resolve registered model = .ok d) {r : Relation} (hr : r ∈ d.relations) :
    ∃ f ∈ (c.decl model).fields, c.CollectsBy d.primaryKey r f := by
  obtain ⟨f, hf, hcollects⟩ := exists_mem_left_of_forall₂ (relations_resolve h) hr
  exact ⟨f, (List.mem_filter.mp hf).1, hcollects.collectsBy⟩

end Catalogue
end RowGraph
