import RowGraph.Proofs.Schema.Relations

/-!
Members found by name.

Where the fields of a model have different names, the collection or reference of each of them is
what the descriptor gives for its name.
-/

namespace RowGraph

theorem eq_of_name_eq {decl : ModelDecl} (distinct : (decl.fields.map (·.name)).Nodup)
    {f g : FieldDecl} (hf : f ∈ decl.fields) (hg : g ∈ decl.fields) (h : f.name = g.name) : f = g :=
  List.inj_on_of_nodup_map distinct hf hg h

theorem member_of_ownColumn? {primaryKey : String} {f : FieldDecl} {column : Column}
    (h : f.ownColumn? primaryKey = some column) : column.member = some f.name := by
  rw [FieldDecl.ownColumn?.eq_def] at h
  split at h
  next =>
    cases h
    rfl
  next => cases h

theorem member_of_ownReference? {f : FieldDecl} {r : Reference} (h : f.ownReference? = some r) :
    r.member = f.name := by
  rw [FieldDecl.ownReference?.eq_def] at h
  split at h
  next =>
    injection h with h
    rw [← h]
  next => cases h

theorem members_filterMap_ownReference? (fields : List FieldDecl) :
    List.Sublist ((fields.filterMap FieldDecl.ownReference?).map (·.member))
      (fields.map (·.name)) := by
  induction fields with
  | nil => exact .slnil
  | cons f rest ih =>
    cases hr : f.ownReference? with
    | none =>
      rw [List.filterMap_cons_none hr]
      exact ih.cons f.name
    | some r =>
      rw [List.filterMap_cons_some hr, List.map_cons, List.map_cons, member_of_ownReference? hr]
      exact ih.cons_cons f.name

section Resolved

variable {c : Catalogue} {registered : List String} {model : String} {d : Descriptor}
  {f : FieldDecl}

theorem reference?_of_ownReference? (h : c.resolve registered model = .ok d)
    (distinct : ((c.decl model).fields.map (·.name)).Nodup) (hf : f ∈ (c.decl model).fields)
    {r : Reference} (hr : f.ownReference? = some r) : d.reference? f.name = some r := by
  have hmembers : (d.references.map (·.member)).Nodup := by
    rw [Catalogue.references_resolve h]
    exact distinct.sublist (members_filterMap_ownReference? _)
  have hmem : r ∈ d.references := by
    rw [Catalogue.references_resolve h]
    exact List.mem_filterMap.mpr ⟨f, hf, hr⟩
  rw [Descriptor.reference?, ← member_of_ownReference? hr]
  exact find?_of_nodup_map hmembers hmem

theorem map_member_of_collects {owner primaryKey : String} {fields : List FieldDecl}
    {relations : List Relation} (h : List.Forall₂ (c.Collects owner primaryKey) fields relations) :
    relations.map (·.member) = fields.map (·.name) := by
  induction h with
  | nil => rfl
  | cons hr _ ih =>
    obtain ⟨-, -, -, hmember, -⟩ := hr
    rw [List.map_cons, List.map_cons, hmember, ih]

theorem relation?_of_isCollection (h : c.resolve registered model = .ok d)
    (distinct : ((c.decl model).fields.map (·.name)).Nodup) (hf : f ∈ (c.decl model).fields)
    (hcollection : f.isCollection = true) :
    ∃ r, d.relation? f.name = some r ∧ c.Collects model d.primaryKey f r := by
  have hrelations := Catalogue.relations_resolve h
  obtain ⟨r, hr, hcollects⟩ :=
    exists_mem_right_of_forall₂ hrelations (List.mem_filter.mpr ⟨hf, hcollection⟩)
  have hmembers : (d.relations.map (·.member)).Nodup := by
    rw [map_member_of_collects hrelations]
    exact distinct.sublist (List.filter_sublist.map _)
  refine ⟨r, ?_, hcollects⟩
  obtain ⟨-, -, -, hmember, -⟩ := hcollects
  rw [Descriptor.relation?, ← hmember]
  exact find?_of_nodup_map hmembers hr

end Resolved

end RowGraph
