import RowGraph.Proofs.Keyed
import RowGraph.Proofs.Schema.Members
import RowGraph.Repository.Storing

/-!
What storing an instance writes.

A field is written to the column that it declares.  An insertion writes every column that a field is
stored in, except a key that the database is to generate; an update writes the columns of the
changed fields and no others, and never the key.
-/

namespace RowGraph

/-- The field is stored in a column of that name. -/
def ModelDecl.Stored (decl : ModelDecl) (f : FieldDecl) (column : String) : Prop :=
  f ∈ decl.fields ∧ f.columnName? = some column

/-- The row has a value in every column that a field is stored in. -/
def ModelDecl.Supplied (decl : ModelDecl) (row : Row) : Prop :=
  ∀ f column, decl.Stored f column → row.contains column = true

section Stored

variable {c : Catalogue} {registered : List String} {model : String} {d : Descriptor}

/-! ## Where fields are stored -/

/-- A column that a member is loaded from is that of the field of the member. -/
theorem ownColumn?_of_member (h : c.resolve registered model = .ok d)
    (distinct : ((c.decl model).fields.map (·.name)).Nodup) {f : FieldDecl}
    (hf : f ∈ (c.decl model).fields) {column : Column} (hcolumn : column ∈ d.columns)
    (hmember : column.member = some f.name) :
    f.ownColumn? d.primaryKey = some column.unbound := by
  rcases Catalogue.column_cases h hcolumn with ⟨g, hg, hown⟩ | ⟨hnone, -⟩
  · have hname : g.name = f.name :=
      Option.some.inj ((member_of_ownColumn? hown).symm.trans hmember)
    rw [← eq_of_name_eq distinct hg hf hname, hown]
  · rw [show column.member = none from hnone] at hmember
    cases hmember

/-- A field is stored in no other column than the one that it declares. -/
theorem columnName?_of_storage? (h : c.resolve registered model = .ok d)
    (distinct : ((c.decl model).fields.map (·.name)).Nodup) {f : FieldDecl}
    (hf : f ∈ (c.decl model).fields) {name : String} (hstorage : d.storage? f.name = some name) :
    f.columnName? = some name := by
  refine (FieldDecl.columnName?_eq_some d.primaryKey).mpr ?_
  rcases Descriptor.exists_of_storage? hstorage with
    ⟨column, hcolumn, hmember, rfl⟩ | ⟨r, hr, hmember, rfl⟩
  · refine Or.inl ?_
    rw [ownColumn?_of_member h distinct hf hcolumn hmember]
    rfl
  · rw [Catalogue.references_resolve h, List.mem_filterMap] at hr
    obtain ⟨g, hg, hown⟩ := hr
    have hname : g.name = f.name := (member_of_ownReference? hown).symm.trans hmember
    refine Or.inr ?_
    rw [← eq_of_name_eq distinct hg hf hname, hown]
    rfl

/-- The column that a field is written to is the one that it declares. -/
theorem storage?_of_stored (h : c.resolve registered model = .ok d)
    (distinct : ((c.decl model).fields.map (·.name)).Nodup) {f : FieldDecl} {name : String}
    (hstored : (c.decl model).Stored f name) : d.storage? f.name = some name := by
  obtain ⟨hf, hname⟩ := hstored
  cases hstorage : d.storage? f.name with
  | some other =>
    rw [← hname, columnName?_of_storage? h distinct hf hstorage]
  | none =>
    -- Some column is loaded into the field, or some reference has its name.
    obtain ⟨hcolumns, hreferences⟩ := Descriptor.storage?_eq_none_iff.mp hstorage
    rcases (FieldDecl.columnName?_eq_some d.primaryKey).mp hname with hname | hname
    · obtain ⟨own, hown, -⟩ := Option.map_eq_some_iff.mp hname
      obtain ⟨column, hcolumn, hunbound⟩ := Catalogue.exists_column_of_ownColumn? h hf hown
      have hmember : column.unbound.member = some f.name := by
        rw [hunbound, member_of_ownColumn? hown]
      exact absurd hmember (hcolumns column hcolumn)
    · obtain ⟨r, hr, -⟩ := Option.map_eq_some_iff.mp hname
      have hmem : r ∈ d.references := by
        rw [Catalogue.references_resolve h]
        exact List.mem_filterMap.mpr ⟨f, hf, hr⟩
      exact absurd (member_of_ownReference? hr) (hreferences r hmem)

end Stored

/-- Columns of a table that are spelled differently differ to a database. -/
theorem Descriptor.fold_ne {d : Descriptor} (names : d.NamesDistinct) {a b : String}
    (ha : a ∈ d.columns.map Column.name) (hb : b ∈ d.columns.map Column.name) (hne : a ≠ b) :
    Text.fold a ≠ Text.fold b := by
  obtain ⟨column, hcolumn, rfl⟩ := List.mem_map.mp ha
  obtain ⟨other, hother, rfl⟩ := List.mem_map.mp hb
  intro heq
  rw [eq_of_fold_eq names hcolumn hother heq] at hne
  exact hne rfl

/-! ## Insertions -/

namespace Insert

variable {c : Catalogue} {registered : List String} {model : String} {d : Descriptor} {row : Row}

theorem mem_columnsFor {name : String} :
    name ∈ columnsFor d row ↔ ∃ column ∈ d.columns, column.name = name ∧
      ¬(column.isKey = true ∧ lacksKey d row = true) ∧
      (column.member.isSome = true ∨ row.contains name = true) := by
  simp only [columnsFor, List.mem_map, List.mem_filter, Bool.not_eq_true', Bool.and_eq_false_imp,
    Bool.or_eq_true, not_and, Bool.not_eq_true]
  constructor
  · rintro ⟨column, ⟨⟨hcolumn, hkey⟩, hheld⟩, rfl⟩
    exact ⟨column, hcolumn, rfl, hkey, hheld⟩
  · rintro ⟨column, hcolumn, rfl, hkey, hheld⟩
    exact ⟨column, ⟨⟨hcolumn, hkey⟩, hheld⟩, rfl⟩

/-- An insertion writes a column that the row holds unless the key is left to the database. -/
theorem mem_columnsFor_of_contains (h : c.resolve registered model = .ok d) {name : String}
    (hname : name ∈ d.columns.map Column.name) (hheld : row.contains name = true)
    (hkey : name = d.primaryKey → lacksKey d row = false) : name ∈ columnsFor d row := by
  obtain ⟨column, hcolumn, rfl⟩ := List.mem_map.mp hname
  refine mem_columnsFor.mpr ⟨column, hcolumn, rfl, ?_, Or.inr hheld⟩
  rintro ⟨hflag, hlacks⟩
  rw [hkey (Catalogue.name_of_isKey h hcolumn hflag)] at hlacks
  cases hlacks

/-- The database generates the key exactly when the key is not among the columns written. -/
theorem primaryKey_mem_columnsFor (h : c.resolve registered model = .ok d)
    (names : d.NamesDistinct) : d.primaryKey ∈ columnsFor d row ↔ lacksKey d row = false := by
  obtain ⟨f, hf, -, ty, hown⟩ := Catalogue.keyField_resolve h
  obtain ⟨key, hmem, hunbound⟩ := Catalogue.exists_column_of_ownColumn? h hf hown
  have hname : key.name = d.primaryKey := show key.unbound.name = _ by rw [hunbound]
  have hflag : key.isKey = true := show key.unbound.isKey = true by rw [hunbound]
  have hmember : key.member.isSome = true :=
    show key.unbound.member.isSome = true by rw [hunbound]; rfl
  rw [mem_columnsFor]
  constructor
  · rintro ⟨column, hcolumn, hcname, hkey, -⟩
    have heq : column = key := Descriptor.eq_of_fold_eq names hcolumn hmem (by rw [hcname, hname])
    rw [heq, hflag] at hkey
    simpa using hkey
  · intro hlacks
    exact ⟨key, hmem, hname, by simp [hlacks], Or.inl hmember⟩

theorem nodup_columnsFor (names : d.NamesDistinct) :
    ((columnsFor d row).map Text.fold).Nodup := by
  rw [columnsFor, List.map_map]
  exact names.sublist ((List.filter_sublist.trans List.filter_sublist).map _)

/-- What is written of a row under a column is the value of the row. -/
theorem mem_cells {columns : List String} {name : String} {value : Value} :
    (name, value) ∈ columns.zip (columns.map row.get) ↔ name ∈ columns ∧ value = row.get name := by
  rw [← List.map_prod_left_eq_zip, List.mem_map]
  constructor
  · rintro ⟨column, hcolumn, heq⟩
    cases heq
    exact ⟨hcolumn, rfl⟩
  · rintro ⟨hname, rfl⟩
    exact ⟨name, hname, rfl⟩

end Insert

/-! ## Updates -/

namespace Update

variable {d : Descriptor} {row : Row} {dirty : List String} {assignments : Keyed String Value}

theorem columnOf_eq_ok {field : String} {found : Option String} (h : columnOf d field = .ok found) :
    d.storage? field = found := by
  rw [columnOf] at h
  cases hstorage : d.storage? field with
  | some column =>
    simp only [hstorage] at h
    cases h
    rfl
  | none =>
    simp only [hstorage] at h
    split at h
    next =>
      cases h
      rfl
    next => cases h

/-- A changed field adds an assignment of its column, unless it has none, or it is the key, or the
column is assigned already. -/
theorem assign_eq_ok {before after : Keyed String Value} {field : String}
    (h : assign d row before field = .ok after) :
    (after = before ∧ ∀ column, d.storage? field = some column →
      column = d.primaryKey ∨ column ∈ before.keys) ∨
    ∃ column, d.storage? field = some column ∧ column ≠ d.primaryKey ∧ column ∉ before.keys ∧
      after = before ++ [(column, row.get column)] := by
  rw [assign, Outcome.bind_eq_ok] at h
  obtain ⟨found, hfound, h⟩ := h
  have hstorage := columnOf_eq_ok hfound
  cases found with
  | none =>
    cases h
    exact Or.inl ⟨rfl, by simp [hstorage]⟩
  | some column =>
    dsimp only at h
    split at h
    next hskip =>
      cases h
      refine Or.inl ⟨rfl, ?_⟩
      intro column' hcolumn'
      rw [hstorage] at hcolumn'
      cases hcolumn'
      rw [Bool.or_eq_true, beq_iff_eq, Keyed.has_iff] at hskip
      exact hskip
    next hkeep =>
      cases h
      rw [Bool.or_eq_true, beq_iff_eq, Keyed.has_iff, not_or] at hkeep
      exact Or.inr ⟨column, hstorage, hkeep.1, hkeep.2, rfl⟩

/-- The assignments are of the columns of the changed fields, each once and without the key. -/
structure Assigns (d : Descriptor) (row : Row) (dirty : List String)
    (assignments : Keyed String Value) : Prop where
  distinct : assignments.keys.Nodup
  sound : ∀ a ∈ assignments, a.1 ≠ d.primaryKey ∧ a.2 = row.get a.1 ∧
    ∃ field ∈ dirty, d.storage? field = some a.1
  complete : ∀ field ∈ dirty, ∀ column, d.storage? field = some column →
    column ≠ d.primaryKey → column ∈ assignments.keys

theorem assigns_of_foldlM (h : dirty.foldlM (assign d row) [] = .ok assignments) :
    Assigns d row dirty assignments := by
  refine Outcome.foldlM_prefix_induction (P := fun done as => Assigns d row done as) ?_ ?_ h
  · exact ⟨by simp, by simp, by simp⟩
  · intro done field before after hbefore hstep
    rcases assign_eq_ok hstep with ⟨rfl, hskip⟩ | ⟨column, hstorage, hkey, hnew, rfl⟩
    · refine ⟨hbefore.distinct, ?_, ?_⟩
      · intro a ha
        obtain ⟨hne, hvalue, g, hg, hcolumn⟩ := hbefore.sound a ha
        exact ⟨hne, hvalue, g, List.mem_append_left _ hg, hcolumn⟩
      · intro g hg column hcolumn hne
        rcases List.mem_append.mp hg with hg | hg
        · exact hbefore.complete g hg column hcolumn hne
        · rw [List.mem_singleton] at hg
          subst hg
          exact (hskip column hcolumn).resolve_left hne
    · have hkeys : Keyed.keys (before ++ [(column, row.get column)]) = before.keys ++ [column] :=
        List.map_append
      refine ⟨?_, ?_, ?_⟩
      · rw [hkeys]
        exact List.nodup_append.mpr ⟨hbefore.distinct, by simp, by grind⟩
      · intro a ha
        rcases List.mem_append.mp ha with ha | ha
        · obtain ⟨hne, hvalue, g, hg, hcolumn⟩ := hbefore.sound a ha
          exact ⟨hne, hvalue, g, List.mem_append_left _ hg, hcolumn⟩
        · rw [List.mem_singleton] at ha
          subst ha
          exact ⟨hkey, rfl, field, by simp, hstorage⟩
      · intro g hg column' hcolumn' hne
        rw [hkeys, List.mem_append, List.mem_singleton]
        rcases List.mem_append.mp hg with hg | hg
        · exact Or.inl (hbefore.complete g hg column' hcolumn' hne)
        · rw [List.mem_singleton] at hg
          subst hg
          rw [hstorage] at hcolumn'
          exact Or.inr (Option.some.inj hcolumn').symm

theorem push_eq_ok {u after : Update} (h : u.push row dirty = .ok after) :
    (row.get u.target.primaryKey).isNull = false ∧
      ∃ assignments, Assigns u.target row dirty assignments ∧
        after = { u with rows := u.rows ++ [⟨row.get u.target.primaryKey, assignments⟩] } := by
  rw [push] at h
  split at h
  next => cases h
  next hnull =>
    rw [Outcome.bind_eq_ok] at h
    obtain ⟨assignments, hfold, h⟩ := h
    cases h
    exact ⟨Bool.eq_false_iff.mpr hnull, assignments, assigns_of_foldlM hfold, rfl⟩

/-- An update that has nothing to do has no assignments. -/
theorem isNoop_single {key : Value} :
    isNoop ⟨d, [⟨key, assignments⟩]⟩ = true ↔ assignments = [] := by
  rw [isNoop, List.all_cons, List.all_nil, Bool.and_true, List.isEmpty_iff]

end Update
end RowGraph
