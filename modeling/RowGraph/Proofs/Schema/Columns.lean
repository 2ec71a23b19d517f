import RowGraph.Proofs.Lists
import RowGraph.Proofs.Outcome
import RowGraph.Proofs.Schema.Lookup
import RowGraph.Schema.Resolution

/-!
The columns of a descriptor, by where they come from.

Up to what they are bound to, the columns are those of the column fields in the order of the fields,
then those that references add, then those that collections of other models ask for.  Only the first
have members, and only the one of the primary key is flagged.  From this follow the facts that the
rest of the library relies on when it reads a descriptor: there is a key column, every reference has
its column, and a column of a given name exists exactly when a declaration asks for it.
-/

namespace RowGraph

/-! ## Columns apart from their bindings -/

/-- The column without what it refers to. -/
def Column.unbound (c : Column) : Column :=
  { c with binding := none }

/-- Up to bindings, the columns are those of the base and then columns without a member. -/
def Extends (base columns : List Column) : Prop :=
  ∃ further : List Column, columns.map Column.unbound = base.map Column.unbound ++ further ∧
    ∀ c ∈ further, c.member = none ∧ c.isKey = false

namespace Extends

theorem refl (base : List Column) : Extends base base :=
  ⟨[], (List.append_nil _).symm, by simp⟩

theorem trans {as bs cs : List Column} (hab : Extends as bs) (hbc : Extends bs cs) :
    Extends as cs := by
  obtain ⟨further, hb, hfurther⟩ := hab
  obtain ⟨more, hc, hmore⟩ := hbc
  refine ⟨further ++ more, ?_, List.forall_mem_append.mpr ⟨hfurther, hmore⟩⟩
  rw [hc, hb, List.append_assoc]

theorem append {base : List Column} (name : String) (ty : ColumnType) (binding : Option Binding) :
    Extends base (base ++ [⟨name, none, ty, binding, false⟩]) := by
  refine ⟨[⟨name, none, ty, none, false⟩], ?_, ?_⟩
  · rw [List.map_append]
    rfl
  · intro c hc
    rw [List.mem_singleton] at hc
    subst hc
    exact ⟨rfl, rfl⟩

end Extends

theorem map_name_unbound (columns : List Column) :
    (columns.map Column.unbound).map Column.name = columns.map Column.name := by
  rw [List.map_map]
  rfl

namespace FieldDecl

/-- The column of a column field, before it is bound. -/
def ownColumn? (primaryKey : String) (f : FieldDecl) : Option Column :=
  match f.kind with
  | .column ty column _ =>
    let name := column.getD (Text.snakeCase f.name)
    some ⟨name, some f.name, ty, none, name == primaryKey⟩
  | _ => none

/-- The reference of a reference field. -/
def ownReference? (f : FieldDecl) : Option Reference :=
  match f.kind with
  | .belongsTo target column => some ⟨f.name, target, column.getD (Text.foreignKeyName f.name)⟩
  | _ => none

theorem columnName?_eq_some {f : FieldDecl} {name : String} (primaryKey : String) :
    f.columnName? = some name ↔
      (f.ownColumn? primaryKey).map (·.name) = some name ∨
        f.ownReference?.map (·.column) = some name := by
  rw [columnName?, ownColumn?, ownReference?]
  cases f.kind <;> simp

end FieldDecl

/-- The column of the primary key is that of the field which the declaration names as the key. -/
theorem ModelDecl.exists_ownColumn?_of_keyColumn? {decl : ModelDecl} {name : String}
    {ty : ColumnType} (h : decl.keyColumn? = some (name, ty)) :
    ∃ f ∈ decl.fields, f.name = decl.primaryKey ∧
      f.ownColumn? name = some ⟨name, some f.name, ty, none, true⟩ := by
  rw [keyColumn?] at h
  split at h
  next field ty' column references strict hfield =>
    rw [field?] at hfield
    have hname : field = decl.primaryKey := by simpa using List.find?_some hfield
    refine ⟨_, List.mem_of_find?_eq_some hfield, hname, ?_⟩
    obtain ⟨hcolumn, rfl⟩ := Prod.mk.inj (Option.some.inj h)
    rw [← hname] at hcolumn
    simp only [FieldDecl.ownColumn?, hcolumn, beq_self_eq_true]
  next => cases h

namespace Catalogue

variable {c : Catalogue}

/-! ## Column fields -/

theorem addField_eq_ok {model primaryKey : String} {columns after : List Column} {f : FieldDecl}
    (h : c.addField model primaryKey columns f = .ok after) :
    after.map Column.unbound =
      columns.map Column.unbound ++ (f.ownColumn? primaryKey).toList := by
  rw [addField.eq_def] at h
  rw [FieldDecl.ownColumn?.eq_def]
  cases hkind : f.kind with
  | column ty column references =>
    simp only [hkind] at h
    split at h
    next => cases h
    next =>
      rw [Outcome.bind_eq_ok] at h
      obtain ⟨binding, -, h⟩ := h
      cases h
      rw [List.map_append]
      rfl
  | hasMany target foreignKey key =>
    simp only [hkind] at h
    cases h
    exact (List.append_nil _).symm
  | belongsTo target column =>
    simp only [hkind] at h
    cases h
    exact (List.append_nil _).symm

theorem fieldColumns_eq_ok {decl : ModelDecl} {primaryKey : String} {columns : List Column}
    (h : c.fieldColumns decl primaryKey = .ok columns) :
    columns.map Column.unbound = decl.fields.filterMap (FieldDecl.ownColumn? primaryKey) := by
  refine Outcome.foldlM_prefix_induction
    (P := fun done columns =>
      columns.map Column.unbound = done.filterMap (FieldDecl.ownColumn? primaryKey))
    rfl ?_ h
  intro done f before after hbefore hstep
  rw [addField_eq_ok hstep, hbefore, List.filterMap_append, List.filterMap_cons,
    List.filterMap_nil]
  cases f.ownColumn? primaryKey <;> rfl

/-! ## References -/

theorem map_unbound_bind (name : String) (binding : Binding) (columns : List Column) :
    (bind name binding columns).map Column.unbound = columns.map Column.unbound := by
  induction columns with
  | nil => rfl
  | cons column rest ih =>
    rw [bind]
    split
    next => rfl
    next => rw [List.map_cons, List.map_cons, ih]

theorem extends_addForeignKey (name : String) (binding : Binding) (ty : ColumnType)
    (columns : List Column) : Extends columns (addForeignKey name binding ty columns) := by
  rw [addForeignKey]
  split
  next => exact ⟨[], by rw [map_unbound_bind, List.append_nil], by simp⟩
  next => exact Extends.append name ty (some binding)

theorem mem_names_addForeignKey {name other : String} {binding : Binding} {ty : ColumnType}
    {columns : List Column} :
    other ∈ (addForeignKey name binding ty columns).map Column.name ↔
      other ∈ columns.map Column.name ∨ name = other := by
  rw [addForeignKey]
  split
  next hany =>
    rw [List.any_eq_true] at hany
    obtain ⟨column, hcolumn, hname⟩ := hany
    rw [← map_name_unbound, map_unbound_bind, map_name_unbound]
    refine ⟨Or.inl, ?_⟩
    rintro (h | rfl)
    · exact h
    · exact List.mem_map.mpr ⟨column, hcolumn, by simpa using hname⟩
  next =>
    rw [List.map_append, List.mem_append]
    simp [eq_comm]

theorem addReference_eq_ok {found after : List Column × List Reference} {f : FieldDecl}
    (h : c.addReference found f = .ok after) :
    (f.ownReference? = none ∧ after = found) ∨
    ∃ r binding ty, f.ownReference? = some r ∧ c.keyOf r.target = .ok (binding, ty) ∧
      after = (addForeignKey r.column binding ty found.1, found.2 ++ [r]) := by
  rw [addReference.eq_def] at h
  rw [FieldDecl.ownReference?.eq_def]
  cases hkind : f.kind with
  | column ty column references =>
    simp only [hkind] at h
    cases h
    exact Or.inl ⟨rfl, rfl⟩
  | hasMany target foreignKey key =>
    simp only [hkind] at h
    cases h
    exact Or.inl ⟨rfl, rfl⟩
  | belongsTo target column =>
    simp only [hkind, Outcome.bind_eq_ok] at h
    obtain ⟨⟨binding, ty⟩, hkey, h⟩ := h
    cases h
    exact Or.inr ⟨_, binding, ty, rfl, hkey, rfl⟩

/-- The references are those of the reference fields, each of which has its column. -/
theorem withReferences_eq_ok {decl : ModelDecl} {declared columns : List Column}
    {references : List Reference} (h : c.withReferences decl declared = .ok (columns, references)) :
    references = decl.fields.filterMap FieldDecl.ownReference? ∧ Extends declared columns ∧
      ∀ name, name ∈ columns.map Column.name ↔
        name ∈ declared.map Column.name ∨ ∃ r ∈ references, r.column = name := by
  refine Outcome.foldlM_prefix_induction
    (P := fun done found => found.2 = done.filterMap FieldDecl.ownReference? ∧
      Extends declared found.1 ∧
      ∀ name, name ∈ found.1.map Column.name ↔
        name ∈ declared.map Column.name ∨ ∃ r ∈ found.2, r.column = name)
    ⟨rfl, Extends.refl declared, by simp⟩ ?_ h
  rintro done f before after ⟨hrefs, hext, hnames⟩ hstep
  rw [List.filterMap_append, List.filterMap_cons, List.filterMap_nil]
  rcases addReference_eq_ok hstep with ⟨hnone, rfl⟩ | ⟨r, binding, ty, hsome, -, rfl⟩
  · rw [hnone]
    exact ⟨by rw [hrefs, List.append_nil], hext, hnames⟩
  · rw [hsome]
    refine ⟨by rw [hrefs], hext.trans (extends_addForeignKey _ _ _ _), ?_⟩
    intro name
    rw [mem_names_addForeignKey, hnames, or_assoc]
    simp [or_and_right, exists_or]

/-- Before other models are asked, there is a column of a name exactly when a field is stored under
the name. -/
theorem mem_names_withReferences {decl : ModelDecl} {primaryKey : String}
    {declared columns : List Column} {references : List Reference}
    (hdeclared : c.fieldColumns decl primaryKey = .ok declared)
    (hreferences : c.withReferences decl declared = .ok (columns, references)) {name : String} :
    name ∈ columns.map Column.name ↔ ∃ f ∈ decl.fields, f.columnName? = some name := by
  obtain ⟨hrefs, -, hnames⟩ := withReferences_eq_ok hreferences
  have hown : name ∈ declared.map Column.name ↔
      ∃ f ∈ decl.fields, (f.ownColumn? primaryKey).map (·.name) = some name := by
    rw [← map_name_unbound, fieldColumns_eq_ok hdeclared, List.map_filterMap, List.mem_filterMap]
  have hreference : (∃ r ∈ references, r.column = name) ↔
      ∃ f ∈ decl.fields, f.ownReference?.map (·.column) = some name := by
    rw [hrefs]
    simp only [List.mem_filterMap, Option.map_eq_some_iff]
    constructor
    · rintro ⟨r, ⟨f, hf, hr⟩, hname⟩
      exact ⟨f, hf, r, hr, hname⟩
    · rintro ⟨f, hf, r, hr, hname⟩
      exact ⟨r, ⟨f, hf, hr⟩, hname⟩
  rw [hnames, hown, hreference, ← exists_or]
  refine exists_congr fun f => ?_
  rw [← and_or_left, FieldDecl.columnName?_eq_some primaryKey]

/-! ## Foreign keys that other models ask for -/

/-- A collection field of another model that names a foreign key in the table of the model. -/
def AsksFor (model name : String) (f : FieldDecl) : Prop :=
  ∃ key, f.kind = .hasMany model (some name) key

theorem addIncoming_cases (model : String) (owner : ModelDecl) (ownerKey : String)
    (ty : ColumnType) (columns : List Column) (f : FieldDecl) :
    Extends columns (addIncoming model owner ownerKey ty columns f) ∧
      ∀ name, name ∈ (addIncoming model owner ownerKey ty columns f).map Column.name ↔
        name ∈ columns.map Column.name ∨ AsksFor model name f := by
  rw [addIncoming.eq_def]
  simp only [AsksFor]
  cases hkind : f.kind with
  | column ty column references => exact ⟨Extends.refl columns, by simp⟩
  | belongsTo target column => exact ⟨Extends.refl columns, by simp⟩
  | hasMany target foreignKey key =>
    cases foreignKey with
    | none => exact ⟨Extends.refl columns, by simp⟩
    | some foreignKey =>
      by_cases htarget : target = model
      · by_cases hany : columns.any (·.name == foreignKey) = true
        · simp only [htarget, hany, ne_eq, not_true_eq_false, decide_false, Bool.false_or, if_true]
          refine ⟨Extends.refl columns, fun name => ⟨Or.inl, ?_⟩⟩
          rintro (h | ⟨key, h⟩)
          · exact h
          · cases h
            rw [List.any_eq_true] at hany
            obtain ⟨column, hcolumn, hname⟩ := hany
            exact List.mem_map.mpr ⟨column, hcolumn, by simpa using hname⟩
        · simp only [htarget, hany, ne_eq, not_true_eq_false, decide_false, Bool.false_or,
            Bool.false_eq_true, if_false]
          refine ⟨Extends.append foreignKey ty _, fun name => ?_⟩
          rw [List.map_append, List.mem_append]
          simp [eq_comm]
      · simp only [ne_eq, htarget, not_false_eq_true, decide_true, Bool.true_or, if_true]
        refine ⟨Extends.refl columns, fun name => ⟨Or.inl, ?_⟩⟩
        rintro (h | ⟨key, h⟩)
        · exact h
        · cases h
          exact absurd rfl htarget

/-- A model asks for a column in the table of another if it can be referred to and has a collection
that names the column. -/
def Asks (owner : ModelDecl) (model name : String) : Prop :=
  owner.keyColumn?.isSome = true ∧ ∃ f ∈ owner.fields, AsksFor model name f

theorem extends_foldl {α : Type} {f : List Column → α → List Column}
    (step : ∀ columns a, Extends columns (f columns a)) (as : List α) (columns : List Column) :
    Extends columns (as.foldl f columns) := by
  induction as generalizing columns with
  | nil => exact Extends.refl columns
  | cons a rest ih => exact (step columns a).trans (ih (f columns a))

theorem addIncomingFrom_cases (model : String) (columns : List Column) (owner : ModelDecl) :
    Extends columns (addIncomingFrom model columns owner) ∧
      ∀ name, name ∈ (addIncomingFrom model columns owner).map Column.name ↔
        name ∈ columns.map Column.name ∨ Asks owner model name := by
  rw [addIncomingFrom]
  simp only [Asks]
  cases owner.keyColumn? with
  | none => exact ⟨Extends.refl columns, by simp⟩
  | some key =>
    constructor
    · exact extends_foldl
        (fun columns f => (addIncoming_cases model owner key.1 key.2 columns f).1) _ _
    · intro name
      simp only [Option.isSome_some, true_and]
      exact foldl_iff_or_exists (P := fun columns => name ∈ columns.map Column.name)
        (fun columns f => (addIncoming_cases model owner key.1 key.2 columns f).2 name) _ _

theorem extends_withIncoming (c : Catalogue) (model : String) (known : List String)
    (columns : List Column) : Extends columns (c.withIncoming model known columns) :=
  extends_foldl (fun columns owner => (addIncomingFrom_cases model columns owner).1) _ _

theorem mem_names_withIncoming {model name : String} {known : List String}
    {columns : List Column} :
    name ∈ (c.withIncoming model known columns).map Column.name ↔
      name ∈ columns.map Column.name ∨ ∃ owner ∈ known, Asks (c.decl owner) model name := by
  rw [withIncoming, foldl_iff_or_exists (P := fun columns => name ∈ columns.map Column.name)
    (fun columns owner => (addIncomingFrom_cases model columns owner).2 name)]
  simp

/-! ## Distinct names

Every stage adds a column only after looking for one of its name. -/

theorem nodup_names_concat {columns : List Column} {column : Column}
    (h : (columns.map Column.name).Nodup) (hnew : ¬columns.any (·.name == column.name) = true) :
    ((columns ++ [column]).map Column.name).Nodup := by
  rw [List.map_append, List.nodup_append]
  refine ⟨h, List.nodup_singleton _, ?_⟩
  intro name hname other hother heq
  obtain ⟨found, hfound, rfl⟩ := List.mem_map.mp hname
  have hsame : found.name = column.name := heq.trans (List.mem_singleton.mp hother)
  exact hnew (List.any_eq_true.mpr ⟨found, hfound, beq_iff_eq.mpr hsame⟩)

theorem nodup_names_fieldColumns {decl : ModelDecl} {primaryKey : String} {columns : List Column}
    (h : c.fieldColumns decl primaryKey = .ok columns) : (columns.map Column.name).Nodup := by
  refine Outcome.foldlM_induction (P := fun columns => (columns.map Column.name).Nodup)
    ?_ List.nodup_nil h
  intro f _ before after hbefore hstep
  rw [addField.eq_def] at hstep
  split at hstep
  next =>
    dsimp only at hstep
    split at hstep
    next => cases hstep
    next hnew =>
      rw [Outcome.bind_eq_ok] at hstep
      obtain ⟨binding, -, hstep⟩ := hstep
      cases hstep
      exact nodup_names_concat hbefore hnew
  next =>
    cases hstep
    exact hbefore

theorem nodup_names_addForeignKey {name : String} {binding : Binding} {ty : ColumnType}
    {columns : List Column} (h : (columns.map Column.name).Nodup) :
    ((addForeignKey name binding ty columns).map Column.name).Nodup := by
  rw [addForeignKey]
  split
  next => rwa [← map_name_unbound, map_unbound_bind, map_name_unbound]
  next hnew => exact nodup_names_concat h hnew

theorem nodup_names_withReferences {decl : ModelDecl} {declared columns : List Column}
    {references : List Reference} (h : c.withReferences decl declared = .ok (columns, references))
    (hdeclared : (declared.map Column.name).Nodup) : (columns.map Column.name).Nodup := by
  refine Outcome.foldlM_induction (P := fun found => (found.1.map Column.name).Nodup)
    ?_ hdeclared h
  intro f _ before after hbefore hstep
  rcases addReference_eq_ok hstep with ⟨-, rfl⟩ | ⟨r, binding, ty, -, -, rfl⟩
  · exact hbefore
  · exact nodup_names_addForeignKey hbefore

theorem nodup_names_addIncoming {model : String} {owner : ModelDecl} {ownerKey : String}
    {ty : ColumnType} {columns : List Column} (f : FieldDecl)
    (h : (columns.map Column.name).Nodup) :
    ((addIncoming model owner ownerKey ty columns f).map Column.name).Nodup := by
  rw [addIncoming.eq_def]
  split
  next =>
    split
    next => exact h
    next hnew =>
      rw [Bool.or_eq_true, not_or] at hnew
      exact nodup_names_concat h hnew.2
  next => exact h

theorem nodup_names_withIncoming {model : String} {known : List String} {columns : List Column}
    (h : (columns.map Column.name).Nodup) :
    ((c.withIncoming model known columns).map Column.name).Nodup := by
  refine List.foldlRecOn (motive := fun (columns : List Column) =>
    (columns.map Column.name).Nodup) _ _ h ?_
  intro before hbefore owner _
  rw [addIncomingFrom]
  split
  next =>
    exact List.foldlRecOn (motive := fun (columns : List Column) =>
      (columns.map Column.name).Nodup) _ _ hbefore fun _ h f _ => nodup_names_addIncoming f h
  next => exact hbefore

/-! ## Resolved descriptors -/

theorem resolve_eq_ok {registered : List String} {model : String} {d : Descriptor}
    (h : c.resolve registered model = .ok d) :
    d.model = model ∧ d.table = (c.decl model).table ∧
      (∃ ty, (c.decl model).keyColumn? = some (d.primaryKey, ty)) ∧
      c.relationsOf (c.decl model) d.primaryKey = .ok d.relations ∧
      ∃ declared columns, c.fieldColumns (c.decl model) d.primaryKey = .ok declared ∧
        c.withReferences (c.decl model) declared = .ok (columns, d.references) ∧
        d.columns = c.withIncoming model (c.known registered model) columns := by
  rw [resolve] at h
  cases hkey : (c.decl model).keyColumn? with
  | none =>
    simp only [hkey] at h
    cases h
  | some key =>
    obtain ⟨primaryKey, ty⟩ := key
    simp only [hkey, Outcome.bind_eq_ok] at h
    obtain ⟨declared, hdeclared, ⟨columns, references⟩, hreferences, relations, hrelations, h⟩ := h
    cases h
    exact ⟨rfl, rfl, ⟨ty, rfl⟩, hrelations, declared, columns, hdeclared, hreferences, rfl⟩

/-- The table of a model has a column of the name, as far as the registered models tell: a field is
stored there, or a known model asks for it. -/
def Stores (c : Catalogue) (registered : List String) (model name : String) : Prop :=
  (∃ f ∈ (c.decl model).fields, f.columnName? = some name) ∨
    ∃ owner ∈ c.known registered model, Asks (c.decl owner) model name

section Resolved

variable {registered : List String} {model : String} {d : Descriptor}

/-- The references of a descriptor are those of the reference fields. -/
theorem references_resolve (h : c.resolve registered model = .ok d) :
    d.references = (c.decl model).fields.filterMap FieldDecl.ownReference? := by
  obtain ⟨-, -, -, -, declared, columns, -, hreferences, -⟩ := resolve_eq_ok h
  exact (withReferences_eq_ok hreferences).1

/-- The columns of a descriptor are those of the column fields, in order, and then columns without
a member. -/
theorem columns_resolve (h : c.resolve registered model = .ok d) :
    ∃ further, d.columns.map Column.unbound =
        (c.decl model).fields.filterMap (FieldDecl.ownColumn? d.primaryKey) ++ further ∧
      ∀ column ∈ further, column.member = none ∧ column.isKey = false := by
  obtain ⟨-, -, -, -, declared, columns, hdeclared, hreferences, hcolumns⟩ := resolve_eq_ok h
  have hext := (withReferences_eq_ok hreferences).2.1.trans
    (extends_withIncoming c model (c.known registered model) columns)
  rw [← hcolumns] at hext
  obtain ⟨further, hfurther, hmember⟩ := hext
  exact ⟨further, by rw [hfurther, fieldColumns_eq_ok hdeclared], hmember⟩

/-- A descriptor has a column of a name exactly when a field of its model is stored under the name
or a model known to the description asks for it. -/
theorem mem_names_resolve (h : c.resolve registered model = .ok d) {name : String} :
    name ∈ d.columns.map Column.name ↔ c.Stores registered model name := by
  obtain ⟨-, -, -, -, declared, columns, hdeclared, hreferences, hcolumns⟩ := resolve_eq_ok h
  rw [Stores, hcolumns, mem_names_withIncoming, mem_names_withReferences hdeclared hreferences]

theorem mem_names_of_field (h : c.resolve registered model = .ok d) {f : FieldDecl}
    (hf : f ∈ (c.decl model).fields) {name : String} (hname : f.columnName? = some name) :
    name ∈ d.columns.map Column.name :=
  (mem_names_resolve h).mpr (Or.inl ⟨f, hf, hname⟩)

/-- No two columns of a descriptor have one name. -/
theorem nodup_names_resolve (h : c.resolve registered model = .ok d) :
    (d.columns.map Column.name).Nodup := by
  obtain ⟨-, -, -, -, declared, columns, hdeclared, hreferences, hcolumns⟩ := resolve_eq_ok h
  rw [hcolumns]
  exact nodup_names_withIncoming
    (nodup_names_withReferences hreferences (nodup_names_fieldColumns hdeclared))

/-- Every reference of a descriptor has its column. -/
theorem reference_mem_names (h : c.resolve registered model = .ok d) {r : Reference}
    (hr : r ∈ d.references) : r.column ∈ d.columns.map Column.name := by
  rw [references_resolve h, List.mem_filterMap] at hr
  obtain ⟨f, hf, hr⟩ := hr
  refine mem_names_of_field h hf ((FieldDecl.columnName?_eq_some d.primaryKey).mpr (Or.inr ?_))
  rw [hr]
  rfl

/-- A field is stored in a column of the table. -/
theorem mem_names_of_storage? (h : c.resolve registered model = .ok d) {member name : String}
    (hstorage : d.storage? member = some name) : name ∈ d.columns.map Column.name := by
  rcases Descriptor.exists_of_storage? hstorage with ⟨column, hcolumn, -, rfl⟩ | ⟨r, hr, -, rfl⟩
  · exact List.mem_map_of_mem hcolumn
  · exact reference_mem_names h hr

/-- The key column is that of the field which the declaration names as the key. -/
theorem keyField_resolve (h : c.resolve registered model = .ok d) :
    ∃ f ∈ (c.decl model).fields, f.name = (c.decl model).primaryKey ∧ ∃ ty,
      f.ownColumn? d.primaryKey = some ⟨d.primaryKey, some f.name, ty, none, true⟩ := by
  obtain ⟨-, -, ⟨ty, hkey⟩, -⟩ := resolve_eq_ok h
  obtain ⟨f, hf, hname, hown⟩ := ModelDecl.exists_ownColumn?_of_keyColumn? hkey
  exact ⟨f, hf, hname, ty, hown⟩

/-- Every column of a descriptor is that of a column field or has no member and is no key. -/
theorem column_cases (h : c.resolve registered model = .ok d) {column : Column}
    (hcolumn : column ∈ d.columns) :
    (∃ f ∈ (c.decl model).fields, f.ownColumn? d.primaryKey = some column.unbound) ∨
      column.member = none ∧ column.isKey = false := by
  obtain ⟨further, hcolumns, hfurther⟩ := columns_resolve h
  have hmem : column.unbound ∈ d.columns.map Column.unbound := List.mem_map_of_mem hcolumn
  rw [hcolumns, List.mem_append, List.mem_filterMap] at hmem
  exact hmem.imp id (hfurther column.unbound)

theorem exists_column_of_ownColumn? (h : c.resolve registered model = .ok d) {f : FieldDecl}
    (hf : f ∈ (c.decl model).fields) {own : Column} (hown : f.ownColumn? d.primaryKey = some own) :
    ∃ column ∈ d.columns, column.unbound = own := by
  obtain ⟨further, hcolumns, -⟩ := columns_resolve h
  rw [← List.mem_map, hcolumns]
  exact List.mem_append_left _ (List.mem_filterMap.mpr ⟨f, hf, hown⟩)

/-- Every descriptor flags a key column. -/
theorem hasKey_resolve (h : c.resolve registered model = .ok d) : d.HasKey := by
  obtain ⟨f, hf, -, ty, hown⟩ := keyField_resolve h
  obtain ⟨column, hcolumn, hunbound⟩ := exists_column_of_ownColumn? h hf hown
  exact ⟨column, hcolumn, show column.unbound.isKey = true by rw [hunbound]⟩

/-- The column that a descriptor flags as the key is the one that it names. -/
theorem name_of_isKey (h : c.resolve registered model = .ok d) {column : Column}
    (hcolumn : column ∈ d.columns) (hkey : column.isKey = true) : column.name = d.primaryKey := by
  rcases column_cases h hcolumn with ⟨f, -, hown⟩ | ⟨-, hno⟩
  · rw [FieldDecl.ownColumn?.eq_def] at hown
    split at hown
    next ty name references hkind =>
      injection hown with hown
      have hflag : column.unbound.isKey = true := hkey
      show column.unbound.name = d.primaryKey
      rw [← hown] at hflag ⊢
      simpa using hflag
    next => cases hown
  · rw [hno] at hkey
    cases hkey

theorem primaryKey_mem_names (h : c.resolve registered model = .ok d) :
    d.primaryKey ∈ d.columns.map Column.name := by
  obtain ⟨column, hcolumn, hkey⟩ := hasKey_resolve h
  exact List.mem_map.mpr ⟨column, hcolumn, name_of_isKey h hcolumn hkey⟩

end Resolved

end Catalogue
end RowGraph