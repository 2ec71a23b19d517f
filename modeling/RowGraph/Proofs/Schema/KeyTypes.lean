import Mathlib
import RowGraph.Proofs.Schema.Bindings
import RowGraph.Proofs.Schema.History

/-!
The types of foreign keys that other models ask for.

A collection that names a foreign key in the table of its target gives the column its name and the
key that it holds, but the type of the column is always that of the owner's primary key.  A column
that no field of its model is stored in therefore has the type of the key it holds where that key
is the primary key, and of another key exactly if the two keys have one type.
-/

namespace RowGraph

/-- A field of the model is a column of the given name and type. -/
def ModelDecl.DeclaresColumn (d : ModelDecl) (name : String) (ty : ColumnType) : Prop :=
  ∃ f ∈ d.fields, f.columnName? = some name ∧
    ∃ column references, f.kind = .column ty column references

namespace Catalogue

variable {c : Catalogue}

/-- The column is the foreign key that a collection of the bound model asks for.  It holds the key
that the collection declares, by default the primary key, and has the type of the primary key. -/
structure AskedBy (c : Catalogue) (model : String) (column : Column) (b : Binding) : Prop where
  binding : column.binding = some b
  table : b.table = (c.decl b.model).table
  collection : ∃ ownerKey key, (c.decl b.model).keyColumn? = some (ownerKey, column.ty) ∧
    b.key = key.getD ownerKey ∧
    ∃ g ∈ (c.decl b.model).fields, g.kind = .hasMany model (some column.name) key

namespace AskedBy

variable {model : String} {column : Column} {b : Binding}

theorem ty_eq_iff (h : c.AskedBy model column b) (ty : ColumnType) :
    column.ty = ty ↔ ∃ ownerKey, (c.decl b.model).keyColumn? = some (ownerKey, ty) := by
  obtain ⟨ownerKey, key, hkey, -⟩ := h.collection
  rw [hkey]
  simp

end AskedBy

section Resolved

variable {registered : List String} {model : String} {d : Descriptor}

/-- A column that no field of the model is stored in is one that a collection asks for. -/
theorem exists_askedBy (h : c.resolve registered model = .ok d) {column : Column}
    (hcolumn : column ∈ d.columns)
    (hadded : ∀ f ∈ (c.decl model).fields, f.columnName? ≠ some column.name) :
    ∃ b, c.AskedBy model column b := by
  rcases bound_cases h hcolumn with ⟨⟨f, hf, hname⟩, -⟩ | ⟨-, hasked⟩
  · exact absurd hname (hadded f hf)
  obtain ⟨owner, howner, hasked⟩ := List.exists_of_findSome?_eq_some hasked
  obtain ⟨known, -, rfl⟩ := List.mem_map.mp howner
  obtain ⟨ownerKey, ty, before, g, after, key, hkey, hfields, -, hkind, heq⟩ :=
    ModelDecl.askedColumn?_eq_some.mp hasked
  rw [model_decl] at heq
  have hty : column.ty = ty := congrArg Column.ty heq
  refine ⟨⟨known, (c.decl known).table, key.getD ownerKey⟩, congrArg Column.binding heq, rfl,
    ownerKey, key, ?_, rfl, g, ?_, hkind⟩
  · rw [hkey, hty]
  · rw [hfields]
    exact List.mem_append_right before List.mem_cons_self

/-- The column that a descriptor names as the key is the one that it flags. -/
theorem eq_keyColumn_of_name (h : c.resolve registered model = .ok d) {column : Column}
    (hcolumn : column ∈ d.columns) (hname : column.name = d.primaryKey) :
    column = d.keyColumn := by
  have hkey := Descriptor.keyColumn_mem (hasKey_resolve h)
  have hsame := name_of_isKey h hkey d.isKey_keyColumn
  exact List.inj_on_of_nodup_map (nodup_names_resolve h) hcolumn hkey (hname.trans hsame.symm)

/-- The key column has the name and the type that the declaration gives the key. -/
theorem keyColumn?_resolve (h : c.resolve registered model = .ok d) :
    (c.decl model).keyColumn? = some (d.primaryKey, d.keyColumn.ty) := by
  obtain ⟨-, -, ⟨ty, hkey⟩, -⟩ := resolve_eq_ok h
  obtain ⟨f, hf, -, hown⟩ := ModelDecl.exists_ownColumn?_of_keyColumn? hkey
  obtain ⟨column, hcolumn, hunbound⟩ := exists_column_of_ownColumn? h hf hown
  have hname : column.name = d.primaryKey := show column.unbound.name = _ by rw [hunbound]
  have hty : column.ty = ty := show column.unbound.ty = ty by rw [hunbound]
  rw [hkey, ← eq_keyColumn_of_name h hcolumn hname, hty]

end Resolved

end Catalogue

namespace Registry

variable {c : Catalogue} {r : Registry} {model : String} {d : Descriptor}

/-- A column that no field of a described model is stored in is a foreign key that a collection of
another model asks for, and refers to that model.  Its type is the type of the key that it holds
exactly if the owner's primary key has that type too, whether the key is looked up in the
declaration of the owner or in a descriptor of it, and always where the key is the primary key. -/
theorem Reached.ty_eq_iff_of_added (hr : Reached c r) (h : (r.describe model).1 = .ok d)
    {column : Column} (hcolumn : column ∈ d.columns)
    (hadded : ∀ f ∈ (c.decl model).fields, f.columnName? ≠ some column.name) :
    ∃ b, c.AskedBy model column b ∧
      (∀ ty, (c.decl b.model).DeclaresColumn b.key ty →
        (column.ty = ty ↔ ∃ ownerKey, (c.decl b.model).keyColumn? = some (ownerKey, ty))) ∧
      ∀ r' owner, Reached c r' → (r'.describe b.model).1 = .ok owner →
        ∀ key ∈ owner.columns, key.name = b.key →
          (column.ty = key.ty ↔ key.ty = owner.keyColumn.ty) ∧
            (b.key = owner.primaryKey → column.ty = key.ty) := by
  rw [fst_describe] at h
  obtain ⟨rfl, registered, hresolve⟩ := hr.sound.descriptor h
  obtain ⟨b, hasked⟩ := Catalogue.exists_askedBy hresolve hcolumn hadded
  refine ⟨b, hasked, fun ty _ => hasked.ty_eq_iff ty, ?_⟩
  intro r' owner hr' howner key hkey hname
  rw [fst_describe] at howner
  obtain ⟨hmodel, ownerRegistered, howner⟩ := hr'.sound.descriptor howner
  have hty : column.ty = owner.keyColumn.ty := by
    rw [hasked.ty_eq_iff, ← hmodel]
    exact ⟨owner.primaryKey, Catalogue.keyColumn?_resolve howner⟩
  refine ⟨by rw [hty, eq_comm], fun hprimary => ?_⟩
  rw [hty, Catalogue.eq_keyColumn_of_name howner hkey (hname.trans hprimary)]

/-! ### A foreign key of another type than its key -/

/-- Players are numbered, but their characters know them by a code. -/
def coded : Catalogue where
  models := [
    ⟨"Player", "Players", "id", [⟨"id", .column .i64 none none, false⟩,
      ⟨"code", .column .string none none, false⟩,
      ⟨"characters", .hasMany "Character" (some "player_code") (some "code"), false⟩]⟩,
    ⟨"Character", "Characters", "id", [⟨"id", .column .i64 none none, false⟩]⟩]

def codedRegistry : Registry :=
  (ofCatalogue coded).register "Player"

def codeColumn : Column :=
  ⟨"player_code", none, .i64, some ⟨"Player", "Players", "code"⟩, false⟩

def codedCharacter : Descriptor where
  model := "Character"
  table := "Characters"
  primaryKey := "id"
  columns := [⟨"id", some "id", .i64, none, true⟩, codeColumn]
  relations := []
  references := []

theorem reached_codedRegistry : Reached coded codedRegistry :=
  .register "Player" .fresh

theorem describe_codedRegistry : (codedRegistry.describe "Character").1 = .ok codedCharacter := by
  cbv

theorem codeColumn_added :
    ∀ f ∈ (coded.decl "Character").fields, f.columnName? ≠ some codeColumn.name := by
  decide +kernel

theorem declaresColumn_code : (coded.decl "Player").DeclaresColumn "code" .string :=
  ⟨⟨"code", .column .string none none, false⟩, by decide +kernel, by cbv, none, none, rfl⟩

theorem not_all_types_held :
    ¬∀ c r model d, Reached c r → (r.describe model).1 = .ok d → ∀ column ∈ d.columns,
      (∀ f ∈ (c.decl model).fields, f.columnName? ≠ some column.name) →
        ∃ b, column.binding = some b ∧
          ∀ ty, (c.decl b.model).DeclaresColumn b.key ty → column.ty = ty := by
  intro h
  obtain ⟨b, hb, hty⟩ := h coded codedRegistry "Character" codedCharacter reached_codedRegistry
    describe_codedRegistry codeColumn (by decide) codeColumn_added
  cases hb
  cases hty .string declaresColumn_code

theorem ty_eq_iff_of_added_codeColumn :
    Reached coded codedRegistry ∧ (codedRegistry.describe "Character").1 = .ok codedCharacter ∧
      codeColumn ∈ codedCharacter.columns ∧
      (∀ f ∈ (coded.decl "Character").fields, f.columnName? ≠ some codeColumn.name) ∧
      (coded.decl "Player").DeclaresColumn "code" .string ∧
      ¬∃ ownerKey, (coded.decl "Player").keyColumn? = some (ownerKey, .string) := by
  have hcolumn : codeColumn ∈ codedCharacter.columns := by decide
  refine ⟨reached_codedRegistry, describe_codedRegistry, hcolumn, codeColumn_added,
    declaresColumn_code, ?_⟩
  obtain ⟨b, hasked, hty, -⟩ := Reached.ty_eq_iff_of_added reached_codedRegistry
    describe_codedRegistry hcolumn codeColumn_added
  cases hasked.binding
  rw [← hty .string declaresColumn_code]
  decide

end Registry
end RowGraph
