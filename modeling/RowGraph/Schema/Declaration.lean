import RowGraph.Text.Words
import RowGraph.Value.Scalar

/-!
Declarations: what a program says about its models.

A model has a table, a primary key and fields.  A field is a column of its own, a collection of
instances that point back at the model, or a reference to one instance of another model.  Models are
known by name, and relations between them may be cyclic.
-/

namespace RowGraph

/-! ## Fields -/

inductive FieldKind where
  /-- A single value in a column of the table.  `references` is the model whose key it holds. -/
  | column (ty : ColumnType) (column : Option String) (references : Option String)
  /-- Every instance of `target` whose foreign key points at the owner. -/
  | hasMany (target : String) (foreignKey : Option String) (primaryKey : Option String)
  /-- One instance of `target`, stored as a foreign key. -/
  | belongsTo (target : String) (column : Option String)
  deriving DecidableEq

structure FieldDecl where
  name : String
  kind : FieldKind
  /-- Loading refuses null in the column, or a collection that the query left out. -/
  strict : Bool
  deriving DecidableEq

/-- A modifier that does not fit the kind of its field. -/
inductive FieldMisuse where
  | noColumn (field : String)
  | noReference (field : String)
  | noForeignKey (field : String)
  | noPrimaryKey (field : String)
  deriving DecidableEq

def FieldMisuse.message : FieldMisuse → String
  | noColumn field => "has-many field \x60" ++ field ++ "\x60 has no column"
  | noReference field => "only column fields can reference a model; field=\x60" ++ field ++ "\x60"
  | noForeignKey field => "only has-many fields take a foreign key; field=\x60" ++ field ++ "\x60"
  | noPrimaryKey field => "only has-many fields take a primary key; field=\x60" ++ field ++ "\x60"

namespace FieldDecl

/-- The field stored in the column of the given name. -/
def rename (f : FieldDecl) (column : String) : Except FieldMisuse FieldDecl :=
  match f.kind with
  | .column ty _ references => .ok { f with kind := .column ty (some column) references }
  | .belongsTo target _ => .ok { f with kind := .belongsTo target (some column) }
  | .hasMany _ _ _ => .error (.noColumn f.name)

/-- The column holding the primary key of a model. -/
def references (f : FieldDecl) (model : String) : Except FieldMisuse FieldDecl :=
  match f.kind with
  | .column ty column _ => .ok { f with kind := .column ty column (some model) }
  | _ => .error (.noReference f.name)

/-- The collection found by the given column of its target. -/
def foreignKey (f : FieldDecl) (column : String) : Except FieldMisuse FieldDecl :=
  match f.kind with
  | .hasMany target _ key => .ok { f with kind := .hasMany target (some column) key }
  | _ => .error (.noForeignKey f.name)

/-- The collection whose foreign key refers to the given column of its owner. -/
def referencesKey (f : FieldDecl) (column : String) : Except FieldMisuse FieldDecl :=
  match f.kind with
  | .hasMany target foreignKey _ => .ok { f with kind := .hasMany target foreignKey (some column) }
  | _ => .error (.noPrimaryKey f.name)

def related? (f : FieldDecl) : Option String :=
  match f.kind with
  | .column _ _ references => references
  | .hasMany target _ _ => some target
  | .belongsTo target _ => some target

/-- The column that a field is stored in, if it has one of its own. -/
def columnName? (f : FieldDecl) : Option String :=
  match f.kind with
  | .column _ column _ => some (column.getD (Text.snakeCase f.name))
  | .belongsTo _ column => some (column.getD (Text.foreignKeyName f.name))
  | .hasMany _ _ _ => none

end FieldDecl

/-! ## Models -/

structure ModelDecl where
  /-- The name by which other declarations and messages know the model. -/
  model : String
  table : String
  primaryKey : String
  fields : List FieldDecl
  deriving DecidableEq

namespace ModelDecl

def bare (model : String) : ModelDecl := ⟨model, model, "id", []⟩

def field? (d : ModelDecl) (name : String) : Option FieldDecl :=
  d.fields.find? (·.name == name)

/-- The column of the primary key, if the first field of its name is a column. -/
def keyColumn? (d : ModelDecl) : Option (String × ColumnType) :=
  match d.field? d.primaryKey with
  | some { kind := .column ty column _, .. } =>
    some (column.getD (Text.snakeCase d.primaryKey), ty)
  | _ => none

def related (d : ModelDecl) : List String :=
  d.fields.filterMap FieldDecl.related?

end ModelDecl

/-! ## Catalogues -/

/-- The declarations of a program.  A model that is not among them has a table of its own name and
no fields. -/
structure Catalogue where
  models : List ModelDecl

namespace Catalogue

def decl (c : Catalogue) (model : String) : ModelDecl :=
  (c.models.find? (·.model == model)).getD (.bare model)

@[simp] theorem model_decl (c : Catalogue) (model : String) : (c.decl model).model = model := by
  rw [decl]
  cases h : c.models.find? (·.model == model) with
  | none => rfl
  | some d => simpa using List.find?_some h

theorem related_decl_of_not_mem {c : Catalogue} {model : String}
    (h : model ∉ c.models.map ModelDecl.model) : (c.decl model).related = [] := by
  have hn : c.models.find? (·.model == model) = none := by
    rw [List.find?_eq_none]
    intro d hd hm
    exact h (List.mem_map.mpr ⟨d, hd, by simpa using hm⟩)
  rw [decl, hn]
  rfl

end Catalogue
end RowGraph
