import RowGraph.Error.Basic
import RowGraph.Schema.Descriptor
import RowGraph.Schema.Discovery

/-!
From declarations to a descriptor.

Columns come from three places, in this order: the column fields; the references, each of which uses
a declared column of its name or adds one; and the collections of other models that name a foreign
key here which the model does not declare itself.  Only declarations are consulted, so models that
refer to each other can be described in any order.
-/

namespace RowGraph
namespace Catalogue

/-- What a foreign key to a model refers to, and the type of the key it holds. -/
def keyOf (c : Catalogue) (target : String) : Outcome (Binding × ColumnType) :=
  let decl := c.decl target
  match decl.keyColumn? with
  | some (key, ty) => .ok (⟨target, decl.table, key⟩, ty)
  | none => .error (.invalidSchema (.missingPrimaryKey target))

def bindingTo (c : Catalogue) (target : String) : Outcome Binding :=
  (c.keyOf target).map Prod.fst

/-- The binding of a column that may hold the key of another model. -/
def bindingOf? (c : Catalogue) : Option String → Outcome (Option Binding)
  | none => .ok none
  | some target => (c.bindingTo target).map some

/-! ## Column fields -/

def addField (c : Catalogue) (model primaryKey : String) (columns : List Column)
    (field : FieldDecl) : Outcome (List Column) :=
  match field.kind with
  | .column ty column references => do
    let name := column.getD (Text.snakeCase field.name)
    if columns.any (·.name == name) then
      .error (.invalidSchema (.sharedColumn model name))
    else
      let binding ← c.bindingOf? references
      return columns ++ [⟨name, some field.name, ty, binding, name == primaryKey⟩]
  | _ => .ok columns

def fieldColumns (c : Catalogue) (decl : ModelDecl) (primaryKey : String) :
    Outcome (List Column) :=
  decl.fields.foldlM (c.addField decl.model primaryKey) []

/-! ## References -/

/-- The first column of a name, bound unless it is bound already. -/
def bind (name : String) (binding : Binding) : List Column → List Column
  | [] => []
  | column :: rest =>
    if column.name = name then { column with binding := column.binding <|> some binding } :: rest
    else column :: bind name binding rest

def addForeignKey (name : String) (binding : Binding) (ty : ColumnType) (columns : List Column) :
    List Column :=
  if columns.any (·.name == name) then bind name binding columns
  else columns ++ [⟨name, none, ty, some binding, false⟩]

def addReference (c : Catalogue) (found : List Column × List Reference) (field : FieldDecl) :
    Outcome (List Column × List Reference) :=
  match field.kind with
  | .belongsTo target column => do
    let name := column.getD (Text.foreignKeyName field.name)
    let (binding, ty) ← c.keyOf target
    return (addForeignKey name binding ty found.1, found.2 ++ [⟨field.name, target, name⟩])
  | _ => .ok found

def withReferences (c : Catalogue) (decl : ModelDecl) (columns : List Column) :
    Outcome (List Column × List Reference) :=
  decl.fields.foldlM c.addReference (columns, [])

/-! ## Collections -/

/-- The references of a model that point back at an owner: their columns and names. -/
def backReferences (target : ModelDecl) (owner : String) : List (String × String) :=
  target.fields.filterMap fun field =>
    match field.kind with
    | .belongsTo back column =>
      if back = owner then some (column.getD (Text.foreignKeyName field.name), field.name) else none
    | _ => none

/-- The foreign key of a collection and the field it belongs to, found on the target.  One reference
back at the owner names them, several are refused, and none leaves them open. -/
def inferForeignKey (c : Catalogue) (owner member target : String) :
    Outcome (Option String × Option String) :=
  match backReferences (c.decl target) owner with
  | [] => .ok (none, none)
  | [(column, inverse)] => .ok (some column, some inverse)
  | candidates =>
    .error (.invalidSchema (.ambiguousForeignKey owner member
      (candidates.map fun candidate => target ++ "::" ++ candidate.2)))

def addRelation (c : Catalogue) (owner primaryKey : String) (relations : List Relation)
    (field : FieldDecl) : Outcome (List Relation) :=
  match field.kind with
  | .hasMany target foreignKey key => do
    let (column, inverse) ← match foreignKey with
      | some column => .ok (some column, none)
      | none => c.inferForeignKey owner field.name target
    return relations ++ [⟨field.name, target, inverse, column, key.getD primaryKey⟩]
  | _ => .ok relations

def relationsOf (c : Catalogue) (decl : ModelDecl) (primaryKey : String) :
    Outcome (List Relation) :=
  decl.fields.foldlM (c.addRelation decl.model primaryKey) []

/-! ## Foreign keys that other models ask for -/

/-- The columns with the foreign key that a collection of another model names, unless there is a
column of that name. -/
def addIncoming (model : String) (owner : ModelDecl) (ownerKey : String) (ty : ColumnType)
    (columns : List Column) (field : FieldDecl) : List Column :=
  match field.kind with
  | .hasMany target (some foreignKey) key =>
    if target ≠ model || columns.any (·.name == foreignKey) then columns
    else
      columns ++
        [⟨foreignKey, none, ty, some ⟨owner.model, owner.table, key.getD ownerKey⟩, false⟩]
  | _ => columns

def addIncomingFrom (model : String) (columns : List Column) (owner : ModelDecl) : List Column :=
  match owner.keyColumn? with
  | some (ownerKey, ty) => owner.fields.foldl (addIncoming model owner ownerKey ty) columns
  | none => columns

def withIncoming (c : Catalogue) (model : String) (known : List String) (columns : List Column) :
    List Column :=
  (known.map c.decl).foldl (addIncomingFrom model) columns

/-! ## Descriptors -/

/-- The descriptor of a model, given the models that were registered. -/
def resolve (c : Catalogue) (registered : List String) (model : String) : Outcome Descriptor :=
  let decl := c.decl model
  match decl.keyColumn? with
  | none => .error (.invalidSchema (.missingPrimaryKey model))
  | some (primaryKey, _) => do
    let declared ← c.fieldColumns decl primaryKey
    let (columns, references) ← c.withReferences decl declared
    let relations ← c.relationsOf decl primaryKey
    return {
      model := model
      table := decl.table
      primaryKey := primaryKey
      columns := c.withIncoming model (c.known registered model) columns
      relations := relations
      references := references }

end Catalogue
end RowGraph
