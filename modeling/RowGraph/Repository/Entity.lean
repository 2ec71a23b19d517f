import RowGraph.Graph.Record
import RowGraph.Repository.ChangeSet

/-!
Instances: how a program's objects are taken from records and turned into rows.

A mapping says this for one model and one type of objects.  The entity is the object that needs no
type of its own: the row of its columns, its changes, and the collections loaded with it.
-/

namespace RowGraph

structure Mapping (ε : Type) where
  model : String
  toRow : ε → Row
  /-- The instance with the key that the database generated. -/
  assignKey : ε → Value → Outcome ε
  changes : ε → ChangeSet
  withChanges : ε → ChangeSet → ε
  load : Record → Outcome ε

/-! ## Entities -/

structure Entity where
  row : Row
  changes : ChangeSet
  /-- The has-many fields with their instances, if these were loaded. -/
  related : List (String × Option (List Entity))

namespace Entity

def ofRow (row : Row) (changes : ChangeSet) : Entity := ⟨row, changes, []⟩

/-- The entity after a change of a field stored in a column. -/
def set (e : Entity) (field column : String) (value : Value) : Entity :=
  { e with row := e.row.insert column value, changes := e.changes.mark field }

/-- The entity with the key that the database generated. -/
def assignKey (decl : ModelDecl) (e : Entity) (key : Value) : Entity :=
  match decl.keyColumn? with
  | some (column, _) => { e with row := e.row.insert column key }
  | none => e

/-- A loaded collection, which a strict field insists on. -/
def demand (strict : Bool) (loaded : Option (List Entity)) :
    Outcome (Option (List Entity)) :=
  if strict && loaded.isNone then .error (Error.ofFault .unloaded) else .ok loaded

/-- The entity with a further field read from its record.  `below` loads the records of a joined
collection as instances of the given model. -/
def addField (r : Record) (below : Keyed String (String → Outcome (List Entity))) (e : Entity)
    (field : FieldDecl) : Outcome Entity := do
  let column := field.columnName?.getD field.name
  match field.kind with
  | .column ty _ _ =>
    let value ← r.field (if field.strict then .required ty else .nullable ty) field.name
    return { e with row := e.row.insert column value }
  | .belongsTo _ _ =>
    let value ← r.field .any field.name
    return { e with row := e.row.insert column value }
  | .hasMany target _ _ =>
    let loaded ← match ← r.collection field.name with
      | none => pure none
      | some _ => (below.find? field.name).mapM fun load => load target
    return { e with related := e.related ++ [(field.name, ← demand field.strict loaded)] }

mutual
/-- The record as an instance of a model: its fields, read in the order of their declaration. -/
def load (c : Catalogue) : Record → String → Outcome Entity
  | ⟨descriptor, param, row, relations⟩, model =>
    (c.decl model).fields.foldlM
      (addField ⟨descriptor, param, row, relations⟩ (loaders c relations))
      (ofRow .empty .loaded)

/-- For each joined collection the way to load its records as instances of a model. -/
def loaders (c : Catalogue) :
    List (String × List Record) → Keyed String (String → Outcome (List Entity))
  | [] => []
  | (member, records) :: rest => (member, fun model => loadAll c records model) :: loaders c rest

def loadAll (c : Catalogue) : List Record → String → Outcome (List Entity)
  | [], _ => .ok []
  | r :: rest, model => do return (← load c r model) :: (← loadAll c rest model)
end

def mapping (c : Catalogue) (model : String) : Mapping Entity where
  model := model
  toRow := Entity.row
  assignKey e key := .ok (assignKey (c.decl model) e key)
  changes := Entity.changes
  withChanges e changes := { e with changes := changes }
  load r := load c r model

end Entity
end RowGraph
