import RowGraph.Schema.Declaration
import RowGraph.Text.Fold

/-!
Descriptors: what a declaration means for the tables.

A descriptor lists the physical columns of a model, foreign keys included, together with the
relations and references that a statement can follow.  It is made once from the declarations and
never changes.
-/

namespace RowGraph

/-- The table and key that a foreign key column refers to. -/
structure Binding where
  model : String
  table : String
  key : String
  deriving DecidableEq

structure Column where
  name : String
  /-- The field that the column is loaded into.  A foreign key may have none of its own. -/
  member : Option String
  ty : ColumnType
  /-- What the column refers to, if it is a foreign key. -/
  binding : Option Binding
  isKey : Bool
  deriving DecidableEq

/-- A collection that the model owns. -/
structure Relation where
  member : String
  target : String
  /-- The field of the target that points back at the owner, if it is known. -/
  inverse : Option String
  /-- The column of the target that holds the owner's key, if a declaration names it. -/
  foreignKey : Option String
  /-- The column of the owner that the foreign key refers to. -/
  primaryKey : String
  deriving DecidableEq

/-- A field that points at one instance of another model. -/
structure Reference where
  member : String
  target : String
  column : String
  deriving DecidableEq

structure Descriptor where
  model : String
  table : String
  primaryKey : String
  columns : List Column
  relations : List Relation
  references : List Reference
  deriving DecidableEq

namespace Descriptor

/-- The column of the given name, in whatever case it is spelled. -/
def column? (d : Descriptor) (name : String) : Option Column :=
  d.columns.find? fun c => Text.foldsTo c.name name

def columnOfMember? (d : Descriptor) (member : String) : Option Column :=
  d.columns.find? fun c => c.member == some member

/-- The column that identifies a row.  Every descriptor made from declarations flags one. -/
def keyColumn (d : Descriptor) : Column :=
  (d.columns.find? (·.isKey)).getD ⟨d.primaryKey, none, .i64, none, true⟩

def relation? (d : Descriptor) (member : String) : Option Relation :=
  d.relations.find? (·.member == member)

def reference? (d : Descriptor) (member : String) : Option Reference :=
  d.references.find? (·.member == member)

/-- The columns that hold keys of a table. -/
def columnsBoundTo (d : Descriptor) (table : String) : List Column :=
  d.columns.filter fun c => c.binding.any (·.table == table)

def valueColumns (d : Descriptor) : List Column :=
  d.columns.filter (!·.isKey)

/-- The column that a field is stored in: its own, or the foreign key of a reference. -/
def storage? (d : Descriptor) (member : String) : Option String :=
  match d.columnOfMember? member with
  | some c => some c.name
  | none => (d.reference? member).map (·.column)

/-! ## Where fields are stored -/

variable {d : Descriptor} {member : String}

theorem columnOfMember?_eq_none_iff :
    d.columnOfMember? member = none ↔ ∀ c ∈ d.columns, c.member ≠ some member := by
  simp [columnOfMember?]

theorem columnOfMember?_eq_some_iff {c : Column} :
    d.columnOfMember? member = some c ↔ c.member = some member ∧
      ∃ before after, d.columns = before ++ c :: after ∧
        ∀ other ∈ before, other.member ≠ some member := by
  simp [columnOfMember?, List.find?_eq_some_iff_append]

theorem reference?_eq_some_iff {r : Reference} :
    d.reference? member = some r ↔ r.member = member ∧
      ∃ before after, d.references = before ++ r :: after ∧
        ∀ other ∈ before, other.member ≠ member := by
  simp [reference?, List.find?_eq_some_iff_append]

/-- A field is stored in the first column that is loaded into it.  Where no column is, the first
reference of its name says where. -/
theorem storage?_eq_some_iff {name : String} :
    d.storage? member = some name ↔
      (∃ c before after, d.columns = before ++ c :: after ∧ c.member = some member ∧
        (∀ other ∈ before, other.member ≠ some member) ∧ c.name = name) ∨
      (∀ c ∈ d.columns, c.member ≠ some member) ∧
        ∃ r before after, d.references = before ++ r :: after ∧ r.member = member ∧
          (∀ other ∈ before, other.member ≠ member) ∧ r.column = name := by
  rw [storage?]
  cases hcolumn : d.columnOfMember? member with
  | none =>
    have hnone := columnOfMember?_eq_none_iff.mp hcolumn
    rw [Option.map_eq_some_iff]
    constructor
    · rintro ⟨r, hr, rfl⟩
      obtain ⟨hmember, before, after, hreferences, hfirst⟩ := reference?_eq_some_iff.mp hr
      exact Or.inr ⟨hnone, r, before, after, hreferences, hmember, hfirst, rfl⟩
    · rintro (⟨c, before, after, hcolumns, hmember, -⟩ | ⟨-, r, before, after, hreferences,
        hmember, hfirst, rfl⟩)
      · exact absurd hmember (hnone c (hcolumns ▸ List.mem_append_right before List.mem_cons_self))
      · exact ⟨r, reference?_eq_some_iff.mpr ⟨hmember, before, after, hreferences, hfirst⟩, rfl⟩
  | some c =>
    obtain ⟨hmember, before, after, hcolumns, hfirst⟩ := columnOfMember?_eq_some_iff.mp hcolumn
    constructor
    · intro h
      cases h
      exact Or.inl ⟨c, before, after, hcolumns, hmember, hfirst, rfl⟩
    · rintro (⟨c', before', after', hcolumns', hmember', hfirst', rfl⟩ | ⟨hnone, -⟩)
      · have hcolumn' := columnOfMember?_eq_some_iff.mpr
          ⟨hmember', before', after', hcolumns', hfirst'⟩
        rw [Option.some.inj (hcolumn.symm.trans hcolumn')]
      · exact absurd hmember (hnone c (hcolumns ▸ List.mem_append_right before List.mem_cons_self))

/-- The column that a field is stored in is one that is loaded into it, or that of a reference of
its name. -/
theorem exists_of_storage? {name : String} (h : d.storage? member = some name) :
    (∃ c ∈ d.columns, c.member = some member ∧ c.name = name) ∨
      ∃ r ∈ d.references, r.member = member ∧ r.column = name := by
  rcases storage?_eq_some_iff.mp h with ⟨c, before, after, hcolumns, hmember, -, hname⟩ |
    ⟨-, r, before, after, hreferences, hmember, -, hname⟩
  · exact Or.inl ⟨c, hcolumns ▸ List.mem_append_right before List.mem_cons_self, hmember, hname⟩
  · exact Or.inr
      ⟨r, hreferences ▸ List.mem_append_right before List.mem_cons_self, hmember, hname⟩

theorem storage?_eq_none_iff :
    d.storage? member = none ↔ (∀ c ∈ d.columns, c.member ≠ some member) ∧
      ∀ r ∈ d.references, r.member ≠ member := by
  rw [storage?, ← columnOfMember?_eq_none_iff]
  cases d.columnOfMember? member with
  | none => simp [reference?]
  | some c => simp

end Descriptor
end RowGraph
