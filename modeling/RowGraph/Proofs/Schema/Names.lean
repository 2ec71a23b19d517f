import Mathlib
import RowGraph.Proofs.Schema.History

/-!
Whether the columns of a descriptor can be told apart.

Columns are looked up, rows are keyed and results are labelled by names without regard to case, but
a name is compared exactly when columns are collected.  So two columns never have one name, and they
are two to a database exactly if the declarations ask for no two names that differ in case alone.
-/

namespace RowGraph

namespace Descriptor

/-- Columns can be told apart exactly when a lookup finds each of them, however its name is
spelled. -/
theorem namesDistinct_iff_column? {d : Descriptor} (names : (d.columns.map Column.name).Nodup) :
    d.NamesDistinct ↔ ∀ column ∈ d.columns, ∀ name, Text.fold column.name = Text.fold name →
      d.column? name = some column := by
  constructor
  · intro h column hcolumn name hname
    exact column?_eq_some h hcolumn hname
  · intro h
    rw [NamesDistinct, List.nodup_map_iff_inj_on (List.Nodup.of_map _ names)]
    intro a ha b hb hab
    exact Option.some.inj ((h a ha a.name rfl).symm.trans (h b hb a.name hab.symm))

end Descriptor

namespace Catalogue

variable {c : Catalogue} {registered : List String} {model : String} {d : Descriptor}

/-- The declarations ask for no two names that differ in case alone. -/
theorem namesDistinct_iff_stores (h : c.resolve registered model = .ok d) :
    d.NamesDistinct ↔ ∀ a b, c.Stores registered model a → c.Stores registered model b →
      Text.fold a = Text.fold b → a = b := by
  have hfold : d.NamesDistinct ↔ ((d.columns.map Column.name).map Text.fold).Nodup := by
    rw [Descriptor.NamesDistinct, List.map_map]
    rfl
  rw [hfold, List.nodup_map_iff_inj_on (nodup_names_resolve h)]
  simp only [mem_names_resolve h]
  exact ⟨fun h a b ha hb => h a ha b hb, fun h a ha b hb => h a b ha hb⟩

end Catalogue

namespace Registry

variable {c : Catalogue} {r : Registry} {model : String} {d : Descriptor}

/-- No two columns of a descriptor have one name.  Every column is found by its name in any
spelling, so that no two of them fold alike, exactly if the fields of the model and the collections
known to it name no two columns that differ in case alone. -/
theorem Reached.namesDistinct_iff (hr : Reached c r) (h : (r.describe model).1 = .ok d) :
    ∃ registered, c.resolve registered model = .ok d ∧
      (d.columns.map Column.name).Nodup ∧
      (d.NamesDistinct ↔ ∀ a b, c.Stores registered model a → c.Stores registered model b →
        Text.fold a = Text.fold b → a = b) ∧
      (d.NamesDistinct ↔ ∀ column ∈ d.columns, ∀ name, Text.fold column.name = Text.fold name →
        d.column? name = some column) := by
  rw [fst_describe] at h
  obtain ⟨rfl, registered, hresolve⟩ := hr.sound.descriptor h
  have hnames := Catalogue.nodup_names_resolve hresolve
  exact ⟨registered, hresolve, hnames, Catalogue.namesDistinct_iff_stores hresolve,
    Descriptor.namesDistinct_iff_column? hnames⟩

/-! ### Columns that differ in case alone -/

/-- Players have a name, and a label in a column that is spelled like that of the name. -/
def labels : Catalogue where
  models := [⟨"Player", "Players", "id", [⟨"id", .column .i64 (some "id") none, false⟩,
    ⟨"name", .column .string (some "name") none, false⟩,
    ⟨"label", .column .string (some "Name") none, false⟩]⟩]

def nameColumn : Column := ⟨"name", some "name", .string, none, false⟩

def labelColumn : Column := ⟨"Name", some "label", .string, none, false⟩

def labelled : Descriptor where
  model := "Player"
  table := "Players"
  primaryKey := "id"
  columns := [⟨"id", some "id", .i64, none, true⟩, nameColumn, labelColumn]
  relations := []
  references := []

theorem describe_labels : ((ofCatalogue labels).describe "Player").1 = .ok labelled := by cbv

theorem not_namesDistinct_labelled : ¬labelled.NamesDistinct := by
  intro h
  have hfold : Text.fold "name" = Text.fold "Name" := by cbv
  have hsame : nameColumn = labelColumn :=
    Descriptor.eq_of_fold_eq h (by decide) (by decide) hfold
  exact absurd hsame (by decide)

theorem not_all_namesDistinct :
    ¬∀ c r model d, Reached c r → (r.describe model).1 = .ok d → d.NamesDistinct := by
  intro h
  exact not_namesDistinct_labelled (h labels (ofCatalogue labels) "Player" labelled .fresh
    describe_labels)

theorem namesDistinct_iff_labelled :
    ((ofCatalogue labels).describe "Player").1 = .ok labelled ∧
      ¬∀ column ∈ labelled.columns, ∀ name, Text.fold column.name = Text.fold name →
        labelled.column? name = some column := by
  obtain ⟨registered, -, -, -, hlookup⟩ := Reached.namesDistinct_iff .fresh describe_labels
  exact ⟨describe_labels, mt hlookup.mpr not_namesDistinct_labelled⟩

end Registry
end RowGraph
