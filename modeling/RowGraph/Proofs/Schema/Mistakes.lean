import Mathlib
import RowGraph.Proofs.Schema.Bindings
import RowGraph.Proofs.Schema.Failures
import RowGraph.Proofs.Schema.History
import RowGraph.Proofs.Schema.Relations

/-!
Mistakes in declarations.

Of a model and the models that its fields name, the declarations can be mistaken in four ways: the
model has no key, two of its column fields share a column, a field is to hold the key of a model
that has none, or a collection leaves open by which of several references it is found.  A model is
described exactly if there is no such mistake, whatever models are registered, and what it is then
described by has one key column, columns of different names, and a bound column for each reference.
-/

namespace RowGraph

/-! ## What can be mistaken -/

namespace FieldDecl

def isColumn (f : FieldDecl) : Bool :=
  match f.kind with
  | .column _ _ _ => true
  | _ => false

/-- The model whose key is held in the column of the field. -/
def heldModel? (f : FieldDecl) : Option String :=
  match f.kind with
  | .column _ _ references => references
  | .belongsTo target _ => some target
  | .hasMany _ _ _ => none

/-- The fields are column fields that are stored in the same column. -/
def SharesColumn (f g : FieldDecl) : Prop :=
  f.isColumn = true ∧ g.isColumn = true ∧ f.columnName? = g.columnName?

theorem ownColumn?_of_isColumn {f : FieldDecl} (h : f.isColumn = true) (primaryKey : String) :
    ∃ own, f.ownColumn? primaryKey = some own ∧ f.columnName? = some own.name := by
  rw [isColumn] at h
  rw [ownColumn?, columnName?]
  cases hkind : f.kind with
  | column ty column references => exact ⟨_, rfl, rfl⟩
  | hasMany target foreignKey key => simp [hkind] at h
  | belongsTo target column => simp [hkind] at h

theorem of_ownColumn? {f : FieldDecl} {primaryKey : String} {own : Column}
    (h : f.ownColumn? primaryKey = some own) :
    f.isColumn = true ∧ f.columnName? = some own.name := by
  rw [ownColumn?.eq_def] at h
  rw [isColumn, columnName?]
  split at h
  next hkind =>
    cases h
    simp [hkind]
  next => cases h

theorem sharesColumn_iff {f g : FieldDecl} (primaryKey : String) :
    f.SharesColumn g ↔ ∃ own other, f.ownColumn? primaryKey = some own ∧
      g.ownColumn? primaryKey = some other ∧ own.name = other.name := by
  constructor
  · rintro ⟨hf, hg, hname⟩
    obtain ⟨own, hown, hfname⟩ := ownColumn?_of_isColumn hf primaryKey
    obtain ⟨other, hother, hgname⟩ := ownColumn?_of_isColumn hg primaryKey
    exact ⟨own, other, hown, hother, Option.some.inj (hfname.symm.trans (hname.trans hgname))⟩
  · rintro ⟨own, other, hown, hother, hname⟩
    obtain ⟨hf, hfname⟩ := of_ownColumn? hown
    obtain ⟨hg, hgname⟩ := of_ownColumn? hother
    exact ⟨hf, hg, by rw [hfname, hgname, hname]⟩

end FieldDecl

/-- No field has the name of the primary key, or the first one that has it is not a column. -/
def ModelDecl.Keyless (d : ModelDecl) : Prop :=
  ∀ f, d.field? d.primaryKey = some f → f.isColumn = false

theorem ModelDecl.keyColumn?_eq_none_iff {d : ModelDecl} : d.keyColumn? = none ↔ d.Keyless := by
  rw [keyColumn?, Keyless]
  cases d.field? d.primaryKey with
  | none => simp
  | some f =>
    obtain ⟨name, kind, strict⟩ := f
    cases kind <;> simp [FieldDecl.isColumn]

namespace Catalogue

/-- What can be wrong with the declarations that a description of the model goes by. -/
inductive Mistaken (c : Catalogue) (model : String) : Prop
  | keyless (h : (c.decl model).Keyless)
  | shared {f g : FieldDecl} (fields : List.Sublist [f, g] (c.decl model).fields)
      (h : f.SharesColumn g)
  | held {f : FieldDecl} {target : String} (field : f ∈ (c.decl model).fields)
      (h : f.heldModel? = some target) (keyless : (c.decl target).Keyless)
  | ambiguous {f : FieldDecl} {target : String} {key : Option String}
      (field : f ∈ (c.decl model).fields) (h : f.kind = .hasMany target none key)
      (several : 2 ≤ (c.decl target).fields.countP (·.pointsAt model))

end Catalogue

/-- The descriptor is such as the declarations of the model ask for. -/
structure Descriptor.WellFormed (c : Catalogue) (model : String) (d : Descriptor) : Prop where
  key : d.columns.filter (·.isKey) = [d.keyColumn]
  keyName : d.keyColumn.name = d.primaryKey
  names : (d.columns.map Column.name).Nodup
  references : ∀ f ∈ (c.decl model).fields, ∀ target column, f.kind = .belongsTo target column →
    ∃ r ∈ d.references, r.member = f.name ∧ r.target = target ∧ f.columnName? = some r.column ∧
      ∃ column ∈ d.columns, column.name = r.column ∧ column.binding.isSome = true
  relations : List.Forall₂ (c.Collects model d.primaryKey)
    ((c.decl model).fields.filter (·.isCollection)) d.relations
  model : d.model = model

namespace Catalogue

open Outcome

variable {c : Catalogue}

/-! ## Where a description fails -/

theorem fails_keyOf_iff {target : String} : Fails (c.keyOf target) ↔ (c.decl target).Keyless := by
  rw [← ModelDecl.keyColumn?_eq_none_iff, keyOf]
  cases (c.decl target).keyColumn? with
  | none => exact iff_of_true (fails_error _) rfl
  | some key => exact iff_of_false (not_fails_ok _) (by simp)

theorem fails_bindingOf?_iff {references : Option String} : Fails (c.bindingOf? references) ↔
    ∃ target, references = some target ∧ (c.decl target).Keyless := by
  cases references with
  | none => exact iff_of_false (not_fails_ok none) (by simp)
  | some target =>
    have hkey : Fails (c.keyOf target) ↔ (c.decl target).Keyless := fails_keyOf_iff
    rw [bindingOf?, bindingTo]
    cases hfound : c.keyOf target with
    | error e =>
      rw [hfound] at hkey
      exact iff_of_true (fails_error e) ⟨target, rfl, hkey.mp (fails_error e)⟩
    | ok found =>
      rw [hfound] at hkey
      refine iff_of_false (not_fails_ok _) ?_
      rintro ⟨target', ⟨⟩, hkeyless⟩
      exact not_fails_ok found (hkey.mpr hkeyless)

/-- A column field is refused for its name, or for the model whose key it is to hold. -/
theorem fails_addField_iff {model primaryKey : String} {columns : List Column} {f : FieldDecl} :
    Fails (c.addField model primaryKey columns f) ↔ ∃ own, f.ownColumn? primaryKey = some own ∧
      (own.name ∈ columns.map Column.name ∨
        ∃ target, f.heldModel? = some target ∧ (c.decl target).Keyless) := by
  rw [addField.eq_def, FieldDecl.ownColumn?.eq_def, FieldDecl.heldModel?.eq_def]
  cases f.kind with
  | hasMany target foreignKey key => exact iff_of_false (not_fails_ok columns) (by simp)
  | belongsTo target column => exact iff_of_false (not_fails_ok columns) (by simp)
  | column ty column references =>
    simp only [Option.some.injEq, exists_eq_left']
    have hany : columns.any (·.name == column.getD (Text.snakeCase f.name)) = true ↔
        column.getD (Text.snakeCase f.name) ∈ columns.map Column.name := by
      rw [List.any_eq_true, List.mem_map]
      simp only [beq_iff_eq]
    split
    next hshared => exact iff_of_true (fails_error _) (Or.inl (hany.mp hshared))
    next hnew =>
      rw [or_iff_right (mt hany.mpr hnew), ← fails_bindingOf?_iff]
      exact fails_bind_iff_left fun binding => not_fails_ok _

/-- The column fields of a model are refused if two of them share a column, or if one is to hold the
key of a model that has none. -/
theorem fails_fieldColumns_iff {decl : ModelDecl} {primaryKey : String} :
    Fails (c.fieldColumns decl primaryKey) ↔
      (∃ f g, List.Sublist [f, g] decl.fields ∧ f.SharesColumn g) ∨
      ∃ f ∈ decl.fields, f.isColumn = true ∧
        ∃ target, f.heldModel? = some target ∧ (c.decl target).Keyless := by
  rw [fieldColumns, fails_foldlM_iff
    (P := fun done columns =>
      columns.map Column.unbound = done.filterMap (FieldDecl.ownColumn? primaryKey))
    (Q := fun done g => ∃ own, g.ownColumn? primaryKey = some own ∧
      ((∃ f ∈ done, f.SharesColumn g) ∨
        ∃ target, g.heldModel? = some target ∧ (c.decl target).Keyless)) decl.fields rfl]
  · constructor
    · rintro ⟨done, g, rest, hfields, own, hown, ⟨f, hf, hshares⟩ | hheld⟩
      · refine Or.inl ⟨f, g, ?_, hshares⟩
        rw [hfields, List.cons_sublist_iff]
        exact ⟨done, g :: rest, rfl, hf, by simp⟩
      · exact Or.inr ⟨g, hfields ▸ List.mem_append_right done List.mem_cons_self,
          (FieldDecl.of_ownColumn? hown).1, hheld⟩
    · rintro (⟨f, g, hsublist, hshares⟩ | ⟨g, hg, hcolumn, hheld⟩)
      · rw [List.cons_sublist_iff] at hsublist
        obtain ⟨before, after, hfields, hf, hg⟩ := hsublist
        obtain ⟨between, rest, rfl⟩ := List.append_of_mem (List.singleton_sublist.mp hg)
        obtain ⟨own, hown, -⟩ := FieldDecl.ownColumn?_of_isColumn hshares.2.1 primaryKey
        exact ⟨before ++ between, g, rest, by rw [hfields, List.append_assoc], own, hown,
          Or.inl ⟨f, List.mem_append_left between hf, hshares⟩⟩
      · obtain ⟨done, rest, hfields⟩ := List.append_of_mem hg
        obtain ⟨own, hown, -⟩ := FieldDecl.ownColumn?_of_isColumn hcolumn primaryKey
        exact ⟨done, g, rest, hfields, own, hown, Or.inr hheld⟩
  · intro done columns g hcolumns
    rw [fails_addField_iff]
    refine exists_congr fun own => and_congr_right fun hown => or_congr_left ?_
    -- The names met so far are those of the column fields met so far.
    rw [← map_name_unbound, hcolumns, List.map_filterMap, List.mem_filterMap]
    refine exists_congr fun f => and_congr_right fun _ => ?_
    rw [FieldDecl.sharesColumn_iff primaryKey, Option.map_eq_some_iff]
    constructor
    · rintro ⟨other, hother, hname⟩
      exact ⟨other, own, hother, hown, hname⟩
    · rintro ⟨other, own', hother, hown', hname⟩
      cases hown.symm.trans hown'
      exact ⟨other, hother, hname⟩
  · intro done g before after hbefore hstep
    rw [addField_eq_ok hstep, hbefore, List.filterMap_append, List.filterMap_cons,
      List.filterMap_nil]
    cases g.ownColumn? primaryKey <;> rfl

theorem fails_addReference_iff {found : List Column × List Reference} {f : FieldDecl} :
    Fails (c.addReference found f) ↔
      f.isColumn = false ∧ ∃ target, f.heldModel? = some target ∧ (c.decl target).Keyless := by
  rw [addReference.eq_def, FieldDecl.isColumn.eq_def, FieldDecl.heldModel?.eq_def]
  cases f.kind with
  | column ty column references => exact iff_of_false (not_fails_ok found) (by simp)
  | hasMany target foreignKey key => exact iff_of_false (not_fails_ok found) (by simp)
  | belongsTo target column =>
    refine (fails_bind_iff_left fun key => not_fails_ok _).trans (fails_keyOf_iff.trans ?_)
    simp

theorem fails_withReferences_iff {decl : ModelDecl} {declared : List Column} :
    Fails (c.withReferences decl declared) ↔ ∃ f ∈ decl.fields, f.isColumn = false ∧
      ∃ target, f.heldModel? = some target ∧ (c.decl target).Keyless :=
  fails_foldlM_iff_exists (f := c.addReference) (fun _ _ => fails_addReference_iff) decl.fields _

theorem length_backReferences (target : ModelDecl) (owner : String) :
    (backReferences target owner).length = target.fields.countP (·.pointsAt owner) := by
  rw [backReferences, List.length_filterMap_eq_countP]
  refine List.countP_congr fun f _ => ?_
  rw [FieldDecl.pointsAt.eq_def]
  cases f.kind with
  | column ty column references => simp
  | hasMany target foreignKey key => simp
  | belongsTo target column => simp

/-- A foreign key cannot be inferred where several references point back at the owner. -/
theorem fails_inferForeignKey_iff {owner member target : String} :
    Fails (c.inferForeignKey owner member target) ↔
      2 ≤ (c.decl target).fields.countP (·.pointsAt owner) := by
  rw [← length_backReferences, inferForeignKey]
  split
  next hnone => exact iff_of_false (not_fails_ok _) (by simp [hnone])
  next hone => exact iff_of_false (not_fails_ok _) (by simp [hone])
  next hnone hone =>
    refine iff_of_true (fails_error _) ?_
    cases hback : backReferences (c.decl target) owner with
    | nil => exact absurd hback hnone
    | cons first rest =>
      cases rest with
      | nil => exact absurd hback (hone first.1 first.2)
      | cons second rest => simp

theorem fails_addRelation_iff {owner primaryKey : String} {relations : List Relation}
    {f : FieldDecl} : Fails (c.addRelation owner primaryKey relations f) ↔
      ∃ target key, f.kind = .hasMany target none key ∧
        2 ≤ (c.decl target).fields.countP (·.pointsAt owner) := by
  rw [addRelation.eq_def]
  cases f.kind with
  | column ty column references => exact iff_of_false (not_fails_ok relations) (by simp)
  | belongsTo target column => exact iff_of_false (not_fails_ok relations) (by simp)
  | hasMany target foreignKey key =>
    cases foreignKey with
    | some column => exact iff_of_false (not_fails_ok _) (by simp)
    | none =>
      refine (fails_bind_iff_left fun found => not_fails_ok _).trans
        (fails_inferForeignKey_iff.trans ?_)
      simp

theorem fails_relationsOf_iff {decl : ModelDecl} {primaryKey : String} :
    Fails (c.relationsOf decl primaryKey) ↔ ∃ f ∈ decl.fields, ∃ target key,
      f.kind = .hasMany target none key ∧
        2 ≤ (c.decl target).fields.countP (·.pointsAt decl.model) :=
  fails_foldlM_iff_exists (f := c.addRelation decl.model primaryKey)
    (fun _ _ => fails_addRelation_iff) decl.fields _

/-- A model is not described exactly if there is a mistake.  Registrations do not matter. -/
theorem fails_resolve_iff {registered : List String} {model : String} :
    Fails (c.resolve registered model) ↔ c.Mistaken model := by
  rw [resolve.eq_def]
  dsimp only
  split
  next hkey =>
    exact iff_of_true (fails_error _) (.keyless (ModelDecl.keyColumn?_eq_none_iff.mp hkey))
  next primaryKey ty hkey =>
    have hkeyed : ¬(c.decl model).Keyless := by
      rw [← ModelDecl.keyColumn?_eq_none_iff, hkey]
      simp
    refine (fails_bind_iff fun declared _ => (fails_bind_iff fun found _ =>
      (fails_bind_iff_left fun relations => not_fails_ok _).trans fails_relationsOf_iff).trans
        (or_congr_left fails_withReferences_iff)).trans ?_
    rw [fails_fieldColumns_iff, model_decl]
    constructor
    · rintro ((⟨f, g, hfields, h⟩ | ⟨f, hf, -, target, h, hkeyless⟩) |
        ⟨f, hf, -, target, h, hkeyless⟩ | ⟨f, hf, target, key, h, hseveral⟩)
      · exact .shared hfields h
      · exact .held hf h hkeyless
      · exact .held hf h hkeyless
      · exact .ambiguous hf h hseveral
    · intro h
      cases h with
      | keyless h => exact absurd h hkeyed
      | @shared f g hfields h => exact Or.inl (Or.inl ⟨f, g, hfields, h⟩)
      | @held f target hf h hkeyless =>
        cases hcolumn : f.isColumn with
        | true => exact Or.inl (Or.inr ⟨f, hf, hcolumn, target, h, hkeyless⟩)
        | false => exact Or.inr (Or.inl ⟨f, hf, hcolumn, target, h, hkeyless⟩)
      | @ambiguous f target key hf h hseveral =>
        exact Or.inr (Or.inr ⟨f, hf, target, key, h, hseveral⟩)

/-! ## What a description without a mistake is like -/

section Resolved

variable {registered : List String} {model : String} {d : Descriptor}

/-- Exactly one column is flagged as the key. -/
theorem filter_isKey_resolve (h : c.resolve registered model = .ok d) :
    d.columns.filter (·.isKey) = [d.keyColumn] := by
  have hnames : ((d.columns.filter (·.isKey)).map Column.name).Nodup :=
    (nodup_names_resolve h).sublist (List.filter_sublist.map _)
  have hflagged : ∀ column ∈ d.columns.filter (·.isKey), column.name = d.primaryKey := by
    intro column hcolumn
    obtain ⟨hcolumn, hflag⟩ := List.mem_filter.mp hcolumn
    exact name_of_isKey h hcolumn hflag
  have hkey : d.keyColumn ∈ d.columns.filter (·.isKey) :=
    List.mem_filter.mpr ⟨Descriptor.keyColumn_mem (hasKey_resolve h), d.isKey_keyColumn⟩
  match hall : d.columns.filter (·.isKey) with
  | [] => simp [hall] at hkey
  | [column] =>
    rw [hall, List.mem_singleton] at hkey
    rw [hall, hkey]
  | a :: b :: rest =>
    have hsame : a.name = b.name :=
      (hflagged a (by simp [hall])).trans (hflagged b (by simp [hall])).symm
    simp [hall, hsame] at hnames

theorem wellFormed_resolve (h : c.resolve registered model = .ok d) : d.WellFormed c model := by
  refine ⟨filter_isKey_resolve h, ?_, nodup_names_resolve h, ?_, relations_resolve h,
    (resolve_eq_ok h).1⟩
  · exact name_of_isKey h (Descriptor.keyColumn_mem (hasKey_resolve h)) d.isKey_keyColumn
  · intro f hf target column hkind
    have hown : f.ownReference? =
        some ⟨f.name, target, column.getD (Text.foreignKeyName f.name)⟩ := by
      rw [FieldDecl.ownReference?, hkind]
    have hr : (⟨f.name, target, column.getD (Text.foreignKeyName f.name)⟩ : Reference) ∈
        d.references := by
      rw [references_resolve h]
      exact List.mem_filterMap.mpr ⟨f, hf, hown⟩
    refine ⟨_, hr, rfl, rfl, ?_, exists_bound_of_reference h hr⟩
    rw [FieldDecl.columnName?, hkind]

end Resolved
end Catalogue

namespace Registry

variable {c : Catalogue} {r : Registry} {model : String}

/-- A descriptor that was given out before does not hide a mistake. -/
theorem Reached.fails_descriptor_iff (hr : Reached c r) :
    Outcome.Fails (r.descriptor model) ↔ c.Mistaken model := by
  rw [Registry.descriptor]
  cases hfind : r.described.find? model with
  | none =>
    dsimp only
    rw [hr.sound.catalogue]
    exact Catalogue.fails_resolve_iff
  | some d =>
    obtain ⟨hmodel, registered, hresolve⟩ :=
      hr.sound.described (model, d) (Keyed.mem_of_find? hfind)
    have hmodel : d.model = model := hmodel
    have hresolve : c.resolve registered d.model = .ok d := hresolve
    rw [hmodel] at hresolve
    refine iff_of_false (Outcome.not_fails_ok d) fun hmistaken => ?_
    have hfails : Outcome.Fails (c.resolve registered model) :=
      Catalogue.fails_resolve_iff.mpr hmistaken
    rw [hresolve] at hfails
    exact Outcome.not_fails_ok d hfails

/-- In whatever state a registry is, a model is described exactly if its declarations are not
mistaken; otherwise the schema is said to be at fault.  The descriptor flags one column as the key,
which is the one of the name that it gives for it and the one found when the key is looked for; no
two columns have one name; each reference has its column, which refers to something; and the
collections are those of the collection fields, in order. -/
theorem Reached.describe_iff_not_mistaken (hr : Reached c r) (model : String) :
    (Outcome.Fails (r.describe model).1 ↔ c.Mistaken model) ∧
      Outcome.FailsWith Error.IsSchemaMistake (r.describe model).1 ∧
      ∀ d, (r.describe model).1 = .ok d →
        d.WellFormed c model ∧ d.columns.find? (·.isKey) = some d.keyColumn := by
  rw [fst_describe]
  refine ⟨hr.fails_descriptor_iff, failsWith_descriptor r model, fun d hd => ?_⟩
  obtain ⟨rfl, registered, hresolve⟩ := hr.sound.descriptor hd
  have hwell := Catalogue.wellFormed_resolve hresolve
  refine ⟨hwell, ?_⟩
  rw [← List.head?_filter, hwell.key, List.head?_cons]

/-! ### Games between two teams -/

/-- A team does not say whether its games are those at home or those away.  A game is in order. -/
def derby : Catalogue where
  models := [
    ⟨"Team", "Teams", "id", [⟨"id", .column .i64 (some "id") none, false⟩,
      ⟨"games", .hasMany "Game" none none, false⟩]⟩,
    ⟨"Game", "Games", "id", [⟨"id", .column .i64 (some "id") none, false⟩,
      ⟨"home", .belongsTo "Team" (some "home_id"), false⟩,
      ⟨"away", .belongsTo "Team" (some "away_id"), false⟩,
      ⟨"goals", .hasMany "Goal" none none, false⟩]⟩,
    ⟨"Goal", "Goals", "id", [⟨"id", .column .i64 (some "id") none, false⟩,
      ⟨"game", .belongsTo "Game" (some "game_id"), false⟩]⟩]

def game : Descriptor where
  model := "Game"
  table := "Games"
  primaryKey := "id"
  columns := [⟨"id", some "id", .i64, none, true⟩,
    ⟨"home_id", none, .i64, some ⟨"Team", "Teams", "id"⟩, false⟩,
    ⟨"away_id", none, .i64, some ⟨"Team", "Teams", "id"⟩, false⟩]
  relations := [⟨"goals", "Goal", some "game", some "game_id", "id"⟩]
  references := [⟨"home", "Team", "home_id"⟩, ⟨"away", "Team", "away_id"⟩]

theorem mistaken_team : derby.Mistaken "Team" :=
  .ambiguous (f := ⟨"games", .hasMany "Game" none none, false⟩) (by decide) rfl (by decide)

theorem describe_iff_not_mistaken_derby :
    Reached derby ((ofCatalogue derby).register "Goal") ∧
      Outcome.Fails (((ofCatalogue derby).register "Goal").describe "Team").1 ∧
      (((ofCatalogue derby).register "Goal").describe "Game").1 = .ok game ∧
      ¬derby.Mistaken "Game" ∧ game.WellFormed derby "Game" := by
  have hreached : Reached derby ((ofCatalogue derby).register "Goal") := .register "Goal" .fresh
  have hgame : (((ofCatalogue derby).register "Goal").describe "Game").1 = .ok game := by cbv
  obtain ⟨hfails, -, -⟩ := hreached.describe_iff_not_mistaken "Team"
  obtain ⟨hfails', -, hwell⟩ := hreached.describe_iff_not_mistaken "Game"
  refine ⟨hreached, hfails.mpr mistaken_team, hgame, fun hmistaken => ?_, (hwell game hgame).1⟩
  have hcontra := hfails'.mpr hmistaken
  rw [hgame] at hcontra
  exact Outcome.not_fails_ok game hcontra

end Registry
end RowGraph
