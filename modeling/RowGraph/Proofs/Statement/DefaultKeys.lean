import RowGraph.Proofs.Schema.Bindings
import RowGraph.Proofs.Schema.History
import RowGraph.Proofs.Schema.Relations
import RowGraph.Proofs.Statement.Link

/-!
The keys that a link without a condition compares.

The owner's side of the comparison is the key that the collection declares, by default the primary
key.  What the foreign key holds is said on the other side, by the column: the primary key where a
field of the related model is stored there, and otherwise the key of the first collection of the
owner that asks for the column.  Neither side looks at the other, so the link compares the foreign
key with the key it holds exactly if the two declarations name one key.
-/

namespace RowGraph

namespace Catalogue

variable {c : Catalogue} {ownerModels relatedModels : List String} {owner related : Descriptor}

/-- The key that a column holds, when it refers to the owner. -/
theorem key_cases (howner : c.resolve ownerModels owner.model = .ok owner)
    (hrelated : c.resolve relatedModels related.model = .ok related) {column : Column}
    (hcolumn : column ∈ related.columns) {b : Binding} (hb : column.binding = some b)
    (hmodel : b.model = owner.model) :
    ((∃ g ∈ (c.decl related.model).fields, g.columnName? = some column.name) ∧
        b.key = owner.primaryKey) ∨
      (∀ g ∈ (c.decl related.model).fields, g.columnName? ≠ some column.name) ∧
        ∃ before g after key, (c.decl owner.model).fields = before ++ g :: after ∧
          (∀ f ∈ before, ∀ key, f.kind ≠ .hasMany related.model (some column.name) key) ∧
          g.kind = .hasMany related.model (some column.name) key ∧
          b.key = key.getD owner.primaryKey := by
  obtain ⟨-, -, ⟨ty, hprimary⟩, -⟩ := resolve_eq_ok howner
  rcases bound_cases hrelated hcolumn with ⟨hstored, hbound⟩ | ⟨hfree, hasked⟩
  · refine Or.inl ⟨hstored, ?_⟩
    obtain ⟨key, ty', hkey, hbinding⟩ := bindingTo_eq_ok.mp (hbound b hb)
    rw [hmodel, hprimary] at hkey
    cases hkey
    rw [hbinding]
  · refine Or.inr ⟨hfree, ?_⟩
    obtain ⟨asking, hasking, hasked⟩ := List.exists_of_findSome?_eq_some hasked
    obtain ⟨known, -, rfl⟩ := List.mem_map.mp hasking
    obtain ⟨ownerKey, ty', before, g, after, key, hkey, hfields, hbefore, hkind, heq⟩ :=
      ModelDecl.askedColumn?_eq_some.mp hasked
    have hbinding := congrArg Column.binding heq
    rw [hb] at hbinding
    cases hbinding
    have hknown : known = owner.model := (model_decl c known).symm.trans hmodel
    subst hknown
    rw [hprimary] at hkey
    cases hkey
    exact ⟨before, g, after, key, hfields, hbefore, hkind, rfl⟩

end Catalogue

namespace Link

variable {c : Catalogue} {registry : Registry} {ps : Parameters} {left member right : String}
  {l : Link}

/-- Where a collection leaves the foreign key open, the key that is found is a column of the related
model, and the column refers to something. -/
theorem exists_bound_of_foreignKeyOf {owner related : Descriptor} {relatedModels : List String}
    (hrelated : c.resolve relatedModels related.model = .ok related) {relation : Relation}
    {name : String}
    (hinfer : c.inferForeignKey owner.model member related.model =
      .ok (relation.foreignKey, relation.inverse))
    (h : foreignKeyOf owner related relation = .ok name) :
    ∃ column ∈ related.columns, column.name = name ∧ column.binding.isSome = true := by
  rw [foreignKeyOf] at h
  rcases Catalogue.inferForeignKey_eq_ok hinfer with ⟨-, hopen, -⟩ | ⟨g, hback, hcolumn, -⟩
  · rw [hopen] at h
    obtain ⟨column, hcolumn, hname, hbound⟩ := boundColumn_eq_ok h
    refine ⟨column, hcolumn, hname, ?_⟩
    cases hbinding : column.binding with
    | none =>
      rw [hbinding] at hbound
      cases hbound
    | some b => rfl
  · obtain ⟨hfield, hpoints⟩ := FieldDecl.mem_of_only_pointsAt hback
    obtain ⟨stored, hstored, hown⟩ := FieldDecl.exists_columnName?_of_pointsAt hpoints
    rw [hcolumn, hstored] at h
    cases h
    have href : (⟨g.name, owner.model, name⟩ : Reference) ∈ related.references := by
      rw [Catalogue.references_resolve hrelated]
      exact List.mem_filterMap.mpr ⟨g, hfield, hown⟩
    exact Catalogue.exists_bound_of_reference hrelated href

/-- A link without a condition compares the foreign key with the key that its collection declares.
The foreign key is the declared one too, or else a column that refers to something.  A column of its
name that refers to the owner holds the key that it is compared with exactly if the collection
declares no other than the primary key, where a field is stored in the column, and otherwise exactly
if the first collection of the owner that asks for the column declares the same key. -/
theorem key_eq_iff_of_build (described : ∀ entry ∈ ps.entries, c.Describes entry.2)
    (h : build registry ps left member right none = .ok l) :
    ∃ owner related f foreignKey key, ps.find? left = some owner ∧ ps.find? right = some related ∧
      f ∈ (c.decl owner.model).fields ∧ f.name = member ∧
      f.kind = .hasMany related.model foreignKey key ∧ l.condition = l.predicate ∧
      l.primaryKey = key.getD owner.primaryKey ∧
      (∀ name, foreignKey = some name → l.foreignKey = name) ∧
      (foreignKey = none →
        ∃ column ∈ related.columns, column.name = l.foreignKey ∧ column.binding.isSome = true) ∧
      ∀ column ∈ related.columns, Text.fold column.name = Text.fold l.foreignKey →
        ∀ b, column.binding = some b → b.model = owner.model →
          ((∃ g ∈ (c.decl related.model).fields, g.columnName? = some column.name) ∧
              (b.key = l.primaryKey ↔ ∀ declared, key = some declared →
                declared = owner.primaryKey)) ∨
            (∀ g ∈ (c.decl related.model).fields, g.columnName? ≠ some column.name) ∧
              ∃ before g after asked, (c.decl owner.model).fields = before ++ g :: after ∧
                (∀ f ∈ before, ∀ key, f.kind ≠ .hasMany related.model (some column.name) key) ∧
                g.kind = .hasMany related.model (some column.name) asked ∧
                (b.key = l.primaryKey ↔
                  asked.getD owner.primaryKey = key.getD owner.primaryKey) := by
  obtain ⟨rfl, rfl, rfl, owner, related, relation, hleft, hright, hrelation, htarget, horigin⟩ :=
    build_cases h
  rcases horigin with ⟨e, he, -⟩ | ⟨-, hcondition, hprimary, hforeign⟩
  · cases he
  obtain ⟨ownerModels, howner⟩ := described _ (Keyed.mem_of_find? hleft)
  obtain ⟨relatedModels, hrelated⟩ := described _ (Keyed.mem_of_find? hright)
  obtain ⟨f, hf, foreignKey, key, hkind, hname, hkey, hinferred⟩ :=
    exists_mem_left_of_forall₂ (Catalogue.relations_resolve howner) (List.mem_of_find?_eq_some hrelation)
  have hmember : relation.member = l.member := by simpa using List.find?_some hrelation
  rw [htarget] at hkind hinferred
  refine ⟨owner, related, f, foreignKey, key, hleft, hright, (List.mem_filter.mp hf).1,
    hname.symm.trans hmember, hkind, hcondition, hprimary.trans hkey, ?_, ?_, ?_⟩
  · rintro name rfl
    rw [foreignKeyOf, hinferred.1] at hforeign
    exact (Except.ok.inj hforeign).symm
  · rintro rfl
    exact exists_bound_of_foreignKeyOf hrelated hinferred hforeign
  intro column hcolumn _ b hb hmodel
  rcases Catalogue.key_cases howner hrelated hcolumn hb hmodel with
    ⟨hstored, hheld⟩ | ⟨hfree, before, g, after, asked, hfields, hbefore, hg, hheld⟩
  · refine Or.inl ⟨hstored, ?_⟩
    rw [hheld, hprimary, hkey]
    cases key with
    | none => simp
    | some declared => simp [eq_comm]
  · refine Or.inr ⟨hfree, before, g, after, asked, hfields, hbefore, hg, ?_⟩
    rw [hheld, hprimary, hkey]

/-! ### A key that the foreign key does not hold -/

/-- Players find their characters by number, but characters know their player by its id. -/
def numbered : Catalogue where
  models := [
    ⟨"Player", "Players", "id", [⟨"id", .column .i64 (some "id") none, false⟩,
      ⟨"number", .column .i64 (some "number") none, false⟩,
      ⟨"characters", .hasMany "Character" none (some "number"), false⟩]⟩,
    ⟨"Character", "Characters", "id", [⟨"id", .column .i64 (some "id") none, false⟩,
      ⟨"player", .belongsTo "Player" (some "player_id"), false⟩]⟩]

def numberedPlayer : Descriptor where
  model := "Player"
  table := "Players"
  primaryKey := "id"
  columns := [⟨"id", some "id", .i64, none, true⟩, ⟨"number", some "number", .i64, none, false⟩]
  relations := [⟨"characters", "Character", some "player", some "player_id", "number"⟩]
  references := []

def playerColumn : Column :=
  ⟨"player_id", none, .i64, some ⟨"Player", "Players", "id"⟩, false⟩

def numberedCharacter : Descriptor where
  model := "Character"
  table := "Characters"
  primaryKey := "id"
  columns := [⟨"id", some "id", .i64, none, true⟩, playerColumn]
  relations := []
  references := [⟨"player", "Player", "player_id"⟩]

def numberedParameters : Parameters where
  entries := [("x", numberedPlayer), ("x1", numberedCharacter)]
  default := some "x"

def charactersOfPlayer : Link where
  left := "x"
  right := "x1"
  member := "characters"
  target := "Character"
  foreignKey := "player_id"
  primaryKey := "number"
  condition := .eq (.member "x" "number") (.member "x1" "player_id")

theorem describes_numberedParameters :
    ∀ entry ∈ numberedParameters.entries, numbered.Describes entry.2 := by
  have hplayer : numbered.resolve [] "Player" = .ok numberedPlayer := by cbv
  have hcharacter : numbered.resolve [] "Character" = .ok numberedCharacter := by cbv
  rw [numberedParameters, List.forall_mem_cons, List.forall_mem_singleton]
  exact ⟨⟨[], hplayer⟩, ⟨[], hcharacter⟩⟩

theorem build_numberedParameters :
    build (.ofCatalogue numbered) numberedParameters "x" "characters" "x1" none =
      .ok charactersOfPlayer := by cbv

theorem not_all_keys_held :
    ¬∀ c registry ps left member right l, (∀ entry ∈ ps.entries, Catalogue.Describes c entry.2) →
      build registry ps left member right none = .ok l →
      ∀ owner related, ps.find? left = some owner → ps.find? right = some related →
        ∀ column ∈ related.columns, column.name = l.foreignKey →
          ∀ b, column.binding = some b → b.model = owner.model → b.key = l.primaryKey := by
  intro h
  have hkey := h numbered (.ofCatalogue numbered) numberedParameters "x" "characters" "x1"
    charactersOfPlayer describes_numberedParameters build_numberedParameters numberedPlayer
    numberedCharacter rfl rfl playerColumn (by decide) rfl _ rfl rfl
  exact absurd hkey (by decide)

theorem key_eq_iff_of_build_numbered :
    (∀ entry ∈ numberedParameters.entries, numbered.Describes entry.2) ∧
      build (.ofCatalogue numbered) numberedParameters "x" "characters" "x1" none =
        .ok charactersOfPlayer ∧
      ∃ f ∈ (numbered.decl "Player").fields, f.name = "characters" ∧
        ∃ foreignKey declared, f.kind = .hasMany "Character" foreignKey (some declared) ∧
          declared ≠ "id" := by
  refine ⟨describes_numberedParameters, build_numberedParameters, ?_⟩
  obtain ⟨owner, related, f, foreignKey, key, howner, hrelated, hf, hname, hkind, -, -, -, -,
    hheld⟩ := key_eq_iff_of_build describes_numberedParameters build_numberedParameters
  cases howner
  cases hrelated
  refine ⟨f, hf, hname, foreignKey, ?_⟩
  rcases hheld playerColumn (by decide) rfl _ rfl rfl with ⟨-, hiff⟩ | ⟨hfree, -⟩
  · have hdiffers := mt hiff.mpr (by decide)
    push Not at hdiffers
    obtain ⟨declared, rfl, hdeclared⟩ := hdiffers
    exact ⟨declared, hkind, hdeclared⟩
  · exact absurd rfl (hfree ⟨"player", .belongsTo "Player" (some "player_id"), false⟩ (by decide))

end Link
end RowGraph
