import Mathlib
import RowGraph.Proofs.Schema.Bindings
import RowGraph.Proofs.Schema.History
import RowGraph.Proofs.Schema.Members

/-!
Inferred foreign keys, seen from both ends.

A collection that names no foreign key goes by the reference that its target has back to the owner.
The owner's descriptor works out the column from the declaration of the target, and the target's
descriptor gives the reference a column of its own accord.  The two are made apart, at any time and
in any order, and agree.
-/

namespace RowGraph

namespace Catalogue

variable {c : Catalogue} {registered : List String} {owner target : String} {a b : Descriptor}

/-- The only reference back at an owner is one of the target's descriptor, under its own name and
with the column it is stored in. -/
theorem reference?_of_back (h : c.resolve registered target = .ok b)
    (distinct : ((c.decl target).fields.map (·.name)).Nodup) {g : FieldDecl}
    (hback : (c.decl target).fields.filter (·.pointsAt owner) = [g]) :
    ∃ column, g.columnName? = some column ∧ b.reference? g.name = some ⟨g.name, owner, column⟩ ∧
      ∃ k ∈ b.columns, k.name = column ∧ k.binding.isSome = true := by
  obtain ⟨hfield, hpoints⟩ := FieldDecl.mem_of_only_pointsAt hback
  obtain ⟨column, hcolumn, hown⟩ := FieldDecl.exists_columnName?_of_pointsAt hpoints
  have href := reference?_of_ownReference? h distinct hfield hown
  have hmem : (⟨g.name, owner, column⟩ : Reference) ∈ b.references :=
    List.mem_of_find?_eq_some href
  exact ⟨column, hcolumn, href, exists_bound_of_reference h hmem⟩

end Catalogue

namespace Registry

variable {c : Catalogue} {r : Registry} {owner target : String} {a b : Descriptor}

/-- A collection without a foreign key of its own has an inverse and a foreign key exactly if its
target declares one reference back at the owner: then the inverse is the reference, the target's
descriptor has it with the same column, and this column refers to something.  It has neither
exactly if the target declares no reference back. -/
theorem Reached.inverse_iff (hr : Reached c r) (ha : (r.describe owner).1 = .ok a)
    (hb : (r.describe target).1 = .ok b)
    (ownerNames : ((c.decl owner).fields.map (·.name)).Nodup)
    (targetNames : ((c.decl target).fields.map (·.name)).Nodup) {f : FieldDecl}
    (hf : f ∈ (c.decl owner).fields) {key : Option String}
    (hkind : f.kind = .hasMany target none key) :
    ∃ relation, a.relation? f.name = some relation ∧ relation.target = target ∧
      (∀ inverse column, relation.inverse = some inverse ∧ relation.foreignKey = some column ↔
        (∃ g, (c.decl target).fields.filter (·.pointsAt owner) = [g] ∧ g.name = inverse) ∧
        b.reference? inverse = some ⟨inverse, owner, column⟩ ∧
        ∃ k ∈ b.columns, k.name = column ∧ k.binding.isSome = true) ∧
      (relation.inverse = none ∧ relation.foreignKey = none ↔
        ∀ g ∈ (c.decl target).fields, g.pointsAt owner = false) := by
  rw [fst_describe] at ha hb
  obtain ⟨rfl, ownerModels, howner⟩ := hr.sound.descriptor ha
  obtain ⟨rfl, targetModels, htarget⟩ := hr.sound.descriptor hb
  have hcollection : f.isCollection = true := by rw [FieldDecl.isCollection, hkind]
  obtain ⟨relation, hrelation, hcollects⟩ :=
    relation?_of_isCollection howner ownerNames hf hcollection
  obtain ⟨foreignKey, key', hkind', -, -, hforeign⟩ := hcollects
  rw [hkind, FieldKind.hasMany.injEq] at hkind'
  obtain ⟨hsame, rfl, -⟩ := hkind'
  rw [← hsame] at hforeign
  refine ⟨relation, hrelation, hsame.symm, ?_⟩
  have hnobody : (c.decl b.model).fields.filter (·.pointsAt a.model) = [] ↔
      ∀ g ∈ (c.decl b.model).fields, g.pointsAt a.model = false := by
    rw [List.filter_eq_nil_iff]
    simp only [Bool.not_eq_true]
  rcases Catalogue.inferForeignKey_eq_ok hforeign with
    ⟨hback, hcolumn, hinverse⟩ | ⟨g, hback, hcolumn, hinverse⟩
  · rw [hcolumn, hinverse, ← hnobody, hback]
    refine ⟨fun inverse column => ⟨?_, ?_⟩, by simp⟩
    · rintro ⟨h, -⟩
      cases h
    · rintro ⟨⟨g, h, -⟩, -⟩
      cases h
  · obtain ⟨column, hname, href, hbound⟩ := Catalogue.reference?_of_back htarget targetNames hback
    rw [hcolumn, hinverse, hname, ← hnobody, hback]
    refine ⟨fun inverse other => ⟨?_, ?_⟩, by simp⟩
    · rintro ⟨h, h'⟩
      cases h
      cases h'
      exact ⟨⟨g, rfl, rfl⟩, href, hbound⟩
    · rintro ⟨⟨g', h, rfl⟩, href', -⟩
      cases h
      rw [href, Option.some.injEq, Reference.mk.injEq] at href'
      exact ⟨rfl, congrArg some href'.2.2⟩

/-! ### An owner with a reference back -/

/-- Characters keep their player's key in a column that has a field of its own. -/
def party : Catalogue where
  models := [
    ⟨"Player", "Players", "id", [⟨"id", .column .i64 (some "id") none, false⟩,
      ⟨"characters", .hasMany "Character" none none, false⟩]⟩,
    ⟨"Character", "Characters", "id", [⟨"id", .column .i64 (some "id") none, false⟩,
      ⟨"owner", .belongsTo "Player" (some "player_key"), false⟩,
      ⟨"playerKey", .column .i64 (some "player_key") none, false⟩]⟩]

def partyPlayer : Descriptor where
  model := "Player"
  table := "Players"
  primaryKey := "id"
  columns := [⟨"id", some "id", .i64, none, true⟩]
  relations := [⟨"characters", "Character", some "owner", some "player_key", "id"⟩]
  references := []

def partyCharacter : Descriptor where
  model := "Character"
  table := "Characters"
  primaryKey := "id"
  columns := [⟨"id", some "id", .i64, none, true⟩,
    ⟨"player_key", some "playerKey", .i64, some ⟨"Player", "Players", "id"⟩, false⟩]
  relations := []
  references := [⟨"owner", "Player", "player_key"⟩]

theorem inverse_iff_party :
    ((ofCatalogue party).describe "Player").1 = .ok partyPlayer ∧
      ((ofCatalogue party).describe "Character").1 = .ok partyCharacter ∧
      ∃ relation, partyPlayer.relation? "characters" = some relation ∧
        relation.inverse = some "owner" ∧ relation.foreignKey = some "player_key" ∧
        ¬(relation.inverse = none ∧ relation.foreignKey = none) := by
  have hplayer : ((ofCatalogue party).describe "Player").1 = .ok partyPlayer := by cbv
  have hcharacter : ((ofCatalogue party).describe "Character").1 = .ok partyCharacter := by cbv
  obtain ⟨relation, hrelation, -, hboth, hneither⟩ := Reached.inverse_iff .fresh hplayer hcharacter
    (by decide) (by decide) (f := ⟨"characters", .hasMany "Character" none none, false⟩)
    (by decide) rfl
  obtain ⟨hinverse, hcolumn⟩ := (hboth "owner" "player_key").mpr
    ⟨⟨⟨"owner", .belongsTo "Player" (some "player_key"), false⟩, by decide, rfl⟩, by decide,
      by decide⟩
  refine ⟨hplayer, hcharacter, relation, hrelation, hinverse, hcolumn, ?_⟩
  rw [hneither]
  decide

end Registry
end RowGraph
