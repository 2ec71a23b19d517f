import RowGraph.Proofs.Keyed
import RowGraph.Proofs.Loop
import RowGraph.Proofs.Partial
import RowGraph.Proofs.Schema.Reachability
import RowGraph.Schema.Resolution

/-!
Declarations that a description looks up.

Before a model is described, the declarations are walked from the registered models and from the
model itself.  A turn of the walk takes a model that is pending, and only a model that is met for
the first time adds any, so the walk comes to an end, in a number of turns that the relations of the
models met give exactly.  The description then looks declarations up among those that were met.  It
may look up what its own fields lead to, which was met, so no lookup fails, and the description is
the one that the declarations of all models give.
-/

namespace RowGraph
namespace Catalogue

variable {c : Catalogue}

/-! ## The walk, turn by turn -/

/-- A discovery under way: the models met so far, those pending, and the starts still to come. -/
structure Discovery where
  known : List String
  pending : List String
  starts : List String

/-- A turn takes the foremost pending model, and where none is pending the next start. -/
def Discovery.turn (c : Catalogue) (d : Discovery) : Option Discovery :=
  match d.pending, d.starts with
  | model :: pending, starts =>
    if model ∈ d.known then some ⟨d.known, pending, starts⟩
    else some ⟨d.known ++ [model], (c.decl model).related.reverse ++ pending, starts⟩
  | [], start :: starts => some ⟨d.known, [start], starts⟩
  | [], [] => none

/-- How many relations the models have together. -/
def relationCount (c : Catalogue) (models : List String) : Nat :=
  (models.flatMap fun model => (c.decl model).related).length

theorem relationCount_append_singleton (models : List String) (model : String) :
    c.relationCount (models ++ [model]) =
      c.relationCount models + (c.decl model).related.length := by
  simp [relationCount]

/-- From one start a walk takes a turn for every model that is pending and for every relation of a
model that it meets. -/
theorem endsAfter_discover {n : Nat} {known pending starts : List String} {last : Discovery}
    (h : EndsAfter (Discovery.turn c) n ⟨c.discover known pending, [], starts⟩ last) :
    ∃ turns, EndsAfter (Discovery.turn c) (turns + n) ⟨known, pending, starts⟩ last ∧
      turns + c.relationCount known =
        pending.length + c.relationCount (c.discover known pending) := by
  fun_induction discover c known pending with
  | case1 known => exact ⟨0, by rwa [Nat.zero_add], by simp⟩
  | case2 known model pending hmodel ih =>
    obtain ⟨turns, hends, hcount⟩ := ih h
    have hturn : Discovery.turn c ⟨known, model :: pending, starts⟩ =
        some ⟨known, pending, starts⟩ :=
      if_pos hmodel
    refine ⟨turns + 1, ?_, by rw [List.length_cons]; omega⟩
    rw [Nat.add_right_comm]
    exact EndsAfter.next hturn hends
  | case3 known model pending hmodel ih =>
    obtain ⟨turns, hends, hcount⟩ := ih h
    have hturn : Discovery.turn c ⟨known, model :: pending, starts⟩ =
        some ⟨known ++ [model], (c.decl model).related.reverse ++ pending, starts⟩ :=
      if_neg hmodel
    rw [relationCount_append_singleton, List.length_append, List.length_reverse] at hcount
    refine ⟨turns + 1, ?_, by rw [List.length_cons]; omega⟩
    rw [Nat.add_right_comm]
    exact EndsAfter.next hturn hends

theorem endsAfter_walks (known starts : List String) :
    ∃ turns, EndsAfter (Discovery.turn c) turns ⟨known, [], starts⟩
        ⟨starts.foldl (fun known start => c.discover known [start]) known, [], []⟩ ∧
      turns + c.relationCount known = 2 * starts.length +
        c.relationCount (starts.foldl (fun known start => c.discover known [start]) known) := by
  induction starts generalizing known with
  | nil => exact ⟨0, EndsAfter.here rfl, by simp⟩
  | cons start rest ih =>
    obtain ⟨later, hlater, hlaterCount⟩ := ih (c.discover known [start])
    obtain ⟨turns, hends, hcount⟩ := endsAfter_discover hlater
    rw [List.length_singleton] at hcount
    refine ⟨turns + later + 1, EndsAfter.next rfl hends, ?_⟩
    rw [List.foldl_cons, List.length_cons]
    omega

theorem endsAfter_known (c : Catalogue) (registered : List String) (model : String) :
    EndsAfter (Discovery.turn c)
      (2 * (registered.length + 1) + c.relationCount (c.known registered model))
      ⟨[], [], registered ++ [model]⟩ ⟨c.known registered model, [], []⟩ := by
  obtain ⟨turns, hends, hcount⟩ := endsAfter_walks (c := c) [] (registered ++ [model])
  have hnone : c.relationCount [] = 0 := rfl
  rw [hnone, List.length_append, List.length_singleton] at hcount
  rw [← known] at hends hcount
  rwa [← hcount]

/-! ## Fields that lead to other models -/

/-- A field of the first model leads to the second: a column that holds its key, a collection of its
instances or a reference to one of them. -/
inductive FieldLeadsTo (c : Catalogue) (model target : String) : Prop
  | column {f : FieldDecl} {ty : ColumnType} {column : Option String}
      (hf : f ∈ (c.decl model).fields) (h : f.kind = .column ty column (some target))
  | hasMany {f : FieldDecl} {foreignKey primaryKey : Option String}
      (hf : f ∈ (c.decl model).fields) (h : f.kind = .hasMany target foreignKey primaryKey)
  | belongsTo {f : FieldDecl} {column : Option String}
      (hf : f ∈ (c.decl model).fields) (h : f.kind = .belongsTo target column)

theorem fieldLeadsTo_iff {model target : String} :
    c.FieldLeadsTo model target ↔ c.PointsTo model target := by
  rw [PointsTo, ModelDecl.related, List.mem_filterMap]
  constructor
  · rintro (⟨hf, h⟩ | ⟨hf, h⟩ | ⟨hf, h⟩) <;> exact ⟨_, hf, by rw [FieldDecl.related?, h]⟩
  · rintro ⟨f, hf, h⟩
    rw [FieldDecl.related?.eq_def] at h
    cases hkind : f.kind with
    | column ty column references =>
      rw [hkind] at h
      simp only at h
      subst h
      exact .column hf hkind
    | hasMany related foreignKey primaryKey =>
      rw [hkind] at h
      cases h
      exact .hasMany hf hkind
    | belongsTo related column =>
      rw [hkind] at h
      cases h
      exact .belongsTo hf hkind

/-- What a model that was met points at was met as well. -/
theorem mem_known_of_pointsTo {registered : List String} {model owner target : String}
    (howner : owner ∈ c.known registered model) (h : c.PointsTo owner target) :
    target ∈ c.known registered model := by
  obtain ⟨start, hstart, hleads⟩ := mem_known_iff.mp howner
  exact mem_known_iff.mpr ⟨start, hstart, hleads.tail h⟩

/-- The declarations that a description knows: those of the models met, each under its model. -/
def declarations (c : Catalogue) (registered : List String) (model : String) :
    Keyed String ModelDecl :=
  (c.known registered model).map fun m => (m, c.decl m)

theorem find?_declarations {registered : List String} {model m : String}
    (h : m ∈ c.known registered model) :
    (c.declarations registered model).find? m = some (c.decl m) := by
  rw [declarations]
  generalize c.known registered model = models at h
  induction models with
  | nil => cases h
  | cons first rest ih =>
    rw [List.map_cons, Keyed.find?]
    split
    next heq => rw [heq]
    next hne => exact ih ((List.mem_cons.mp h).resolve_left fun heq => hne heq.symm)

end Catalogue

/-! ## Descriptions that look declarations up

A declaration that is not there is no refusal that a caller could handle, so the descriptions are
partial. -/

namespace Declarations

variable (known : Keyed String ModelDecl)

def decl (target : String) : Partial ModelDecl :=
  Partial.present (known.find? target)

def keyOf (target : String) : Partial (Binding × ColumnType) := do
  let decl ← decl known target
  match decl.keyColumn? with
  | some (key, ty) => return (⟨target, decl.table, key⟩, ty)
  | none => throw (.invalidSchema (.missingPrimaryKey target))

def bindingOf? : Option String → Partial (Option Binding)
  | none => return none
  | some target => return some (← keyOf known target).1

def addField (model primaryKey : String) (columns : List Column) (field : FieldDecl) :
    Partial (List Column) :=
  match field.kind with
  | .column ty column references => do
    let name := column.getD (Text.snakeCase field.name)
    if columns.any (·.name == name) then throw (.invalidSchema (.sharedColumn model name))
    else
      let binding ← bindingOf? known references
      return columns ++ [⟨name, some field.name, ty, binding, name == primaryKey⟩]
  | _ => return columns

def addReference (found : List Column × List Reference) (field : FieldDecl) :
    Partial (List Column × List Reference) :=
  match field.kind with
  | .belongsTo target column => do
    let name := column.getD (Text.foreignKeyName field.name)
    let (binding, ty) ← keyOf known target
    return (Catalogue.addForeignKey name binding ty found.1,
      found.2 ++ [⟨field.name, target, name⟩])
  | _ => return found

def inferForeignKey (owner member target : String) : Partial (Option String × Option String) := do
  match Catalogue.backReferences (← decl known target) owner with
  | [] => return (none, none)
  | [(column, inverse)] => return (some column, some inverse)
  | candidates =>
    throw (.invalidSchema (.ambiguousForeignKey owner member
      (candidates.map fun candidate => target ++ "::" ++ candidate.2)))

def addRelation (owner primaryKey : String) (relations : List Relation) (field : FieldDecl) :
    Partial (List Relation) :=
  match field.kind with
  | .hasMany target foreignKey key => do
    let (column, inverse) ← match foreignKey with
      | some column => pure (some column, none)
      | none => inferForeignKey known owner field.name target
    return relations ++ [⟨field.name, target, inverse, column, key.getD primaryKey⟩]
  | _ => return relations

/-- The description of a model from the declarations that are known, and from no others. -/
def describe (model : String) : Partial Descriptor := do
  let decl ← decl known model
  match decl.keyColumn? with
  | none => throw (.invalidSchema (.missingPrimaryKey model))
  | some (primaryKey, _) => do
    let declared ← decl.fields.foldlM (addField known model primaryKey) []
    let (columns, references) ← decl.fields.foldlM (addReference known) (declared, [])
    let relations ← decl.fields.foldlM (addRelation known model primaryKey) []
    return {
      model := model
      table := decl.table
      primaryKey := primaryKey
      columns := (known.map Prod.snd).foldl (Catalogue.addIncomingFrom model) columns
      relations := relations
      references := references }

/-! ## Lookups that find what they look for -/

variable {known} {c : Catalogue}

theorem decl_eq_pure {target : String} (h : known.find? target = some (c.decl target)) :
    decl known target = pure (c.decl target) := by
  rw [decl, h, Partial.present_some]

theorem keyOf_eq_of {target : String} (h : known.find? target = some (c.decl target)) :
    keyOf known target = Partial.of (c.keyOf target) := by
  rw [keyOf, decl_eq_pure h, pure_bind, Catalogue.keyOf]
  cases (c.decl target).keyColumn? with
  | none => rfl
  | some key => rfl

theorem bindingOf?_eq_of {references : Option String}
    (h : ∀ target, references = some target → known.find? target = some (c.decl target)) :
    bindingOf? known references = Partial.of (c.bindingOf? references) := by
  cases references with
  | none => rfl
  | some target =>
    rw [bindingOf?, keyOf_eq_of (h target rfl), Catalogue.bindingOf?, Catalogue.bindingTo]
    cases c.keyOf target <;> rfl

theorem inferForeignKey_eq_of {owner member target : String}
    (h : known.find? target = some (c.decl target)) :
    inferForeignKey known owner member target =
      Partial.of (c.inferForeignKey owner member target) := by
  rw [inferForeignKey, decl_eq_pure h, pure_bind, Catalogue.inferForeignKey.eq_def]
  match Catalogue.backReferences (c.decl target) owner with
  | [] => rfl
  | [_] => rfl
  | _ :: _ :: _ => rfl

section fields

variable {field : FieldDecl}
  (h : ∀ target, field.related? = some target → known.find? target = some (c.decl target))

include h

theorem addField_eq_of (model primaryKey : String) (columns : List Column) :
    addField known model primaryKey columns field =
      Partial.of (c.addField model primaryKey columns field) := by
  rw [addField, Catalogue.addField]
  rw [FieldDecl.related?.eq_def] at h
  cases hkind : field.kind with
  | column ty column references =>
    rw [hkind] at h
    simp only
    split
    · rfl
    · rw [bindingOf?_eq_of h]
      exact Partial.of_bind _ _
  | hasMany target foreignKey key => rfl
  | belongsTo target column => rfl

theorem addReference_eq_of (columns : List Column × List Reference) :
    addReference known columns field = Partial.of (c.addReference columns field) := by
  rw [addReference, Catalogue.addReference]
  rw [FieldDecl.related?.eq_def] at h
  cases hkind : field.kind with
  | belongsTo target column =>
    rw [hkind] at h
    simp only
    rw [keyOf_eq_of (h target rfl)]
    exact Partial.of_bind _ _
  | column ty column references => rfl
  | hasMany target foreignKey key => rfl

theorem addRelation_eq_of (owner primaryKey : String) (relations : List Relation) :
    addRelation known owner primaryKey relations field =
      Partial.of (c.addRelation owner primaryKey relations field) := by
  rw [addRelation, Catalogue.addRelation]
  rw [FieldDecl.related?.eq_def] at h
  cases hkind : field.kind with
  | hasMany target foreignKey key =>
    rw [hkind] at h
    simp only
    cases foreignKey with
    | some column => rfl
    | none =>
      simp only
      rw [inferForeignKey_eq_of (h target rfl)]
      exact Partial.of_bind _ _
  | column ty column references => rfl
  | belongsTo target column => rfl

end fields

/-- Where the declarations of the model and of all that its fields lead to are known, describing it
comes to what the declarations of all models make of it. -/
theorem describe_eq_of {registered : List String} {model : String}
    (hmodel : known.find? model = some (c.decl model))
    (hfields : ∀ f ∈ (c.decl model).fields, ∀ target, f.related? = some target →
      known.find? target = some (c.decl target))
    (howners : known.map Prod.snd = (c.known registered model).map c.decl) :
    describe known model = Partial.of (c.resolve registered model) := by
  have hcolumns : ∀ key columns, (c.decl model).fields.foldlM (addField known model key) columns =
      Partial.of ((c.decl model).fields.foldlM (c.addField model key) columns) := fun key =>
    Partial.foldlM_of_forall fun f hf => addField_eq_of (hfields f hf) model key
  have hreferences : ∀ columns, (c.decl model).fields.foldlM (addReference known) columns =
      Partial.of ((c.decl model).fields.foldlM c.addReference columns) :=
    Partial.foldlM_of_forall fun f hf => addReference_eq_of (hfields f hf)
  have hrelations : ∀ key relations,
      (c.decl model).fields.foldlM (addRelation known model key) relations =
        Partial.of ((c.decl model).fields.foldlM (c.addRelation model key) relations) := fun key =>
    Partial.foldlM_of_forall fun f hf => addRelation_eq_of (hfields f hf) model key
  rw [describe, decl_eq_pure hmodel, pure_bind, Catalogue.resolve]
  cases (c.decl model).keyColumn? with
  | none => rfl
  | some key =>
    simp only [hcolumns, hreferences, hrelations, howners, Catalogue.fieldColumns,
      Catalogue.withReferences, Catalogue.relationsOf, Catalogue.withIncoming, Catalogue.model_decl]
    rw [← Partial.of_bind]
    congr 1
    funext declared
    rw [← Partial.of_bind]
    congr 1
    funext more
    exact Partial.of_bind _ _

end Declarations

/-- Declarations are walked from the registered models and from the model to describe.  The walk
comes to an end, after two turns for each start and one for each relation of a model that it meets.
Then exactly those models are known, each once, to which fields lead from a start in any number of
steps, whatever cycles the fields make.  All that the model's own fields lead
to is among them, and so the description, which looks up known declarations only, finds every one
that it looks up: it is the description by the declarations of all models. -/
theorem Catalogue.known_describes (c : Catalogue) (registered : List String) (model : String) :
    EndsAfter (Discovery.turn c)
      (2 * (registered.length + 1) + c.relationCount (c.known registered model))
      ⟨[], [], registered ++ [model]⟩ ⟨c.known registered model, [], []⟩ ∧
    (c.known registered model).Nodup ∧
    (∀ m, m ∈ c.known registered model ↔
      ∃ start, (start ∈ registered ∨ start = model) ∧
        Relation.ReflTransGen c.FieldLeadsTo start m) ∧
    (∀ target, c.FieldLeadsTo model target → target ∈ c.known registered model) ∧
    (Declarations.describe (c.declarations registered model) model).run =
      some (c.resolve registered model) := by
  have hleads : c.FieldLeadsTo = c.PointsTo := by
    funext owner target
    exact propext fieldLeadsTo_iff
  have hself : model ∈ c.known registered model :=
    mem_known_iff.mpr ⟨model, Or.inr rfl, Relation.ReflTransGen.refl⟩
  refine ⟨endsAfter_known c registered model, nodup_known c registered model, ?_, ?_, ?_⟩
  · intro m
    rw [hleads]
    exact mem_known_iff
  · intro target htarget
    exact mem_known_of_pointsTo hself (fieldLeadsTo_iff.mp htarget)
  · refine Declarations.describe_eq_of (find?_declarations hself) ?_ ?_
    · intro f hf target htarget
      exact find?_declarations (mem_known_of_pointsTo hself
        (List.mem_filterMap.mpr ⟨f, hf, htarget⟩))
    · rw [declarations, List.map_map]
      rfl

end RowGraph
