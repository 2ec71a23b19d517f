import Mathlib
import RowGraph.Proofs.Compilation.Rules
import RowGraph.Proofs.Schema.History
import RowGraph.Repository.Basic

/-!
Finding and deleting by key.

An instance is found by an expression, which compares the parameter as a whole with the key and is
compiled like any other; it is deleted by a condition made by hand, for which the key is converted to
the type of the column.  Where the column holds integers or texts and the conversion succeeds, the
two accept the same rows: those whose value in the key column equals the key as it was given.
-/

namespace RowGraph

/-- The value is of the kind that a column of the type is for, integers being of any width, or it is
null. -/
def ColumnType.Holds (ty : ColumnType) (v : Value) : Prop :=
  v = .null ∨ ty.isInteger = true ∧ v.toInt?.isSome = true ∨ ty = .string ∧ v.text?.isSome = true

theorem ColumnType.Holds.integerOrNull {ty : ColumnType} {v : Value} (h : ty.Holds v)
    (hty : ty.isInteger = true) : v.IntegerOrNull := by
  rcases h with hnull | ⟨-, hint⟩ | ⟨rfl, -⟩
  · exact Or.inl hnull
  · exact Or.inr hint
  · cases hty

namespace Value

/-- A value that converts to an integer type or to text is changed in width at most. -/
theorem sameNumber_of_convert_eq_ok {ty : ColumnType} (hty : ty.isInteger = true ∨ ty = .string)
    {v w : Value} (h : v.convert ty = .ok w) : v.SameNumber w := by
  rcases hty with hty | rfl
  · exact sameNumber_of_convert_integer hty h
  · rcases convert_eq_ok_iff.mp h with ⟨rfl, rfl⟩ | ⟨-, hread⟩
    · exact .refl .null
    · cases v with
      | list items => cases hread
      | scalar v =>
        cases v with
        | string text =>
          cases hread
          exact .refl _
        | _ => cases hread

end Value

namespace Repository

variable {c : Catalogue} {r : Registry} {model : String} {key : Value}

/-- The parameter of a statement about one table, as a whole. -/
def wholeRoot (d : Descriptor) : Operand :=
  ⟨.parameter Parameters.defaultName d.keyColumn.name, some d.keyColumn.ty⟩

/-- The selection by a key compares the root as a whole with the key, both brought to one integer
type. -/
theorem findSelect_eq {d : Descriptor} (hd : r.descriptor model = .ok d) (hmodel : d.model = model)
    (hkey : key.isList = false) :
    ∃ column k, (wholeRoot d).unify ⟨.constant key, none⟩ = .ok (column, k) ∧
      findSelect r model key = .ok ⟨Parameters.root none d, some (.eq column k), [], none⟩ := by
  obtain ⟨column, k, hunify⟩ := (wholeRoot d).exists_unify ⟨.constant key, none⟩
  refine ⟨column, k, hunify, ?_⟩
  have hfind : (Parameters.root none d).find? Parameters.defaultName = some d := rfl
  let scope : Scope := ⟨r, Parameters.root none d, Parameters.defaultName, none⟩
  have hmember : scope.operand (.member (.ofModel model [])) = .ok (wholeRoot d) := by
    have hparam : scope.param (.ofModel model []) = .ok Parameters.defaultName := by
      have hof : scope.isOf model Parameters.defaultName = true := by
        rw [Scope.isOf, hfind]
        simpa using hmodel
      rw [Scope.param, Member.ofModel, Scope.implicitParam, if_pos hof]
    exact Scope.memberOperand_eq_ok_iff.mpr ⟨_, d, hparam, hfind, hmodel, .key⟩
  have hvalue : scope.operand (.value key) = .ok ⟨.constant key, none⟩ := by
    cases key with
    | scalar v => rfl
    | list items => cases hkey
  have hcompile : scope.compile (.eq (.member (.ofModel model [])) (.value key)) =
      .ok (.eq column k) :=
    Scope.compile_eq_ok_iff.mpr (.comparison rfl hmember hvalue
      (Or.inl ⟨.constant rfl rfl (fun _ h => by cases h), column, k, hunify, rfl⟩))
  have hroot : Select.ofModel r model none = .ok ⟨Parameters.root none d, none, [], none⟩ := by
    rw [Select.ofModel, hd]
    rfl
  refine Outcome.bind_eq_ok.mpr ⟨_, hroot, ?_⟩
  exact Outcome.bind_eq_ok.mpr ⟨scope, rfl, Outcome.bind_eq_ok.mpr ⟨_, hcompile, rfl⟩⟩

/-- Where the key of a model is an integer or a text and deleting by a key of such a kind succeeds,
so does finding by it, in the same table.  On every row with a value in the key column that is of the
column's kind, integers being of any width, or null, both conditions answer, and alike: whether the
value equals the key as it was given. -/
theorem evalBool_findSelect_byKey (hr : r.Reached c)
    (hkey : key.toInt?.isSome = true ∨ key.text?.isSome = true) {d : Delete}
    (h : Delete.byKey r model key = .ok d)
    (hty : d.target.keyColumn.ty.isInteger = true ∨ d.target.keyColumn.ty = .string) :
    ∃ s found deleted, findSelect r model key = .ok s ∧ s.filter = some found ∧
      d.filter = some deleted ∧ s.links = [] ∧ s.params.find? s.rootName = some d.target ∧
      ∀ (row : Row) (v : Value), row.get? d.target.keyColumn.name = some v →
        d.target.keyColumn.ty.Holds v →
        found.evalBool (Assignment.input [(s.rootName, row)]) = .ok (v.satisfies .eq key) ∧
        deleted.evalBool (Assignment.input [(d.param, row)]) = .ok (v.satisfies .eq key) := by
  obtain ⟨start, hstart, h⟩ := Outcome.bind_eq_ok.mp h
  obtain ⟨target, htarget, hstart⟩ := Outcome.bind_eq_ok.mp hstart
  cases hstart
  obtain ⟨converted, hconverted, h⟩ := Outcome.bind_eq_ok.mp h
  cases h
  have hlist : key.isList = false := by
    cases key with
    | scalar v => rfl
    | list items => simp [Value.toInt?, Value.text?] at hkey
  obtain ⟨column, k, hunify, hselect⟩ :=
    findSelect_eq htarget (hr.sound.descriptor htarget).1 hlist
  refine ⟨_, _, _, hselect, rfl, rfl, rfl, rfl, fun row v hv hholds => ?_⟩
  have hread : Assignment.input [(Parameters.defaultName, row)] Parameters.defaultName
      target.keyColumn.name = some v := hv
  obtain ⟨hcolumn, hconstant⟩ := Operand.unify_eq_ok hunify
  constructor
  · obtain ⟨w, hw, hsame⟩ := hcolumn.eval (Condition.IsColumn.parameter.eval_eq hread) fun hnarrow =>
      hholds.integerOrNull (ColumnType.isInteger_of_isNarrow hnarrow)
    obtain ⟨k', hk', hsame'⟩ := hconstant.eval rfl fun h => by cases h
    rw [hsame.satisfies hsame']
    exact Condition.evalBool_comparison rfl hw hk'
  · rw [(Value.SameNumber.refl v).satisfies (Value.sameNumber_of_convert_eq_ok hty hconverted)]
    exact Condition.evalBool_comparison rfl (Condition.IsColumn.member.eval_eq hread) rfl

/-! ### A key wider than its column -/

def ranks : Catalogue where
  models := [⟨"Unit", "Units", "rank", [⟨"rank", .column .i16 (some "rank") none, false⟩]⟩]

/-- A row whose key was written in another width. -/
def fifthRank : Row := .ofList [("rank", .i32 5)]

theorem evalBool_findSelect_byKey_ranks :
    ∃ s d found deleted, findSelect (.ofCatalogue ranks) "Unit" (.i64 5) = .ok s ∧
      Delete.byKey (.ofCatalogue ranks) "Unit" (.i64 5) = .ok d ∧ s.filter = some found ∧
      d.filter = some deleted ∧
      found.evalBool (Assignment.input [(s.rootName, fifthRank)]) = .ok true ∧
      deleted.evalBool (Assignment.input [(d.param, fifthRank)]) = .ok true := by
  have hdelete : ∃ d, Delete.byKey (.ofCatalogue ranks) "Unit" (.i64 5) = .ok d ∧
      d.target.keyColumn = ⟨"rank", some "rank", .i16, none, true⟩ := ⟨_, by cbv, rfl⟩
  obtain ⟨d, hdelete, hcolumn⟩ := hdelete
  obtain ⟨s, found, deleted, hselect, hfound, hdeleted, -, -, hrows⟩ :=
    evalBool_findSelect_byKey .fresh (Or.inl rfl) hdelete (Or.inl (by rw [hcolumn]; rfl))
  have hvalue : fifthRank.get? d.target.keyColumn.name = some (.i32 5) := by
    rw [hcolumn]
    cbv
  have hholds : d.target.keyColumn.ty.Holds (.i32 5) := by
    rw [hcolumn]
    exact Or.inr (Or.inl ⟨rfl, rfl⟩)
  have hequal : Value.satisfies .eq (.i32 5) (.i64 5) = true := by cbv
  have hsides := hrows fifthRank (.i32 5) hvalue hholds
  rw [hequal] at hsides
  exact ⟨s, d, found, deleted, hselect, hdelete, hfound, hdeleted, hsides⟩

end Repository
end RowGraph
