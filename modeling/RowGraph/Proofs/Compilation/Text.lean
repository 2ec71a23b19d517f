import RowGraph.Proofs.Compilation.Shape
import RowGraph.Proofs.Sql.Unambiguous

/-!
The texts of compiled conditions.

What comes out of the compiler has one of a few shapes: connectives of conditions, comparisons of
columns and constants, and memberships in lists of constants.  Such a condition can be written, and
two of them have the same text with literals exactly when erasing leaves the same of both.  No
constant that is a string can thus make one condition look like another.
-/

namespace RowGraph

/-- The condition names columns in letters, digits and underscores, and it has no floating-point
constant. -/
structure Condition.Plain (c : Condition) : Prop where
  names : ∀ place ∈ c.columns, IsName place.1 ∧ IsName place.2
  noFloat : ∀ x, .f64 x ∉ c.scalars

theorem Condition.plain_binary {op : Operator} {lhs rhs : Condition}
    (h : (Condition.binary op lhs rhs).Plain) : lhs.Plain ∧ rhs.Plain := by
  obtain ⟨hnames, hfloat⟩ := h
  rw [columns, List.forall_mem_append] at hnames
  simp only [scalars, List.mem_append, not_or, forall_and] at hfloat
  exact ⟨⟨hnames.1, hfloat.1⟩, ⟨hnames.2, hfloat.2⟩⟩

/-! ## Constants -/

theorem Scalar.legible_written {v : Scalar} (h : ∀ x, v ≠ .f64 x) : v.written.Legible := by
  cases v with
  | null => exact .null
  | bool b => exact .bool b
  | f64 x => exact absurd rfl (h x)
  | i16 n => exact .i64 n.toInt64
  | i32 n => exact .i64 n.toInt64
  | i64 n => exact .i64 n
  | string s => exact .string s

namespace Value

theorem exists_writtenOf {items : List Value} (hflat : ∀ v ∈ items, v.isList = false)
    (hfloat : ∀ x, .f64 x ∉ scalarsOf items) :
    ∃ vs : List Scalar, writtenOf items = vs.map .scalar ∧ ∀ v ∈ vs, v.Legible := by
  induction items with
  | nil => exact ⟨[], rfl, nofun⟩
  | cons v rest ih =>
    rw [List.forall_mem_cons] at hflat
    simp only [scalarsOf, List.mem_append, not_or, forall_and] at hfloat
    obtain ⟨vs, hvs, hlegible⟩ := ih hflat.2 hfloat.2
    cases v with
    | scalar v =>
      have hv : ∀ x, v ≠ .f64 x := by
        rintro x rfl
        exact hfloat.1 x List.mem_cons_self
      refine ⟨v.written :: vs, ?_, List.forall_mem_cons.mpr ⟨Scalar.legible_written hv, hlegible⟩⟩
      rw [writtenOf, hvs, written, List.map_cons]
    | list items => cases hflat.1

theorem exists_written_list {items : List Value} (hflat : ∀ v ∈ items, v.isList = false)
    (hfloat : ∀ x, .f64 x ∉ scalarsOf items) :
    ∃ (first : Scalar) (rest : List Scalar),
      (list items).written = .list ((first :: rest).map .scalar) ∧
        ∀ v ∈ first :: rest, v.Legible := by
  cases items with
  | nil => exact ⟨.null, [], rfl, List.forall_mem_singleton.mpr .null⟩
  | cons v rest =>
    obtain ⟨vs, hvs, hlegible⟩ := exists_writtenOf hflat hfloat
    cases vs with
    | nil => cases hvs
    | cons first rest => exact ⟨first, rest, congrArg list hvs, hlegible⟩

end Value

/-! ## Shapes -/

theorem Condition.IsColumn.written_eq {param column : String} {c : Condition}
    (h : c.IsColumn param column) : c.written = .member param column := by
  cases h <;> rfl

theorem Operand.written_widened (o : Operand) : o.widened.written = o.condition.written := by
  rw [widened]
  split <;> rfl

/-- Unifying a column changes nothing about how it is written. -/
theorem Operand.Unified.written_eq {o : Operand} {c : Condition} (h : o.Unified c)
    {param column : String} (hcolumn : o.condition.IsColumn param column) :
    c.written = .member param column := by
  cases h with
  | same => exact hcolumn.written_eq
  | widened => rw [o.written_widened, hcolumn.written_eq]
  | constant heq hn hw =>
    rw [heq] at hcolumn
    cases hcolumn

namespace Scope

variable {s : Scope}

theorem legible_operand {e : Expr} {o : Operand} {c : Condition} (ho : s.operand e = .ok o)
    (hc : o.Unified c) (hplain : c.Plain) : c.written.LegibleOperand := by
  rcases operand_eq_ok ho with ⟨m, rfl, hm⟩ | ⟨v, rfl, rfl⟩
  · obtain ⟨param, d, column, -, -, -, hcolumn, -⟩ := memberOperand_eq_ok hm
    have hnames := hplain.names
    rw [hc.columns_eq, hcolumn.columns_eq, List.forall_mem_singleton] at hnames
    rw [hc.written_eq hcolumn]
    exact .column hnames.1 hnames.2
  · have hconstant : ∀ {u : Scalar}, (Condition.constant (.scalar u)).Plain →
        (Condition.constant (.scalar u)).written.LegibleOperand := by
      intro u hu
      refine .constant (Scalar.legible_written ?_)
      rintro x rfl
      exact hu.noFloat x List.mem_cons_self
    -- A constant has no column, so it is never widened; an integer may be written anew in 64 bits.
    cases hc with
    | same => exact hconstant hplain
    | widened => exact hconstant hplain
    | constant heq hn hw =>
      obtain ⟨k, hk, -⟩ := Value.convert_of_toInt? hn
      rw [hk] at hw
      cases hw
      exact .constant (.i64 k)

/-- What a compiled condition is written as can be told from its text. -/
theorem legible_compile {e : Expr} {c : Condition} (h : s.compile e = .ok c)
    (hplain : c.Plain) : c.written.Legible := by
  have hcompiled := compiled_compile h
  clear h
  induction hcompiled with
  | connective hop hlhs hrhs ihl ihr =>
    obtain ⟨hplainLeft, hplainRight⟩ := Condition.plain_binary hplain
    exact .connective hop (ihl hplainLeft) (ihr hplainRight)
  | comparison hop ho hlhs ho' hrhs =>
    obtain ⟨hplainLeft, hplainRight⟩ := Condition.plain_binary hplain
    exact .comparison hop (legible_operand ho hlhs hplainLeft)
      (legible_operand ho' hrhs hplainRight)
  | membership ho hitem hflat =>
    obtain ⟨hnames, hfloat⟩ := hplain
    rw [columns_contains hitem, ← hitem.columns_eq] at hnames
    simp only [Condition.contains, Condition.scalars, List.mem_append, not_or,
      forall_and] at hfloat
    obtain ⟨first, rest, hwritten, hlegible⟩ := Value.exists_written_list hflat hfloat.2
    rw [Condition.contains, Condition.written, Condition.written, hwritten]
    exact .membership (legible_operand ho hitem ⟨hnames, hfloat.1⟩) hlegible

end Scope

/-! ## Calls -/

namespace Condition

theorem badCall?_written (c : Condition) : c.written.badCall? = c.badCall? := by
  fun_induction written c with
  | case1 op lhs rhs ihl ihr => rw [badCall?, ihl, ihr, badCall?]
  | case2 list item ihl ihi => simp [contains, badCall?, badCallIn?, ihl, ihi, Builtin.arity]
  | case3 ty c ih => simp [badCall?, badCallIn?, ih, Builtin.arity]
  | case4 f args => rfl
  | case5 v => rfl
  | case6 param column => rfl
  | case7 param key => rfl

theorem LegibleOperand.badCall?_eq_none {c : Condition} (h : c.LegibleOperand) :
    c.badCall? = none := by
  cases h <;> rfl

theorem Legible.badCall?_eq_none {c : Condition} (h : c.Legible) : c.badCall? = none := by
  induction h with
  | connective hop hlhs hrhs ihl ihr => rw [badCall?, ihl, ihr]; rfl
  | comparison hop hlhs hrhs => rw [badCall?, hlhs.badCall?_eq_none, hrhs.badCall?_eq_none]; rfl
  | membership hitem hitems =>
    simp [contains, badCall?, badCallIn?, hitem.badCall?_eq_none, Builtin.arity]

end Condition

/-! ## Texts -/

namespace Scope

/-- Compiled conditions can be written, and they have the same text exactly when erasing leaves the
same of them. -/
theorem layout_compile_eq_iff {s₁ s₂ : Scope} {e₁ e₂ : Expr} {c₁ c₂ : Condition}
    (h₁ : s₁.compile e₁ = .ok c₁) (h₂ : s₂.compile e₂ = .ok c₂) (hplain₁ : c₁.Plain)
    (hplain₂ : c₂.Plain) {flavor : Sql.Flavor} (hflavor : flavor ≠ .mssql) (tablePrefix : String) :
    Sql.checkCalls [c₁, c₂] = .ok () ∧
      (Sql.layout ⟨flavor, .inline, tablePrefix⟩ (Sql.ofCondition true c₁) =
          Sql.layout ⟨flavor, .inline, tablePrefix⟩ (Sql.ofCondition true c₂) ↔
        c₁.written = c₂.written) := by
  have hlegible₁ := legible_compile h₁ hplain₁
  have hlegible₂ := legible_compile h₂ hplain₂
  refine ⟨?_, ?_⟩
  · have hcall₁ := hlegible₁.badCall?_eq_none
    have hcall₂ := hlegible₂.badCall?_eq_none
    rw [Condition.badCall?_written] at hcall₁ hcall₂
    simp [Sql.checkCalls, hcall₁, hcall₂]
  · rw [← Sql.layout_ofCondition_written flavor tablePrefix true c₁,
      ← Sql.layout_ofCondition_written flavor tablePrefix true c₂]
    constructor
    · intro htext
      rw [← String.toList_inj, Sql.toList_layout_inline, Sql.toList_layout_inline] at htext
      have happend : Sql.charsOf flavor tablePrefix c₁.written ++ [')'] =
          Sql.charsOf flavor tablePrefix c₂.written ++ [')'] := congrArg (· ++ [')']) htext
      exact (Sql.charsOf_append_inj hflavor hlegible₁ hlegible₂ happend).1
    · intro hwritten
      rw [hwritten]

/-! ### Two conditions with one text -/

def ofGuests : Scope where
  registry := .ofCatalogue ⟨[]⟩
  params := .root none
    { model := "Guest", table := "guests", primaryKey := "id",
      columns := [⟨"id", some "id", .i64, none, true⟩, ⟨"name", some "name", .string, none, false⟩],
      relations := [], references := [] }
  left := "x"
  right := none

/-- A text that looks like the end of a group and the beginning of another one. -/
def likeGroups : Value :=
  .string "\x27) OR (\x271\x27) = (\x271"

def namedOrListed : Condition :=
  .binary .or (.binary .eq (.member "x" "name") (.constant likeGroups))
    (.contains (.constant (.list [])) (.parameter "x" "id"))

def namedOrNull : Condition :=
  .binary .or (.binary .eq (.member "x" "name") (.constant likeGroups))
    (.contains (.constant (.list [.null])) (.member "x" "id"))

theorem layout_namedOrListed_eq :
    ∃ e₁ e₂, ofGuests.compile e₁ = .ok namedOrListed ∧ ofGuests.compile e₂ = .ok namedOrNull ∧
      namedOrListed.Plain ∧ namedOrNull.Plain ∧ namedOrListed ≠ namedOrNull ∧
      Sql.layout ⟨.generic, .inline, ""⟩ (Sql.ofCondition true namedOrListed) =
        Sql.layout ⟨.generic, .inline, ""⟩ (Sql.ofCondition true namedOrNull) := by
  have hlisted : ofGuests.compile
      (.or (.eq (.member (.ofModel "Guest" ["name"])) (.value likeGroups))
        (.inList (.member (.ofModel "Guest" [])) (.value (.list [])))) = .ok namedOrListed := by cbv
  have hnull : ofGuests.compile
      (.or (.eq (.member (.ofModel "Guest" ["name"])) (.value likeGroups))
        (.inList (.member (.ofModel "Guest" ["id"])) (.value (.list [.null])))) =
          .ok namedOrNull := by cbv
  have hplain₁ : namedOrListed.Plain := by
    refine ⟨by decide, ?_⟩
    simp [namedOrListed, likeGroups, Condition.contains, Condition.scalars, Value.scalars,
      Value.scalarsOf]
  have hplain₂ : namedOrNull.Plain := by
    refine ⟨by decide, ?_⟩
    simp [namedOrNull, likeGroups, Condition.contains, Condition.scalars, Value.scalars,
      Value.scalarsOf]
  have hflavor : Sql.Flavor.generic ≠ .mssql := by decide
  have htexts := layout_compile_eq_iff hlisted hnull hplain₁ hplain₂ hflavor ""
  refine ⟨_, _, hlisted, hnull, hplain₁, hplain₂, ?_, htexts.2.mpr rfl⟩
  simp [namedOrListed, namedOrNull, Condition.contains]

end Scope
end RowGraph
