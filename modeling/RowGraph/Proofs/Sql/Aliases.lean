import Mathlib
import RowGraph.Row
import RowGraph.Sql.Aliases

/-!
Aliases that are read back.

The alias of a column is resolved to that column, under its folded name, so no two columns that
differ in more than case have one alias.  A result row thus gives every column a value of its own.
-/

namespace RowGraph
namespace Sql

/-- Every decimal numeral is read as its number. -/
theorem AliasTable.number?_toDigits (n : Nat) : number? (Nat.toDigits 10 n) = some n := by
  have hdigits : ∀ c ∈ Nat.toDigits 10 n, c.isDigit = true :=
    fun c hc => Nat.isDigit_of_mem_toDigits (by decide) (by decide) hc
  have hvalue : (Nat.toDigits 10 n).foldl (fun n c => 10 * n + (c.toNat - '0'.toNat)) 0 = n := by
    rw [← Nat.ofDigitChars_eq_foldl, Nat.ofDigitChars_ten_toDigits]
  have hplus : ∀ rest, Nat.toDigits 10 n = '+' :: rest → False := by
    intro rest hcons
    have hsign := hdigits '+' (by rw [hcons]; exact List.mem_cons_self)
    exact absurd hsign (by decide)
  rw [number?]
  · simp only [hvalue]
    rw [if_neg]
    simp only [Bool.or_eq_true, Bool.not_eq_true', List.isEmpty_iff, not_or, Bool.not_eq_false,
      List.all_eq_true]
    exact ⟨Nat.toDigits_ne_nil, hdigits⟩
  · exact hplus

theorem toList_aliasName (n : Nat) : (aliasName n).toList = '_' :: 'c' :: Nat.toDigits 10 n := by
  rw [aliasName, String.toList_append, Nat.toString_eq_repr, Nat.toList_repr]
  rfl

/-- An alias is spelled as rows keep their names. -/
theorem fold_aliasName (n : Nat) : Text.fold (aliasName n) = aliasName n := by
  refine String.toList_inj.mp ?_
  rw [Text.fold, String.toList_map]
  refine (List.map_congr_left fun c hc => ?_).trans (List.map_id _)
  rw [toList_aliasName, List.mem_cons, List.mem_cons] at hc
  rcases hc with rfl | rfl | hc
  · rfl
  · rfl
  · have hdigit := Nat.isDigit_of_mem_toDigits (by decide) (by decide) hc
    rw [Char.isDigit, Bool.and_eq_true, decide_eq_true_eq, decide_eq_true_eq] at hdigit
    rw [Char.toLower, dif_neg]
    · rfl
    · rintro ⟨hlow, -⟩
      have htop := hdigit.2
      simp only [ge_iff_le, UInt32.le_iff_toNat_le] at hlow htop
      simp at hlow htop
      omega

namespace AliasTable

variable {t : AliasTable} {param column name : String}

/-- An alias is read as a place, be its mark a small letter or a capital. -/
theorem resolve?_mark (t : AliasTable) (n : Nat) :
    t.resolve? ("_c" ++ toString n) = t.columns[n]? ∧
      t.resolve? ("_C" ++ toString n) = t.columns[n]? := by
  have hlower := toList_aliasName n
  have hupper : ("_C" ++ toString n).toList = '_' :: 'C' :: Nat.toDigits 10 n := by
    rw [String.toList_append, Nat.toString_eq_repr, Nat.toList_repr]
    rfl
  rw [aliasName] at hlower
  constructor
  · rw [resolve?, hlower]
    show (number? (Nat.toDigits 10 n)).bind _ = _
    rw [number?_toDigits, Option.bind_some]
  · rw [resolve?, hupper]
    show (number? (Nat.toDigits 10 n)).bind _ = _
    rw [number?_toDigits, Option.bind_some]

/-- What resolves is in the table. -/
theorem mem_of_resolve? {place : String × String} (h : t.resolve? name = some place) :
    place ∈ t.columns := by
  rw [resolve?] at h
  split at h
  next =>
    obtain ⟨n, -, hn⟩ := Option.bind_eq_some_iff.mp h
    exact List.mem_of_getElem? hn
  next =>
    obtain ⟨n, -, hn⟩ := Option.bind_eq_some_iff.mp h
    exact List.mem_of_getElem? hn
  next => cases h

theorem getElem?_of_index? {n : Nat} (h : t.index? param column = some n) :
    t.columns[n]? = some (param, Text.fold column) := by
  rw [index?, List.idxOf?_eq_some_iff] at h
  obtain ⟨hn, hget, -⟩ := h
  rw [List.getElem?_eq_getElem hn, hget]

theorem get?_eq_some : t.get? param column = some name ↔
    ∃ n, t.index? param column = some n ∧ aliasName n = name := by
  rw [get?, Option.map_eq_some_iff]

/-- The alias of a column stands for the column. -/
theorem resolve?_of_get? (h : t.get? param column = some name) :
    t.resolve? name = some (param, Text.fold column) := by
  obtain ⟨n, hn, rfl⟩ := get?_eq_some.mp h
  rw [aliasName, (t.resolve?_mark n).1, getElem?_of_index? hn]

/-- Columns of one alias are columns of one parameter whose names fold alike. -/
theorem eq_of_get? {param' column' : String} (h : t.get? param column = some name)
    (h' : t.get? param' column' = some name) :
    param = param' ∧ Text.fold column = Text.fold column' := by
  have heq := resolve?_of_get? h
  rw [resolve?_of_get? h', Option.some.injEq, Prod.mk.injEq] at heq
  exact ⟨heq.1.symm, heq.2.symm⟩

theorem get?_congr {column' : String} (h : Text.fold column = Text.fold column') :
    t.get? param column = t.get? param column' := by
  rw [get?, get?, index?, index?, h]

theorem fold_of_get? (h : t.get? param column = some name) : Text.fold name = name := by
  obtain ⟨n, -, rfl⟩ := get?_eq_some.mp h
  exact fold_aliasName n

/-! ## Giving aliases -/

theorem prefix_assign (t : AliasTable) (param column : String) :
    t.columns <+: (t.assign param column).2.columns := by
  rw [assign]
  split
  next => exact List.prefix_refl _
  next => exact List.prefix_append _ _

theorem prefix_assignAll (t : AliasTable) (places : List (String × String)) :
    t.columns <+: (t.assignAll places).2.columns := by
  induction places generalizing t with
  | nil => exact List.prefix_refl _
  | cons place rest ih => exact (t.prefix_assign place.1 place.2).trans (ih _)

theorem mem_columns_assign {place : String × String} :
    place ∈ (t.assign param column).2.columns ↔
      place ∈ t.columns ∨ (param, Text.fold column) = place := by
  rw [assign]
  cases hindex : t.index? param column with
  | some n =>
    have hmem := List.mem_of_getElem? (getElem?_of_index? hindex)
    exact ⟨Or.inl, fun h => h.elim id fun h => h ▸ hmem⟩
  | none => simp [eq_comm]

/-- A column has an alias if it had one or was asked for. -/
theorem mem_columns_assignAll {places : List (String × String)} {place : String × String} :
    place ∈ (t.assignAll places).2.columns ↔
      place ∈ t.columns ∨ ∃ asked ∈ places, (asked.1, Text.fold asked.2) = place := by
  induction places generalizing t with
  | nil => simp [assignAll]
  | cons asked rest ih =>
    rw [assignAll]
    simp only [ih, mem_columns_assign, List.exists_mem_cons_iff, or_assoc]

theorem isSome_get?_assignAll {places : List (String × String)} {place : String × String}
    (h : place ∈ places) (t : AliasTable) :
    ((t.assignAll places).2.get? place.1 place.2).isSome = true := by
  rw [get?, Option.isSome_map, index?, List.isSome_idxOf?, mem_columns_assignAll]
  exact Or.inr ⟨place, h, rfl⟩

/-- Numbers are never taken back. -/
theorem index?_of_prefix {t' : AliasTable} {n : Nat} (h : t.columns <+: t'.columns)
    (hn : t.index? param column = some n) : t'.index? param column = some n := by
  obtain ⟨more, hmore⟩ := h
  rw [index?, List.idxOf?] at hn ⊢
  rw [← hmore, List.findIdx?_append, hn, Option.some_or]

/-- A table that goes on from one that has given a number gives the same, and stays as it is. -/
theorem assign_again {t' : AliasTable} (h : (t.assign param column).2.columns <+: t'.columns) :
    t'.assign param column = ((t.assign param column).1, t') := by
  have hgiven : (t.assign param column).2.index? param column =
      some (t.assign param column).1 := by
    rw [assign]
    cases hindex : t.index? param column with
    | some n => exact hindex
    | none =>
      rw [index?, List.idxOf?] at hindex ⊢
      rw [List.findIdx?_append, hindex]
      simp [size]
  rw [assign, index?_of_prefix h hgiven]

theorem assignAll_again {t' : AliasTable} {places : List (String × String)}
    (h : (t.assignAll places).2.columns <+: t'.columns) :
    t'.assignAll places = ((t.assignAll places).1, t') := by
  induction places generalizing t with
  | nil => rfl
  | cons place rest ih =>
    rw [assignAll, assign_again ((prefix_assignAll _ rest).trans h)]
    simp only [ih h]
    rfl

/-! ## Values of result rows -/

/-- The value that a result row has for a column of a parameter, under the alias of the column. -/
def valueIn? (t : AliasTable) (row : Row) (param column : String) : Option Value :=
  (t.get? param column).bind row.get?

theorem valueIn?_congr {column' : String} (h : Text.fold column = Text.fold column') (row : Row) :
    t.valueIn? row param column = t.valueIn? row param column' := by
  rw [valueIn?, valueIn?, get?_congr h]

end AliasTable
end Sql
end RowGraph
