import RowGraph.Proofs.Sql.Erasure
import RowGraph.Proofs.Sql.Literals

/-!
What a text tells.

Written with literals, a compiled condition can be told from its text up to what erasing takes away
from it.  Every part of a condition stands between parentheses.  A part that is a condition itself
begins with a parenthesis, and an operand does not; an operand ends before the first closing
parenthesis that is not inside a string.  So the text is read from left to right, and no string
decides where a part of it ends.
-/

namespace RowGraph

/-- A name of letters, digits and underscores. -/
def IsName (s : String) : Prop :=
  ∀ c ∈ s.toList, c.isAlphanum = true ∨ c = '_'

instance (s : String) : Decidable (IsName s) :=
  List.decidableBAll (fun c : Char => c.isAlphanum = true ∨ c = '_') s.toList

/-! ## Conditions that can be told from their texts -/

namespace Condition

/-- A side of a comparison, or the item of a membership. -/
inductive LegibleOperand : Condition → Prop
  | column {param column : String} (hparam : IsName param) (hcolumn : IsName column) :
    LegibleOperand (.member param column)
  | constant {v : Scalar} (hv : v.Legible) : LegibleOperand (.constant (.scalar v))

inductive Legible : Condition → Prop
  | connective {op : Operator} {lhs rhs : Condition} (hop : op.isLogical = true)
    (hlhs : lhs.Legible) (hrhs : rhs.Legible) : Legible (.binary op lhs rhs)
  | comparison {op : Operator} {lhs rhs : Condition} (hop : op.isComparison = true)
    (hlhs : lhs.LegibleOperand) (hrhs : rhs.LegibleOperand) : Legible (.binary op lhs rhs)
  | membership {item : Condition} {first : Scalar} {rest : List Scalar}
    (hitem : item.LegibleOperand) (hitems : ∀ v ∈ first :: rest, v.Legible) :
    Legible (.contains (.constant (.list ((first :: rest).map .scalar))) item)

end Condition

namespace Sql

variable {flavor : Flavor} {tablePrefix : String}

/-! ### Groups -/

/-- Two parts between parentheses, with an operator between them. -/
def grouped (op : Operator) (as bs : List Char) : List Char :=
  '(' :: (as ++ ')' :: ' ' :: (op.symbol.toList ++ ' ' :: '(' :: (bs ++ [')'])))

/-- Two groups with the same text have the same parts, if the first part of each can be told from
what follows it. -/
theorem grouped_append_inj {same : Prop} {op op' : Operator} {as as' bs bs' xs ys : List Char}
    (has : ∀ {zs zs' : List Char}, as ++ ')' :: zs = as' ++ ')' :: zs' → same ∧ zs = zs')
    (h : grouped op as bs ++ xs = grouped op' as' bs' ++ ys) :
    same ∧ op = op' ∧ bs ++ ')' :: xs = bs' ++ ')' :: ys := by
  simp only [grouped, List.cons_append, List.append_assoc, List.nil_append] at h
  injection h with _ h
  obtain ⟨hsame, h⟩ := has h
  injection h with _ h
  obtain ⟨hsymbol, h⟩ := append_inj_of_not_mem op.space_not_mem_symbol op'.space_not_mem_symbol h
  injection h with _ h
  exact ⟨hsame, Operator.symbol_inj (String.toList_inj.mp hsymbol), h⟩

theorem grouped_append_ne {op op' : Operator} {as as' bs bs' xs ys : List Char}
    (has : ∀ {zs zs' : List Char}, as ++ ')' :: zs ≠ as' ++ ')' :: zs') :
    grouped op as bs ++ xs ≠ grouped op' as' bs' ++ ys := by
  intro h
  have hsame : False ∧ op = op' ∧ bs ++ ')' :: xs = bs' ++ ')' :: ys :=
    grouped_append_inj (fun h => absurd h has) h
  exact hsame.1

/-! ### Lists -/

/-- The items after the first one. -/
def restChars (flavor : Flavor) (rest : List Scalar) : List Char :=
  rest.flatMap fun v => ',' :: ' ' :: (literal flavor v).toList

def itemsChars (flavor : Flavor) (first : Scalar) (rest : List Scalar) : List Char :=
  (literal flavor first).toList ++ restChars flavor rest

theorem restChars_cons (v : Scalar) (rest : List Scalar) :
    restChars flavor (v :: rest) = ',' :: ' ' :: itemsChars flavor v rest := rfl

theorem closes_restChars (rest : List Scalar) (xs : List Char) :
    Closes (restChars flavor rest ++ ')' :: xs) := by
  cases rest with
  | nil => exact Or.inl rfl
  | cons v rest => exact Or.inr rfl

theorem itemsChars_append_inj_of {v w : Scalar} {vs ws : List Scalar} {xs ys : List Char}
    (hflavor : flavor ≠ .mssql) (hv : v.Legible) (hw : w.Legible)
    (h : itemsChars flavor v vs ++ ')' :: xs = itemsChars flavor w ws ++ ')' :: ys) :
    v = w ∧ restChars flavor vs ++ ')' :: xs = restChars flavor ws ++ ')' :: ys := by
  rw [itemsChars, itemsChars, List.append_assoc, List.append_assoc] at h
  obtain ⟨hliteral, h⟩ := (isToken_literal hflavor hv).append_inj (isToken_literal hflavor hw)
    (closes_restChars vs xs) (closes_restChars ws ys) h
  exact ⟨literal_inj hflavor hv hw (String.toList_inj.mp hliteral), h⟩

theorem restChars_append_inj (hflavor : flavor ≠ .mssql) {vs ws : List Scalar}
    (hvs : ∀ v ∈ vs, v.Legible) (hws : ∀ w ∈ ws, w.Legible) {xs ys : List Char}
    (h : restChars flavor vs ++ ')' :: xs = restChars flavor ws ++ ')' :: ys) :
    vs = ws ∧ xs = ys := by
  induction vs generalizing ws with
  | nil =>
    cases ws with
    | nil =>
      injection h with _ h
      exact ⟨rfl, h⟩
    | cons w ws =>
      injection h with h _
      exact absurd h (by decide)
  | cons v vs ih =>
    cases ws with
    | nil =>
      injection h with h _
      exact absurd h (by decide)
    | cons w ws =>
      rw [List.forall_mem_cons] at hvs hws
      rw [restChars_cons, restChars_cons] at h
      injection h with _ h
      injection h with _ h
      obtain ⟨rfl, htail⟩ := itemsChars_append_inj_of hflavor hvs.1 hws.1 h
      obtain ⟨rfl, hrest⟩ := ih hvs.2 hws.2 htail
      exact ⟨rfl, hrest⟩

theorem itemsChars_append_inj (hflavor : flavor ≠ .mssql) {v w : Scalar} {vs ws : List Scalar}
    (hvs : ∀ u ∈ v :: vs, u.Legible) (hws : ∀ u ∈ w :: ws, u.Legible) {xs ys : List Char}
    (h : itemsChars flavor v vs ++ ')' :: xs = itemsChars flavor w ws ++ ')' :: ys) :
    v :: vs = w :: ws ∧ xs = ys := by
  rw [List.forall_mem_cons] at hvs hws
  obtain ⟨rfl, htail⟩ := itemsChars_append_inj_of hflavor hvs.1 hws.1 h
  obtain ⟨rfl, hrest⟩ := restChars_append_inj hflavor hvs.2 hws.2 htail
  exact ⟨rfl, hrest⟩

/-! ### The text of a condition -/

/-- The characters of a condition that is written with literals. -/
def charsOf (flavor : Flavor) (tablePrefix : String) (c : Condition) : List Char :=
  (ofCondition true c).flatMap (Fragment.chars flavor tablePrefix)

theorem charsOf_binary (op : Operator) (lhs rhs : Condition) :
    charsOf flavor tablePrefix (.binary op lhs rhs) =
      grouped op (charsOf flavor tablePrefix lhs) (charsOf flavor tablePrefix rhs) := by
  simp [charsOf, ofCondition, grouped, Fragment.chars]

theorem charsOf_member (param column : String) :
    charsOf flavor tablePrefix (.member param column) =
      param.toList ++ '.' :: column.toList := by
  simp [charsOf, ofCondition, ofColumn, Fragment.chars]

theorem charsOf_constant (v : Scalar) :
    charsOf flavor tablePrefix (.constant (.scalar v)) = (literal flavor v).toList := by
  simp [charsOf, ofCondition, ofValue, Fragment.chars]

theorem chars_ofRest (tablePrefix : String) (rest : List Scalar) :
    (ofRest (rest.map .scalar)).flatMap (Fragment.chars flavor tablePrefix) =
      restChars flavor rest := by
  induction rest with
  | nil => rfl
  | cons v rest ih =>
    rw [restChars_cons, itemsChars, ← ih]
    simp [ofRest, ofValue, Fragment.chars]

theorem charsOf_contains (first : Scalar) (rest : List Scalar) (item : Condition) :
    charsOf flavor tablePrefix (.contains (.constant (.list ((first :: rest).map .scalar))) item) =
      grouped .in (charsOf flavor tablePrefix item) (itemsChars flavor first rest) := by
  rw [itemsChars, ← chars_ofRest tablePrefix]
  simp [charsOf, Condition.contains, ofCondition, ofValue, grouped, Operator.symbol,
    Fragment.chars]

/-! ### Operands -/

theorem isToken_charsOf (hflavor : flavor ≠ .mssql) {c : Condition} (hc : c.LegibleOperand) :
    IsToken (charsOf flavor tablePrefix c) := by
  cases hc with
  | column hparam hcolumn =>
    have hword : ∀ {name : String}, IsName name → ∀ c ∈ name.toList, IsWordChar c :=
      fun hname c hc => (hname c hc).imp_right Or.inl
    rw [charsOf_member]
    refine .word (List.forall_mem_append.mpr ⟨hword hparam, ?_⟩)
    exact List.forall_mem_cons.mpr ⟨Or.inr (Or.inr (Or.inr rfl)), hword hcolumn⟩
  | constant hv =>
    rw [charsOf_constant]
    exact isToken_literal hflavor hv

theorem charsOf_member_inj {param param' column column' : String} (hparam : IsName param)
    (hparam' : IsName param')
    (h : charsOf flavor tablePrefix (.member param column) =
      charsOf flavor tablePrefix (.member param' column')) :
    param = param' ∧ column = column' := by
  have hpoint : ∀ {name : String}, IsName name → '.' ∉ name.toList :=
    fun hname hmem => absurd (hname '.' hmem) (by decide)
  rw [charsOf_member, charsOf_member] at h
  obtain ⟨hparams, hcolumns⟩ := append_inj_of_not_mem (hpoint hparam) (hpoint hparam') h
  exact ⟨String.toList_inj.mp hparams, String.toList_inj.mp hcolumns⟩

theorem charsOf_member_ne_literal (hflavor : flavor ≠ .mssql) {param column : String}
    (hparam : IsName param) (hcolumn : IsName column) {v : Scalar} (hv : v.Legible) :
    charsOf flavor tablePrefix (.member param column) ≠ (literal flavor v).toList := by
  intro h
  rw [charsOf_member] at h
  -- Only a string can have a point in it as a column has, but it also has quotes.
  by_cases hstring : ∃ s, v = .string s
  · obtain ⟨s, rfl⟩ := hstring
    have hquote : '\x27' ∈ param.toList ++ '.' :: column.toList := by
      rw [h]
      exact quote_mem_stringLiteral s
    rcases List.mem_append.mp hquote with hquote | hquote
    · exact absurd (hparam _ hquote) (by decide)
    · rcases List.mem_cons.mp hquote with hquote | hquote
      · exact absurd hquote (by decide)
      · exact absurd (hcolumn _ hquote) (by decide)
  · have hpoint : '.' ∈ (literal flavor v).toList := by
      rw [← h]
      exact List.mem_append_right _ List.mem_cons_self
    exact (mem_literal hflavor hv (not_exists.mp hstring) hpoint).2 rfl

theorem charsOf_operand_inj (hflavor : flavor ≠ .mssql) {c c' : Condition}
    (hc : c.LegibleOperand) (hc' : c'.LegibleOperand)
    (h : charsOf flavor tablePrefix c = charsOf flavor tablePrefix c') : c = c' := by
  cases hc with
  | column hparam hcolumn =>
    cases hc' with
    | column hparam' hcolumn' =>
      obtain ⟨rfl, rfl⟩ := charsOf_member_inj hparam hparam' h
      rfl
    | constant hv =>
      rw [charsOf_constant] at h
      exact absurd h (charsOf_member_ne_literal hflavor hparam hcolumn hv)
  | constant hv =>
    cases hc' with
    | column hparam hcolumn =>
      rw [charsOf_constant] at h
      exact absurd h.symm (charsOf_member_ne_literal hflavor hparam hcolumn hv)
    | constant hw =>
      rw [charsOf_constant, charsOf_constant, String.toList_inj] at h
      rw [literal_inj hflavor hv hw h]

theorem charsOf_operand_append_inj (hflavor : flavor ≠ .mssql) {c c' : Condition}
    (hc : c.LegibleOperand) (hc' : c'.LegibleOperand) {xs ys : List Char}
    (h : charsOf flavor tablePrefix c ++ ')' :: xs = charsOf flavor tablePrefix c' ++ ')' :: ys) :
    c = c' ∧ xs = ys := by
  obtain ⟨hchars, hrest⟩ := (isToken_charsOf hflavor hc).append_inj (isToken_charsOf hflavor hc')
    (closes_paren xs) (closes_paren ys) h
  injection hrest with _ hrest
  exact ⟨charsOf_operand_inj hflavor hc hc' hchars, hrest⟩

/-! ### Conditions -/

theorem charsOf_append_ne_operand (hflavor : flavor ≠ .mssql) {c c' : Condition} (hc : c.Legible)
    (hc' : c'.LegibleOperand) {xs ys : List Char} :
    charsOf flavor tablePrefix c ++ xs ≠ charsOf flavor tablePrefix c' ++ ')' :: ys := by
  intro h
  have hgroup : ∃ zs, charsOf flavor tablePrefix c = '(' :: zs := by
    cases hc with
    | connective hop hlhs hrhs => exact ⟨_, charsOf_binary _ _ _⟩
    | comparison hop hlhs hrhs => exact ⟨_, charsOf_binary _ _ _⟩
    | membership hitem hitems => exact ⟨_, charsOf_contains _ _ _⟩
  obtain ⟨zs, hzs⟩ := hgroup
  rw [hzs] at h
  exact (isToken_charsOf hflavor hc').append_ne_group (closes_paren ys) h.symm

/-- A condition can be told from what follows it. -/
theorem charsOf_append_inj (hflavor : flavor ≠ .mssql) {c c' : Condition} (hc : c.Legible)
    (hc' : c'.Legible) {xs ys : List Char}
    (h : charsOf flavor tablePrefix c ++ ')' :: xs = charsOf flavor tablePrefix c' ++ ')' :: ys) :
    c = c' ∧ xs = ys := by
  -- The induction is on the first condition.  A connective is told from the other shapes by how its
  -- left part begins, and a comparison from a membership by its operator.
  induction hc generalizing c' xs ys with
  | connective hop hlhs hrhs ihl ihr =>
    cases hc' with
    | connective hop' hlhs' hrhs' =>
      rw [charsOf_binary, charsOf_binary] at h
      obtain ⟨rfl, rfl, hright⟩ := grouped_append_inj (ihl hlhs') h
      obtain ⟨rfl, hrest⟩ := ihr hrhs' hright
      injection hrest with _ hrest
      exact ⟨rfl, hrest⟩
    | comparison hop' hlhs' hrhs' =>
      rw [charsOf_binary, charsOf_binary] at h
      exact absurd h (grouped_append_ne (charsOf_append_ne_operand hflavor hlhs hlhs'))
    | membership hitem hitems =>
      rw [charsOf_binary, charsOf_contains] at h
      exact absurd h (grouped_append_ne (charsOf_append_ne_operand hflavor hlhs hitem))
  | comparison hop hlhs hrhs =>
    cases hc' with
    | connective hop' hlhs' hrhs' =>
      rw [charsOf_binary, charsOf_binary] at h
      exact absurd h.symm (grouped_append_ne (charsOf_append_ne_operand hflavor hlhs' hlhs))
    | comparison hop' hlhs' hrhs' =>
      rw [charsOf_binary, charsOf_binary] at h
      obtain ⟨rfl, rfl, hright⟩ :=
        grouped_append_inj (charsOf_operand_append_inj hflavor hlhs hlhs') h
      obtain ⟨rfl, hrest⟩ := charsOf_operand_append_inj hflavor hrhs hrhs' hright
      injection hrest with _ hrest
      exact ⟨rfl, hrest⟩
    | membership hitem hitems =>
      rw [charsOf_binary, charsOf_contains] at h
      obtain ⟨-, rfl, -⟩ := grouped_append_inj (charsOf_operand_append_inj hflavor hlhs hitem) h
      cases hop
  | membership hitem hitems =>
    cases hc' with
    | connective hop' hlhs' hrhs' =>
      rw [charsOf_binary, charsOf_contains] at h
      exact absurd h.symm (grouped_append_ne (charsOf_append_ne_operand hflavor hlhs' hitem))
    | comparison hop' hlhs' hrhs' =>
      rw [charsOf_binary, charsOf_contains] at h
      obtain ⟨-, rfl, -⟩ := grouped_append_inj (charsOf_operand_append_inj hflavor hitem hlhs') h
      cases hop'
    | membership hitem' hitems' =>
      rw [charsOf_contains, charsOf_contains] at h
      obtain ⟨rfl, -, hlist⟩ :=
        grouped_append_inj (charsOf_operand_append_inj hflavor hitem hitem') h
      obtain ⟨hsame, hrest⟩ := itemsChars_append_inj hflavor hitems hitems' hlist
      injection hrest with _ hrest
      rw [hsame]
      exact ⟨rfl, hrest⟩

end Sql
end RowGraph
