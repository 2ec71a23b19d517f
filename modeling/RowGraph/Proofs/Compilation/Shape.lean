import RowGraph.Proofs.Compilation.Meaning

/-!
The shapes of compiled conditions.

Whatever is compiled, the outcome is a connective of such outcomes, a comparison of two operands or a
membership of an operand in a list of single values.  What holds of all compiled conditions is proved
along these shapes, whether a comparison was turned round or not.
-/

namespace RowGraph

/-- An item that differs from one that is no list at most in width is no list either. -/
theorem Value.not_isList_of_sameNumber {items items' : List Value}
    (h : List.Forall₂ SameNumber items items') (hflat : ∀ v ∈ items, v.isList = false) :
    ∀ v ∈ items', v.isList = false := by
  induction h with
  | nil => exact hflat
  | @cons v w rest rest' hsame _ ih =>
    rw [List.forall_mem_cons] at hflat
    refine List.forall_mem_cons.mpr ⟨?_, ih hflat.2⟩
    rcases hsame with rfl | ⟨n, -, hn⟩
    · exact hflat.1
    · cases w with
      | scalar w => rfl
      | list items => cases hn

namespace Scope

/-- The conditions that come out of the compiler in the scope. -/
inductive Compiled (s : Scope) : Condition → Prop
  | connective {op : Operator} {lhs rhs : Condition} (hop : op.isLogical = true)
    (hlhs : s.Compiled lhs) (hrhs : s.Compiled rhs) : s.Compiled (.binary op lhs rhs)
  | comparison {op : Operator} {e e' : Expr} {o o' : Operand} {lhs rhs : Condition}
    (hop : op.isComparison = true) (ho : s.operand e = .ok o) (hlhs : o.Unified lhs)
    (ho' : s.operand e' = .ok o') (hrhs : o'.Unified rhs) : s.Compiled (.binary op lhs rhs)
  | membership {e : Expr} {o : Operand} {item : Condition} {items : List Value}
    (ho : s.operand e = .ok o) (hitem : o.Unified item)
    (hflat : ∀ v ∈ items, v.isList = false) :
    s.Compiled (.contains (.constant (.list items)) item)

variable {s : Scope}

theorem compiled_tested {m : Member} {items : List Value} {c : Condition}
    (h : s.Tested m items c) : s.Compiled c := by
  obtain ⟨hflat, o, (ho : s.operand (.member m) = .ok o), hamong⟩ := h
  obtain ⟨items', c', hunified, hitems, rfl⟩ := among_eq_ok hamong
  exact .membership ho hunified (Value.not_isList_of_sameNumber hitems hflat)

theorem compiled_ordered {op : Operator} (hop : op.isComparison = true) {lhs rhs : Expr}
    {o o' : Operand} {c : Condition} (hlhs : s.operand lhs = .ok o) (hrhs : s.operand rhs = .ok o')
    (h : s.Ordered op o o' c) : s.Compiled c := by
  obtain ⟨-, l, r, hunify, rfl⟩ := h
  obtain ⟨hl, hr⟩ := Operand.unify_eq_ok hunify
  exact .comparison hop hlhs hl hrhs hr

theorem compiled_compile {e : Expr} {c : Condition} (h : s.compile e = .ok c) : s.Compiled c := by
  have hcompiles := compile_eq_ok_iff.mp h
  clear h
  induction hcompiles with
  | connective hop _ _ ihl ihr => exact .connective hop ihl ihr
  | comparison hop hlhs hrhs hc =>
    rcases hc with hc | hc
    · exact compiled_ordered hop hlhs hrhs hc
    · rw [← Operator.isComparison_converse] at hop
      exact compiled_ordered hop hrhs hlhs hc
  | isIn h => exact compiled_tested h
  | inList h => exact compiled_tested h

end Scope
end RowGraph
