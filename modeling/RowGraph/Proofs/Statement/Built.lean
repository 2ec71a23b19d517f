import RowGraph.Proofs.Statement.Reachable
import RowGraph.Statement.Basic

/-!
The statements that builders make.

Selections and deletions take conditions, which the compiler makes; insertions and updates take
values alone.  Whatever builder calls led to a statement, the calls in its conditions have the
arguments that their functions take.
-/

namespace RowGraph

/-! ## Builders -/

/-- The deletions that a program can come to have. -/
inductive Delete.Reached (c : Catalogue) : Delete → Prop
  | ofModel {r : Registry} {model : String} {d : Delete} (hr : Registry.Reached c r)
      (h : Delete.ofModel r model = .ok d) : Reached c d
  | byKey {r : Registry} {model : String} {key : Value} {d : Delete} (hr : Registry.Reached c r)
      (h : Delete.byKey r model key = .ok d) : Reached c d
  | restrict {d d' : Delete} {r : Registry} {e : Expr} (hd : Reached c d)
      (hr : Registry.Reached c r) (h : d.restrict r e = .ok d') : Reached c d'

/-- The insertions that a program can come to have.  A row that is refused leaves the batch as it
was. -/
inductive Insert.Reached (c : Catalogue) : Insert → Prop
  | ofRow {d : Descriptor} (row : Row) (hd : c.Describes d) : Reached c (Insert.ofRow d row)
  | push {i j : Insert} {row : Row} (hi : Reached c i) (h : i.push row = .ok j) : Reached c j

inductive Update.Reached (c : Catalogue) : Update → Prop
  | ofModel {d : Descriptor} (hd : c.Describes d) : Reached c (Update.ofModel d)
  | push {u v : Update} {row : Row} {dirty : List String} (hu : Reached c u)
      (h : u.push row dirty = .ok v) : Reached c v

inductive Statement.Reached (c : Catalogue) : Statement → Prop
  | select {s : Select} (h : Select.Reached c s) : Reached c (.select s)
  | insert {i : Insert} (h : Insert.Reached c i) : Reached c (.insert i)
  | update {u : Update} (h : Update.Reached c u) : Reached c (.update u)
  | delete {d : Delete} (h : Delete.Reached c d) : Reached c (.delete d)

/-! ## Calls in conditions -/

namespace Condition

/-- Every call has as many arguments as its function takes. -/
def CallsFit (c : Condition) : Prop :=
  c.badCall? = none

theorem callsFit_binary {op : Operator} {lhs rhs : Condition} :
    (binary op lhs rhs).CallsFit ↔ lhs.CallsFit ∧ rhs.CallsFit := by
  rw [CallsFit, badCall?, Option.orElse_eq_orElse, Option.orElse_eq_or, Option.or_eq_none_iff]
  exact Iff.rfl

theorem callsFit_convert {ty : ColumnType} {c : Condition} (h : c.CallsFit) :
    (convert ty c).CallsFit := by
  rw [CallsFit] at h
  simp [CallsFit, convert, badCall?, badCallIn?, Builtin.arity, h]

theorem callsFit_contains {list item : Condition} (hlist : list.CallsFit) (hitem : item.CallsFit) :
    (contains list item).CallsFit := by
  rw [CallsFit] at hlist hitem
  simp [CallsFit, contains, badCall?, badCallIn?, Builtin.arity, hlist, hitem]

theorem IsColumn.callsFit {param column : String} {c : Condition} (h : c.IsColumn param column) :
    c.CallsFit := by
  cases h with
  | member => rfl
  | parameter => rfl

theorem callsFit_conjoin {existing : Option Condition} {c : Condition}
    (hexisting : ∀ e, existing = some e → e.CallsFit) (hc : c.CallsFit) :
    (conjoin existing c).CallsFit := by
  cases existing with
  | none => exact hc
  | some e => exact callsFit_binary.mpr ⟨hexisting e rfl, hc⟩

end Condition

theorem Operand.Unified.callsFit {o : Operand} {c : Condition} (h : o.Unified c)
    (ho : o.condition.CallsFit) : c.CallsFit := by
  cases h with
  | same => exact ho
  | widened =>
    rw [Operand.widened]
    split
    next => exact Condition.callsFit_convert ho
    next => exact ho
  | constant hc hn hw => rfl

namespace Scope

variable {s : Scope}

theorem callsFit_operand {e : Expr} {o : Operand} (h : s.operand e = .ok o) :
    o.condition.CallsFit := by
  rcases operand_eq_ok h with ⟨m, rfl, hm⟩ | ⟨v, rfl, rfl⟩
  · obtain ⟨param, d, column, -, -, -, hcolumn, -⟩ := memberOperand_eq_ok hm
    exact hcolumn.callsFit
  · rfl

theorem callsFit_compile {e : Expr} {c : Condition} (h : s.compile e = .ok c) : c.CallsFit := by
  have hcompiled := compiled_compile h
  clear h
  induction hcompiled with
  | connective hop hlhs hrhs ihl ihr => exact Condition.callsFit_binary.mpr ⟨ihl, ihr⟩
  | comparison hop ho hlhs ho' hrhs =>
    exact Condition.callsFit_binary.mpr
      ⟨hlhs.callsFit (callsFit_operand ho), hrhs.callsFit (callsFit_operand ho')⟩
  | membership ho hitem hflat =>
    exact Condition.callsFit_contains rfl (hitem.callsFit (callsFit_operand ho))

end Scope

theorem Link.callsFit_build {r : Registry} {ps : Parameters} {left member right : String}
    {on : Option Expr} {l : Link} (h : build r ps left member right on = .ok l) :
    l.condition.CallsFit := by
  obtain ⟨-, -, -, owner, related, relation, -, -, -, -, horigin⟩ := build_cases h
  rcases horigin with ⟨e, -, hcondition, -⟩ | ⟨-, hcondition, -⟩
  · exact Scope.callsFit_compile hcondition
  · rw [hcondition]
    rfl

/-! ## Conditions of statements -/

/-- Every call in the conditions of the statement has as many arguments as its function takes. -/
def Statement.CallsFit (st : Statement) : Prop :=
  ∀ condition ∈ st.conditions, condition.CallsFit

namespace Select

variable {c : Catalogue} {s t : Select}

theorem callsFit_iff : (Statement.select s).CallsFit ↔
    (∀ condition, s.filter = some condition → condition.CallsFit) ∧
      ∀ l ∈ s.links, l.condition.CallsFit := by
  rw [Statement.CallsFit, Statement.conditions, List.forall_mem_append, List.forall_mem_map]
  simp only [Option.mem_toList]

theorem callsFit_ofModel {r : Registry} {model : String} {name : Option String}
    (h : ofModel r model name = .ok s) : (Statement.select s).CallsFit := by
  rw [ofModel, Outcome.bind_eq_ok] at h
  obtain ⟨d, -, h⟩ := h
  rw [Parameters.register_empty] at h
  cases h
  exact fun condition hcondition => absurd hcondition List.not_mem_nil

theorem callsFit_step {r : Registry} {st : Step} (hs : (Statement.select s).CallsFit)
    (h : s.step r st = .ok t) : (Statement.select t).CallsFit := by
  obtain ⟨hfilter, hlinks⟩ := callsFit_iff.mp hs
  rw [callsFit_iff]
  cases st with
  | restrict e =>
    obtain ⟨scope, condition, -, hcondition, rfl⟩ := restrict_eq_ok h
    refine ⟨?_, hlinks⟩
    intro whole hwhole
    cases hwhole
    exact Condition.callsFit_conjoin hfilter (Scope.callsFit_compile hcondition)
  | join j =>
    obtain ⟨owner, model, target, right, params, link, -, -, -, hlink, rfl⟩ := join_cases h
    refine ⟨hfilter, List.forall_mem_append.mpr ⟨hlinks, ?_⟩⟩
    intro l hl
    rw [List.mem_singleton] at hl
    exact hl ▸ Link.callsFit_build hlink
  | columns wanted =>
    obtain ⟨found, -, rfl⟩ := columns_eq_ok h
    exact ⟨hfilter, hlinks⟩

theorem Reached.callsFit (h : Reached c s) : (Statement.select s).CallsFit := by
  induction h with
  | named hr h => exact callsFit_ofModel h
  | step hs hr h ih => exact callsFit_step ih h

end Select

namespace Delete

variable {c : Catalogue} {d d' : Delete}

theorem callsFit_iff : (Statement.delete d).CallsFit ↔
    ∀ condition, d.filter = some condition → condition.CallsFit := by
  rw [Statement.CallsFit, Statement.conditions]
  simp only [Option.mem_toList]

theorem callsFit_ofModel {r : Registry} {model : String} (h : ofModel r model = .ok d) :
    (Statement.delete d).CallsFit := by
  rw [ofModel, Outcome.bind_eq_ok] at h
  obtain ⟨target, -, h⟩ := h
  cases h
  exact fun condition hcondition => absurd hcondition List.not_mem_nil

theorem callsFit_byKey {r : Registry} {model : String} {key : Value}
    (h : byKey r model key = .ok d) : (Statement.delete d).CallsFit := by
  rw [byKey, Outcome.bind_eq_ok] at h
  obtain ⟨start, -, h⟩ := h
  obtain ⟨key, -, h⟩ := Outcome.bind_eq_ok.mp h
  cases h
  rw [callsFit_iff]
  intro condition hcondition
  cases hcondition
  rfl

theorem callsFit_restrict {r : Registry} {e : Expr} (hd : (Statement.delete d).CallsFit)
    (h : d.restrict r e = .ok d') : (Statement.delete d').CallsFit := by
  rw [restrict, Outcome.bind_eq_ok] at h
  obtain ⟨scope, -, h⟩ := h
  obtain ⟨condition, hcondition, h⟩ := Outcome.bind_eq_ok.mp h
  cases h
  rw [callsFit_iff] at hd ⊢
  intro whole hwhole
  cases hwhole
  exact Condition.callsFit_conjoin hd (Scope.callsFit_compile hcondition)

theorem Reached.callsFit (h : Reached c d) : (Statement.delete d).CallsFit := by
  induction h with
  | ofModel hr h => exact callsFit_ofModel h
  | byKey hr h => exact callsFit_byKey h
  | restrict hd hr h ih => exact callsFit_restrict ih h

end Delete

theorem Statement.Reached.callsFit {c : Catalogue} {st : Statement} (h : st.Reached c) :
    st.CallsFit := by
  cases h with
  | select h => exact h.callsFit
  | delete h => exact h.callsFit
  | insert h => exact fun condition hcondition => absurd hcondition List.not_mem_nil
  | update h => exact fun condition hcondition => absurd hcondition List.not_mem_nil

end RowGraph
