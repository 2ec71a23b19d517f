import RowGraph.Proofs.Lists
import RowGraph.Proofs.Statement.Scoping

/-!
What the outcome of a condition depends on.

The parameters of a condition are those that its leaves name, each once and in the order in which it
is first named.  A conversion has a root of its own, and this is always the parameter that is named
first inside it, so it makes no difference to the list.  Rows of other parameters do not matter to
evaluation: where two inputs agree on the listed ones, the condition has the same value or the same
error.
-/

namespace RowGraph
namespace Condition

/-! ## The parameters that leaves name -/

/-- The parameters that the columns and whole parameters in a condition name, from left to right. -/
def named (c : Condition) : List String :=
  c.columns.map Prod.fst

/-- The column that an operand reads is the first one in it. -/
theorem head?_columns_of_column? {place : String × String} :
    (c : Condition) → c.column? = some place → c.columns.head? = some place
  | .member param column, h => h
  | .parameter param key, h => h
  | .call (.convert ty) (c :: rest), h => by
    have hfirst := head?_columns_of_column? c h
    rw [columns, columnsOf, List.head?_append, hfirst, Option.some_or]

mutual

theorem eraseDups_roots : (c : Condition) → c.roots.eraseDups = c.named.eraseDups
  | .binary op lhs rhs => by
    rw [roots, named, columns, List.map_append]
    exact eraseDups_append_congr (eraseDups_roots lhs) (eraseDups_roots rhs)
  | .call f args => by
    have hargs := eraseDups_rootsOf args
    rw [roots, eraseDups_append_congr rfl hargs, named, columns]
    cases hroot : (call f args).root? with
    | none => rfl
    | some param =>
      obtain ⟨place, hplace, rfl⟩ := Option.map_eq_some_iff.mp hroot
      have hhead := head?_columns_of_column? _ hplace
      rw [columns] at hhead
      obtain ⟨rest, hrest⟩ := List.head?_eq_some_iff.mp hhead
      simp [hrest, List.eraseDups_cons]
  | .constant v => rfl
  | .member param column => rfl
  | .parameter param key => rfl

theorem eraseDups_rootsOf : (cs : List Condition) →
    (rootsOf cs).eraseDups = ((columnsOf cs).map Prod.fst).eraseDups
  | [] => rfl
  | c :: rest => by
    rw [rootsOf, columnsOf, List.map_append]
    exact eraseDups_append_congr (eraseDups_roots c) (eraseDups_rootsOf rest)

end

/-! ## Evaluation on inputs that agree -/

/-- A condition has one outcome on all inputs that agree on the columns it reads. -/
theorem eval_congr {input input' : Input} :
    (c : Condition) → (∀ place ∈ c.columns, input place.1 place.2 = input' place.1 place.2) →
      c.eval input = c.eval input'
  | .binary op lhs rhs, h => by
    have hl := eval_congr lhs fun place hplace => h place (List.mem_append_left _ hplace)
    have hr := eval_congr rhs fun place hplace => h place (List.mem_append_right _ hplace)
    cases op <;> simp only [eval, hl, hr]
  | .call .contains [list, item], h => by
    simp only [columns, columnsOf, List.append_nil, List.forall_mem_append] at h
    rw [eval, eval, eval_congr list h.1, eval_congr item h.2]
  | .call (.convert ty) [c], h => by
    simp only [columns, columnsOf, List.append_nil] at h
    rw [eval, eval, eval_congr c h]
  | .call .contains [], _ | .call .contains [_], _ | .call .contains (_ :: _ :: _ :: _), _ => rfl
  | .call (.convert _) [], _ | .call (.convert _) (_ :: _ :: _), _ => rfl
  | .constant v, _ => rfl
  | .member param column, h | .parameter param column, h => by
    rw [eval, eval, read, read, h (param, column) List.mem_cons_self]

/-- The parameters of a condition are those that its leaves name, each once and in the order in
which they first occur, and nothing else matters to evaluation: where two inputs agree on every
column of these parameters, the condition has the same value or the same error on both, and so it
has as a predicate. -/
theorem params_support (c : Condition) :
    FirstOccurrences c.named c.params ∧
      ∀ input input' : Input,
        (∀ param ∈ c.params, ∀ column, input param column = input' param column) →
          c.eval input = c.eval input' ∧ c.evalBool input = c.evalBool input' := by
  constructor
  · rw [params, eraseDups_roots]
    exact firstOccurrences_eraseDups c.named
  · intro input input' hagree
    have heval : c.eval input = c.eval input' := by
      refine eval_congr c fun place hplace => hagree place.1 ?_ place.2
      exact mem_params_iff.mpr ⟨place.2, hplace⟩
    exact ⟨heval, by rw [evalBool, evalBool, heval]⟩

/-! ### A call that cannot be evaluated -/

/-- A comparison, and a conversion of two arguments. -/
def oddConversion : Condition :=
  .binary .or (.eq (.convert .i64 (.member "b" "number")) (.parameter "a" "id"))
    (.call (.convert .bool) [.member "c" "flag", .member "a" "flag"])

def oddRows : Assignment :=
  [("a", .ofList [("id", .i64 2)]), ("b", .ofList [("number", .i16 1)]), ("c", .empty)]

/-- The same rows beside one of a parameter that the condition does not name. -/
def moreOddRows : Assignment :=
  ("d", .ofList [("id", .i64 2)]) :: oddRows

theorem params_support_oddConversion :
    oddConversion.params = ["b", "a", "c"] ∧
      oddRows.input "d" "id" = none ∧ moreOddRows.input "d" "id" = some (.i64 2) ∧
      oddConversion.evalBool oddRows.input =
        .error (.unsupportedExpression (.evaluatedCall (.convert .bool) 2)) ∧
      oddConversion.evalBool moreOddRows.input =
        .error (.unsupportedExpression (.evaluatedCall (.convert .bool) 2)) := by
  have hparams : oddConversion.params = ["b", "a", "c"] := by decide
  have herror : oddConversion.evalBool oddRows.input =
      .error (.unsupportedExpression (.evaluatedCall (.convert .bool) 2)) := by cbv
  have hagree : ∀ param ∈ oddConversion.params, ∀ column,
      oddRows.input param column = moreOddRows.input param column := by
    rw [hparams]
    intro param hparam column
    simp only [List.mem_cons, List.not_mem_nil, or_false] at hparam
    rcases hparam with rfl | rfl | rfl <;> rfl
  obtain ⟨-, hsame⟩ := (params_support oddConversion).2 oddRows.input moreOddRows.input hagree
  exact ⟨hparams, by cbv, by cbv, herror, hsame ▸ herror⟩

end Condition
end RowGraph
