import RowGraph.Condition.Eval
import RowGraph.Proofs.Lists
import RowGraph.Proofs.Loop
import RowGraph.Proofs.Outcome

/-!
Conditions taken apart at their conjunctions.

What must hold for a condition is found at the end of the ways that lead down through conjunctions
and through nothing else.  A search with a stack comes upon these parts from left to right, in one
turn for each of them and one for each conjunction.  The parts in their order are all that is left of
a condition when the bracketing of its conjunctions is forgotten, and to evaluate them one after
another, up to the first that does not hold, is to evaluate the condition.
-/

namespace RowGraph
namespace Condition

def isConjunction : Condition → Bool
  | binary .and _ _ => true
  | _ => false

/-- A condition is a conjunction of two others, or a part that is not taken apart. -/
theorem conjunction_induction {P : Condition → Prop}
    (and : ∀ lhs rhs, P lhs → P rhs → P (Condition.and lhs rhs))
    (part : ∀ c, c.isConjunction = false → P c) (c : Condition) : P c := by
  fun_induction conjuncts c with
  | case1 lhs rhs ihl ihr => exact and lhs rhs ihl ihr
  | case2 c hnot =>
    refine part c ?_
    unfold isConjunction
    split
    next => exact absurd rfl (hnot _ _)
    next => rfl

theorem conjuncts_of_not_isConjunction {c : Condition} (h : c.isConjunction = false) :
    c.conjuncts = [c] := by
  unfold conjuncts
  split
  next => cases h
  next => rfl

/-! ## Ways through conjunctions -/

/-- The part of a condition at the end of a way.  At a conjunction a way goes on to the left (`false`)
or to the right (`true`), and it leads through nothing else. -/
def part? : List Bool → Condition → Option Condition
  | [], c => some c
  | right :: way, c =>
    match c with
    | binary .and lhs rhs => if right then rhs.part? way else lhs.part? way
    | _ => none

/-- The items are the parts of the condition that ways through its conjunctions lead to and that are
not conjunctions themselves, from left to right. -/
def HasParts (c : Condition) (parts : List Condition) : Prop :=
  ∃ ways : List (List Bool), ways.Pairwise (· < ·) ∧
    (∀ way, way ∈ ways ↔ ∃ part, c.part? way = some part ∧ part.isConjunction = false) ∧
    ways.map (c.part? ·) = parts.map some

theorem part?_cons_of_not_isConjunction {c : Condition} (h : c.isConjunction = false)
    (right : Bool) (way : List Bool) : c.part? (right :: way) = none := by
  rw [part?]
  rintro lhs rhs rfl
  cases h

theorem hasParts_self {c : Condition} (h : c.isConjunction = false) : c.HasParts [c] := by
  refine ⟨[[]], List.pairwise_singleton _ _, fun way => ?_, rfl⟩
  rw [List.mem_singleton]
  constructor
  · rintro rfl
    exact ⟨c, rfl, h⟩
  · rintro ⟨part, hpart, -⟩
    cases way with
    | nil => rfl
    | cons right way =>
      rw [part?_cons_of_not_isConjunction h] at hpart
      cases hpart

/-- The ways into a conjunction are those into its left side and then those into its right side. -/
theorem HasParts.and {lhs rhs : Condition} {parts others : List Condition}
    (hl : lhs.HasParts parts) (hr : rhs.HasParts others) :
    (Condition.and lhs rhs).HasParts (parts ++ others) := by
  obtain ⟨ways, hsorted, hmem, hparts⟩ := hl
  obtain ⟨ways', hsorted', hmem', hparts'⟩ := hr
  refine ⟨ways.map (false :: ·) ++ ways'.map (true :: ·), ?_, fun way => ?_, ?_⟩
  · refine List.pairwise_append.mpr ⟨?_, ?_, ?_⟩
    · exact hsorted.map _ fun _ _ hlt => List.cons_lt_cons_iff.mpr (Or.inr ⟨rfl, hlt⟩)
    · exact hsorted'.map _ fun _ _ hlt => List.cons_lt_cons_iff.mpr (Or.inr ⟨rfl, hlt⟩)
    · intro left hleft right hright
      obtain ⟨way, -, rfl⟩ := List.mem_map.mp hleft
      obtain ⟨way', -, rfl⟩ := List.mem_map.mp hright
      exact List.cons_lt_cons_iff.mpr (Or.inl rfl)
  · rw [List.mem_append, List.mem_map, List.mem_map]
    cases way with
    | nil => simp [Condition.and, part?, isConjunction]
    | cons right way =>
      cases right with
      | false => simp [Condition.and, part?, hmem]
      | true => simp [Condition.and, part?, hmem']
  · rw [List.map_append, List.map_append, List.map_map, List.map_map, ← hparts, ← hparts']
    rfl

theorem hasParts_conjuncts (c : Condition) : c.HasParts c.conjuncts := by
  induction c using conjunction_induction with
  | and lhs rhs ihl ihr => exact ihl.and ihr
  | part c h =>
    rw [conjuncts_of_not_isConjunction h]
    exact hasParts_self h

/-- The order of the ways leaves no choice in the order of the parts. -/
theorem HasParts.unique {c : Condition} {parts others : List Condition} (h : c.HasParts parts)
    (h' : c.HasParts others) : parts = others := by
  obtain ⟨ways, hsorted, hmem, hparts⟩ := h
  obtain ⟨ways', hsorted', hmem', hparts'⟩ := h'
  have hways : ways = ways' :=
    eq_of_pairwise_lt hsorted hsorted' fun way => (hmem way).trans (hmem' way).symm
  rw [hways] at hparts
  exact List.map_inj_right (fun _ _ => Option.some.inj) |>.mp (hparts.symm.trans hparts')

theorem hasParts_iff {c : Condition} {parts : List Condition} :
    c.HasParts parts ↔ parts = c.conjuncts := by
  constructor
  · exact fun h => h.unique (hasParts_conjuncts c)
  · rintro rfl
    exact hasParts_conjuncts c

/-! ## The search with a stack -/

/-- A search for the parts of a condition: those still to be looked at, the next one first, and
those found so far. -/
structure Search where
  pending : List Condition
  found : List Condition

/-- A turn takes the next part apart if it is a conjunction, and has found it otherwise. -/
def Search.turn : Search → Option Search
  | ⟨[], _⟩ => none
  | ⟨c :: pending, found⟩ =>
    match c with
    | binary .and lhs rhs => some ⟨lhs :: rhs :: pending, found⟩
    | c => some ⟨pending, found ++ [c]⟩

theorem Search.turn_of_not_isConjunction {c : Condition} (h : c.isConjunction = false)
    (pending found : List Condition) :
    turn ⟨c :: pending, found⟩ = some ⟨pending, found ++ [c]⟩ := by
  rw [turn]
  rintro lhs rhs rfl
  cases h

/-- Whatever is pending below a condition, the search finds the parts of the condition first. -/
theorem Search.endsAfter_cons (c : Condition) {pending found : List Condition} {n : Nat}
    {last : Search} (h : EndsAfter turn n ⟨pending, found ++ c.conjuncts⟩ last) :
    EndsAfter turn (2 * c.conjuncts.length - 1 + n) ⟨c :: pending, found⟩ last := by
  induction c using conjunction_induction generalizing pending found n with
  | and lhs rhs ihl ihr =>
    rw [conjuncts_and, ← List.append_assoc] at h
    have hsides := ihl (ihr h)
    have hl := List.length_pos_of_ne_nil lhs.conjuncts_ne_nil
    have hr := List.length_pos_of_ne_nil rhs.conjuncts_ne_nil
    have hturns : 2 * (lhs.conjuncts ++ rhs.conjuncts).length - 1 + n =
        2 * lhs.conjuncts.length - 1 + (2 * rhs.conjuncts.length - 1 + n) + 1 := by
      rw [List.length_append]
      omega
    rw [conjuncts_and, hturns]
    exact .next rfl hsides
  | part c hpart =>
    rw [conjuncts_of_not_isConjunction hpart] at h ⊢
    rw [List.length_singleton, Nat.add_comm]
    exact .next (turn_of_not_isConjunction hpart pending found) h

theorem Search.endsAfter_conjuncts (c : Condition) :
    EndsAfter turn (2 * c.conjuncts.length - 1) ⟨[c], []⟩ ⟨[], c.conjuncts⟩ :=
  endsAfter_cons c (.here rfl)

/-! ## Bracketing -/

/-- The conditions differ at most in how their conjunctions are bracketed. -/
inductive Regrouped : Condition → Condition → Prop
  | refl (c : Condition) : Regrouped c c
  | symm {c d : Condition} (h : Regrouped c d) : Regrouped d c
  | trans {c d e : Condition} (h : Regrouped c d) (h' : Regrouped d e) : Regrouped c e
  | and {lhs lhs' rhs rhs' : Condition} (hl : Regrouped lhs lhs') (hr : Regrouped rhs rhs') :
      Regrouped (.and lhs rhs) (.and lhs' rhs')
  | assoc (a b c : Condition) : Regrouped (.and (.and a b) c) (.and a (.and b c))

theorem Regrouped.conjuncts_eq {c d : Condition} (h : Regrouped c d) :
    c.conjuncts = d.conjuncts := by
  induction h with
  | refl c => rfl
  | symm _ ih => exact ih.symm
  | trans _ _ ih ih' => exact ih.trans ih'
  | and _ _ ihl ihr => rw [conjuncts_and, conjuncts_and, ihl, ihr]
  | assoc a b c => simp only [conjuncts_and, List.append_assoc]

theorem Regrouped.foldl_and {c d : Condition} (h : Regrouped c d) (parts : List Condition) :
    Regrouped (parts.foldl .and c) (parts.foldl .and d) := by
  induction parts generalizing c d with
  | nil => exact h
  | cons part rest ih => exact ih (h.and (.refl part))

/-- A conjunction in front of others can be moved inside the first of them. -/
theorem Regrouped.and_foldl_and (c first : Condition) (rest : List Condition) :
    Regrouped (.and c (rest.foldl .and first)) (rest.foldl .and (.and c first)) := by
  induction rest generalizing first with
  | nil => exact .refl _
  | cons part rest ih =>
    exact (ih (.and first part)).trans ((Regrouped.assoc c first part).symm.foldl_and rest)

/-- A condition is, but for bracketing, the conjunction of its parts from left to right. -/
theorem exists_regrouped_foldl_and (c : Condition) :
    ∃ first rest, c.conjuncts = first :: rest ∧ Regrouped c (rest.foldl .and first) := by
  induction c using conjunction_induction with
  | and lhs rhs ihl ihr =>
    obtain ⟨first, rest, hl, hlhs⟩ := ihl
    obtain ⟨first', rest', hr, hrhs⟩ := ihr
    refine ⟨first, rest ++ first' :: rest', by rw [conjuncts_and, hl, hr, List.cons_append], ?_⟩
    rw [List.foldl_append, List.foldl_cons]
    exact (hlhs.and hrhs).trans (.and_foldl_and (rest.foldl .and first) first' rest')
  | part c h => exact ⟨c, [], conjuncts_of_not_isConjunction h, .refl c⟩

theorem regrouped_iff {c d : Condition} : Regrouped c d ↔ c.conjuncts = d.conjuncts := by
  refine ⟨Regrouped.conjuncts_eq, fun h => ?_⟩
  obtain ⟨first, rest, hc, hfirst⟩ := c.exists_regrouped_foldl_and
  obtain ⟨first', rest', hd, hfirst'⟩ := d.exists_regrouped_foldl_and
  rw [hc, hd] at h
  cases h
  exact hfirst.trans hfirst'.symm

/-! ## Evaluation part by part -/

/-- A condition is evaluated as its parts are, one after another, up to the first that does not
hold or cannot be evaluated. -/
theorem evalBool_eq_allM (input : Input) (c : Condition) :
    c.evalBool input = c.conjuncts.allM (·.evalBool input) := by
  induction c using conjunction_induction with
  | and lhs rhs ihl ihr => rw [evalBool_and, conjuncts_and, Outcome.allM_append, ihl, ihr]
  | part c h => rw [conjuncts_of_not_isConjunction h, Outcome.allM_singleton]

theorem evalBool_eq_ok_true_iff {input : Input} {c : Condition} :
    c.evalBool input = .ok true ↔ ∀ part ∈ c.conjuncts, part.evalBool input = .ok true := by
  rw [evalBool_eq_allM, Outcome.allM_eq_ok_true]

/-- Where a condition holds, so does everything that must hold for it. -/
theorem evalBool_of_mem_conjuncts {input : Input} {c part : Condition}
    (h : c.evalBool input = .ok true) (hpart : part ∈ c.conjuncts) :
    part.evalBool input = .ok true :=
  evalBool_eq_ok_true_iff.mp h part hpart

/-! ## Filters -/

/-- What must hold for a filter; nothing if there is none. -/
def conjunctsOf (existing : Option Condition) : List Condition :=
  existing.toList.flatMap conjuncts

theorem conjunctsOf_conjoin (existing : Option Condition) (c : Condition) :
    conjunctsOf (some (conjoin existing c)) = conjunctsOf existing ++ c.conjuncts := by
  cases existing with
  | none => simp [conjunctsOf, conjoin]
  | some e => simp [conjunctsOf, conjoin]

end Condition
end RowGraph
