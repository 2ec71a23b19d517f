import Mathlib.Order.MinMax
import RowGraph.Proofs.Outcome

/-!
Computations that need not have an outcome.

Nothing in a recursion says that it ends, and nothing in a lookup that it finds what is then taken
out.  A computation of this kind has neither a value nor an error where it does not end or does not
find what it takes, which is no failure that a caller could handle.  Where each of its steps has an
outcome, it is the outcome of the steps put together, and a computation of unlimited depth is what
those of limited depth come to.
-/

namespace RowGraph

/-- A computation that may also have no outcome: it does not end, or it takes out what is not
there. -/
abbrev Partial := ExceptT Error Option

namespace Partial

variable {α β : Type}

def of (x : Outcome α) : Partial α :=
  ExceptT.mk (some x)

/-- What has to be there. -/
def present (x : Option α) : Partial α :=
  ExceptT.mk (x.map .ok)

/-- The computation that has no outcome. -/
def nothing : Partial α :=
  ExceptT.mk none

theorem of_ok (a : α) : of (.ok a) = (pure a : Partial α) := rfl

theorem present_some (a : α) : present (some a) = (pure a : Partial α) := rfl

theorem of_bind (x : Outcome α) (f : α → Outcome β) :
    (of x >>= fun a => of (f a)) = of (x >>= f) := by
  cases x with
  | error e => rfl
  | ok a => rfl

/-- A loop over a list has an outcome if each step has one from what the steps keep. -/
theorem foldlM_of {P : β → Prop} {f : β → α → Partial β} {g : β → α → Outcome β} {as : List α}
    {b : β} (start : P b) (step : ∀ a ∈ as, ∀ x, P x → f x a = of (g x a))
    (keep : ∀ a ∈ as, ∀ x y, P x → g x a = .ok y → P y) :
    as.foldlM f b = of (as.foldlM g b) := by
  induction as generalizing b with
  | nil => rfl
  | cons a rest ih =>
    rw [List.foldlM_cons, List.foldlM_cons, step a List.mem_cons_self b start]
    cases hb : g b a with
    | error e => rfl
    | ok y =>
      exact ih (keep a List.mem_cons_self b y start hb)
        (fun a' ha' => step a' (List.mem_cons_of_mem a ha'))
        fun a' ha' => keep a' (List.mem_cons_of_mem a ha')

theorem foldlM_of_forall {f : β → α → Partial β} {g : β → α → Outcome β} {as : List α}
    (step : ∀ a ∈ as, ∀ x, f x a = of (g x a)) (b : β) : as.foldlM f b = of (as.foldlM g b) :=
  foldlM_of (P := fun _ => True) trivial (fun a ha x _ => step a ha x) fun _ _ _ _ _ _ => trivial

theorem mapM_of {f : α → Partial β} {g : α → Outcome β} {as : List α}
    (step : ∀ a ∈ as, f a = of (g a)) : as.mapM f = of (as.mapM g) := by
  induction as with
  | nil => rfl
  | cons a rest ih =>
    rw [List.mapM_cons, List.mapM_cons, step a List.mem_cons_self,
      ih fun a' ha' => step a' (List.mem_cons_of_mem a ha')]
    cases g a with
    | error e => rfl
    | ok b => exact of_bind _ _

/-- Items of a list that pass a test, made into others and put one by one after what is there. -/
theorem select_of (test : α → Outcome Bool) (make : α → Outcome β) (as : List α) (bs : List β) :
    as.foldlM (fun bs a => do
        if ← of (test a) then return bs ++ [← of (make a)] else return bs) bs =
      of (do
        let made ← as.filterMapM fun a => do
          if ← test a then return some (← make a) else return none
        return bs ++ made) := by
  induction as generalizing bs with
  | nil =>
    show (pure bs : Partial (List β)) = pure (bs ++ [])
    rw [List.append_nil]
  | cons a rest ih =>
    rw [List.foldlM_cons, List.filterMapM_cons]
    cases test a with
    | error e => rfl
    | ok passed =>
      cases passed with
      | false => exact ih bs
      | true =>
        cases make a with
        | error e => rfl
        | ok b =>
          refine (ih (bs ++ [b])).trans ?_
          simp

/-- A first entry and the entries after it. -/
theorem cons_of (a : α) (x : Outcome β) (rest : Outcome (List (α × β))) :
    (do
      let entry ← (do return (a, ← of x) : Partial (α × β))
      let entries ← of rest
      return entry :: entries) =
      of (do
        let b ← x
        return (a, b) :: (← rest)) := by
  cases x with
  | error e => rfl
  | ok b => cases rest <;> rfl

/-! ## Growing depth -/

/-- What a sequence of computations comes to: their outcome, if from some one on they have the
same. -/
noncomputable def limit (f : Nat → Partial α) : Partial α :=
  open Classical in
  ExceptT.mk (if h : ∃ x n, ∀ m ≥ n, f m = of x then some h.choose else none)

theorem limit_eq {f : Nat → Partial α} {x : Outcome α} {n : Nat} (h : ∀ m ≥ n, f m = of x) :
    limit f = of x := by
  have hsettles : ∃ x n, ∀ m ≥ n, f m = of x := ⟨x, n, h⟩
  obtain ⟨k, hk⟩ := hsettles.choose_spec
  have hsame := (hk (max k n) (le_max_left k n)).symm.trans (h (max k n) (le_max_right k n))
  rw [limit, dif_pos hsettles]
  exact hsame

/-- Each of the computations has the outcome of the last or none, and from some one on all have
it. -/
structure Deepens (f : Nat → Partial α) (last : Partial α) : Prop where
  within : ∀ n, f n = nothing ∨ f n = last
  reached : ∃ n, ∀ m ≥ n, f m = last

theorem Deepens.limit_eq {f : Nat → Partial α} {last : Partial α} (h : Deepens f last) :
    limit f = last := by
  obtain ⟨n, hn⟩ := h.reached
  cases last with
  | some x => exact Partial.limit_eq hn
  | none =>
    have hnever : ¬∃ x n, ∀ m ≥ n, f m = of x := by
      rintro ⟨x, k, hk⟩
      have hsame := (hk (max k n) (le_max_left k n)).symm.trans (hn (max k n) (le_max_right k n))
      cases hsame
    rw [limit, dif_neg hnever]
    rfl

theorem deepens_const (x : Partial α) : Deepens (fun _ => x) x :=
  ⟨fun _ => Or.inr rfl, 0, fun _ _ => rfl⟩

/-- A sequence deepens when no computation of it has another outcome than the next. -/
theorem exists_deepens {f : Nat → Partial α} (h : ∀ n, f n = nothing ∨ f n = f (n + 1)) :
    ∃ last, Deepens f last := by
  by_cases hoccurs : ∃ n, f n ≠ nothing
  · obtain ⟨n, hn⟩ := hoccurs
    have hlater : ∀ m ≥ n, f m = f n := by
      intro m hm
      induction m, hm using Nat.le_induction with
      | base => rfl
      | succ m _ ih =>
        rcases h m with hnothing | hsame
        · exact absurd (ih ▸ hnothing) hn
        · rw [← hsame, ih]
    refine ⟨f n, fun m => ?_, n, hlater⟩
    rcases Nat.le_total n m with hm | hm
    · exact Or.inr (hlater m hm)
    · induction hm using Nat.decreasingInduction with
      | self => exact Or.inr rfl
      | of_succ k _ ih =>
        rcases h k with hnothing | hsame
        · exact Or.inl hnothing
        · rw [hsame]
          exact ih
  · simp only [not_exists, ne_eq, not_not] at hoccurs
    exact ⟨nothing, fun n => Or.inr (hoccurs n), 0, fun n _ => hoccurs n⟩

theorem Deepens.bind {f : Nat → Partial α} {x : Partial α} {g : Nat → α → Partial β}
    {y : α → Partial β} (hf : Deepens f x) (hg : ∀ a, Deepens (g · a) (y a)) :
    Deepens (fun n => f n >>= g n) (x >>= y) := by
  obtain ⟨n, hn⟩ := hf.reached
  match x with
  | none =>
    refine ⟨fun m => ?_, n, fun m hm => by rw [hn m hm]; rfl⟩
    rcases hf.within m with h | h
    · rw [h]; exact Or.inl rfl
    · rw [h]; exact Or.inl rfl
  | some (.error e) =>
    refine ⟨fun m => ?_, n, fun m hm => by rw [hn m hm]; rfl⟩
    rcases hf.within m with h | h
    · rw [h]; exact Or.inl rfl
    · rw [h]; exact Or.inr rfl
  | some (.ok a) =>
    obtain ⟨k, hk⟩ := (hg a).reached
    refine ⟨fun m => ?_, max n k, fun m hm => ?_⟩
    · rcases hf.within m with h | h
      · rw [h]; exact Or.inl rfl
      · rw [h]; exact (hg a).within m
    · rw [hn m (le_of_max_le_left hm)]
      exact hk m (le_of_max_le_right hm)

theorem Deepens.foldlM {f : Nat → β → α → Partial β} {g : β → α → Partial β}
    (h : ∀ b a, Deepens (f · b a) (g b a)) (as : List α) (b : β) :
    Deepens (fun n => as.foldlM (f n) b) (as.foldlM g b) := by
  induction as generalizing b with
  | nil => exact deepens_const _
  | cons a rest ih =>
    simp only [List.foldlM_cons]
    exact (h b a).bind ih

theorem Deepens.mapM {f : Nat → α → Partial β} {g : α → Partial β}
    (h : ∀ a, Deepens (f · a) (g a)) (as : List α) :
    Deepens (fun n => as.mapM (f n)) (as.mapM g) := by
  induction as with
  | nil => exact deepens_const _
  | cons a rest ih =>
    simp only [List.mapM_cons]
    exact (h a).bind fun b => ih.bind fun bs => deepens_const _

end Partial
end RowGraph
