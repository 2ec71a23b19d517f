import Mathlib.Data.List.Forall2
import RowGraph.Error.Basic

/-!
Outcomes taken apart.

A computation that succeeded did so step by step.  `bind_eq_ok` gives the steps back, and
`foldlM_induction` carries an invariant through a loop that may fail.
-/

namespace RowGraph
namespace Outcome

variable {α β : Type}

/-- A sequence succeeds exactly when both of its parts do. -/
theorem bind_eq_ok {x : Outcome α} {f : α → Outcome β} {b : β} :
    x >>= f = .ok b ↔ ∃ a, x = .ok a ∧ f a = .ok b := by
  constructor
  · intro h
    match x, h with
    | .ok a, h => exact ⟨a, rfl, h⟩
  · rintro ⟨a, rfl, h⟩
    exact h

@[simp] theorem ok_bind (a : α) (f : α → Outcome β) : (Except.ok a : Outcome α) >>= f = f a := rfl

@[simp] theorem pure_eq_ok {a b : α} : (pure a : Outcome α) = .ok b ↔ a = b := by
  constructor
  · intro h
    injection h
  · rintro rfl
    rfl

/-- What every step of a loop keeps, the whole loop keeps. -/
theorem foldlM_induction {P : β → Prop} {f : β → α → Outcome β} {as : List α} {b c : β}
    (step : ∀ a ∈ as, ∀ x y, P x → f x a = .ok y → P y) (hb : P b)
    (h : as.foldlM f b = .ok c) : P c := by
  induction as generalizing b with
  | nil =>
    cases h
    exact hb
  | cons a rest ih =>
    rw [List.foldlM_cons, bind_eq_ok] at h
    obtain ⟨x, hx, hrest⟩ := h
    exact ih (fun a' ha' => step a' (List.mem_cons_of_mem a ha'))
      (step a List.mem_cons_self b x hb hx) hrest

/-- What holds at the start, and after each further item of what came before, holds at the end. -/
theorem foldlM_prefix_induction {P : List α → β → Prop} {f : β → α → Outcome β} {as : List α}
    {b c : β} (start : P [] b)
    (step : ∀ done a x y, P done x → f x a = .ok y → P (done ++ [a]) y)
    (h : as.foldlM f b = .ok c) : P as c := by
  suffices hgen : ∀ (rest done : List α) (x : β), P done x → rest.foldlM f x = .ok c →
      P (done ++ rest) c from hgen as [] b start h
  intro rest
  induction rest with
  | nil =>
    intro done x hx hfold
    cases hfold
    rw [List.append_nil]
    exact hx
  | cons a rest ih =>
    intro done x hx hfold
    rw [List.foldlM_cons, bind_eq_ok] at hfold
    obtain ⟨y, hy, hrest⟩ := hfold
    have hnext := ih (done ++ [a]) y (step done a x y hx hy) hrest
    rw [List.append_assoc] at hnext
    exact hnext

/-- A map over a list succeeds exactly when it does at every item. -/
theorem mapM_eq_ok {f : α → Outcome β} {as : List α} {bs : List β} :
    as.mapM f = .ok bs ↔ List.Forall₂ (fun a b => f a = .ok b) as bs := by
  induction as generalizing bs with
  | nil =>
    rw [List.mapM_nil, pure_eq_ok, List.forall₂_nil_left_iff]
    exact eq_comm
  | cons a rest ih =>
    rw [List.mapM_cons, bind_eq_ok, List.forall₂_cons_left_iff]
    constructor
    · rintro ⟨b, hb, h⟩
      rw [bind_eq_ok] at h
      obtain ⟨bs', hbs, h⟩ := h
      rw [pure_eq_ok] at h
      exact ⟨b, bs', hb, ih.mp hbs, h.symm⟩
    · rintro ⟨b, bs', hb, hbs, rfl⟩
      refine ⟨b, hb, ?_⟩
      rw [bind_eq_ok]
      exact ⟨bs', ih.mpr hbs, rfl⟩

/-- Every result of a map over a list is that of some item. -/
theorem exists_of_mem_mapM {f : α → Outcome β} {as : List α} {bs : List β}
    (h : as.mapM f = .ok bs) {b : β} (hb : b ∈ bs) : ∃ a ∈ as, f a = .ok b := by
  rw [mapM_eq_ok] at h
  induction h with
  | nil => cases hb
  | @cons a b' as bs ha _ ih =>
    rcases List.mem_cons.mp hb with rfl | hb
    · exact ⟨a, List.mem_cons_self, ha⟩
    · obtain ⟨a', ha', hfa'⟩ := ih hb
      exact ⟨a', List.mem_cons_of_mem a ha', hfa'⟩

/-- A loop that none of its items moves stays where it is. -/
theorem foldlM_of_fixed {f : β → α → Outcome β} {as : List α} {b : β}
    (fixed : ∀ a ∈ as, f b a = .ok b) : as.foldlM f b = .ok b := by
  induction as with
  | nil => rfl
  | cons a rest ih =>
    rw [List.foldlM_cons, fixed a List.mem_cons_self, ok_bind]
    exact ih fun a' ha' => fixed a' (List.mem_cons_of_mem a ha')

/-- A loop succeeds when every step does from what holds before it. -/
theorem exists_foldlM {P : List α → β → Prop} {f : β → α → Outcome β} (as : List α) {b : β}
    (start : P [] b)
    (step : ∀ done a rest x, as = done ++ a :: rest → P done x →
      ∃ y, f x a = .ok y ∧ P (done ++ [a]) y) :
    ∃ c, as.foldlM f b = .ok c ∧ P as c := by
  suffices hgen : ∀ (rest done : List α) (x : β), as = done ++ rest → P done x →
      ∃ c, rest.foldlM f x = .ok c ∧ P as c from hgen as [] b rfl start
  intro rest
  induction rest with
  | nil =>
    intro done x has hx
    rw [List.append_nil] at has
    exact ⟨x, rfl, has ▸ hx⟩
  | cons a rest ih =>
    intro done x has hx
    obtain ⟨y, hy, hdone⟩ := step done a rest x has hx
    rw [List.foldlM_cons, hy]
    exact ih (done ++ [a]) y (by rw [has, List.append_assoc]; rfl) hdone

/-- A map over a list succeeds when it does at every item, and the results keep what each of them
keeps of its item. -/
theorem exists_mapM {γ : Type} {Q : β → Prop} {f : α → Outcome β} (as : List α) (key : β → γ)
    (key' : α → γ) (step : ∀ a ∈ as, ∃ b, f a = .ok b ∧ key b = key' a ∧ Q b) :
    ∃ bs, as.mapM f = .ok bs ∧ bs.map key = as.map key' ∧ ∀ b ∈ bs, Q b := by
  induction as with
  | nil => exact ⟨[], rfl, rfl, by simp⟩
  | cons a rest ih =>
    obtain ⟨b, hb, hkey, hq⟩ := step a List.mem_cons_self
    obtain ⟨bs, hbs, hkeys, hall⟩ := ih fun a' ha' => step a' (List.mem_cons_of_mem a ha')
    refine ⟨b :: bs, ?_, by rw [List.map_cons, List.map_cons, hkey, hkeys], ?_⟩
    · rw [List.mapM_cons, hb, hbs]
      rfl
    · exact List.forall_mem_cons.mpr ⟨hq, hall⟩

/-- A selection from a list succeeds when at every item it either leaves the item out or gives
something for it. -/
theorem exists_filterMapM {γ : Type} {p : α → Bool} {Q : β → Prop} {f : α → Outcome (Option β)}
    (as : List α) (key : β → γ) (key' : α → γ) (skip : ∀ a ∈ as, p a = false → f a = .ok none)
    (take : ∀ a ∈ as, p a = true → ∃ b, f a = .ok (some b) ∧ key b = key' a ∧ Q b) :
    ∃ bs, as.filterMapM f = .ok bs ∧ bs.map key = (as.filter p).map key' ∧ ∀ b ∈ bs, Q b := by
  induction as with
  | nil => exact ⟨[], rfl, rfl, by simp⟩
  | cons a rest ih =>
    obtain ⟨bs, hbs, hkeys, hall⟩ := ih (fun a' ha' => skip a' (List.mem_cons_of_mem a ha'))
      fun a' ha' => take a' (List.mem_cons_of_mem a ha')
    rw [List.filterMapM_cons]
    cases ha : p a with
    | false =>
      rw [skip a List.mem_cons_self ha, List.filter_cons_of_neg (by simp [ha])]
      exact ⟨bs, hbs, hkeys, hall⟩
    | true =>
      obtain ⟨b, hb, hkey, hq⟩ := take a List.mem_cons_self ha
      refine ⟨b :: bs, ?_, ?_, List.forall_mem_cons.mpr ⟨hq, hall⟩⟩
      · rw [hb, ok_bind]
        simp only [hbs]
        rfl
      · rw [List.filter_cons_of_pos ha, List.map_cons, List.map_cons, hkey, hkeys]

/-- What a selection from a list gave, when at every item that it came to it either left the item
out or gave something for it. -/
theorem map_of_filterMapM {γ : Type} {p : α → Bool} {Q : β → Prop} {f : α → Outcome (Option β)}
    {as : List α} {bs : List β} (key : β → γ) (key' : α → γ)
    (step : ∀ a o, f a = .ok o → (p a = false ∧ o = none) ∨
      ∃ b, o = some b ∧ p a = true ∧ key b = key' a ∧ Q b)
    (h : as.filterMapM f = .ok bs) : bs.map key = (as.filter p).map key' ∧ ∀ b ∈ bs, Q b := by
  induction as generalizing bs with
  | nil =>
    cases h
    exact ⟨rfl, by simp⟩
  | cons a rest ih =>
    rw [List.filterMapM_cons, bind_eq_ok] at h
    obtain ⟨o, ho, h⟩ := h
    rcases step a o ho with ⟨ha, rfl⟩ | ⟨b, rfl, ha, hkey, hq⟩
    · rw [List.filter_cons_of_neg (by simp [ha])]
      exact ih h
    · obtain ⟨bs', hrest, h⟩ := bind_eq_ok.mp h
      cases h
      obtain ⟨hkeys, hall⟩ := ih hrest
      rw [List.filter_cons_of_pos ha, List.map_cons, List.map_cons, hkey, hkeys]
      exact ⟨rfl, List.forall_mem_cons.mpr ⟨hq, hall⟩⟩

/-- Every result of a selection from a list is what some item gave. -/
theorem exists_of_mem_filterMapM {f : α → Outcome (Option β)} {as : List α} {bs : List β}
    (h : as.filterMapM f = .ok bs) {b : β} (hb : b ∈ bs) : ∃ a ∈ as, f a = .ok (some b) := by
  induction as generalizing bs with
  | nil =>
    cases h
    cases hb
  | cons a rest ih =>
    rw [List.filterMapM_cons, bind_eq_ok] at h
    obtain ⟨o, ho, h⟩ := h
    have hrest : ∀ {bs : List β}, rest.filterMapM f = .ok bs → b ∈ bs →
        ∃ a' ∈ a :: rest, f a' = .ok (some b) := by
      intro bs h hb
      obtain ⟨a', ha', hfa'⟩ := ih h hb
      exact ⟨a', List.mem_cons_of_mem a ha', hfa'⟩
    cases o with
    | none => exact hrest h hb
    | some b' =>
      obtain ⟨bs', hbs', h⟩ := bind_eq_ok.mp h
      cases h
      rcases List.mem_cons.mp hb with rfl | hb
      · exact ⟨a, List.mem_cons_self, ho⟩
      · exact hrest hbs' hb

/-- A map over other items, when at each of them it gives what the item it stands for gives. -/
theorem mapM_map {α' β' : Type} {g : α → α'} {h : β → β'} {f : α → Outcome β}
    {f' : α' → Outcome β'} {as : List α} (step : ∀ a ∈ as, f' (g a) = h <$> f a) :
    (as.map g).mapM f' = List.map h <$> as.mapM f := by
  induction as with
  | nil => rfl
  | cons a rest ih =>
    rw [List.map_cons, List.mapM_cons, List.mapM_cons, step a List.mem_cons_self,
      ih fun a' ha' => step a' (List.mem_cons_of_mem a ha')]
    cases f a with
    | error e => rfl
    | ok b => cases rest.mapM f <;> rfl

theorem filterMapM_map {α' β' : Type} {g : α → α'} {h : β → β'} {f : α → Outcome (Option β)}
    {f' : α' → Outcome (Option β')} {as : List α}
    (step : ∀ a ∈ as, f' (g a) = Option.map h <$> f a) :
    (as.map g).filterMapM f' = List.map h <$> as.filterMapM f := by
  induction as with
  | nil => rfl
  | cons a rest ih =>
    rw [List.map_cons, List.filterMapM_cons, List.filterMapM_cons, step a List.mem_cons_self,
      ih fun a' ha' => step a' (List.mem_cons_of_mem a ha')]
    cases f a with
    | error e => rfl
    | ok o =>
      cases o with
      | none => rfl
      | some b => cases rest.filterMapM f <;> rfl

theorem foldlM_congr {f f' : β → α → Outcome β} {as : List α} (h : ∀ a ∈ as, ∀ b, f b a = f' b a)
    (b : β) : as.foldlM f b = as.foldlM f' b := by
  induction as generalizing b with
  | nil => rfl
  | cons a rest ih =>
    rw [List.foldlM_cons, List.foldlM_cons, h a List.mem_cons_self]
    exact congrArg _ (funext fun next => ih (fun a' ha' => h a' (List.mem_cons_of_mem a ha')) next)

/-- A loop over other items from another start, when each of its steps goes as the step it stands
for. -/
theorem foldlM_hom {α' β' : Type} {g : α → α'} {h : β → β'} {f : β → α → Outcome β}
    {f' : β' → α' → Outcome β'} (step : ∀ b a, f' (h b) (g a) = h <$> f b a) (as : List α)
    (b : β) : (as.map g).foldlM f' (h b) = h <$> as.foldlM f b := by
  induction as generalizing b with
  | nil => rfl
  | cons a rest ih =>
    rw [List.map_cons, List.foldlM_cons, List.foldlM_cons, step]
    cases f b a with
    | error e => rfl
    | ok next => exact ih next

/-! ## Tests of one item after another -/

theorem allM_append (p : α → Outcome Bool) (as bs : List α) :
    (as ++ bs).allM p = (do if ← as.allM p then bs.allM p else .ok false) := by
  induction as with
  | nil => rfl
  | cons a rest ih =>
    rw [List.cons_append, List.allM_cons, List.allM_cons, bind_assoc]
    congr 1
    funext b
    cases b with
    | true => exact ih
    | false => rfl

theorem allM_singleton (p : α → Outcome Bool) (a : α) : [a].allM p = p a := by
  rw [List.allM_cons]
  cases p a with
  | error e => rfl
  | ok b => cases b <;> rfl

theorem allM_eq_ok_true {p : α → Outcome Bool} {as : List α} :
    as.allM p = .ok true ↔ ∀ a ∈ as, p a = .ok true := by
  induction as with
  | nil => simp
  | cons a rest ih =>
    rw [List.allM_cons, bind_eq_ok, List.forall_mem_cons, ← ih]
    simp

/-! ## When a computation fails -/

def Fails (x : Outcome α) : Prop :=
  ∃ e, x = .error e

theorem fails_error (e : Error) : Fails (.error e : Outcome α) := ⟨e, rfl⟩

theorem not_fails_ok (a : α) : ¬Fails (.ok a) := by
  rintro ⟨e, he⟩
  cases he

/-- A sequence fails with its first part, or else as the second does whatever it is given. -/
theorem fails_bind_iff {x : Outcome α} {f : α → Outcome β} {p : Prop}
    (h : ∀ a, x = .ok a → (Fails (f a) ↔ p)) : Fails (x >>= f) ↔ Fails x ∨ p := by
  cases x with
  | error e => exact iff_of_true (fails_error e) (Or.inl (fails_error e))
  | ok a => exact (h a rfl).trans (or_iff_right (not_fails_ok a)).symm

/-- A sequence fails with its first part if the second cannot fail. -/
theorem fails_bind_iff_left {x : Outcome α} {f : α → Outcome β} (h : ∀ a, ¬Fails (f a)) :
    Fails (x >>= f) ↔ Fails x :=
  (fails_bind_iff fun a _ => iff_false_intro (h a)).trans (or_false _).to_iff

/-- A loop fails exactly if some item is bad after the items before it. -/
theorem fails_foldlM_iff {P : List α → β → Prop} {Q : List α → α → Prop}
    {f : β → α → Outcome β} (as : List α) {b : β} (start : P [] b)
    (step : ∀ done a x, P done x → (Fails (f x a) ↔ Q done a))
    (keep : ∀ done a x y, P done x → f x a = .ok y → P (done ++ [a]) y) :
    Fails (as.foldlM f b) ↔ ∃ done a rest, as = done ++ a :: rest ∧ Q done a := by
  suffices hgen : ∀ (rest done : List α) (x : β), P done x → (Fails (rest.foldlM f x) ↔
      ∃ before a after, rest = before ++ a :: after ∧ Q (done ++ before) a) from
    hgen as [] b start
  intro rest
  induction rest with
  | nil =>
    intro done x _
    exact iff_of_false (not_fails_ok x) (by rintro ⟨before, a, after, h, -⟩; simp at h)
  | cons a rest ih =>
    intro done x hx
    rw [List.foldlM_cons]
    cases hstep : f x a with
    | error e =>
      have hbad : Q done a := (step done a x hx).mp (hstep ▸ fails_error e)
      exact iff_of_true (fails_error e) ⟨[], a, rest, rfl, by rwa [List.append_nil]⟩
    | ok y =>
      have hgood : ¬Q done a := fun hbad =>
        not_fails_ok y (hstep ▸ (step done a x hx).mpr hbad)
      rw [ok_bind, ih (done ++ [a]) y (keep done a x y hx hstep)]
      constructor
      · rintro ⟨before, a', after, rfl, hbad⟩
        exact ⟨a :: before, a', after, rfl, by rwa [List.append_cons]⟩
      · rintro ⟨before, a', after, hrest, hbad⟩
        cases before with
        | nil =>
          injection hrest with hhead _
          rw [List.append_nil, ← hhead] at hbad
          exact absurd hbad hgood
        | cons first before =>
          injection hrest with hhead htail
          rw [List.append_cons, ← hhead] at hbad
          exact ⟨before, a', after, htail, hbad⟩

theorem fails_foldlM_iff_exists {Q : α → Prop} {f : β → α → Outcome β}
    (step : ∀ x a, Fails (f x a) ↔ Q a) (as : List α) (b : β) :
    Fails (as.foldlM f b) ↔ ∃ a ∈ as, Q a := by
  rw [fails_foldlM_iff (P := fun _ _ => True) as trivial (fun _ a x _ => step x a)
    fun _ _ _ _ _ _ => trivial]
  constructor
  · rintro ⟨done, a, rest, rfl, hbad⟩
    exact ⟨a, List.mem_append_right done List.mem_cons_self, hbad⟩
  · rintro ⟨a, ha, hbad⟩
    obtain ⟨done, rest, has⟩ := List.append_of_mem ha
    exact ⟨done, a, rest, has, hbad⟩

/-! ## How a computation may fail -/

/-- The computation fails, if at all, with an error of the given kind. -/
def FailsWith (P : Error → Prop) (x : Outcome α) : Prop :=
  ∀ e, x = .error e → P e

namespace FailsWith

variable {P Q : Error → Prop}

theorem ok (a : α) : FailsWith P (.ok a) :=
  nofun

theorem error {e : Error} (h : P e) : FailsWith P (.error e : Outcome α) := by
  rintro e' he
  cases he
  exact h

theorem mono (h : ∀ e, P e → Q e) {x : Outcome α} (hx : FailsWith P x) : FailsWith Q x :=
  fun e he => h e (hx e he)

theorem bind_of_ok {x : Outcome α} {f : α → Outcome β} (hx : FailsWith P x)
    (hf : ∀ a, x = .ok a → FailsWith P (f a)) : FailsWith P (x >>= f) := by
  cases x with
  | error e => exact error (hx e rfl)
  | ok a => exact hf a rfl

theorem bind {x : Outcome α} {f : α → Outcome β} (hx : FailsWith P x)
    (hf : ∀ a, FailsWith P (f a)) : FailsWith P (x >>= f) :=
  hx.bind_of_ok fun a _ => hf a

theorem foldlM_of_mem {f : β → α → Outcome β} {as : List α}
    (hf : ∀ a ∈ as, ∀ b, FailsWith P (f b a)) (b : β) : FailsWith P (as.foldlM f b) := by
  induction as generalizing b with
  | nil => exact ok b
  | cons a rest ih =>
    rw [List.foldlM_cons]
    exact (hf a List.mem_cons_self b).bind
      (ih fun a' ha' => hf a' (List.mem_cons_of_mem a ha'))

theorem foldlM {f : β → α → Outcome β} (hf : ∀ b a, FailsWith P (f b a)) (as : List α) (b : β) :
    FailsWith P (as.foldlM f b) :=
  foldlM_of_mem (fun a _ b => hf b a) b

theorem mapM {f : α → Outcome β} (hf : ∀ a, FailsWith P (f a)) (as : List α) :
    FailsWith P (as.mapM f) := by
  induction as with
  | nil => exact ok []
  | cons a rest ih =>
    rw [List.mapM_cons]
    exact (hf a).bind fun b => ih.bind fun bs => ok (b :: bs)

theorem filterMapM {f : α → Outcome (Option β)} (hf : ∀ a, FailsWith P (f a)) (as : List α) :
    FailsWith P (as.filterMapM f) := by
  induction as with
  | nil => exact ok []
  | cons a rest ih =>
    rw [List.filterMapM_cons]
    refine (hf a).bind fun o => ?_
    cases o with
    | none => exact ih
    | some b => exact ih.bind fun bs => ok (b :: bs)

end FailsWith
end Outcome
end RowGraph
