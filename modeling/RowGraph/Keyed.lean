/-!
Lists of keyed entries in order of arrival.

Most of what a statement or a result is made of is found by a name and shown in the order in which
it came: columns of a row, parameters, loaded relations, rows of a group.  Such a collection is a
list of pairs.  Putting a value under a key that is present replaces it in its place; a new key goes
to the end.
-/

namespace RowGraph

abbrev Keyed (κ α : Type) := List (κ × α)

namespace Keyed

variable {κ α : Type} [DecidableEq κ]

def keys (es : Keyed κ α) : List κ :=
  es.map Prod.fst

def find? (key : κ) : Keyed κ α → Option α
  | [] => none
  | (k, v) :: rest => if k = key then some v else find? key rest

def has (key : κ) (es : Keyed κ α) : Bool :=
  (es.find? key).isSome

/-- The value placed under a key, where the key already stands or at the end. -/
def put (key : κ) (value : α) : Keyed κ α → Keyed κ α
  | [] => [(key, value)]
  | (k, v) :: rest => if k = key then (k, value) :: rest else (k, v) :: put key value rest

def putNew (key : κ) (value : α) (es : Keyed κ α) : Keyed κ α :=
  if es.has key then es else es ++ [(key, value)]

/-- The entries without the first one under a key. -/
def drop (key : κ) : Keyed κ α → Keyed κ α
  | [] => []
  | (k, v) :: rest => if k = key then rest else (k, v) :: drop key rest

/-- The value under a key changed, with a start for a key that is absent. -/
def change (key : κ) (start : α) (f : α → α) (es : Keyed κ α) : Keyed κ α :=
  es.put key (f ((es.find? key).getD start))

/-! ## Which keys are present -/

omit [DecidableEq κ] in
@[simp] theorem keys_nil : keys ([] : Keyed κ α) = [] := rfl

omit [DecidableEq κ] in
@[simp] theorem keys_cons (e : κ × α) (es : Keyed κ α) : keys (e :: es) = e.1 :: keys es := rfl

theorem find?_eq_none {key : κ} {es : Keyed κ α} : es.find? key = none ↔ key ∉ es.keys := by
  induction es with
  | nil => simp [find?]
  | cons e rest ih =>
    rw [find?, keys_cons, List.mem_cons, not_or]
    by_cases h : e.1 = key
    · simp [h]
    · rw [if_neg h, ih]
      exact ⟨fun hk => ⟨fun e' => h e'.symm, hk⟩, fun hk => hk.2⟩

theorem has_iff {key : κ} {es : Keyed κ α} : es.has key = true ↔ key ∈ es.keys := by
  rw [has, Option.isSome_iff_ne_none, ne_eq, find?_eq_none, Decidable.not_not]

theorem mem_of_find? {key : κ} {value : α} {es : Keyed κ α} (h : es.find? key = some value) :
    (key, value) ∈ es := by
  induction es with
  | nil => cases h
  | cons e rest ih =>
    rw [find?] at h
    by_cases hk : e.1 = key
    · rw [if_pos hk] at h
      cases h
      rw [← hk]
      exact List.mem_cons_self
    · rw [if_neg hk] at h
      exact List.mem_cons_of_mem _ (ih h)

/-- Putting keeps the order of the keys and adds a new one at the end. -/
theorem keys_put (key : κ) (value : α) (es : Keyed κ α) :
    (es.put key value).keys = if key ∈ es.keys then es.keys else es.keys ++ [key] := by
  induction es with
  | nil => rfl
  | cons e rest ih =>
    rw [put]
    by_cases h : e.1 = key
    · simp [h]
    · have hne : ¬key = e.1 := fun e' => h e'.symm
      rw [if_neg h, keys_cons, ih, keys_cons]
      by_cases hm : key ∈ keys rest
      · simp [hm]
      · simp [hm, hne]

theorem mem_keys_put {key k : κ} {value : α} {es : Keyed κ α} :
    k ∈ (es.put key value).keys ↔ k = key ∨ k ∈ es.keys := by
  rw [keys_put]
  split
  next h => exact ⟨Or.inr, fun hk => hk.elim (fun e => e ▸ h) id⟩
  next h => rw [List.mem_append, List.mem_singleton, Or.comm]

theorem nodup_keys_put {key : κ} {value : α} {es : Keyed κ α} (h : es.keys.Nodup) :
    (es.put key value).keys.Nodup := by
  rw [keys_put]
  split
  next => exact h
  next hk =>
    rw [List.nodup_append]
    refine ⟨h, by simp, ?_⟩
    intro a ha b hb e
    rw [List.mem_singleton] at hb
    exact hk (hb ▸ e ▸ ha)

theorem sublist_keys_drop (key : κ) (es : Keyed κ α) :
    List.Sublist (es.drop key).keys es.keys := by
  induction es with
  | nil => exact List.Sublist.refl _
  | cons e rest ih =>
    rw [drop]
    split
    next => exact List.Sublist.cons _ (List.Sublist.refl _)
    next => exact List.Sublist.cons_cons _ ih

theorem nodup_keys_drop {key : κ} {es : Keyed κ α} (h : es.keys.Nodup) :
    (es.drop key).keys.Nodup :=
  h.sublist (sublist_keys_drop key es)

/-! ## Reading after writing -/

@[simp] theorem find?_put_self (key : κ) (value : α) (es : Keyed κ α) :
    (es.put key value).find? key = some value := by
  induction es with
  | nil => simp [put, find?]
  | cons e rest ih =>
    rw [put]
    by_cases h : e.1 = key
    · simp [h, find?]
    · rw [if_neg h, find?, if_neg h, ih]

theorem find?_put_of_ne {key k : κ} (h : k ≠ key) (value : α) (es : Keyed κ α) :
    (es.put key value).find? k = es.find? k := by
  induction es with
  | nil => simp [put, find?, Ne.symm h]
  | cons e rest ih =>
    rw [put]
    by_cases hk : e.1 = key
    · have hne : ¬e.1 = k := fun e' => h (e' ▸ hk)
      simp [hk, find?, hk ▸ hne]
    · rw [if_neg hk, find?, find?, ih]

end Keyed
end RowGraph
