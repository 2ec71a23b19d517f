import RowGraph.Keyed
import RowGraph.Proofs.Lists

/-!
Keyed lists as tables.

Where the keys are distinct, an entry of the list is what a lookup of its key finds.
-/

namespace RowGraph

namespace Keyed

variable {κ α : Type} [DecidableEq κ]

omit [DecidableEq κ] in
theorem mem_keys_of_mem {e : κ × α} {es : Keyed κ α} (h : e ∈ es) : e.1 ∈ es.keys :=
  List.mem_map_of_mem h

theorem find?_of_mem {key : κ} {value : α} {es : Keyed κ α} (distinct : es.keys.Nodup)
    (h : (key, value) ∈ es) : es.find? key = some value := by
  induction es with
  | nil => cases h
  | cons e rest ih =>
    rw [keys_cons, List.nodup_cons] at distinct
    rw [find?]
    rcases List.mem_cons.mp h with rfl | h
    · exact if_pos rfl
    · have hne : e.1 ≠ key := fun he => distinct.1 (he ▸ mem_keys_of_mem h)
      rw [if_neg hne, ih distinct.2 h]

theorem find?_append (key : κ) (es fs : Keyed κ α) :
    find? key (es ++ fs) = (es.find? key).or (fs.find? key) := by
  induction es with
  | nil => rfl
  | cons e rest ih =>
    rw [List.cons_append, find?, find?]
    split
    next => rfl
    next => exact ih

theorem find?_put (key k : κ) (value : α) (es : Keyed κ α) :
    (es.put key value).find? k = if k = key then some value else es.find? k := by
  split
  next h => rw [h, find?_put_self]
  next h => exact find?_put_of_ne h value es

/-- A lookup among the entries whose keys pass a test. -/
theorem find?_filter (keep : κ → Bool) (key : κ) (es : Keyed κ α) :
    find? key (es.filter fun e => keep e.1) = if keep key then es.find? key else none := by
  induction es with
  | nil => simp [find?]
  | cons e rest ih =>
    rw [List.filter_cons]
    by_cases he : e.1 = key
    · cases hkeep : keep key with
      | true => rw [he, hkeep, if_pos rfl, find?, find?, if_pos he, if_pos he, if_pos rfl]
      | false => rw [he, hkeep, if_neg Bool.false_ne_true, ih, hkeep]; rfl
    · split
      next => rw [find?, if_neg he, ih, find?, if_neg he]
      next => rw [ih, find?, if_neg he]

theorem put_of_not_mem {key : κ} {es : Keyed κ α} (h : key ∉ es.keys) (value : α) :
    es.put key value = es ++ [(key, value)] := by
  induction es with
  | nil => rfl
  | cons e rest ih =>
    rw [keys_cons, List.mem_cons, not_or] at h
    rw [put, if_neg (Ne.symm h.1), ih h.2]
    rfl

/-- Putting back what is there changes nothing. -/
theorem put_of_find? {key : κ} {value : α} {es : Keyed κ α} (h : es.find? key = some value) :
    es.put key value = es := by
  induction es with
  | nil => cases h
  | cons e rest ih =>
    rw [find?] at h
    rw [put]
    by_cases he : e.1 = key
    · rw [if_pos he] at h
      cases h
      rw [if_pos he]
    · rw [if_neg he] at h
      rw [if_neg he, ih h]

theorem put_put (key : κ) (value value' : α) (es : Keyed κ α) :
    (es.put key value).put key value' = es.put key value' := by
  induction es with
  | nil => rw [put, put, put, if_pos rfl]
  | cons e rest ih =>
    rw [put, put]
    by_cases he : e.1 = key
    · rw [if_pos he, if_pos he, put, if_pos he]
    · rw [if_neg he, if_neg he, put, if_neg he, ih]

/-- A key that is present keeps its place, whatever is put before its value is replaced. -/
theorem put_comm {key k : κ} (hne : k ≠ key) {es : Keyed κ α} (h : key ∈ es.keys)
    (value other : α) : (es.put k other).put key value = (es.put key value).put k other := by
  induction es with
  | nil => cases h
  | cons e rest ih =>
    rw [put, put]
    by_cases he : e.1 = key
    · have hk : ¬e.1 = k := fun h => hne (h.symm.trans he)
      rw [if_neg hk, if_pos he, put, put, if_pos he, if_neg hk]
    · have hrest : key ∈ keys rest := by
        rw [keys_cons, List.mem_cons] at h
        exact h.resolve_left fun h => he h.symm
      rw [if_neg he]
      by_cases hk : e.1 = k
      · rw [if_pos hk, put, put, if_neg he, if_pos hk]
      · rw [if_neg hk, put, put, if_neg he, if_neg hk, ih hrest]

theorem putNew_of_mem {key : κ} {es : Keyed κ α} (h : key ∈ es.keys) (value : α) :
    es.putNew key value = es :=
  if_pos (has_iff.mpr h)

/-- Dropping a key keeps the order of the others. -/
theorem keys_drop {key : κ} {es : Keyed κ α} (distinct : es.keys.Nodup) :
    (es.drop key).keys = es.keys.filter (· ≠ key) := by
  induction es with
  | nil => rfl
  | cons e rest ih =>
    rw [keys_cons, List.nodup_cons] at distinct
    rw [drop, keys_cons, List.filter_cons]
    by_cases he : e.1 = key
    · have hrest : ∀ k ∈ keys rest, decide (k ≠ key) = true := fun k hk =>
        decide_eq_true fun heq => distinct.1 (he ▸ heq ▸ hk)
      rw [if_pos he, if_neg (by simp [he]), List.filter_eq_self.mpr hrest]
    · rw [if_neg he, if_pos (by simp [he]), keys_cons, ih distinct.2]

theorem find?_drop {key : κ} {es : Keyed κ α} (distinct : es.keys.Nodup) (k : κ) :
    (es.drop key).find? k = if k = key then none else es.find? k := by
  induction es with
  | nil => simp [drop, find?]
  | cons e rest ih =>
    rw [keys_cons, List.nodup_cons] at distinct
    rw [drop]
    by_cases he : e.1 = key
    · rw [if_pos he]
      split
      next hk =>
        rw [find?_eq_none, hk, ← he]
        exact distinct.1
      next hk =>
        rw [find?, if_neg fun h => hk (h.symm.trans he)]
    · rw [if_neg he, find?, find?, ih distinct.2]
      by_cases hk : e.1 = k
      · rw [if_pos hk, if_pos hk, if_neg (hk ▸ he)]
      · rw [if_neg hk, if_neg hk]

theorem find?_eq_some_iff {key : κ} {value : α} {es : Keyed κ α} (distinct : es.keys.Nodup) :
    es.find? key = some value ↔ (key, value) ∈ es :=
  ⟨mem_of_find?, find?_of_mem distinct⟩

/-- Lists of distinct keys in which every key is found alike differ by their order alone. -/
theorem perm_iff_find? {es fs : Keyed κ α} (distinct : es.keys.Nodup) (distinct' : fs.keys.Nodup) :
    es.Perm fs ↔ ∀ key, es.find? key = fs.find? key := by
  rw [List.perm_ext_iff_of_nodup (List.Nodup.of_map _ distinct) (List.Nodup.of_map _ distinct')]
  constructor
  · intro h key
    refine Option.ext fun value => ?_
    rw [find?_eq_some_iff distinct, find?_eq_some_iff distinct', h]
  · rintro h ⟨key, value⟩
    rw [← find?_eq_some_iff distinct, ← find?_eq_some_iff distinct', h]

theorem find?_zip_map (f : κ → α) (key : κ) (keys : List κ) :
    find? key (keys.zip (keys.map f)) = if key ∈ keys then some (f key) else none := by
  induction keys with
  | nil => rfl
  | cons k rest ih =>
    rw [List.map_cons, List.zip_cons_cons, find?, ih]
    by_cases hk : k = key
    · rw [if_pos hk, if_pos (hk ▸ List.mem_cons_self), hk]
    · rw [if_neg hk]
      simp [Ne.symm hk]

/-- Putting entries of distinct keys one after another puts them side by side. -/
theorem foldl_put (es : Keyed κ α) {fs : Keyed κ α} (distinct : keys (es ++ fs) |>.Nodup) :
    fs.foldl (fun es entry => es.put entry.1 entry.2) es = es ++ fs := by
  induction fs generalizing es with
  | nil => rw [List.foldl_nil, List.append_nil]
  | cons e rest ih =>
    have hnew : e.1 ∉ es.keys := by
      rw [keys, List.map_append, List.nodup_append] at distinct
      exact fun h => distinct.2.2 e.1 h e.1 List.mem_cons_self rfl
    rw [List.foldl_cons, put_of_not_mem hnew, ih _ (by rwa [List.append_assoc]),
      List.append_assoc]
    rfl

/-- Of the entries that are put under a key the last one stays. -/
theorem find?_foldl_put (key : κ) (es fs : Keyed κ α) :
    (fs.foldl (fun es entry => es.put entry.1 entry.2) es).find? key =
      ((fs.reverse.find? (·.1 = key)).map Prod.snd).or (es.find? key) := by
  induction fs generalizing es with
  | nil => rfl
  | cons e rest ih =>
    rw [List.foldl_cons, ih, find?_put, List.reverse_cons, List.find?_append, List.find?_singleton]
    cases rest.reverse.find? (·.1 = key) with
    | some found => rfl
    | none =>
      by_cases he : key = e.1
      · simp [he]
      · simp [he, Ne.symm he]

theorem keys_putNew (key : κ) (value : α) (es : Keyed κ α) :
    (es.putNew key value).keys = if key ∈ es.keys then es.keys else es.keys ++ [key] := by
  rw [putNew]
  by_cases h : key ∈ es.keys
  · rw [if_pos (has_iff.mpr h), if_pos h]
  · rw [if_neg (mt has_iff.mp h), if_neg h, keys, List.map_append]
    rfl

theorem find?_putNew (key k : κ) (value : α) (es : Keyed κ α) :
    (es.putNew key value).find? k = (es.find? k).or (if key = k then some value else none) := by
  rw [putNew]
  split
  next h =>
    by_cases hk : key = k
    · obtain ⟨found, hfound⟩ := Option.isSome_iff_exists.mp h
      rw [← hk, hfound, Option.some_or]
    · rw [if_neg hk, Option.or_none]
  next => rw [find?_append, find?, find?]

theorem mem_of_mem_putNew {key : κ} {value : α} {es : Keyed κ α} {e : κ × α}
    (h : e ∈ es.putNew key value) : e ∈ es ∨ e = (key, value) := by
  rw [putNew] at h
  split at h
  next => exact Or.inl h
  next => rwa [List.mem_append, List.mem_singleton] at h

/-- Putting a value, seen through a test of the keys. -/
theorem filter_put (keep : κ → Bool) (key : κ) (value : α) (es : Keyed κ α) :
    (es.put key value).filter (fun e => keep e.1) =
      if keep key then put key value (es.filter fun e => keep e.1)
      else es.filter fun e => keep e.1 := by
  induction es with
  | nil =>
    rw [put, List.filter_cons]
    rfl
  | cons e rest ih =>
    rw [put]
    by_cases he : e.1 = key
    · rw [if_pos he, List.filter_cons, List.filter_cons, he]
      cases keep key with
      | true => rw [if_pos rfl, if_pos rfl, if_pos rfl, put, if_pos he, he]
      | false => rfl
    · rw [if_neg he, List.filter_cons, List.filter_cons, ih]
      cases keep e.1 with
      | true =>
        rw [if_pos rfl, if_pos rfl, put, if_neg he]
        split
        next => rfl
        next => rfl
      | false => rfl

/-! ## Values made into others -/

section MapValues

variable {β : Type} (f : α → β)

def mapValues (es : Keyed κ α) : Keyed κ β :=
  es.map fun e => (e.1, f e.2)

omit [DecidableEq κ] in
theorem keys_mapValues (es : Keyed κ α) : (mapValues f es).keys = es.keys := by
  rw [keys, mapValues, List.map_map]
  rfl

theorem put_mapValues (key : κ) (value : α) (es : Keyed κ α) :
    (mapValues f es).put key (f value) = mapValues f (es.put key value) := by
  induction es with
  | nil => rfl
  | cons e rest ih =>
    show (if e.1 = key then _ else _) = mapValues f (if e.1 = key then _ else _)
    split
    next => rfl
    next => exact congrArg ((e.1, f e.2) :: ·) ih

theorem putNew_mapValues (key : κ) (value : α) (es : Keyed κ α) :
    (mapValues f es).putNew key (f value) = mapValues f (es.putNew key value) := by
  have hhas : (mapValues f es).has key = es.has key := by
    rw [Bool.eq_iff_iff, has_iff, has_iff, keys_mapValues]
  rw [putNew, putNew, hhas]
  split
  next => rfl
  next =>
    rw [mapValues, mapValues, List.map_append]
    rfl

theorem find?_mapValues (key : κ) (es : Keyed κ α) :
    (mapValues f es).find? key = (es.find? key).map f := by
  induction es with
  | nil => rfl
  | cons e rest ih =>
    show (if e.1 = key then _ else _) = Option.map f (if e.1 = key then _ else _)
    split
    next => rfl
    next => exact ih

theorem change_mapValues {g : α → α} {g' : β → β} (step : ∀ a, g' (f a) = f (g a)) (key : κ)
    (start : α) (es : Keyed κ α) :
    (mapValues f es).change key (f start) g' = mapValues f (es.change key start g) := by
  rw [change, change, find?_mapValues, Option.getD_map, step, put_mapValues]

theorem foldl_put_mapValues (es fs : Keyed κ α) :
    (mapValues f fs).foldl (fun es entry => es.put entry.1 entry.2) (mapValues f es) =
      mapValues f (fs.foldl (fun es entry => es.put entry.1 entry.2) es) := by
  induction fs generalizing es with
  | nil => rfl
  | cons e rest ih =>
    rw [List.foldl_cons, ← ih, ← put_mapValues]
    rfl

end MapValues

end Keyed
end RowGraph
