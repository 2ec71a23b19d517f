import Mathlib.Data.List.Forall2
import Mathlib.Data.List.Induction
import Mathlib.Data.List.Nodup

/-!
Lists of any items.

What the library uses of lists, options and texts in general, where the standard library does not
have it in this form.
-/

namespace RowGraph

/-! ## Parts of a list -/

/-- What holds of each item of a list and those before it holds with one more item, if it does of
that one. -/
theorem forall_split_concat {α : Type} {P : List α → α → Prop} {as : List α} {a : α}
    (h : ∀ before b after, as = before ++ b :: after → P before b) (ha : P as a) :
    ∀ before b after, as ++ [a] = before ++ b :: after → P before b := by
  intro before b after has
  rcases List.eq_nil_or_concat' after with rfl | ⟨rest, last, rfl⟩
  · obtain ⟨rfl, hb⟩ := List.append_inj' has rfl
    injection hb with hb
    exact hb ▸ ha
  · rw [← List.cons_append, ← List.append_assoc] at has
    exact h before b rest (List.append_inj' has rfl).1

/-- Two words that are followed by something else are told from what follows them. -/
theorem append_inj_of_head? {α : Type} {P : α → Prop} {as bs xs ys : List α} (has : ∀ a ∈ as, P a)
    (hbs : ∀ b ∈ bs, P b) (hxs : ∀ x, xs.head? = some x → ¬P x)
    (hys : ∀ y, ys.head? = some y → ¬P y) (h : as ++ xs = bs ++ ys) : as = bs ∧ xs = ys := by
  induction as generalizing bs with
  | nil =>
    cases bs with
    | nil => exact ⟨rfl, h⟩
    | cons b bs =>
      rw [List.nil_append] at h
      exact absurd (hbs b List.mem_cons_self) (hxs b (by rw [h]; rfl))
  | cons a as ih =>
    cases bs with
    | nil =>
      rw [List.nil_append] at h
      exact absurd (has a List.mem_cons_self) (hys a (by rw [← h]; rfl))
    | cons b bs =>
      injection h with hab h
      obtain ⟨htail, hrest⟩ := ih (fun x hx => has x (List.mem_cons_of_mem a hx))
        (fun x hx => hbs x (List.mem_cons_of_mem b hx)) h
      exact ⟨by rw [hab, htail], hrest⟩

theorem append_inj_of_not_mem {α : Type} {a : α} {as bs xs ys : List α} (has : a ∉ as)
    (hbs : a ∉ bs) (h : as ++ a :: xs = bs ++ a :: ys) : as = bs ∧ xs = ys := by
  have hhead : ∀ {zs : List α} (z : α), (a :: zs).head? = some z → ¬z ≠ a := by
    intro zs z hz
    cases hz
    exact not_not_intro rfl
  obtain ⟨hword, hrest⟩ := append_inj_of_head? (fun x hx => ne_of_mem_of_not_mem hx has)
    (fun x hx => ne_of_mem_of_not_mem hx hbs) hhead hhead h
  injection hrest with _ hrest
  exact ⟨hword, hrest⟩

instance asymm_bool_lt : Std.Asymm fun a b : Bool => a < b :=
  ⟨by decide⟩

/-- Sorted lists of the same items are one list. -/
theorem eq_of_pairwise_lt {α : Type} [LT α] [Std.Asymm fun a b : α => a < b] {as bs : List α}
    (has : as.Pairwise (· < ·)) (hbs : bs.Pairwise (· < ·)) (h : ∀ a, a ∈ as ↔ a ∈ bs) :
    as = bs := by
  have hnodup : ∀ {cs : List α}, cs.Pairwise (· < ·) → cs.Nodup := by
    intro cs hcs
    refine hcs.imp fun {a b} hlt heq => ?_
    subst heq
    exact Std.Asymm.asymm a a hlt hlt
  have hperm : as.Perm bs := (List.perm_ext_iff_of_nodup (hnodup has) (hnodup hbs)).mpr h
  exact hperm.eq_of_pairwise
    (fun _ _ _ _ hlt hgt => absurd hgt (Std.Asymm.asymm _ _ hlt)) has hbs

/-! ## First occurrences -/

/-- The items of a list, each once, in the order in which they first occur in it. -/
structure FirstOccurrences {α : Type} [DecidableEq α] (items firsts : List α) : Prop where
  nodup : firsts.Nodup
  mem_iff : ∀ a, a ∈ firsts ↔ a ∈ items
  order : firsts.Pairwise fun a b => items.idxOf a < items.idxOf b

section

variable {α : Type} [DecidableEq α]

theorem eraseDups_concat (as : List α) (a : α) :
    (as ++ [a]).eraseDups = if a ∈ as then as.eraseDups else as.eraseDups ++ [a] := by
  rw [List.eraseDups_append]
  by_cases h : a ∈ as
  · simp [List.removeAll, h]
  · rw [if_neg h]
    simp [List.removeAll, h, List.eraseDups_cons]

/-- What follows adds the items that are not there yet. -/
theorem eraseDups_append_eq_filter (as bs : List α) :
    (as ++ bs).eraseDups = as.eraseDups ++ bs.eraseDups.filter (· ∉ as) := by
  induction bs using List.reverseRecOn with
  | nil => simp
  | append_singleton bs b ih =>
    rw [← List.append_assoc, eraseDups_concat, eraseDups_concat, ih]
    by_cases ha : b ∈ as <;> by_cases hb : b ∈ bs <;> simp [ha, hb]

theorem eraseDups_append_congr {as as' bs bs' : List α} (ha : as.eraseDups = as'.eraseDups)
    (hb : bs.eraseDups = bs'.eraseDups) : (as ++ bs).eraseDups = (as' ++ bs').eraseDups := by
  have hmem : ∀ b, b ∈ as ↔ b ∈ as' := by
    intro b
    rw [← List.mem_eraseDups, ha, List.mem_eraseDups]
  simp only [eraseDups_append_eq_filter, ha, hb, hmem]

theorem pairwise_idxOf_eraseDups (items : List α) :
    items.eraseDups.Pairwise fun a b => items.idxOf a < items.idxOf b := by
  induction items using List.reverseRecOn with
  | nil => exact .nil
  | append_singleton items a ih =>
    have hkeep : items.eraseDups.Pairwise
        fun b c => (items ++ [a]).idxOf b < (items ++ [a]).idxOf c := by
      refine ih.imp_of_mem fun {b c} hb hc hlt => ?_
      rw [List.mem_eraseDups] at hb hc
      rwa [List.idxOf_append_of_mem hb, List.idxOf_append_of_mem hc]
    rw [eraseDups_concat]
    split
    next => exact hkeep
    next hnew =>
      refine List.pairwise_append.mpr ⟨hkeep, List.pairwise_singleton _ _, ?_⟩
      intro b hb c hc
      rw [List.mem_eraseDups] at hb
      rw [List.mem_singleton] at hc
      subst hc
      rw [List.idxOf_append_of_mem hb, List.idxOf_append_of_notMem hnew]
      exact Nat.lt_add_right _ (List.idxOf_lt_length_of_mem hb)

theorem firstOccurrences_eraseDups (items : List α) : FirstOccurrences items items.eraseDups where
  nodup := (pairwise_idxOf_eraseDups items).imp fun {a b} hlt (heq : a = b) =>
    Nat.ne_of_lt hlt (heq ▸ rfl)
  mem_iff _ := List.mem_eraseDups
  order := pairwise_idxOf_eraseDups items

end

/-- Items compared in pairs by what they are under a function, and what they are there. -/
theorem map_eraseDupsBy {α β : Type} [BEq β] {r : α → α → Bool} {f : α → β}
    {as : List α} (h : ∀ a ∈ as, ∀ b ∈ as, r a b = (f a == f b)) :
    (as.eraseDupsBy r).map f = (as.map f).eraseDups := by
  suffices hloop : ∀ rest seen : List α, (∀ a ∈ rest, a ∈ as) → (∀ a ∈ seen, a ∈ as) →
      (List.eraseDupsBy.loop r rest seen).map f =
        List.eraseDupsBy.loop (· == ·) (rest.map f) (seen.map f) from
    hloop as [] (fun _ ha => ha) nofun
  intro rest
  induction rest with
  | nil =>
    intro seen _ _
    exact List.map_reverse
  | cons a rest ih =>
    intro seen hrest hseen
    have hany : seen.any (r a) = (seen.map f).any (f a == ·) := by
      rw [List.any_map, Bool.eq_iff_iff, List.any_eq_true, List.any_eq_true]
      refine exists_congr fun b => and_congr_right fun hb => ?_
      rw [h a (hrest a List.mem_cons_self) b (hseen b hb), Function.comp_apply]
    have hlater : ∀ b ∈ rest, b ∈ as := fun b hb => hrest b (List.mem_cons_of_mem a hb)
    rw [List.map_cons, List.eraseDupsBy.loop, List.eraseDupsBy.loop, hany]
    cases (seen.map f).any (f a == ·) with
    | true => exact ih seen hlater hseen
    | false =>
      exact ih (a :: seen) hlater (List.forall_mem_cons.mpr ⟨hrest a List.mem_cons_self, hseen⟩)

/-! ## Searches -/

/-- Where the items of a list have different keys, an item is what a search for its key finds. -/
theorem find?_of_nodup_map {α κ : Type} [DecidableEq κ] {key : α → κ} {as : List α}
    (distinct : (as.map key).Nodup) {a : α} (h : a ∈ as) :
    as.find? (key · == key a) = some a := by
  cases hfind : as.find? (key · == key a) with
  | none =>
    rw [List.find?_eq_none] at hfind
    exact absurd (beq_self_eq_true (key a)) (hfind a h)
  | some found =>
    have hkey : key found = key a := by simpa using List.find?_some hfind
    rw [List.inj_on_of_nodup_map distinct (List.mem_of_find?_eq_some hfind) h hkey]

theorem findSome?_of_unique {α β : Type} {f : α → Option β} {as : List α} {a : α} {b : β}
    (ha : a ∈ as) (hf : f a = some b) (unique : ∀ a' ∈ as, (f a').isSome = true → a' = a) :
    as.findSome? f = some b := by
  cases hfound : as.findSome? f with
  | none =>
    rw [List.findSome?_eq_none_iff.mp hfound a ha] at hf
    cases hf
  | some b' =>
    obtain ⟨a', ha', hf'⟩ := List.exists_of_findSome?_eq_some hfound
    obtain rfl := unique a' ha' (by rw [hf']; rfl)
    rw [← hf', hf]

/-- If only one item gives a result, the order of the items does not matter. -/
theorem findSome?_congr_of_unique {α β : Type} {f : α → Option β} {as bs : List α}
    (h : ∀ a, a ∈ as ↔ a ∈ bs)
    (unique : ∀ a ∈ as, ∀ a' ∈ as, (f a).isSome = true → (f a').isSome = true → a = a') :
    as.findSome? f = bs.findSome? f := by
  cases hfound : as.findSome? f with
  | none =>
    rw [List.findSome?_eq_none_iff] at hfound
    exact (List.findSome?_eq_none_iff.mpr fun b hb => hfound b ((h b).mpr hb)).symm
  | some b =>
    obtain ⟨a, ha, hf⟩ := List.exists_of_findSome?_eq_some hfound
    refine (findSome?_of_unique ((h a).mp ha) hf fun a' ha' hf' => ?_).symm
    exact unique a' ((h a').mpr ha') a ha hf' (by rw [hf]; rfl)

/-! ## Loops -/

/-- What holds of a loop's result holds of its start or was brought about by one of the items. -/
theorem foldl_iff_or_exists {α β : Type} {P : β → Prop} {Q : α → Prop} {f : β → α → β}
    (step : ∀ x a, P (f x a) ↔ P x ∨ Q a) (as : List α) (x : β) :
    P (as.foldl f x) ↔ P x ∨ ∃ a ∈ as, Q a := by
  induction as generalizing x with
  | nil => simp
  | cons a rest ih =>
    rw [List.foldl_cons, ih, step, or_assoc]
    simp

/-- What a loop finds, when each of its steps only fills in what was missing. -/
theorem foldl_eq_or_findSome? {α β γ : Type} (look : β → Option γ) {found : α → Option γ}
    {f : β → α → β} (step : ∀ x a, look (f x a) = (look x).or (found a)) (as : List α) (x : β) :
    look (as.foldl f x) = (look x).or (as.findSome? found) := by
  induction as generalizing x with
  | nil => exact Option.or_none.symm
  | cons a rest ih =>
    rw [List.foldl_cons, ih, step, Option.or_assoc, List.findSome?_cons]
    cases found a with
    | none => rfl
    | some column => rfl

/-! ## Lists side by side -/

theorem exists_mem_right_of_forall₂ {α β : Type} {R : α → β → Prop} {as : List α} {bs : List β}
    (h : List.Forall₂ R as bs) {a : α} (ha : a ∈ as) : ∃ b ∈ bs, R a b := by
  induction h with
  | nil => cases ha
  | cons hab _ ih =>
    rcases List.mem_cons.mp ha with rfl | ha
    · exact ⟨_, List.mem_cons_self, hab⟩
    · obtain ⟨b, hb, hr⟩ := ih ha
      exact ⟨b, List.mem_cons_of_mem _ hb, hr⟩

theorem exists_mem_left_of_forall₂ {α β : Type} {R : α → β → Prop} {as : List α} {bs : List β}
    (h : List.Forall₂ R as bs) {b : β} (hb : b ∈ bs) : ∃ a ∈ as, R a b :=
  exists_mem_right_of_forall₂ h.flip hb

/-- Where two lists agree item by item, so do the first items that pass a test. -/
theorem map_find?_of_forall₂ {α β γ : Type} {R : α → β → Prop} {p : α → Bool} {q : β → Bool}
    {f : α → γ} {g : β → γ} {as : List α} {bs : List β} (h : List.Forall₂ R as bs)
    (test : ∀ a b, R a b → p a = q b) (value : ∀ a b, R a b → f a = g b) :
    (as.find? p).map f = (bs.find? q).map g := by
  induction h with
  | nil => rfl
  | @cons a b as bs hab _ ih =>
    rw [List.find?_cons, List.find?_cons, test a b hab]
    cases q b with
    | true => exact congrArg some (value a b hab)
    | false => exact ih

/-- Two lists of items with the same keys can be laid side by side. -/
theorem exists_perm_forall₂ {α κ : Type} (key : α → κ) {R : α → α → Prop} {as bs : List α}
    (distinct : (as.map key).Nodup) (distinct' : (bs.map key).Nodup)
    (keys : ∀ k, k ∈ as.map key ↔ k ∈ bs.map key)
    (related : ∀ a ∈ as, ∀ b ∈ bs, key a = key b → R a b) :
    ∃ cs : List α, cs.Perm as ∧ List.Forall₂ R cs bs := by
  induction bs generalizing as with
  | nil =>
    obtain rfl : as = [] := by
      rw [← List.map_eq_nil_iff (f := key), List.eq_nil_iff_forall_not_mem]
      exact fun k hk => List.not_mem_nil ((keys k).mp hk)
    exact ⟨[], List.Perm.nil, List.Forall₂.nil⟩
  | cons b rest ih =>
    obtain ⟨a, ha, hkey⟩ := List.mem_map.mp ((keys (key b)).mpr List.mem_cons_self)
    obtain ⟨before, after, rfl⟩ := List.append_of_mem ha
    have hperm : (a :: (before ++ after)).Perm (before ++ a :: after) := List.perm_middle.symm
    have hothers := (hperm.map key).nodup_iff.mpr distinct
    rw [List.map_cons, List.nodup_cons] at hothers distinct'
    have hkeys : ∀ k, k ∈ (before ++ after).map key ↔ k ∈ rest.map key := by
      intro k
      have hk := keys k
      rw [← (hperm.map key).mem_iff, List.map_cons, List.map_cons, List.mem_cons, List.mem_cons,
        hkey] at hk
      rw [hkey] at hothers
      constructor
      · intro hmem
        exact (hk.mp (Or.inr hmem)).resolve_left fun he => hothers.1 (he ▸ hmem)
      · intro hmem
        exact (hk.mpr (Or.inr hmem)).resolve_left fun he => distinct'.1 (he ▸ hmem)
    obtain ⟨cs, hcs, hrelated⟩ := ih hothers.2 distinct'.2 hkeys fun x hx y hy =>
      related x (hperm.mem_iff.mp (List.mem_cons_of_mem a hx)) y (List.mem_cons_of_mem b hy)
    exact ⟨a :: cs, (hcs.cons a).trans hperm,
      List.Forall₂.cons (related a ha b List.mem_cons_self hkey) hrelated⟩

/-! ## Maps that may give nothing -/

section

variable {α β γ : Type}

theorem mapM_eq_some_map {f : α → Option β} {g : α → β} {as : List α}
    (h : ∀ a ∈ as, f a = some (g a)) : as.mapM f = some (as.map g) := by
  induction as with
  | nil => rfl
  | cons a rest ih =>
    rw [List.mapM_cons, h a List.mem_cons_self, ih fun b hb => h b (List.mem_cons_of_mem a hb)]
    rfl

theorem map_eq_of_mapM {f : α → Option β} {g : α → β} (h : ∀ a b, f a = some b → g a = b)
    {as : List α} {bs : List β} (hs : as.mapM f = some bs) : as.map g = bs := by
  induction as generalizing bs with
  | nil => exact Option.some.inj hs
  | cons a rest ih =>
    rw [List.mapM_cons] at hs
    obtain ⟨b, ha, hs⟩ := Option.bind_eq_some_iff.mp hs
    obtain ⟨cs, hrest, hs⟩ := Option.bind_eq_some_iff.mp hs
    rw [List.map_cons, h a b ha, ih hrest]
    exact Option.some.inj hs

theorem mapM_map_option (g : β → γ) (f : α → Option β) (as : List α) :
    as.mapM (fun a => (f a).map g) = (as.mapM f).map (List.map g) := by
  induction as with
  | nil => rfl
  | cons a rest ih =>
    rw [List.mapM_cons, List.mapM_cons, ih]
    cases f a with
    | none => rfl
    | some b =>
      cases rest.mapM f with
      | none => rfl
      | some bs => rfl

/-! ## Options -/

theorem isSome_eq_of_rel {r : α → β → Prop} {o : Option α} {o' : Option β}
    (h : Option.Rel r o o') : o.isSome = o'.isSome := by
  cases h with
  | none => rfl
  | some _ => rfl

theorem exists_of_rel_some {r : α → β → Prop} {a : α} {o : Option β}
    (h : Option.Rel r (some a) o) : ∃ b, o = some b ∧ r a b := by
  cases h with
  | some hr => exact ⟨_, rfl, hr⟩

/-- A pair whose first part was changed, and the pair before. -/
theorem map_fst_eq_some {f : α → β} {o : Option (α × γ)} {b : β} {c : γ} :
    o.map (Prod.map f id) = some (b, c) ↔ ∃ a, o = some (a, c) ∧ b = f a := by
  rw [Option.map_eq_some_iff]
  constructor
  · rintro ⟨⟨a, c'⟩, ho, heq⟩
    cases heq
    exact ⟨a, ho, rfl⟩
  · rintro ⟨a, ho, rfl⟩
    exact ⟨(a, c), ho, rfl⟩

theorem map_fst_eq_some_iff {f : α → β} {o : Option (α × γ)} {P : Prop} {a : α} {b : β} {c : γ}
    (h : ∀ a', o = some (a', c) ↔ P ∧ a' = a) :
    o.map (Prod.map f id) = some (b, c) ↔ P ∧ b = f a := by
  rw [map_fst_eq_some]
  constructor
  · rintro ⟨a', ho, rfl⟩
    obtain ⟨hp, rfl⟩ := (h a').mp ho
    exact ⟨hp, rfl⟩
  · rintro ⟨hp, rfl⟩
    exact ⟨a, (h a).mpr ⟨hp, rfl⟩, rfl⟩

end

/-! ## Texts -/

theorem intercalate_cons_ne_empty {s t : String} (ht : t ≠ "") (rest : List String) :
    s.intercalate (t :: rest) ≠ "" := by
  cases rest with
  | nil => rwa [String.intercalate_singleton]
  | cons next rest =>
    rw [String.intercalate_cons_cons]
    intro h
    simp only [String.append_eq_empty_iff] at h
    exact ht h.1.1

theorem mem_toString_int {n : Int} {c : Char} (h : c ∈ (toString n).toList) :
    c.isDigit = true ∨ c = '-' := by
  rw [Int.toString_eq_repr, Int.repr_eq_if] at h
  split at h
  next =>
    rw [Nat.toList_repr] at h
    exact Or.inl (Nat.isDigit_of_mem_toDigits (by decide) (by decide) h)
  next =>
    rw [String.toList_append, Nat.toList_repr] at h
    rcases List.mem_append.mp h with h | h
    · exact Or.inr (List.mem_singleton.mp h)
    · exact Or.inl (Nat.isDigit_of_mem_toDigits (by decide) (by decide) h)

/-- A text with a character that integers do not have is no integer. -/
theorem toString_ne {s : String} {c : Char} (hc : c ∈ s.toList) (hdigit : c.isDigit = false)
    (hminus : c ≠ '-') (n : Int) : toString n ≠ s := by
  rintro rfl
  rcases mem_toString_int hc with h | h
  · rw [hdigit] at h
    cases h
  · exact hminus h

end RowGraph
