import Mathlib
import RowGraph.Proofs.Loop
import RowGraph.Proofs.Row

/-!
Rows as maps.

A row is searched as a list, by a name as it is spelled and then by the folded name.  What it stands
for is a map from folded names to values together with the order in which the names came, and that
is what a ledger is: nothing is searched in it, and neither changes of values nor removals move a
name.  Whatever was inserted and removed, under names spelled in any case, a row and a ledger give
the same answers and end with the same entries, and rows are equal where their ledgers are equal as
maps.
-/

namespace RowGraph

/-! ## Ledgers -/

/-- A map, and the order in which its keys came. -/
structure Ledger (κ α : Type) where
  order : List κ
  value : κ → Option α

namespace Ledger

variable {κ α : Type} [DecidableEq κ]

def empty : Ledger κ α := ⟨[], fun _ => none⟩

/-- The ledger with a value under a key.  A key that is present keeps its place. -/
def put (l : Ledger κ α) (key : κ) (value : α) : Ledger κ α where
  order := if key ∈ l.order then l.order else l.order ++ [key]
  value := Function.update l.value key (some value)

/-- The ledger without a key.  The others stay in order. -/
def remove (l : Ledger κ α) (key : κ) : Ledger κ α where
  order := l.order.filter (· ≠ key)
  value := Function.update l.value key none

/-- The associations of the map, in the order of its keys. -/
def entries (l : Ledger κ α) : Keyed κ α :=
  l.order.filterMap fun key => (l.value key).map fun value => (key, value)

/-- The list has the keys of the ledger in their order, each of them once, with the values of the
ledger. -/
structure Matches (l : Ledger κ α) (es : Keyed κ α) : Prop where
  keys : es.keys = l.order
  distinct : es.keys.Nodup
  find? : ∀ key, es.find? key = l.value key

variable {l : Ledger κ α} {es : Keyed κ α}

theorem matches_empty : (empty : Ledger κ α).Matches [] :=
  ⟨rfl, List.nodup_nil, fun _ => rfl⟩

theorem Matches.put (h : l.Matches es) (key : κ) (value : α) :
    (l.put key value).Matches (es.put key value) where
  keys := by rw [Keyed.keys_put, h.keys, Ledger.put]
  distinct := Keyed.nodup_keys_put h.distinct
  find? k := by
    show (es.put key value).find? k = Function.update l.value key (some value) k
    rw [Keyed.find?_put, Function.update_apply, h.find?]

theorem Matches.remove (h : l.Matches es) (key : κ) : (l.remove key).Matches (es.drop key) where
  keys := by rw [Keyed.keys_drop h.distinct, h.keys, Ledger.remove]
  distinct := Keyed.nodup_keys_drop h.distinct
  find? k := by
    show (es.drop key).find? k = Function.update l.value key none k
    rw [Keyed.find?_drop h.distinct, Function.update_apply, h.find?]

theorem Matches.entries_eq (h : l.Matches es) : es = l.entries := by
  have hentry : ∀ e ∈ es, (l.value e.1).map (fun value => (e.1, value)) = some e := by
    intro e he
    rw [← h.find?, Keyed.find?_of_mem h.distinct (show (e.1, e.2) ∈ es from he)]
    rfl
  rw [entries, ← h.keys, Keyed.keys, List.filterMap_map]
  exact ((List.filterMap_congr hentry).trans List.filterMap_some).symm

end Ledger

/-! ## Values that are the same -/

namespace Value

mutual

/-- Neither a floating-point number nor a list that holds one. -/
def floatFree : Value → Bool
  | scalar (.f64 _) => false
  | scalar _ => true
  | list items => floatFreeAll items

def floatFreeAll : List Value → Bool
  | [] => true
  | v :: rest => v.floatFree && floatFreeAll rest

end

mutual

/-- But for floating-point numbers only equal values are the same. -/
theorem same_iff_eq : (v w : Value) → v.floatFree = true → (v.same w = true ↔ v = w)
  | scalar v, scalar w, h => by
    cases v with
    | f64 x => cases h
    | _ => simp [same, Scalar.same]
  | list vs, list ws, h => by
    rw [same, sameList_iff_eq vs ws h, list.injEq]
  | scalar _, list _, _ => by simp [same]
  | list _, scalar _, _ => by simp [same]

theorem sameList_iff_eq :
    (vs ws : List Value) → floatFreeAll vs = true → (sameList vs ws = true ↔ vs = ws)
  | [], [], _ => by simp [sameList]
  | v :: vs, w :: ws, h => by
    rw [floatFreeAll, Bool.and_eq_true] at h
    rw [sameList, Bool.and_eq_true, same_iff_eq v w h.1, sameList_iff_eq vs ws h.2, List.cons.injEq]
  | [], _ :: _, _ => by simp [sameList]
  | _ :: _, [], _ => by simp [sameList]

end

end Value

namespace Row

/-! ## Equality -/

theorem same_iff_forall_mem {a b : Row} :
    a.same b = true ↔ a.size = b.size ∧ ∀ entry ∈ a.entries,
      ∃ other, b.entries.find? entry.1 = some other ∧ entry.2.same other = true := by
  rw [same, Bool.and_eq_true, beq_iff_eq, List.all_eq_true]
  refine and_congr_right fun _ => forall₂_congr fun entry _ => ?_
  cases hother : b.entries.find? entry.1 with
  | none => simp [hother]
  | some other => simp [hother]

/-- A row that has every name of another and as many names has no further ones. -/
theorem keys_perm_of_subset {a b : Row} (hsub : a.entries.keys ⊆ b.entries.keys)
    (hsize : a.size = b.size) : a.entries.keys.Perm b.entries.keys := by
  refine (a.distinct.subperm hsub).perm_of_length_le ?_
  rw [Keyed.keys, Keyed.keys, List.length_map, List.length_map]
  exact Nat.le_of_eq hsize.symm

/-- Rows are the same where every name has the same in both, or nothing in both. -/
theorem same_iff {a b : Row} :
    a.same b = true ↔
      ∀ name, Option.Rel (fun v w => v.same w = true) (a.entries.find? name)
        (b.entries.find? name) := by
  rw [same_iff_forall_mem]
  constructor
  · rintro ⟨hsize, hentries⟩ name
    have hsub : a.entries.keys ⊆ b.entries.keys := by
      intro k hk
      obtain ⟨entry, hentry, rfl⟩ := List.mem_map.mp hk
      obtain ⟨other, hother, -⟩ := hentries entry hentry
      exact Keyed.has_iff.mp (by rw [Keyed.has, hother]; rfl)
    cases ha : a.entries.find? name with
    | none =>
      rw [Keyed.find?_eq_none, (keys_perm_of_subset hsub hsize).mem_iff, ← Keyed.find?_eq_none]
        at ha
      rw [ha]
      exact .none
    | some value =>
      obtain ⟨other, hother, hsame⟩ := hentries (name, value) (Keyed.mem_of_find? ha)
      rw [hother]
      exact .some hsame
  · intro hrel
    have hkeys : a.entries.keys.Perm b.entries.keys := by
      refine (List.perm_ext_iff_of_nodup a.distinct b.distinct).mpr fun name => ?_
      rw [← Keyed.has_iff, ← Keyed.has_iff, Keyed.has, Keyed.has, isSome_eq_of_rel (hrel name)]
    have hlength := hkeys.length_eq
    rw [Keyed.keys, Keyed.keys, List.length_map, List.length_map] at hlength
    refine ⟨hlength, fun entry hentry => ?_⟩
    have hfound := Keyed.find?_of_mem a.distinct (show (entry.1, entry.2) ∈ a.entries from hentry)
    exact exists_of_rel_some (hfound ▸ hrel entry.1)

/-- Rows without floating-point numbers are the same where they differ by the order of their entries
alone. -/
theorem same_iff_perm {a b : Row} (h : ∀ entry ∈ a.entries, entry.2.floatFree = true) :
    a.same b = true ↔ a.entries.Perm b.entries := by
  rw [same_iff, Keyed.perm_iff_find? a.distinct b.distinct]
  refine forall_congr' fun name => ?_
  cases ha : a.entries.find? name with
  | none =>
    cases b.entries.find? name with
    | none => simp
    | some w => simp
  | some v =>
    have hfree := h (name, v) (Keyed.mem_of_find? ha)
    cases b.entries.find? name with
    | none => simp
    | some w => simp [Value.same_iff_eq v w hfree]

end Row

/-! ## Histories -/

namespace Ledger

/-- The same change of a ledger, under the folded name. -/
def edit (l : Ledger String Value) : Row.Edit → Option Value × Ledger String Value
  | .insert name value => (l.value (Text.fold name), l.put (Text.fold name) value)
  | .remove name => (l.value (Text.fold name), l.remove (Text.fold name))

def ofList (pairs : List (String × Value)) : Ledger String Value :=
  pairs.foldl (fun l pair => l.put (Text.fold pair.1) pair.2) empty

theorem Matches.edit {l : Ledger String Value} {row : Row} (h : l.Matches row.entries)
    (e : Row.Edit) :
    (row.edit e).1 = (l.edit e).1 ∧ (l.edit e).2.Matches (row.edit e).2.entries := by
  cases e with
  | insert name value => exact ⟨h.find? (Text.fold name), h.put (Text.fold name) value⟩
  | remove name => exact ⟨h.find? (Text.fold name), h.remove (Text.fold name)⟩

theorem matches_ofList (pairs : List (String × Value)) :
    (ofList pairs).Matches (Row.ofList pairs).entries := by
  suffices hgen : ∀ (l : Ledger String Value) (row : Row), l.Matches row.entries →
      (pairs.foldl (fun l pair => l.put (Text.fold pair.1) pair.2) l).Matches
        (pairs.foldl (fun row pair => row.insert pair.1 pair.2) row).entries from
    hgen empty Row.empty matches_empty
  induction pairs with
  | nil => exact fun l row h => h
  | cons pair rest ih => exact fun l row h => ih _ _ (h.put (Text.fold pair.1) pair.2)

end Ledger

namespace Row

/-- What has happened to a row: the pairs it was collected from, none for the empty row, and the
changes made since. -/
structure History where
  start : List (String × Value)
  edits : List Edit

namespace History

/-- What the changes gave back. -/
def answers (h : History) : List (Option Value) :=
  (transcript Row.edit (Row.ofList h.start) h.edits).1

def row (h : History) : Row :=
  (transcript Row.edit (Row.ofList h.start) h.edits).2

/-- What the same changes of a ledger give back. -/
def expected (h : History) : List (Option Value) :=
  (transcript Ledger.edit (Ledger.ofList h.start) h.edits).1

def ledger (h : History) : Ledger String Value :=
  (transcript Ledger.edit (Ledger.ofList h.start) h.edits).2

theorem follows (h : History) : h.answers = h.expected ∧ h.ledger.Matches h.row.entries :=
  transcript_related (R := fun (row : Row) (l : Ledger String Value) => l.Matches row.entries)
    (f := Row.edit) (g := Ledger.edit) (fun _ _ e hmatch => hmatch.edit e) h.edits
    (Ledger.matches_ofList h.start)

/-- Whatever a row was collected from and whatever was inserted and removed, its changes give back
what those of the ledger do, and it has the entries of the ledger, in order.  Every name in it is
folded and stands there once, a name of any spelling is read as the ledger has it under its folded
form, and an entry that is found by the spelling of a name is the one that is found by its folded
form.  Two rows are the same where their ledgers are the same as maps: under every name both have the
same or nothing; so, where no value is a floating-point number, they differ by the order of their
associations alone. -/
theorem row_follows_ledger (h : History) :
    h.answers = h.expected ∧ h.row.entries = h.ledger.entries ∧
      (∀ name ∈ h.row.keys, Text.fold name = name) ∧ h.row.keys.Nodup ∧
      (∀ name, h.row.get? name = h.ledger.value (Text.fold name) ∧
        h.row.contains name = (h.ledger.value (Text.fold name)).isSome) ∧
      (∀ name value, h.row.entries.find? name = some value →
        Text.fold name = name ∧ h.row.entries.find? (Text.fold name) = some value) ∧
      ∀ h' : History,
        (h.row.same h'.row = true ↔ ∀ name, Option.Rel (fun v w => v.same w = true)
          (h.ledger.value name) (h'.ledger.value name)) ∧
        ((∀ entry ∈ h.ledger.entries, entry.2.floatFree = true) →
          (h.row.same h'.row = true ↔ h.ledger.entries.Perm h'.ledger.entries)) := by
  obtain ⟨hanswers, hmatch⟩ := h.follows
  have hget : ∀ name, h.row.get? name = h.ledger.value (Text.fold name) := fun name => by
    rw [get?_eq, hmatch.find?]
  refine ⟨hanswers, hmatch.entries_eq, h.row.folded, h.row.distinct, fun name => ?_, ?_, ?_⟩
  · exact ⟨hget name, by rw [contains, hget]⟩
  · intro name value hfound
    have hfolded := h.row.folded name (Keyed.mem_keys_of_mem (Keyed.mem_of_find? hfound))
    exact ⟨hfolded, by rw [hfolded, hfound]⟩
  · intro h'
    have hmatch' := h'.follows.2
    constructor
    · rw [same_iff]
      simp only [hmatch.find?, hmatch'.find?]
    · rw [← hmatch.entries_eq, ← hmatch'.entries_eq]
      exact same_iff_perm

/-! ### Names in several cases -/

/-- A second value for the second name, and the first name removed and inserted again. -/
def reinserted : History :=
  ⟨[("B", .i64 2), ("a", .i64 1)], [.insert "A" (.i64 5), .remove "b", .insert "B" (.string "7")]⟩

/-- The same data in the other order. -/
def collected : History :=
  ⟨[("b", .string "7"), ("A", .i64 5)], []⟩

theorem row_follows_ledger_reinserted :
    reinserted.answers = [some (.i64 1), some (.i64 2), none] ∧
      reinserted.row.entries = [("a", .i64 5), ("b", .string "7")] ∧
      reinserted.row.get? "B" = some (.string "7") ∧
      (∀ entry ∈ reinserted.ledger.entries, entry.2.floatFree = true) ∧
      collected.row.entries = [("b", .string "7"), ("a", .i64 5)] ∧
      reinserted.row.same collected.row = true := by
  have hexpected : reinserted.expected = [some (.i64 1), some (.i64 2), none] := by cbv
  have hledger : reinserted.ledger.entries = [("a", .i64 5), ("b", .string "7")] := by cbv
  have hvalue : reinserted.ledger.value (Text.fold "B") = some (.string "7") := by cbv
  have hother : collected.ledger.entries = [("b", .string "7"), ("a", .i64 5)] := by cbv
  have hfree : ∀ entry ∈ reinserted.ledger.entries, entry.2.floatFree = true := by
    rw [hledger]
    decide
  obtain ⟨hanswers, hentries, -, -, hget, -, hsame⟩ := row_follows_ledger reinserted
  refine ⟨hanswers.trans hexpected, hentries.trans hledger, (hget "B").1.trans hvalue, hfree,
    (row_follows_ledger collected).2.1.trans hother, ?_⟩
  rw [(hsame collected).2 hfree, hledger, hother]
  exact List.Perm.swap _ _ _

end History
end Row
end RowGraph
