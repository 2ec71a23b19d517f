import Mathlib.Order.Bounds.Basic
import RowGraph.Proofs.Loop
import RowGraph.Proofs.Statement.Reachable

/-!
Parameters registered one after another.

A name that is taken is tried again with the numbers 1, 2 and so on behind it.  Different numbers
make different names and only finitely many names are taken, so the search comes to a free name, the
first one that there is, after at most as many turns as there are parameters.  The new parameter is
put at the end.  So nothing that is registered later changes what a name stands for, and the default
parameter, once there is one, stays at its place.
-/

namespace RowGraph
namespace Parameters

/-! ## The search for a name -/

/-- A name under trial, and the number that is tried next. -/
structure Search where
  name : String
  next : Nat

/-- A name that is taken gives way to the base followed by the next number. -/
def Search.turn (base : String) (taken : List String) (s : Search) : Option Search :=
  if s.name ∈ taken then some ⟨base ++ toString s.next, s.next + 1⟩ else none

/-- The names that are tried: the base and then the base with the numbers from 1. -/
def numbered (base : String) : Nat → String
  | 0 => base
  | k + 1 => base ++ toString (k + 1)

theorem numbered_eq {base : String} {k : Nat} (h : 1 ≤ k) :
    numbered base k = base ++ toString k := by
  obtain ⟨k, rfl⟩ := Nat.exists_eq_add_of_le' h
  rfl

theorem numbered_injective (base : String) : Function.Injective (numbered base) := by
  have hlonger : ∀ k, base ≠ base ++ toString (k + 1) := by
    intro k h
    have hrepr : toString (k + 1) = "" := (String.append_right_inj base).mp (by simpa using h.symm)
    exact absurd hrepr Nat.repr_ne_empty
  intro j k h
  match j, k with
  | 0, 0 => rfl
  | 0, k + 1 => exact absurd h (hlonger k)
  | j + 1, 0 => exact absurd h.symm (hlonger j)
  | j + 1, k + 1 => exact Nat.repr_injective ((String.append_right_inj base).mp h)

/-- The search after so many turns. -/
def Search.after (base : String) (k : Nat) : Search := ⟨numbered base k, k + 1⟩

theorem Search.turn_after_of_mem {base : String} {taken : List String} {k : Nat}
    (h : numbered base k ∈ taken) :
    Search.turn base taken (Search.after base k) = some (Search.after base (k + 1)) :=
  if_pos h

theorem Search.turn_after_of_not_mem {base : String} {taken : List String} {k : Nat}
    (h : numbered base k ∉ taken) : Search.turn base taken (Search.after base k) = none :=
  if_neg h

/-- If the first names of the search are all taken, there are no fewer parameters than that. -/
theorem le_length_of_numbered {base : String} {taken : List String} {n : Nat}
    (h : ∀ k < n, numbered base k ∈ taken) : n ≤ taken.length := by
  have hnodup := List.Nodup.map (numbered_injective base) (List.nodup_range (n := n))
  have hsub : (List.range n).map (numbered base) ⊆ taken := by
    intro name hname
    obtain ⟨k, hk, rfl⟩ := List.mem_map.mp hname
    exact h k (List.mem_range.mp hk)
  have hlength := List.Nodup.length_le_of_subset hnodup hsub
  rwa [List.length_map, List.length_range] at hlength

/-- The name that is given is the first one of the search that is free. -/
theorem freshName_eq_numbered (base : String) (taken : List String) :
    ∃ n, freshName base taken = numbered base n ∧ ∀ k < n, numbered base k ∈ taken := by
  by_cases hbase : base ∈ taken
  · have hfree := freshName_not_mem base taken
    rw [freshName, if_pos hbase] at hfree ⊢
    simp only [List.find?_map, Function.comp_def] at hfree ⊢
    cases hfind : (List.range (taken.length + 1)).find? fun k =>
        !taken.contains (base ++ toString (k + 1)) with
    | none =>
      rw [hfind] at hfree
      exact absurd hbase hfree
    | some n =>
      refine ⟨n + 1, rfl, fun k hk => ?_⟩
      obtain ⟨-, -, hbefore⟩ := List.find?_range_eq_some.mp hfind
      cases k with
      | zero => exact hbase
      | succ k =>
        have htaken := hbefore k (by omega)
        simpa [numbered] using htaken
  · exact ⟨0, by rw [freshName, if_neg hbase]; rfl, fun k hk => absurd hk (Nat.not_lt_zero k)⟩

/-- The search ends, and the name that it ends with is the one that is given. -/
theorem endsAfter_freshName (base : String) (taken : List String) :
    ∃ n ≤ taken.length, EndsAfter (Search.turn base taken) n ⟨base, 1⟩
        ⟨freshName base taken, n + 1⟩ ∧
      freshName base taken = numbered base n ∧ ∀ k < n, numbered base k ∈ taken := by
  obtain ⟨n, hname, hbefore⟩ := freshName_eq_numbered base taken
  refine ⟨n, le_length_of_numbered hbefore, ?_, hname, hbefore⟩
  have hfree := freshName_not_mem base taken
  rw [hname] at hfree ⊢
  exact EndsAfter.of_states (Search.turn_after_of_not_mem hfree)
    fun k hk => Search.turn_after_of_mem (hbefore k hk)

/-! ## Sets made by registrations -/

/-- What is asked of a set of parameters when one more is registered. -/
structure Request where
  name : Option String
  descriptor : Descriptor
  isDefault : Bool

/-- The name that a request asks for. -/
def Request.base (q : Request) : String :=
  q.name.getD defaultName

/-- The answer to a request, and the parameters after it.  A refusal leaves them as they are. -/
def perform (ps : Parameters) (q : Request) : Outcome String × Parameters :=
  match ps.register q.name q.descriptor q.isDefault with
  | .ok (given, after) => (.ok given, after)
  | .error e => (.error e, ps)

def performAll (ps : Parameters) (qs : List Request) : Parameters :=
  qs.foldl (fun ps q => (ps.perform q).2) ps

inductive Reached : Parameters → Prop
  | empty : Reached empty
  | perform {ps : Parameters} (hps : Reached ps) (q : Request) : Reached (ps.perform q).2

variable {ps : Parameters} {q : Request}

theorem perform_of_default {existing : String} {d : Descriptor} (hq : q.isDefault = true)
    (h : ps.default? = some (existing, d)) :
    ps.perform q = (.error (.adhoc (.defaultTaken existing q.base)), ps) := by
  have hregister : ps.register q.name q.descriptor q.isDefault =
      .error (.adhoc (.defaultTaken existing q.base)) := by
    rw [register.eq_def, hq, h]
    rfl
  rw [perform, hregister]

theorem perform_of_free (h : q.isDefault = true → ps.default? = none) :
    ps.perform q = (.ok (freshName q.base ps.names),
      ⟨ps.entries ++ [(freshName q.base ps.names, q.descriptor)],
        if q.isDefault then some (freshName q.base ps.names) else ps.default⟩) := by
  have hregister : ps.register q.name q.descriptor q.isDefault =
      .ok (freshName q.base ps.names,
        ⟨ps.entries ++ [(freshName q.base ps.names, q.descriptor)],
          if q.isDefault then some (freshName q.base ps.names) else ps.default⟩) := by
    rw [register.eq_def]
    cases hq : q.isDefault with
    | false => rfl
    | true =>
      rw [h hq]
      rfl
  rw [perform, hregister]

/-- A request asks for a second default, or for nothing that cannot be granted. -/
theorem perform_cases (ps : Parameters) (q : Request) :
    (∃ existing d, q.isDefault = true ∧ ps.default? = some (existing, d)) ∨
      (q.isDefault = true → ps.default? = none) := by
  cases hq : q.isDefault with
  | false => exact Or.inr nofun
  | true =>
    cases hdefault : ps.default? with
    | none => exact Or.inr fun _ => rfl
    | some entry => exact Or.inl ⟨entry.1, entry.2, rfl, rfl⟩

/-! ## What registrations keep -/

/-- Names are distinct, and the default is one of them. -/
structure WellFormed (ps : Parameters) : Prop where
  distinct : ps.names.Nodup
  default : ∀ name, ps.default = some name → name ∈ ps.names

theorem names_perform_of_free (h : q.isDefault = true → ps.default? = none) :
    (ps.perform q).2.names = ps.names ++ [freshName q.base ps.names] := by
  rw [perform_of_free h, names, names, Keyed.keys, Keyed.keys, List.map_append]
  rfl

theorem WellFormed.perform (hps : ps.WellFormed) (q : Request) :
    (ps.perform q).2.WellFormed := by
  rcases perform_cases ps q with ⟨existing, d, hq, hdefault⟩ | hfree
  · rw [perform_of_default hq hdefault]
    exact hps
  · have hnames := names_perform_of_free hfree
    constructor
    · rw [hnames, ← List.concat_eq_append]
      exact hps.distinct.concat (freshName_not_mem _ _)
    · intro name hname
      rw [hnames, List.mem_append, List.mem_singleton]
      rw [perform_of_free hfree] at hname
      cases hq : q.isDefault with
      | true =>
        rw [hq] at hname
        exact Or.inr (Option.some.inj hname).symm
      | false =>
        rw [hq] at hname
        exact Or.inl (hps.default name hname)

theorem WellFormed.performAll (hps : ps.WellFormed) (qs : List Request) :
    (ps.performAll qs).WellFormed := by
  induction qs generalizing ps with
  | nil => exact hps
  | cons q rest ih => exact ih (hps.perform q)

theorem Reached.wellFormed (hps : Reached ps) : ps.WellFormed := by
  induction hps with
  | empty => exact ⟨List.nodup_nil, nofun⟩
  | perform _ q ih => exact ih.perform q

/-- Entries stay where they are. -/
theorem entries_prefix_perform (ps : Parameters) (q : Request) :
    ps.entries <+: (ps.perform q).2.entries := by
  rcases perform_cases ps q with ⟨existing, d, hq, hdefault⟩ | hfree
  · rw [perform_of_default hq hdefault]
  · rw [perform_of_free hfree]
    exact List.prefix_append _ _

theorem entries_prefix_performAll (ps : Parameters) (qs : List Request) :
    ps.entries <+: (ps.performAll qs).entries := by
  induction qs generalizing ps with
  | nil => exact List.prefix_refl _
  | cons q rest ih => exact (entries_prefix_perform ps q).trans (ih _)

/-! ## The default -/

theorem default?_eq_some_iff {name : String} {d : Descriptor} :
    ps.default? = some (name, d) ↔ ps.default = some name ∧ ps.find? name = some d := by
  rw [default?, Option.bind_eq_some_iff]
  constructor
  · rintro ⟨name', hname, h⟩
    obtain ⟨d', hd, hentry⟩ := Option.map_eq_some_iff.mp h
    cases hentry
    exact ⟨hname, hd⟩
  · rintro ⟨hname, hd⟩
    exact ⟨name, hname, by rw [hd]; rfl⟩

/-- A request makes the new parameter the default if it asks for that, and else leaves the default
as it is. -/
theorem WellFormed.default?_perform (hps : ps.WellFormed)
    (h : q.isDefault = true → ps.default? = none) :
    (ps.perform q).2.default? =
      if q.isDefault then some (freshName q.base ps.names, q.descriptor) else ps.default? := by
  rw [perform_of_free h]
  cases hq : q.isDefault with
  | true =>
    have hnew : ps.entries.find? (freshName q.base ps.names) = none :=
      Keyed.find?_eq_none.mpr (freshName_not_mem _ _)
    simp only [↓reduceIte, default?_eq_some_iff, true_and]
    rw [find?, Keyed.find?_append, hnew, Option.none_or, Keyed.find?, if_pos rfl]
  | false =>
    rw [if_neg Bool.false_ne_true, default?, default?]
    cases hdefault : ps.default with
    | none => rfl
    | some name =>
      obtain ⟨d, hd⟩ := Option.isSome_iff_exists.mp (Keyed.has_iff.mpr (hps.default name hdefault))
      have hlater : ∀ entry, (ps.entries ++ [entry]).find? name = some d := fun entry => by
        rw [Keyed.find?_append, hd, Option.some_or]
      simp only [Option.bind_some, find?, hlater, hd]
      rfl

theorem WellFormed.default?_perform_of_some (hps : ps.WellFormed) {name : String}
    {d : Descriptor} (h : ps.default? = some (name, d)) (q : Request) :
    (ps.perform q).2.default? = some (name, d) := by
  rcases perform_cases ps q with ⟨existing, d', hq, hdefault⟩ | hfree
  · rw [perform_of_default hq hdefault, h]
  · have hq : q.isDefault = false := by
      cases hq : q.isDefault with
      | false => rfl
      | true =>
        rw [hfree hq] at h
        cases h
    rw [hps.default?_perform hfree, hq, if_neg Bool.false_ne_true, h]

theorem WellFormed.default?_performAll (hps : ps.WellFormed) {name : String} {d : Descriptor}
    (h : ps.default? = some (name, d)) (qs : List Request) :
    (ps.performAll qs).default? = some (name, d) := by
  induction qs generalizing ps with
  | nil => exact h
  | cons q rest ih => exact ih (hps.perform q) (hps.default?_perform_of_some h q)

/-- The default has a place among the entries, and that place is kept. -/
theorem exists_place_of_default? {name : String} {d : Descriptor}
    (h : ps.default? = some (name, d)) (qs : List Request) :
    ∃ place : Nat, ps.entries[place]? = some (name, d) ∧
      (ps.performAll qs).entries[place]? = some (name, d) := by
  have hmem := Keyed.mem_of_find? (default?_eq_some_iff.mp h).2
  obtain ⟨place, hplace⟩ := List.mem_iff_getElem?.mp hmem
  obtain ⟨later, hlater⟩ := entries_prefix_performAll ps qs
  refine ⟨place, hplace, ?_⟩
  obtain ⟨hlt, -⟩ := List.getElem?_eq_some_iff.mp hplace
  rw [← hlater, List.getElem?_append_left hlt, hplace]

/-! ## Registering -/

/-- A request for a second default is refused.  Any other search for a name comes to an end before
its number outgrows 32 bits; the name is the base if that is free and else the base with the least
number that makes it so; and the new entry is the only change, but for the default when it is asked
for.  Whatever is requested later, names are distinct, entries keep their places, and the default
stays the same parameter at the same place. -/
theorem Reached.registration (hps : Reached ps) (hsize : ps.size < 2 ^ 31 - 1) (q : Request) :
    (∀ existing d, q.isDefault = true → ps.default? = some (existing, d) →
      ps.perform q = (.error (.adhoc (.defaultTaken existing q.base)), ps)) ∧
    ((q.isDefault = true → ps.default? = none) → ∃ given after turns,
      EndsAfter (Search.turn q.base ps.names) turns ⟨q.base, 1⟩ ⟨given, turns + 1⟩ ∧
      turns + 1 < 2 ^ 31 ∧
      ps.perform q = (.ok given, after) ∧
      (q.base ∉ ps.names → given = q.base) ∧
      (q.base ∈ ps.names → ∃ k, given = q.base ++ toString k ∧
        IsLeast {k | 1 ≤ k ∧ q.base ++ toString k ∉ ps.names} k) ∧
      after.entries = ps.entries ++ [(given, q.descriptor)] ∧
      after.default? = if q.isDefault then some (given, q.descriptor) else ps.default?) ∧
    ∀ qs : List Request,
      (ps.performAll qs).names.Nodup ∧ ps.entries <+: (ps.performAll qs).entries ∧
      ∀ name d, ps.default? = some (name, d) →
        (ps.performAll qs).default? = some (name, d) ∧
        ∃ place : Nat, ps.entries[place]? = some (name, d) ∧
          (ps.performAll qs).entries[place]? = some (name, d) := by
  refine ⟨fun existing d => perform_of_default, fun hfree => ?_, fun qs => ?_⟩
  · obtain ⟨turns, hturns, hends, hname, hbefore⟩ := endsAfter_freshName q.base ps.names
    have hlength : ps.names.length = ps.size := List.length_map _
    have hgiven : freshName q.base ps.names ∉ ps.names := freshName_not_mem _ _
    refine ⟨freshName q.base ps.names, _, turns, hends, by omega, perform_of_free hfree, ?_, ?_,
      rfl, ?_⟩
    · intro hbase
      rw [freshName, if_neg hbase]
    · intro hbase
      have hpos : 1 ≤ turns := by
        by_contra hzero
        obtain rfl : turns = 0 := by omega
        exact hgiven (hname ▸ hbase)
      rw [hname, numbered_eq hpos] at hgiven ⊢
      refine ⟨turns, rfl, ⟨hpos, hgiven⟩, fun k hk => ?_⟩
      by_contra hlt
      exact hk.2 (numbered_eq hk.1 ▸ hbefore k (by omega))
    · have hdefault := hps.wellFormed.default?_perform hfree
      rwa [perform_of_free hfree] at hdefault
  · exact ⟨(hps.wellFormed.performAll qs).distinct, entries_prefix_performAll ps qs,
      fun name d h => ⟨hps.wellFormed.default?_performAll h qs, exists_place_of_default? h qs⟩⟩

/-! ### Names that were chosen by hand -/

def unit : Descriptor := ⟨"Unit", "Units", "id", [], [], []⟩

/-- Two units with a number between their names left out, the first of them the default. -/
def units : Parameters :=
  empty.performAll [⟨some "x", unit, true⟩, ⟨some "x1", unit, false⟩, ⟨some "x3", unit, false⟩]

theorem registration_units :
    Reached units ∧ units.size < 2 ^ 31 - 1 ∧
    units.default? = some ("x", unit) ∧
    units.perform ⟨some "y", unit, true⟩ = (.error (.adhoc (.defaultTaken "x" "y")), units) ∧
    (∃ after, units.perform ⟨none, unit, false⟩ = (.ok "x2", after) ∧
      after.default? = some ("x", unit)) ∧
    (units.performAll [⟨none, unit, false⟩, ⟨none, unit, true⟩]).default? = some ("x", unit) := by
  have hreached : Reached units := ((Reached.empty.perform _).perform _).perform _
  have hsize : units.size < 2 ^ 31 - 1 := by decide
  have hdefault : units.default? = some ("x", unit) := by decide
  obtain ⟨hrefused, -, -⟩ := hreached.registration hsize ⟨some "y", unit, true⟩
  obtain ⟨-, hgranted, hlater⟩ := hreached.registration hsize ⟨none, unit, false⟩
  refine ⟨hreached, hsize, hdefault, hrefused "x" unit rfl hdefault, ?_, ?_⟩
  · obtain ⟨given, after, turns, -, -, hperform, -, htaken, -, hkept⟩ := hgranted nofun
    obtain ⟨k, rfl, hk⟩ := htaken (by decide)
    have htwo : k = 2 := by
      have hle := hk.2 (show 2 ∈ {k | 1 ≤ k ∧ "x" ++ toString k ∉ units.names} from by decide)
      have hone : k ≠ 1 := by
        rintro rfl
        exact hk.1.2 (by decide)
      have hpos := hk.1.1
      omega
    subst htwo
    exact ⟨after, hperform, by rw [hkept]; decide⟩
  · exact (hlater _).2.2 "x" unit hdefault |>.1

end Parameters
end RowGraph
