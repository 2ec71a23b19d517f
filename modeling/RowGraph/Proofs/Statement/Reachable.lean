import Mathlib.Data.List.Nodup
import RowGraph.Proofs.Keyed
import RowGraph.Proofs.Lists
import RowGraph.Proofs.Statement.Link
import RowGraph.Statement.Select
import Std.Data.String.ToNat

/-!
The selections that a program can come to have.

Whatever steps led to it, a selection is a forest: its parameters are the root and, in the order of
the links, the parameters that these lead to.  All of them have different names, and each link
starts at the root or at a parameter that an earlier link leads to.
-/

namespace RowGraph
namespace Parameters

/-- A name that is given to a new parameter is free. -/
theorem freshName_not_mem (base : String) (taken : List String) :
    freshName base taken ∉ taken := by
  have hnodup : ((List.range (taken.length + 1)).map fun k => base ++ toString (k + 1)).Nodup := by
    refine List.Nodup.map ?_ List.nodup_range
    intro a b hab
    have hrepr : Nat.repr (a + 1) = Nat.repr (b + 1) := (String.append_right_inj base).mp hab
    exact Nat.succ.inj (Nat.repr_injective hrepr)
  rw [freshName]
  by_cases hbase : base ∈ taken
  · rw [if_pos hbase]
    simp only
    generalize hcandidates :
      ((List.range (taken.length + 1)).map fun k => base ++ toString (k + 1)) = candidates
    cases hfind : candidates.find? fun name => !taken.contains name with
    | some name =>
      have hfree := List.find?_some hfind
      simpa using hfree
    | none =>
      -- Otherwise all candidates would be taken, and there are more of them than that.
      rw [List.find?_eq_none] at hfind
      rw [hcandidates] at hnodup
      have hsub : candidates ⊆ taken := fun name hname => by simpa using hfind name hname
      have hlength := List.Nodup.length_le_of_subset hnodup hsub
      rw [← hcandidates, List.length_map, List.length_range] at hlength
      omega
  · rw [if_neg hbase]
    exact hbase

/-- Registering a further parameter gives it a free name and leaves the others alone. -/
theorem register_eq_ok {ps after : Parameters} {name : Option String} {d : Descriptor}
    {given : String} (h : ps.register name d false = .ok (given, after)) :
    given ∉ ps.names ∧ after.entries = ps.entries ++ [(given, d)] ∧
      after.default = ps.default := by
  rw [register.eq_def] at h
  cases h
  exact ⟨freshName_not_mem _ _, rfl, rfl⟩

theorem find?_append {ps after : Parameters} {entries : Keyed String Descriptor}
    (h : after.entries = ps.entries ++ entries) {name : String} {d : Descriptor}
    (hd : ps.find? name = some d) : after.find? name = some d := by
  rw [find?] at hd ⊢
  rw [h, Keyed.find?_append, hd, Option.some_or]

end Parameters

theorem Link.Follows.mono {l : Link} {ps after : Parameters} {entries : Keyed String Descriptor}
    {owner related : Descriptor} {relation : Relation}
    (h : after.entries = ps.entries ++ entries) (hl : l.Follows ps owner related relation) :
    l.Follows after owner related relation :=
  ⟨Parameters.find?_append h hl.left, Parameters.find?_append h hl.right, hl.member, hl.target,
    hl.keys⟩

namespace Select

/-- The selections made of a model's by any steps, each taken with any registry that the program can
have by then. -/
inductive Reached (c : Catalogue) : Select → Prop
  | named {r : Registry} {model : String} {name : Option String} {s : Select}
      (hr : Registry.Reached c r) (h : ofModel r model name = .ok s) : Reached c s
  | step {s t : Select} {r : Registry} {st : Step} (hs : Reached c s) (hr : Registry.Reached c r)
      (h : s.step r st = .ok t) : Reached c t

/-- The links of a selection form a forest over its parameters. -/
structure WellFormed (c : Catalogue) (s : Select) : Prop where
  names : s.params.names = s.rootName :: s.links.map (·.right)
  distinct : s.params.names.Nodup
  described : ∀ entry ∈ s.params.entries, c.Describes entry.2
  rooted : ∀ before l after, s.links = before ++ l :: after →
    l.left ∈ s.rootName :: before.map (·.right)
  follows : ∀ l ∈ s.links, ∃ owner related relation, l.Follows s.params owner related relation

variable {c : Catalogue} {r : Registry} {s t : Select}

/-- A link leads to a parameter that comes after those it may start at. -/
theorem WellFormed.right_not_mem (hs : s.WellFormed c) {before after : List Link} {l : Link}
    (hlinks : s.links = before ++ l :: after) : l.right ∉ s.rootName :: before.map (·.right) := by
  have hdistinct := hs.distinct
  rw [hs.names, hlinks, List.map_append, List.map_cons, ← List.cons_append,
    List.nodup_append] at hdistinct
  intro hmem
  exact hdistinct.2.2 _ hmem _ List.mem_cons_self rfl

theorem WellFormed.left_ne_right (hs : s.WellFormed c) {l : Link} (hl : l ∈ s.links) :
    l.left ≠ l.right := by
  obtain ⟨before, after, hlinks⟩ := List.append_of_mem hl
  intro heq
  exact hs.right_not_mem hlinks (heq ▸ hs.rooted before l after hlinks)

/-- A link is told by the parameter that it leads to. -/
theorem WellFormed.eq_of_right_eq (hs : s.WellFormed c) {l l' : Link} (hl : l ∈ s.links)
    (hl' : l' ∈ s.links) (h : l.right = l'.right) : l = l' := by
  have hdistinct := hs.distinct
  rw [hs.names, List.nodup_cons] at hdistinct
  exact List.inj_on_of_nodup_map hdistinct.2 hl hl' h

/-- No link up to a given one starts at the parameter that the given one leads to. -/
theorem WellFormed.left_ne_of_mem (hs : s.WellFormed c) {before after : List Link} {l l' : Link}
    (hlinks : s.links = before ++ l :: after) (hl' : l' ∈ before ++ [l]) : l'.left ≠ l.right := by
  rcases List.mem_append.mp hl' with hl' | hl'
  · obtain ⟨first, second, rfl⟩ := List.append_of_mem hl'
    have hrooted := hs.rooted first l' (second ++ l :: after) (by
      rw [hlinks, List.append_assoc]
      rfl)
    intro heq
    have hnot := hs.right_not_mem hlinks
    rw [← heq, List.map_append, ← List.cons_append] at hnot
    exact hnot (List.mem_append_left _ hrooted)
  · rw [List.mem_singleton] at hl'
    subst hl'
    exact hs.left_ne_right (hlinks ▸ List.mem_append_right before List.mem_cons_self)

theorem wellFormed_ofModel (hr : Registry.Reached c r) {model : String} {name : Option String}
    (h : ofModel r model name = .ok s) : s.WellFormed c := by
  rw [ofModel, Outcome.bind_eq_ok] at h
  obtain ⟨d, hd, h⟩ := h
  rw [Parameters.register_empty] at h
  cases h
  refine ⟨rfl, List.nodup_singleton _, ?_, ?_, ?_⟩
  · intro entry hentry
    rw [Parameters.root, List.mem_singleton] at hentry
    subst hentry
    exact (hr.sound.descriptor hd).2
  · intro before l after hlinks
    exact absurd hlinks.symm (List.append_ne_nil_of_right_ne_nil before (by simp))
  · intro l hl
    exact absurd hl List.not_mem_nil

/-! ## One step further -/

/-- A restriction adds a condition to the filter, compiled over the parameters that are there. -/
theorem restrict_eq_ok {e : Expr} (h : s.restrict r e = .ok t) :
    ∃ (scope : Scope) (condition : Condition), scope.params = s.params ∧
      scope.compile e = .ok condition ∧
      t = { s with filter := some (Condition.conjoin s.filter condition) } := by
  rw [restrict, Outcome.bind_eq_ok] at h
  obtain ⟨scope, hscope, h⟩ := h
  rw [Outcome.bind_eq_ok] at h
  obtain ⟨condition, hcondition, h⟩ := h
  cases h
  refine ⟨scope, condition, ?_, hcondition, rfl⟩
  rw [Scope.filter] at hscope
  split at hscope
  next =>
    cases hscope
    rfl
  next => cases hscope

/-- The second selection has one parameter more than the first, under a name that was free, and one
link more. -/
structure Extends (s t : Select) (right : String) (target : Descriptor) (link : Link) : Prop where
  entries : t.params.entries = s.params.entries ++ [(right, target)]
  free : right ∉ s.params.names
  root : t.rootName = s.rootName
  links : t.links = s.links ++ [link]
  filter : t.filter = s.filter
  projection : t.projection = s.projection

theorem Extends.names {right : String} {target : Descriptor} {link : Link}
    (h : s.Extends t right target link) : t.params.names = s.params.names ++ [right] := by
  rw [Parameters.names, Keyed.keys, h.entries, List.map_append]
  rfl

/-- What a join looks up, registers and builds. -/
theorem join_cases {j : Join} (h : s.join r j = .ok t) :
    ∃ owner model target right params link, s.params.find? (j.left.getD s.rootName) = some owner ∧
      r.descriptor model = .ok target ∧
      s.params.register j.right target false = .ok (right, params) ∧
      Link.build r params (j.left.getD s.rootName) j.member right j.on = .ok link ∧
      t = { s with params := params, links := s.links ++ [link] } := by
  rw [join, Outcome.bind_eq_ok] at h
  obtain ⟨owner, howner, h⟩ := h
  rw [Outcome.bind_eq_ok] at h
  obtain ⟨relation, -, h⟩ := h
  rw [Outcome.bind_eq_ok] at h
  obtain ⟨target, htarget, h⟩ := h
  rw [Outcome.bind_eq_ok] at h
  obtain ⟨⟨right, params⟩, hparams, h⟩ := h
  rw [Outcome.bind_eq_ok] at h
  obtain ⟨link, hlink, h⟩ := h
  cases h
  exact ⟨owner, relation.target, target, right, params, link, Link.paramType_eq_ok.mp howner,
    htarget, hparams, hlink, rfl⟩

/-- A join adds a parameter and a link that is built over the parameters with the new one. -/
theorem join_eq_ok {j : Join} (h : s.join r j = .ok t) :
    ∃ owner model target right link, s.params.find? (j.left.getD s.rootName) = some owner ∧
      r.descriptor model = .ok target ∧
      Link.build r t.params (j.left.getD s.rootName) j.member right j.on = .ok link ∧
      s.Extends t right target link := by
  obtain ⟨owner, model, target, right, params, link, howner, htarget, hparams, hlink, rfl⟩ :=
    join_cases h
  obtain ⟨hfree, hentries, hdefault⟩ := Parameters.register_eq_ok hparams
  have hroot : params.default.getD Parameters.defaultName = s.rootName := by
    rw [hdefault]
    rfl
  exact ⟨owner, model, target, right, link, howner, htarget, hlink,
    ⟨hentries, hfree, hroot, rfl, rfl, rfl⟩⟩

/-- A projection names columns of parameters that are there. -/
theorem columns_eq_ok {wanted : List (String × String)} (h : s.columns wanted = .ok t) :
    ∃ found, (∀ place ∈ found, place.1 ∈ s.params.names) ∧
      t = { s with projection := some found } := by
  rw [columns, Outcome.bind_eq_ok] at h
  obtain ⟨found, hfound, h⟩ := h
  cases h
  refine ⟨found.eraseDups, fun place hplace => ?_, rfl⟩
  obtain ⟨⟨param, column⟩, -, hasked⟩ :=
    Outcome.exists_of_mem_mapM hfound (List.mem_eraseDups.mp hplace)
  change s.columnOf param column = .ok place at hasked
  rw [columnOf, Outcome.bind_eq_ok] at hasked
  obtain ⟨d, hd, hasked⟩ := hasked
  split at hasked
  next =>
    cases hasked
    exact Parameters.mem_names_of_find? (Link.paramType_eq_ok.mp hd)
  next => cases hasked

theorem WellFormed.join (hs : s.WellFormed c) (hr : Registry.Reached c r) {j : Join}
    (h : s.join r j = .ok t) : t.WellFormed c := by
  obtain ⟨owner, model, target, right, link, howner, htarget, hlink, ht⟩ := join_eq_ok h
  have hdescribed : ∀ entry ∈ t.params.entries, c.Describes entry.2 := by
    rw [ht.entries]
    refine List.forall_mem_append.mpr ⟨hs.described, ?_⟩
    intro entry hentry
    rw [List.mem_singleton] at hentry
    subst hentry
    exact (hr.sound.descriptor htarget).2
  obtain ⟨hlinkLeft, hlinkRight, -, hfollows⟩ := Link.build_eq_ok hdescribed hlink
  have hleft : link.left ∈ s.rootName :: s.links.map (·.right) := by
    rw [hlinkLeft, ← hs.names]
    exact Parameters.mem_names_of_find? howner
  refine ⟨?_, ?_, hdescribed, ?_, ?_⟩
  · rw [ht.names, hs.names, ht.root, ht.links, List.map_append, List.map_singleton, hlinkRight]
    rfl
  · rw [ht.names, List.nodup_append]
    refine ⟨hs.distinct, List.nodup_singleton right, ?_⟩
    intro a ha b hb hab
    rw [List.mem_singleton] at hb
    exact ht.free (hb ▸ hab ▸ ha)
  · rw [ht.root, ht.links]
    exact forall_split_concat hs.rooted hleft
  · rw [ht.links]
    refine List.forall_mem_append.mpr ⟨?_, ?_⟩
    · intro l hl
      obtain ⟨owner, related, relation, hl⟩ := hs.follows l hl
      exact ⟨owner, related, relation, hl.mono ht.entries⟩
    · intro l hl
      rw [List.mem_singleton] at hl
      exact hl ▸ hfollows

theorem WellFormed.step (hs : s.WellFormed c) (hr : Registry.Reached c r) {st : Step}
    (h : s.step r st = .ok t) : t.WellFormed c := by
  cases st with
  | restrict e =>
    obtain ⟨scope, condition, -, -, rfl⟩ := restrict_eq_ok h
    exact ⟨hs.names, hs.distinct, hs.described, hs.rooted, hs.follows⟩
  | join j => exact hs.join hr h
  | columns wanted =>
    obtain ⟨found, -, rfl⟩ := columns_eq_ok h
    exact ⟨hs.names, hs.distinct, hs.described, hs.rooted, hs.follows⟩

theorem reached_build (hr : Registry.Reached c r) {model : String} {name : Option String}
    {steps : List Step} (h : build r model name steps = .ok s) : Reached c s := by
  rw [build, Outcome.bind_eq_ok] at h
  obtain ⟨start, hstart, h⟩ := h
  exact Outcome.foldlM_induction (P := Reached c) (fun st _ before after hbefore hstep =>
    .step hbefore hr hstep) (.named hr hstart) h

theorem Reached.wellFormed (h : Reached c s) : s.WellFormed c := by
  induction h with
  | named hr h => exact wellFormed_ofModel hr h
  | step hs hr h ih => exact ih.step hr h

/-- No step makes another parameter the default. -/
theorem default_step {st : Step} (h : s.step r st = .ok t) :
    t.params.default = s.params.default := by
  cases st with
  | restrict e =>
    obtain ⟨scope, condition, -, -, rfl⟩ := restrict_eq_ok h
    rfl
  | join j =>
    obtain ⟨_, _, _, _, params, _, -, -, hparams, -, rfl⟩ := join_cases h
    exact (Parameters.register_eq_ok hparams).2.2
  | columns wanted =>
    obtain ⟨found, -, rfl⟩ := columns_eq_ok h
    rfl

/-- A step adds a name to the parameters if it is a join, and otherwise none. -/
theorem names_step {st : Step} (h : s.step r st = .ok t) :
    ∃ added, t.params.names = s.params.names ++ added ∧ (added = [] ↔ ∀ j, st ≠ .join j) := by
  cases st with
  | restrict e =>
    obtain ⟨scope, condition, -, -, rfl⟩ := restrict_eq_ok h
    exact ⟨[], (List.append_nil _).symm, iff_of_true rfl nofun⟩
  | join j =>
    obtain ⟨_, _, _, right, _, -, -, -, ht⟩ := join_eq_ok h
    exact ⟨[right], ht.names, iff_of_false (List.cons_ne_nil right []) fun hne => hne j rfl⟩
  | columns wanted =>
    obtain ⟨found, -, rfl⟩ := columns_eq_ok h
    exact ⟨[], (List.append_nil _).symm, iff_of_true rfl nofun⟩

/-- A selection has the parameters of the one that steps made it of exactly if none of them is a
join. -/
theorem sharesParams_iff {steps : List (Registry × Step)}
    (h : steps.foldlM (fun s taken => s.step taken.1 taken.2) s = .ok t) :
    t.sharesParams s = true ↔ ∀ taken ∈ steps, ∀ j, taken.2 ≠ .join j := by
  obtain ⟨added, hnames, hadded⟩ := Outcome.foldlM_prefix_induction
    (P := fun (done : List (Registry × Step)) (x : Select) => ∃ added,
      x.params.names = s.params.names ++ added ∧
        (added = [] ↔ ∀ taken ∈ done, ∀ j, taken.2 ≠ .join j))
    ⟨[], (List.append_nil _).symm, iff_of_true rfl nofun⟩
    (fun done taken x y ⟨before, hbefore, hdone⟩ hstep => by
      obtain ⟨further, hfurther, hjoin⟩ := names_step hstep
      refine ⟨before ++ further, by rw [hfurther, hbefore, List.append_assoc], ?_⟩
      rw [List.append_eq_nil_iff, hdone, hjoin, List.forall_mem_append, List.forall_mem_singleton])
    h
  rw [sharesParams, beq_iff_eq, hnames, List.append_right_eq_self, hadded]

/-- A selection that a program can come to have has a root parameter. -/
theorem Reached.default_eq (h : Reached c s) : s.params.default = some s.rootName := by
  suffices hsome : s.params.default.isSome = true by
    obtain ⟨name, hname⟩ := Option.isSome_iff_exists.mp hsome
    rw [rootName, hname, Option.getD_some]
  induction h with
  | named hr h =>
    rw [ofModel, Outcome.bind_eq_ok] at h
    obtain ⟨d, -, h⟩ := h
    rw [Parameters.register_empty] at h
    cases h
    rfl
  | step hs hr h ih =>
    rw [default_step h]
    exact ih

end Select
end RowGraph
