import RowGraph.Proofs.Graph.Collections
import RowGraph.Proofs.Partial

/-!
Hydration always comes to an end.

A result is made into records by a walk: from a row along the links of its parameter to the rows of
other parameters, and on from these, always looking for groups that are expected to be there.
Nothing in the walk itself says that it ends or that it finds them.  Over a selection that a program
can come to have it does both, whatever the rows and the aliases are, because the links form a
forest over the parameters and every parameter has a group from the start.

The walk is a partial computation, namely what walks of limited depth come to as the limit grows.
From the rows that it finds it goes on in the same way, over any selection
(`walkRecord_eq_walkFrom`).
-/

namespace RowGraph
namespace Graph

/-! ## The walk -/

/-- The records of the rows that a link pairs with a row, each of them made by a walk. -/
def walkLink (groups : Groups) (onward : String → Row → Partial Record) (link : Link) (row : Row) :
    Partial (List Record) := do
  let group ← Partial.present (groups.find? link.right)
  (group.map Prod.snd).foldlM (fun records candidate => do
    if ← Partial.of (link.pairs row candidate) then
      return records ++ [← onward link.right candidate]
    else return records) []

/-- The record of a row, with what the links from its parameter lead to. -/
def walkFrom (s : Select) (groups : Groups) (onward : String → Row → Partial Record)
    (param : String) (row : Row) : Partial Record := do
  let found ← (s.linksFrom param).mapM fun link => do
    return (link.member, ← walkLink groups onward link row)
  Partial.of (record s.params param row (merged found))

/-- There is no outcome where more records would have to be made inside each other than the depth
allows. -/
def walkWithin (s : Select) (groups : Groups) : Nat → String → Row → Partial Record
  | 0 => fun _ _ => Partial.nothing
  | depth + 1 => walkFrom s groups (walkWithin s groups depth)

/-- The walk from a row, to whatever depth it takes. -/
noncomputable def walkRecord (s : Select) (groups : Groups) (param : String) (row : Row) :
    Partial Record :=
  Partial.limit fun depth => walkWithin s groups depth param row

/-- The groups with one more part, which goes into a group that has to be there. -/
def walkPart (params : Parameters) (groups : Groups) (part : String × Row) : Partial Groups :=
  match params.find? part.1 with
  | none => Partial.of (.error (.invalidResult (.unknownParameter part.1)))
  | some d =>
    match (part.2.get d.primaryKey).toKey? with
    | none => return groups
    | some key => do
      let group ← Partial.present (groups.find? part.1)
      return groups.put part.1 (group.putNew key part.2)

def walkRow (params : Parameters) (aliases : Sql.AliasTable) (groups : Groups) (row : Row) :
    Partial Groups := do
  (← Partial.of (split aliases row)).foldlM (walkPart params) groups

/-- Hydration as a walk: to the groups of the parameters, to that of the root, and from there along
the links. -/
noncomputable def walk (s : Select) (aliases : Sql.AliasTable) (rows : List Row) :
    Partial (List Record) := do
  let groups ← rows.foldlM (walkRow s.params aliases) (Groups.empty s.params)
  let root ← Partial.present s.params.default
  let group ← Partial.present (groups.find? root)
  (group.map Prod.snd).mapM (walkRecord s groups root)

/-- From a selection without a root parameter, if there were one, a walk would not get anywhere. -/
example : walk ⟨.empty, none, [], none⟩ .empty [] = ExceptT.mk none := by
  rfl

/-! ## The walk is a recursion -/

theorem deepens_walkLink (groups : Groups) {f : Nat → String → Row → Partial Record}
    {last : String → Row → Partial Record}
    (h : ∀ param row, Partial.Deepens (f · param row) (last param row))
    (link : Link) (row : Row) :
    Partial.Deepens (fun n => walkLink groups (f n) link row) (walkLink groups last link row) := by
  refine Partial.Deepens.bind (Partial.deepens_const _) fun group =>
    Partial.Deepens.foldlM (fun records candidate => ?_) _ []
  refine Partial.Deepens.bind (Partial.deepens_const _) fun paired => ?_
  cases paired with
  | false => exact Partial.deepens_const _
  | true => exact (h link.right candidate).bind fun r => Partial.deepens_const _

theorem deepens_walkFrom (s : Select) (groups : Groups) {f : Nat → String → Row → Partial Record}
    {last : String → Row → Partial Record}
    (h : ∀ param row, Partial.Deepens (f · param row) (last param row))
    (param : String) (row : Row) :
    Partial.Deepens (fun n => walkFrom s groups (f n) param row)
      (walkFrom s groups last param row) := by
  have hlink : ∀ link : Link, Partial.Deepens
      (fun n => do return (link.member, ← walkLink groups (f n) link row))
      (do return (link.member, ← walkLink groups last link row)) := fun link =>
    (deepens_walkLink groups h link row).bind fun records => Partial.deepens_const _
  exact (Partial.Deepens.mapM hlink (s.linksFrom param)).bind fun found => Partial.deepens_const _

/-- A walk that may go deeper has no other outcome. -/
theorem walkWithin_succ (s : Select) (groups : Groups) (depth : Nat) (param : String) (row : Row) :
    walkWithin s groups depth param row = Partial.nothing ∨
      walkWithin s groups depth param row = walkWithin s groups (depth + 1) param row := by
  induction depth generalizing param row with
  | zero => exact Or.inl rfl
  | succ depth ih =>
    -- The two depths are the beginning of a sequence that deepens once.
    have hstep : ∀ param row, Partial.Deepens
        (fun n => if n = 0 then walkWithin s groups depth param row
          else walkWithin s groups (depth + 1) param row)
        (walkWithin s groups (depth + 1) param row) := by
      intro param row
      refine ⟨fun n => ?_, 1, fun n hn => if_neg (Nat.ne_of_gt hn)⟩
      by_cases hn : n = 0
      · rw [if_pos hn]
        exact ih param row
      · exact Or.inr (if_neg hn)
    exact (deepens_walkFrom s groups hstep param row).within 0

/-- A walk goes on from the rows that it finds as it went from the row it began with. -/
theorem walkRecord_eq_walkFrom (s : Select) (groups : Groups) (param : String) (row : Row) :
    walkRecord s groups param row = walkFrom s groups (walkRecord s groups) param row := by
  have hdeepens : ∀ param row, Partial.Deepens (walkWithin s groups · param row)
      (walkRecord s groups param row) := by
    intro param row
    obtain ⟨last, hlast⟩ :=
      Partial.exists_deepens fun depth => walkWithin_succ s groups depth param row
    rwa [walkRecord, hlast.limit_eq]
  obtain ⟨n, hn⟩ := (hdeepens param row).reached
  obtain ⟨k, hk⟩ := (deepens_walkFrom s groups hdeepens param row).reached
  rw [← hn (max n k + 1) (by omega), ← hk (max n k) (le_max_right n k)]
  rfl

variable {c : Catalogue} {s : Select} {t : Sql.AliasTable} {rows : List Row} {groups : Groups}
  {ps : Parameters}

/-! ## The groups are there -/

namespace Groups

theorem keys_empty (ps : Parameters) : (empty ps).keys = ps.names := by
  rw [empty, Keyed.keys, List.map_map]
  rfl

theorem exists_group (hkeys : groups.keys = ps.names) {param : String} {d : Descriptor}
    (hd : ps.find? param = some d) :
    ∃ group, groups.find? param = some group ∧ groups.rows param = group.map Prod.snd := by
  have hmem : param ∈ groups.keys := hkeys ▸ Parameters.mem_names_of_find? hd
  obtain ⟨group, hgroup⟩ := Option.isSome_iff_exists.mp (Keyed.has_iff.mpr hmem)
  refine ⟨group, hgroup, ?_⟩
  rw [rows, hgroup, Option.getD_some]

/-- A part that is added goes into a group that is there. -/
theorem keys_add (hkeys : groups.keys = ps.names) {part : String × Row} {after : Groups}
    (h : add ps groups part = .ok after) : after.keys = ps.names := by
  rw [add] at h
  split at h
  next => cases h
  next d hd =>
    split at h
    next =>
      cases h
      exact hkeys
    next =>
      cases h
      have hmem : part.1 ∈ groups.keys := hkeys ▸ Parameters.mem_names_of_find? hd
      rw [Keyed.change, Keyed.keys_put, if_pos hmem, hkeys]

theorem keys_addRow (hkeys : groups.keys = ps.names) {row : Row} {after : Groups}
    (h : addRow ps t groups row = .ok after) : after.keys = ps.names := by
  obtain ⟨parts, -, h⟩ := Outcome.bind_eq_ok.mp h
  exact Outcome.foldlM_induction (P := fun groups => groups.keys = ps.names)
    (fun part _ _ _ hbefore hadd => keys_add hbefore hadd) hkeys h

theorem keys_ofRows (h : ofRows ps t rows = .ok groups) : groups.keys = ps.names :=
  Outcome.foldlM_induction (P := fun groups => groups.keys = ps.names)
    (fun _ _ _ _ hbefore hadd => keys_addRow hbefore hadd) (keys_empty ps) h

end Groups

theorem walkPart_eq (hkeys : groups.keys = ps.names) (part : String × Row) :
    walkPart ps groups part = Partial.of (Groups.add ps groups part) := by
  rw [walkPart, Groups.add]
  cases hd : ps.find? part.1 with
  | none => rfl
  | some d =>
    simp only
    cases (part.2.get d.primaryKey).toKey? with
    | none => rfl
    | some key =>
      obtain ⟨group, hgroup, -⟩ := Groups.exists_group hkeys hd
      simp only [hgroup, Keyed.change, Option.getD_some]
      rfl

theorem walkRow_eq (hkeys : groups.keys = ps.names) (row : Row) :
    walkRow ps t groups row = Partial.of (Groups.addRow ps t groups row) := by
  rw [walkRow, Groups.addRow]
  cases split t row with
  | error e => rfl
  | ok parts =>
    exact Partial.foldlM_of (P := fun groups => groups.keys = ps.names) hkeys
      (fun part _ _ hbefore => walkPart_eq hbefore part)
      fun part _ _ _ hbefore hadd => Groups.keys_add hbefore hadd

/-! ## The walk ends -/

theorem walkLink_eq (hkeys : groups.keys = s.params.names) {link : Link} {target : Descriptor}
    (htarget : s.params.find? link.right = some target) {onward : String → Row → Partial Record}
    {make : Row → Outcome Record}
    (hmake : ∀ candidate, onward link.right candidate = Partial.of (make candidate)) (row : Row) :
    walkLink groups onward link row =
      Partial.of ((groups.rows link.right).filterMapM fun candidate => do
        if ← link.pairs row candidate then return some (← make candidate) else return none) := by
  obtain ⟨group, hgroup, hrows⟩ := Groups.exists_group hkeys htarget
  rw [walkLink, hgroup, Partial.present_some, pure_bind, hrows]
  simp only [hmake]
  rw [Partial.select_of]
  simp only [List.nil_append, bind_pure]

/-- What a walk meets from some link on is what these links find, if it may go as deep as there are
links left. -/
theorem mapM_walkLink (hs : s.WellFormed c) (hkeys : groups.keys = s.params.names)
    {before links : List Link} (hlinks : s.links = before ++ links) {depth : Nat}
    (hdepth : links.length ≤ depth) (param : String) (row : Row) :
    ((links.filter (·.left == param)).mapM fun link => do
      return (link.member, ← walkLink groups (walkWithin s groups depth) link row)) =
      Partial.of (related s.params groups links param row) := by
  induction links generalizing before depth param row with
  | nil => rfl
  | cons link links ih =>
    have hrest : s.links = before ++ [link] ++ links := by rw [hlinks, List.append_cons]
    obtain ⟨depth, rfl⟩ := Nat.exists_eq_add_of_lt hdepth
    rw [related]
    by_cases hparam : link.left = param
    · have hlink : link ∈ s.links := hlinks ▸ List.mem_append_right before List.mem_cons_self
      obtain ⟨owner, target, relation, hfollows⟩ := hs.follows link hlink
      -- The links from the parameter that this one leads to are among those that are left.
      have hrecord : ∀ candidate, walkWithin s groups (links.length + depth + 1) link.right
          candidate = Partial.of (do
            let below ← related s.params groups links link.right candidate
            record s.params link.right candidate (merged below)) := by
        intro candidate
        rw [walkWithin, walkFrom, linksFrom_right hs hlinks, ih hrest (Nat.le_add_right _ depth)]
        exact Partial.of_bind _ _
      have hwalk := walkLink_eq hkeys hfollows.right hrecord row
      simp only [bind_assoc] at hwalk
      rw [if_pos hparam, List.filter_cons_of_pos (by simpa using hparam), List.mapM_cons, hwalk,
        ih hrest (Nat.le_of_lt hdepth)]
      exact Partial.cons_of _ _ _
    · rw [if_neg hparam, List.filter_cons_of_neg (by simpa using hparam)]
      exact ih hrest (Nat.le_of_lt hdepth) param row

theorem walkRecord_eq (hs : s.WellFormed c) (hkeys : groups.keys = s.params.names) (param : String)
    (row : Row) :
    walkRecord s groups param row = Partial.of (recordOf s.params groups s.links param row) := by
  have hlinks : s.links = [] ++ s.links := rfl
  refine Partial.limit_eq (n := s.links.length + 1) fun depth hdepth => ?_
  obtain ⟨depth, rfl⟩ := Nat.exists_eq_add_of_le hdepth
  rw [Nat.add_right_comm, walkWithin, walkFrom, Select.linksFrom,
    mapM_walkLink hs hkeys hlinks (Nat.le_add_right _ depth), recordOf]
  exact Partial.of_bind _ _

theorem walk_eq (h : s.Reached c) (t : Sql.AliasTable) (rows : List Row) :
    walk s t rows = Partial.of (hydrate s t rows) := by
  have hs := h.wellFormed
  have hfold : rows.foldlM (walkRow s.params t) (Groups.empty s.params) =
      Partial.of (Groups.ofRows s.params t rows) :=
    Partial.foldlM_of (P := fun groups => groups.keys = s.params.names) (Groups.keys_empty s.params)
      (fun row _ _ hbefore => walkRow_eq hbefore row)
      fun row _ _ _ hbefore hadd => Groups.keys_addRow hbefore hadd
  rw [walk, hfold, hydrate]
  cases hgroups : Groups.ofRows s.params t rows with
  | error e => rfl
  | ok groups =>
    have hkeys := Groups.keys_ofRows hgroups
    obtain ⟨d, hd⟩ := exists_root hs
    obtain ⟨group, hgroup, hrows⟩ := Groups.exists_group hkeys hd
    rw [Partial.of_ok, pure_bind, h.default_eq, Partial.present_some, pure_bind, hgroup,
      Partial.present_some, pure_bind, Outcome.ok_bind, hrows]
    exact Partial.mapM_of fun row _ => walkRecord_eq hs hkeys s.rootName row

/-! ## The walk fails only by a mismatch -/

/-- The result does not fit the statement. -/
def Mismatch (e : Error) : Prop :=
  ∃ why, e = .invalidResult why

theorem failsWith_mismatch_split (t : Sql.AliasTable) (row : Row) :
    Outcome.FailsWith Mismatch (split t row) := by
  refine .foldlM (fun parts entry => .bind ?_ fun place => .ok _) row.entries []
  rw [locate]
  split
  next => exact .ok _
  next =>
    split
    next => exact .ok _
    next => exact .error ⟨_, rfl⟩

theorem failsWith_mismatch_add (ps : Parameters) (groups : Groups) (part : String × Row) :
    Outcome.FailsWith Mismatch (Groups.add ps groups part) := by
  rw [Groups.add]
  split
  next => exact .error ⟨_, rfl⟩
  next =>
    split
    next => exact .ok _
    next => exact .ok _

theorem failsWith_mismatch_ofRows (ps : Parameters) (t : Sql.AliasTable) (rows : List Row) :
    Outcome.FailsWith Mismatch (Groups.ofRows ps t rows) :=
  .foldlM (fun groups row => (failsWith_mismatch_split t row).bind fun parts =>
    .foldlM (failsWith_mismatch_add ps) parts groups) rows _

/-- A row lacks a column that a link compares. -/
def LacksValue (e : Error) : Prop :=
  ∃ param column, e = .invalidResult (.noValue param column)

/-- Whatever two rows are compared, a link fails only where one of them lacks a key column. -/
theorem failsWith_pairs (l : Link) (leftRow rightRow : Row) :
    Outcome.FailsWith LacksValue (l.pairs leftRow rightRow) := by
  have hread : ∀ input param column,
      Outcome.FailsWith LacksValue (Condition.read input param column) := by
    intro input param column
    rw [Condition.read]
    split
    next => exact .ok _
    next => exact .error ⟨param, column, rfl⟩
  simp only [Link.pairs, Link.predicate, Condition.evalBool, Condition.eq, Condition.eval,
    bind_assoc]
  exact (hread _ _ _).bind fun a => (hread _ _ _).bind fun b => .ok (a.satisfies .eq b)

section Records

variable {P : Error → Prop} {ps : Parameters}

theorem failsWith_record {param : String}
    (unknown : ps.find? param = none → P (.invalidResult (.unknownParameter param))) (row : Row)
    (relations : Keyed String (List Record)) :
    Outcome.FailsWith P (record ps param row relations) := by
  rw [record]
  split
  next => exact .ok _
  next h => exact .error (unknown h)

theorem failsWith_related (lacks : ∀ e, LacksValue e → P e) {links : List Link}
    (unknown : ∀ l ∈ links, ps.find? l.right = none →
      P (.invalidResult (.unknownParameter l.right))) (groups : Groups) (param : String)
    (row : Row) : Outcome.FailsWith P (related ps groups links param row) := by
  induction links generalizing param row with
  | nil => exact .ok []
  | cons link links ih =>
    have hlink := unknown link List.mem_cons_self
    have hrest := ih fun l hl => unknown l (List.mem_cons_of_mem link hl)
    rw [related]
    split
    next =>
      refine .bind (.filterMapM (fun candidate => ?_) _) fun records =>
        (hrest param row).bind fun found => .ok _
      refine ((failsWith_pairs link row candidate).mono lacks).bind fun paired => ?_
      split
      next =>
        exact (hrest link.right candidate).bind fun below =>
          (failsWith_record hlink candidate (merged below)).bind fun r => .ok _
      next => exact .ok none
    next => exact hrest param row

/-- A record is not made only if a row lacks a column that a link compares, or else if a parameter
is unknown. -/
theorem failsWith_recordOf (lacks : ∀ e, LacksValue e → P e) {links : List Link}
    (unknown : ∀ l ∈ links, ps.find? l.right = none →
      P (.invalidResult (.unknownParameter l.right))) {param : String}
    (unknownHere : ps.find? param = none → P (.invalidResult (.unknownParameter param)))
    (groups : Groups) (row : Row) : Outcome.FailsWith P (recordOf ps groups links param row) :=
  (failsWith_related lacks unknown groups param row).bind fun found =>
    failsWith_record unknownHere row (merged found)

end Records

theorem failsWith_mismatch_hydrate (s : Select) (t : Sql.AliasTable) (rows : List Row) :
    Outcome.FailsWith Mismatch (hydrate s t rows) :=
  (failsWith_mismatch_ofRows s.params t rows).bind fun groups =>
    .mapM (fun row => failsWith_recordOf (fun _ ⟨_, _, he⟩ => ⟨_, he⟩) (fun _ _ _ => ⟨_, rfl⟩)
      (fun _ => ⟨_, rfl⟩) groups row) _

/-- Over a selection that a program can come to have, hydration comes to an end and finds every
group that it looks for, whatever the rows and the aliases are.  If it fails, the result does not
fit the statement. -/
theorem walk_hydrates (h : s.Reached c) (t : Sql.AliasTable) (rows : List Row) :
    walk s t rows = Partial.of (hydrate s t rows) ∧
      ∀ e, hydrate s t rows = .error e → ∃ why, e = .invalidResult why :=
  ⟨walk_eq h t rows, failsWith_mismatch_hydrate s t rows⟩

theorem walk_hydrates_oldAndNew :
    oldAndNew.Reached library ∧
      walk oldAndNew oldAndNewAliases oldAndNewRows = Partial.of (.ok [authorRecord]) ∧
      walk oldAndNew oldAndNewAliases [.ofList [("title", .null)]] =
        Partial.of (.error (.invalidResult (.unknownAlias "title"))) := by
  have hstrange : hydrate oldAndNew oldAndNewAliases [.ofList [("title", .null)]] =
      .error (.invalidResult (.unknownAlias "title")) := by cbv
  refine ⟨reached_oldAndNew, ?_, ?_⟩
  · rw [(walk_hydrates reached_oldAndNew oldAndNewAliases oldAndNewRows).1, hydrate_oldAndNew]
  · rw [(walk_hydrates reached_oldAndNew oldAndNewAliases _).1, hstrange]

end Graph
end RowGraph
