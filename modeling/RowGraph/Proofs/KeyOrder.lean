import RowGraph.Proofs.Condition.Evaluation
import RowGraph.Proofs.Lists

/-!
Keys and the order of a database.

A key forgets what the database does not see of a value, the width of an integer, and nothing else.
So the order of a database on values that are no floating-point numbers is the order of their keys
within each kind of key, and null beside them: it is antisymmetric and transitive because the order
of keys is.  Equality by key, equality in a join and membership in a list are one equivalence.
-/

namespace RowGraph

namespace Key

/-- The place of a key's kind among the kinds. -/
def rank : Key → Nat
  | bool _ => 0
  | int _ => 1
  | string _ => 2

theorem compare_swap (k l : Key) : k.compare l = (l.compare k).swap := by
  cases k <;> cases l <;> first | rfl | exact Std.OrientedOrd.eq_swap

instance : Std.OrientedCmp compare where
  eq_swap := compare_swap _ _

instance : Std.TransCmp compare where
  isLE_trans {a b c} hab hbc := by
    -- Keys of three kinds are compared by kind, and keys of one kind within it.
    cases a <;> cases b <;> cases c <;> simp only [compare] at * <;>
      first | exact Std.TransOrd.isLE_trans hab hbc | contradiction | rfl

theorem compare_trans {k l m : Key} {o : Ordering} (hkl : k.compare l = o)
    (hlm : l.compare m = o) : k.compare m = o := by
  cases o with
  | lt => exact Std.TransCmp.lt_trans hkl hlm
  | eq => exact Std.TransCmp.eq_trans hkl hlm
  | gt => exact Std.TransCmp.gt_trans hkl hlm

end Key

namespace Value

def IsFloat : Value → Prop
  | .f64 _ => True
  | _ => False

/-- The value can identify a row. -/
def IsKeyed (v : Value) : Prop :=
  v.toKey?.isSome = true

instance : DecidablePred IsKeyed := fun v => inferInstanceAs (Decidable (v.toKey?.isSome = true))

/-! ## The order of keys -/

theorem toKey?_cases {v : Value} {k : Key} (h : v.toKey? = some k) :
    (∃ b, v = .bool b ∧ k = .bool b) ∨ (∃ n, v.toInt? = some n ∧ k = .int n) ∨
      ∃ s, v = .string s ∧ k = .string s := by
  cases v with
  | list items => cases h
  | scalar v => cases v <;> simp_all [toKey?, Scalar.toKey?, toInt?, Scalar.toInt?]

theorem compare?_of_toInt? {a b : Value} {m n : Int} (ha : a.toInt? = some m)
    (hb : b.toInt? = some n) : a.compare? b = some (compare m n) := by
  cases a with
  | list as => cases ha
  | scalar a =>
    cases b with
    | list bs => cases hb
    | scalar b => exact Scalar.compare?_of_toInt? ha hb

/-- A truth value or a text does not compare with a number. -/
theorem compare?_of_toInt?_left {a b : Value} {n : Int} (ha : a.toInt? = some n)
    (hb : (∃ c, b = .bool c) ∨ ∃ s, b = .string s) : a.compare? b = none := by
  cases a with
  | list as => cases ha
  | scalar a => rcases hb with ⟨c, rfl⟩ | ⟨s, rfl⟩ <;> cases a <;> first | rfl | cases ha

/-- Values that have keys compare as the keys do, if these are of one kind, and else not at all. -/
theorem compare?_of_toKey? {a b : Value} {k l : Key} (ha : a.toKey? = some k)
    (hb : b.toKey? = some l) :
    a.compare? b = if k.rank = l.rank then some (k.compare l) else none := by
  rcases toKey?_cases ha with ⟨c, rfl, rfl⟩ | ⟨n, hn, rfl⟩ | ⟨s, rfl, rfl⟩ <;>
    rcases toKey?_cases hb with ⟨c', rfl, rfl⟩ | ⟨n', hn', rfl⟩ | ⟨s', rfl, rfl⟩
  case inl.inl | inl.inr.inr | inr.inr.inl | inr.inr.inr.inr => rfl
  case inl.inr.inl => rw [compare?_swap b, compare?_of_toInt?_left hn' (Or.inl ⟨c, rfl⟩)]; rfl
  case inr.inl.inl => exact compare?_of_toInt?_left hn (Or.inl ⟨c', rfl⟩)
  case inr.inl.inr.inl => exact compare?_of_toInt? hn hn'
  case inr.inl.inr.inr => exact compare?_of_toInt?_left hn (Or.inr ⟨s', rfl⟩)
  case inr.inr.inr.inl => rw [compare?_swap b, compare?_of_toInt?_left hn' (Or.inr ⟨s, rfl⟩)]; rfl

/-- Null compares with null alone. -/
theorem null_compare? (b : Value) : null.compare? b = if b = .null then some .eq else none := by
  cases b with
  | list bs => rfl
  | scalar b => cases b <;> rfl

theorem list_compare? (as : List Value) (b : Value) : (list as).compare? b = none := by
  cases b <;> rfl

theorem null_or_list_or_keyed {v : Value} (h : ¬v.IsFloat) :
    v = .null ∨ (∃ items, v = .list items) ∨ ∃ k, v.toKey? = some k := by
  cases v with
  | list items => exact Or.inr (Or.inl ⟨items, rfl⟩)
  | scalar v =>
    cases v with
    | null => exact Or.inl rfl
    | f64 x => exact absurd trivial h
    | _ => exact Or.inr (Or.inr ⟨_, rfl⟩)

/-- What compares at all is null with null or two values with keys of one kind, as long as neither
is a floating-point number. -/
theorem compare?_eq_some_iff {a b : Value} (ha : ¬a.IsFloat) (hb : ¬b.IsFloat) {o : Ordering} :
    a.compare? b = some o ↔ (a = .null ∧ b = .null ∧ o = .eq) ∨
      ∃ k l, a.toKey? = some k ∧ b.toKey? = some l ∧ k.rank = l.rank ∧ k.compare l = o := by
  rcases null_or_list_or_keyed ha with rfl | ⟨as, rfl⟩ | ⟨k, hk⟩
  · have hkey : null.toKey? = none := rfl
    simp [null_compare?, hkey, eq_comm]
  · have hkey : (list as).toKey? = none := rfl
    simp [list_compare?, hkey]
  · have hne : a ≠ .null := by
      rintro rfl
      cases hk
    rcases null_or_list_or_keyed hb with rfl | ⟨bs, rfl⟩ | ⟨l, hl⟩
    · have hkey : null.toKey? = none := rfl
      rw [compare?_swap .null a, null_compare?, if_neg hne]
      simp [hne, hkey]
    · have hkey : (list bs).toKey? = none := rfl
      rw [compare?_swap (.list bs) a, list_compare?]
      simp [hkey]
    · rw [compare?_of_toKey? hk hl]
      simp [hne, hk, hl]

/-! ## Equality and order of values -/

/-- Values that have keys are equal to a database exactly when their keys are. -/
theorem toKey?_eq_iff_equals {a b : Value} (ha : a.IsKeyed) (hb : b.IsKeyed) :
    a.toKey? = b.toKey? ↔ a.equals b = true := by
  obtain ⟨k, hk⟩ := Option.isSome_iff_exists.mp ha
  rw [hk, equals_iff_toKey? hk (Or.inr hb), eq_comm]

/-- Less, equal and greater are transitive where no value is a floating-point number. -/
theorem compare?_trans {a b c : Value} (ha : ¬a.IsFloat) (hb : ¬b.IsFloat) (hc : ¬c.IsFloat)
    {o : Ordering} (hab : a.compare? b = some o) (hbc : b.compare? c = some o) :
    a.compare? c = some o := by
  rw [compare?_eq_some_iff ha hb] at hab
  rw [compare?_eq_some_iff hb hc] at hbc
  rw [compare?_eq_some_iff ha hc]
  rcases hab with ⟨hanull, rfl, ho⟩ | ⟨k, l, hk, hl, hkl, hcmp⟩
  · rcases hbc with ⟨-, hcnull, -⟩ | ⟨k, l, hk, -⟩
    · exact Or.inl ⟨hanull, hcnull, ho⟩
    · cases hk
  · rcases hbc with ⟨rfl, -⟩ | ⟨l', m, hl', hm, hlm, hcmp'⟩
    · cases hl
    · rw [hl, Option.some.injEq] at hl'
      subst hl'
      exact Or.inr ⟨k, m, hk, hm, hkl.trans hlm, Key.compare_trans hcmp hcmp'⟩

/-! ## One equivalence -/

theorem keyOrNull_or_list {v : Value} (h : ¬v.IsFloat) :
    v.KeyOrNull ∨ ∃ items, v = .list items := by
  rcases null_or_list_or_keyed h with hnull | hlist | ⟨k, hk⟩
  · exact Or.inl (Or.inl hnull)
  · exact Or.inr hlist
  · exact Or.inl (Or.inr (Option.isSome_of_eq_some hk))

/-- A value that has a key is equal to those values that have the same key, and to no null or
list. -/
theorem equals_iff_of_not_isFloat {a b : Value} {k : Key} (ha : a.toKey? = some k)
    (hb : ¬b.IsFloat) : a.equals b = true ↔ b.toKey? = some k := by
  rcases keyOrNull_or_list hb with hb | ⟨items, rfl⟩
  · exact equals_iff_toKey? ha hb
  · have hkey : (list items).toKey? = none := rfl
    rw [equals, compare?_swap (.list items) a, list_compare?, hkey]
    simp

theorem satisfies_eq_iff_of_not_isFloat {a b : Value} {k : Key} (ha : a.toKey? = some k)
    (hb : ¬b.IsFloat) : a.satisfies .eq b = true ↔ b.toKey? = some k := by
  rcases keyOrNull_or_list hb with hb | ⟨items, rfl⟩
  · exact satisfies_eq_iff_toKey? ha hb
  · have hkey : (list items).toKey? = none := rfl
    rw [satisfies_eq_any, compare?_swap (.list items) a, list_compare?, hkey]
    simp

/-- A value that has a key is in a list exactly when the list has an item with that key. -/
theorem any_equals_eq_decide {v : Value} (hv : v.IsKeyed) {items : List Value}
    (hitems : ∀ item ∈ items, ¬item.IsFloat) :
    (!v.isNull && items.any (·.equals v)) = decide (v.toKey? ∈ items.map toKey?) := by
  obtain ⟨k, hk⟩ := Option.isSome_iff_exists.mp hv
  rw [not_isNull_of_toKey? hk, Bool.not_false, Bool.true_and, Bool.eq_iff_iff, List.any_eq_true,
    decide_eq_true_eq, List.mem_map, hk]
  refine exists_congr fun item => and_congr_right fun hitem => ?_
  rw [equals_comm, equals_iff_of_not_isFloat hk (hitems item hitem)]

/-! ## Integer conversions -/

/-- An integer conversion that succeeds, of null or of a number, gives a value equal to the one that
was converted. -/
theorem equals_of_convert {ty : ColumnType} (hty : ty.isInteger = true) {v w : Value}
    (h : v.convert ty = .ok w ∨ v.read ty = .ok w) : w.equals v = true := by
  rw [convert_eq_ok_iff, read_eq_ok_iff] at h
  have hread : v = .null ∧ w = .null ∨ v.read? ty = some w := by tauto
  rcases hread with ⟨rfl, rfl⟩ | hread
  · rfl
  · obtain ⟨n, hv, hw⟩ := toInt?_of_read? hty hread
    rw [equals, compare?_of_toInt? hw hv]
    simp

end Value

/-- A test for membership asks for an item that is equal to a value that is known. -/
theorem Condition.evalBool_membership {input : Input} {item list : Condition} {v : Value}
    {items : List Value} (hv : item.eval input = .ok v)
    (hlist : list.eval input = .ok (.list items)) :
    (contains list item).evalBool input = .ok (!v.isNull && items.any (·.equals v)) ∧
      (binary .in item list).evalBool input = .ok (!v.isNull && items.any (·.equals v)) := by
  constructor
  · rw [evalBool, contains, eval, hlist, hv]
    rfl
  · rw [evalBool, eval, hv, hlist]
    rfl

namespace Value

/-- Values that have keys are equal to a database exactly when their keys are equal, and keys of one
kind have the order of the values.  Exchanging the sides of a comparison turns the order around, and
leaves undefined what was; where no value is a floating-point number, the comparison is transitive.
So a join on two columns, a test for membership and the removal of repeated values all go by one
equivalence, the one of keys.  An integer conversion that succeeds stays within it. -/
theorem comparison_by_key :
    (∀ a b : Value, a.IsKeyed → b.IsKeyed → (a.toKey? = b.toKey? ↔ a.equals b = true)) ∧
    (∀ (a b : Value) (k l : Key), a.toKey? = some k → b.toKey? = some l → k.rank = l.rank →
      a.compare? b = some (k.compare l)) ∧
    (∀ a b : Value, b.compare? a = (a.compare? b).map Ordering.swap) ∧
    (∀ a b c : Value, ¬a.IsFloat → ¬b.IsFloat → ¬c.IsFloat → ∀ o,
      a.compare? b = some o → b.compare? c = some o → a.compare? c = some o) ∧
    (∀ (input : Input) (lhs rhs : Condition) (a b : Value),
      lhs.eval input = .ok a → rhs.eval input = .ok b → a.IsKeyed → ¬b.IsFloat →
        (Condition.eq lhs rhs).evalBool input = .ok (decide (a.toKey? = b.toKey?))) ∧
    (∀ (input : Input) (item list : Condition) (v : Value) (items : List Value),
      item.eval input = .ok v → list.eval input = .ok (.list items) → v.IsKeyed →
        (∀ i ∈ items, ¬i.IsFloat) →
          (Condition.contains list item).evalBool input =
            .ok (decide (v.toKey? ∈ items.map toKey?)) ∧
          (Condition.binary .in item list).evalBool input =
            .ok (decide (v.toKey? ∈ items.map toKey?))) ∧
    (∀ vs : List Value, (∀ v ∈ vs, v.IsKeyed) →
      (vs.eraseDupsBy equals).map toKey? = (vs.map toKey?).eraseDups) ∧
    ∀ (ty : ColumnType) (v w : Value), ty.isInteger = true →
      v.convert ty = .ok w ∨ v.read ty = .ok w → w.equals v = true := by
  refine ⟨fun a b => toKey?_eq_iff_equals, ?_, compare?_swap, ?_, ?_, ?_, ?_, ?_⟩
  · intro a b k l hk hl hkl
    rw [compare?_of_toKey? hk hl, if_pos hkl]
  · intro a b c ha hb hc o
    exact compare?_trans ha hb hc
  · intro input lhs rhs a b hlhs hrhs ha hb
    obtain ⟨k, hk⟩ := Option.isSome_iff_exists.mp ha
    have hsatisfies : a.satisfies .eq b = decide (a.toKey? = b.toKey?) := by
      rw [Bool.eq_iff_iff, satisfies_eq_iff_of_not_isFloat hk hb, decide_eq_true_eq, hk,
        eq_comm]
    rw [Condition.eq, Condition.evalBool_comparison rfl hlhs hrhs, hsatisfies]
  · intro input item list v items hv hlist hkeyed hitems
    rw [← any_equals_eq_decide hkeyed hitems]
    exact Condition.evalBool_membership hv hlist
  · intro vs hvs
    refine map_eraseDupsBy fun a ha b hb => ?_
    rw [Bool.eq_iff_iff, ← toKey?_eq_iff_equals (hvs a ha) (hvs b hb), beq_iff_eq]
  · exact fun ty v w hty => equals_of_convert hty

/-! ### Numbers of several widths -/

/-- A small and a large seven, and the text. -/
def sevens : List Value := [.i16 7, .string "7", .i64 7]

theorem comparison_by_key_sevens :
    (∀ v ∈ sevens, v.IsKeyed) ∧ (.i16 7 : Value).equals (.i64 7) = true ∧
    (.i16 7 : Value).compare? (.i64 9) = some .lt ∧
    (.i16 7 : Value).compare? (.i32 11) = some .lt ∧
    (Condition.eq (.constant (.i16 7)) (.constant (.string "7"))).evalBool (fun _ _ => none) =
      .ok false ∧
    (Condition.contains (.constant (.list [.null, .i32 7])) (.constant (.i16 7))).evalBool
      (fun _ _ => none) = .ok true ∧
    (sevens.eraseDupsBy equals).map toKey? = [some (.int 7), some (.string "7")] ∧
    convert .i16 (.i64 7) = .ok (.i16 7) ∧ (.i16 7 : Value).equals (.i64 7) = true := by
  obtain ⟨hkeys, horder, -, htrans, hjoin, hmember, hdedup, hconvert⟩ := comparison_by_key
  have hkeyed : ∀ v ∈ sevens, v.IsKeyed := by decide
  have hsmall : IsKeyed (.i16 7) := rfl
  have hnine : (.i16 7 : Value).compare? (.i64 9) = some .lt :=
    horder _ _ (.int 7) (.int 9) rfl rfl rfl
  have heleven : (.i64 9 : Value).compare? (.i32 11) = some .lt :=
    horder _ _ (.int 9) (.int 11) rfl rfl rfl
  have hread : convert .i16 (.i64 7) = .ok (.i16 7) := rfl
  refine ⟨hkeyed, (hkeys (.i16 7) (.i64 7) hsmall rfl).mp rfl, hnine, ?_, ?_, ?_, ?_, hread,
    hconvert _ _ _ rfl (Or.inl hread)⟩
  · exact htrans _ (.i64 9) _ id id id _ hnine heleven
  · exact hjoin _ _ _ (.i16 7) (.string "7") rfl rfl hsmall id
  · exact (hmember _ (.constant (.i16 7)) _ (.i16 7) [.null, .i32 7] rfl rfl hsmall (by
      rintro i hi
      rcases List.mem_pair.mp hi with rfl | rfl <;> exact id)).1
  · exact hdedup sevens hkeyed

/-- Floating-point numbers are left out because two integers can be nearest to one of them. -/
example : (.i64 9007199254740993 : Value).compare? (.f64 ⟨0x4340000000000000⟩) = some .eq ∧
    (.f64 ⟨0x4340000000000000⟩ : Value).compare? (.i64 9007199254740992) = some .eq ∧
    (.i64 9007199254740993 : Value).compare? (.i64 9007199254740992) = some .gt := by
  decide

end Value
end RowGraph
