import Mathlib.Data.List.Forall2
import RowGraph.Condition.Eval

/-!
How values compare.

Two facts carry everything that compares values.  The order of a database is antisymmetric, so a
comparison can be written from either side; and the width of an integer never decides a comparison,
so an integer can be rewritten in 64 bits wherever it is compared.
-/

namespace RowGraph

/-! ## Either side first -/

namespace Scalar

theorem compare?_swap (a b : Scalar) : b.compare? a = (a.compare? b).map Ordering.swap := by
  cases a <;> cases b <;>
    simp [compare?, toInt?, ← Binary64.compare?_swap, ← Std.OrientedOrd.eq_swap]

/-- An integer is compared by its number alone. -/
theorem compare?_congr_right {b c : Scalar} {n : Int} (hb : b.toInt? = some n)
    (hc : c.toInt? = some n) (a : Scalar) : a.compare? b = a.compare? c := by
  cases ha : a.toInt? with
  | some m => rw [compare?_of_toInt? ha hb, compare?_of_toInt? ha hc]
  | none => cases a <;> cases b <;> cases c <;> simp_all [compare?, toInt?]

theorem read?_of_isInteger {ty : ColumnType} (hty : ty.isInteger = true) (v : Scalar) :
    v.read? ty = v.toInt?.bind (ofInt? ty) := by
  cases ty with
  | i16 | i32 | i64 => cases v <;> rfl
  | bool | f64 | string => cases hty

end Scalar

namespace Value

theorem compare?_swap (a b : Value) : b.compare? a = (a.compare? b).map Ordering.swap := by
  cases a with
  | scalar a =>
    cases b with
    | scalar b => exact Scalar.compare?_swap a b
    | list bs => rfl
  | list as => cases b <;> rfl

theorem equals_comm (a b : Value) : a.equals b = b.equals a := by
  rw [equals, equals, compare?_swap a b]
  cases a.compare? b with
  | none => rfl
  | some order => cases order <;> rfl

/-- The width of an integer does not decide a comparison. -/
theorem compare?_congr_right {b c : Value} {n : Int} (hb : b.toInt? = some n)
    (hc : c.toInt? = some n) (a : Value) : a.compare? b = a.compare? c := by
  cases b with
  | list bs => cases hb
  | scalar b =>
    cases c with
    | list cs => cases hc
    | scalar c =>
      cases a with
      | list as => rfl
      | scalar a => exact Scalar.compare?_congr_right hb hc a

/-! ## Comparisons -/

theorem satisfies_eq_any (op : Operator) (a b : Value) :
    a.satisfies op b = (!a.isNull && !b.isNull && (a.compare? b).any op.holds) := by
  rw [satisfies]
  cases a.compare? b <;> rfl

/-- A comparison reads the same from either side. -/
theorem satisfies_converse (op : Operator) (a b : Value) :
    b.satisfies op.converse a = a.satisfies op b := by
  have hcore : (b.compare? a).any op.converse.holds = (a.compare? b).any op.holds := by
    rw [compare?_swap a b]
    cases a.compare? b with
    | none => rfl
    | some order => exact Operator.holds_converse op order
  rw [satisfies_eq_any, satisfies_eq_any, hcore, Bool.and_comm (!b.isNull)]

theorem not_isNull_of_toInt? {v : Value} {n : Int} (h : v.toInt? = some n) : v.isNull = false := by
  cases v with
  | list _ => cases h
  | scalar v => exact Scalar.not_isNull_of_toInt? h

/-- Two values that differ at most in the width of an integer. -/
def SameNumber (v w : Value) : Prop :=
  v = w ∨ ∃ n, v.toInt? = some n ∧ w.toInt? = some n

theorem SameNumber.refl (v : Value) : SameNumber v v := Or.inl rfl

theorem SameNumber.isNull {v w : Value} (h : SameNumber v w) : v.isNull = w.isNull := by
  rcases h with rfl | ⟨n, hv, hw⟩
  · rfl
  · rw [not_isNull_of_toInt? hv, not_isNull_of_toInt? hw]

theorem SameNumber.compare? {a b c d : Value} (hac : SameNumber a c) (hbd : SameNumber b d) :
    a.compare? b = c.compare? d := by
  have hright : a.compare? b = a.compare? d := by
    rcases hbd with rfl | ⟨n, hb, hd⟩
    · rfl
    · exact compare?_congr_right hb hd a
  have hleft : d.compare? a = d.compare? c := by
    rcases hac with rfl | ⟨n, ha, hc⟩
    · rfl
    · exact compare?_congr_right ha hc d
  rw [hright, compare?_swap d a, compare?_swap d c, hleft]

/-- The width of an integer does not decide whether two values satisfy a comparison. -/
theorem SameNumber.satisfies {a b c d : Value} (hac : SameNumber a c) (hbd : SameNumber b d)
    (op : Operator) : a.satisfies op b = c.satisfies op d := by
  rw [satisfies_eq_any, satisfies_eq_any, hac.isNull, hbd.isNull, hac.compare? hbd]

theorem SameNumber.equals {a b c d : Value} (hac : SameNumber a c) (hbd : SameNumber b d) :
    a.equals b = c.equals d := by
  rw [Value.equals, Value.equals, hac.compare? hbd]

/-! ## Widening -/

/-- Every integer fits in 64 bits. -/
theorem convert_of_toInt? {v : Value} {n : Int} (h : v.toInt? = some n) :
    ∃ k : Int64, v.convert .i64 = .ok (.i64 k) ∧ k.toInt = n := by
  cases v with
  | list _ => cases h
  | scalar v =>
    have hfit : -0x8000000000000000 ≤ n ∧ n < 0x8000000000000000 := by
      cases v with
      | i16 k =>
        cases h
        exact ⟨by have := k.le_toInt; omega, by have := k.toInt_lt; omega⟩
      | i32 k =>
        cases h
        exact ⟨by have := k.le_toInt; omega, by have := k.toInt_lt; omega⟩
      | i64 k =>
        cases h
        exact ⟨by have := k.le_toInt; omega, by have := k.toInt_lt; omega⟩
      | _ => cases h
    have hof : Scalar.ofInt? .i64 n = some (.i64 (Int64.ofInt n)) := by
      rw [Scalar.ofInt?, if_pos hfit]
    have hread : v.read? .i64 = some (.i64 (Int64.ofInt n)) := by
      have hv : v.toInt? = some n := h
      rw [Scalar.read?_of_isInteger rfl, hv, Option.bind_some, hof]
    have hnull : ¬(scalar v).isNull = true := by rw [not_isNull_of_toInt? h]; simp
    refine ⟨Int64.ofInt n, ?_, Option.some.inj (Scalar.toInt?_of_ofInt? hof)⟩
    rw [convert, convert?, if_neg hnull, read?, hread]
    rfl

/-- Widening an integer keeps its number. -/
theorem convert_i64 {v : Value} {n : Int} (h : v.toInt? = some n) :
    ∃ w, v.convert .i64 = .ok w ∧ SameNumber v w := by
  obtain ⟨k, hconvert, hk⟩ := convert_of_toInt? h
  exact ⟨.i64 k, hconvert, Or.inr ⟨n, h, congrArg some hk⟩⟩

/-! ## Conversions -/

variable {ty : ColumnType} {v w : Value}

theorem read_eq_ok_iff : v.read ty = .ok w ↔ v.read? ty = some w := by
  rw [read]
  cases v.read? ty <;> simp

theorem convert_eq_ok_iff :
    v.convert ty = .ok w ↔ v = .null ∧ w = .null ∨ v ≠ .null ∧ v.read? ty = some w := by
  rw [convert, convert?]
  by_cases hnull : v = .null
  · subst hnull
    rw [if_pos (isNull_iff.mpr rfl)]
    constructor
    · intro h
      exact Or.inl ⟨rfl, (Except.ok.inj h).symm⟩
    · rintro (⟨-, rfl⟩ | ⟨hne, -⟩)
      · rfl
      · exact absurd rfl hne
  · rw [if_neg (isNull_iff.not.mpr hnull)]
    cases v.read? ty <;> simp [hnull]

/-- What an integer type makes of a value is the same number. -/
theorem toInt?_of_read? (hty : ty.isInteger = true) (h : v.read? ty = some w) :
    ∃ n, v.toInt? = some n ∧ w.toInt? = some n := by
  cases v with
  | list items => cases h
  | scalar v =>
    obtain ⟨u, hread, rfl⟩ := Option.map_eq_some_iff.mp h
    rw [Scalar.read?_of_isInteger hty] at hread
    obtain ⟨n, hn, hfits⟩ := Option.bind_eq_some_iff.mp hread
    exact ⟨n, hn, Scalar.toInt?_of_ofInt? hfits⟩

/-- A conversion to an integer type changes a value in width at most. -/
theorem sameNumber_of_convert_integer (hty : ty.isInteger = true) (h : v.convert ty = .ok w) :
    SameNumber v w := by
  rcases convert_eq_ok_iff.mp h with ⟨rfl, rfl⟩ | ⟨-, hread⟩
  · exact .refl .null
  · exact Or.inr (toInt?_of_read? hty hread)

end Value

/-! ## Values in relation -/

/-- What a comparison asks of the order of its two values. -/
def Operator.Relates : Operator → Ordering → Prop
  | eq, order => order = .eq
  | ne, order => order ≠ .eq
  | lt, order => order = .lt
  | le, order => order = .lt ∨ order = .eq
  | gt, order => order = .gt
  | ge, order => order = .gt ∨ order = .eq
  | _, _ => False

namespace Value

/-- Both values are known and compare, and their order is the one that the operator writes. -/
def Related (op : Operator) (a b : Value) : Prop :=
  a ≠ .null ∧ b ≠ .null ∧ ∃ order, a.compare? b = some order ∧ op.Relates order

/-- The value is an integer of any width or null. -/
def IntegerOrNull (v : Value) : Prop :=
  v = .null ∨ v.toInt?.isSome = true

/-- The value is known and equal to one of the items. -/
def OneOf (v : Value) (items : List Value) : Prop :=
  v ≠ .null ∧ ∃ item ∈ items, v.equals item = true

end Value

namespace Value

theorem holds_iff_relates {op : Operator} {order : Ordering} :
    op.holds order = true ↔ op.Relates order := by
  cases op <;> cases order <;> simp [Operator.holds, Operator.Relates]

theorem satisfies_iff_related {op : Operator} {a b : Value} :
    a.satisfies op b = true ↔ Related op a b := by
  rw [satisfies_eq_any, Related, Bool.and_eq_true, Bool.and_eq_true, Bool.not_eq_true',
    Bool.not_eq_true', and_assoc, Option.any_eq_true]
  refine and_congr ?_ (and_congr ?_ ?_)
  · rw [ne_eq, ← isNull_iff, Bool.not_eq_true]
  · rw [ne_eq, ← isNull_iff, Bool.not_eq_true]
  · exact exists_congr fun order => and_congr_right fun _ => holds_iff_relates

theorem oneOf_iff {v : Value} {items : List Value} :
    (!v.isNull && items.any (·.equals v)) = true ↔ v.OneOf items := by
  rw [OneOf, Bool.and_eq_true, Bool.not_eq_true', List.any_eq_true]
  refine and_congr ?_ ?_
  · rw [ne_eq, ← isNull_iff, Bool.not_eq_true]
  · exact exists_congr fun item => and_congr_right fun _ => by rw [equals_comm]

/-- Items that differ at most in width hold the same values. -/
theorem any_equals_congr {v w : Value} {items items' : List Value} (hv : v.SameNumber w)
    (hitems : List.Forall₂ SameNumber items items') :
    items.any (·.equals v) = items'.any (·.equals w) := by
  induction hitems with
  | nil => rfl
  | cons h _ ih => rw [List.any_cons, List.any_cons, ih, h.equals hv]

/-- Integers written in 64 bits are the same numbers. -/
theorem sameNumber_of_convert {items items' : List Value}
    (hint : ∀ v ∈ items, v.toInt?.isSome = true)
    (h : List.Forall₂ (fun v w => v.convert .i64 = .ok w) items items') :
    List.Forall₂ SameNumber items items' := by
  induction h with
  | nil => exact .nil
  | @cons v w rest rest' hw _ ih =>
    obtain ⟨n, hn⟩ := Option.isSome_iff_exists.mp (hint v List.mem_cons_self)
    obtain ⟨w', hw', hsame⟩ := convert_i64 hn
    rw [hw] at hw'
    cases hw'
    exact .cons hsame (ih fun u hu => hint u (List.mem_cons_of_mem v hu))

/-! ## Keys -/

/-- The value can identify a row, or it is null. -/
def KeyOrNull (v : Value) : Prop :=
  v = .null ∨ v.toKey?.isSome = true

theorem not_isNull_of_toKey? {v : Value} {k : Key} (h : v.toKey? = some k) : v.isNull = false := by
  rw [← Bool.not_eq_true, isNull_iff]
  rintro rfl
  cases h

/-- Values that can identify a row are equal to a database exactly when they are one key. -/
theorem equals_iff_toKey? {a b : Value} {k : Key} (ha : a.toKey? = some k) (hb : b.KeyOrNull) :
    a.equals b = true ↔ b.toKey? = some k := by
  rcases hb with rfl | hb
  · cases a with
    | list as => cases ha
    | scalar a => cases a <;> simp_all [equals, compare?, Scalar.compare?, Scalar.toInt?, toKey?,
        Scalar.toKey?]
  · obtain ⟨k', hk'⟩ := Option.isSome_iff_exists.mp hb
    rw [hk', Option.some.injEq]
    cases a with
    | list as => cases ha
    | scalar a =>
      cases b with
      | list bs => cases hk'
      | scalar b =>
        cases a <;> cases b <;> simp_all [equals, compare?, Scalar.compare?, Scalar.toInt?, toKey?,
          Scalar.toKey?] <;> grind

theorem toKey?_congr {a b : Value} (ha : a.KeyOrNull) (hb : b.KeyOrNull)
    (h : a.equals b = true) : a.toKey? = b.toKey? := by
  rcases ha with rfl | ha
  · rcases hb with rfl | hb
    · rfl
    · obtain ⟨k, hk⟩ := Option.isSome_iff_exists.mp hb
      rw [equals_comm, equals_iff_toKey? hk (Or.inl rfl)] at h
      rw [hk, h]
  · obtain ⟨k, hk⟩ := Option.isSome_iff_exists.mp ha
    rw [hk, (equals_iff_toKey? hk hb).mp h]

/-- A comparison for equality of two such values asks whether they are one key. -/
theorem satisfies_eq_iff_toKey? {a b : Value} {k : Key} (ha : a.toKey? = some k)
    (hb : b.KeyOrNull) : a.satisfies .eq b = true ↔ b.toKey? = some k := by
  rw [← equals_iff_toKey? ha hb, satisfies_eq_any, not_isNull_of_toKey? ha, Bool.not_false,
    Bool.true_and, equals]
  cases hb with
  | inl hnull =>
    subst hnull
    have hne : a.equals .null = false := by
      rw [← Bool.not_eq_true, equals_iff_toKey? ha (Or.inl rfl)]
      exact nofun
    have hnull : Value.isNull .null = true := rfl
    rw [equals] at hne
    rw [hne, hnull]
    rfl
  | inr hb =>
    obtain ⟨k', hk'⟩ := Option.isSome_iff_exists.mp hb
    rw [not_isNull_of_toKey? hk', Bool.not_false, Bool.true_and]
    cases a.compare? b with
    | none => rfl
    | some order => cases order <;> simp [Operator.holds]

end Value

end RowGraph
