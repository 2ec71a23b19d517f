import RowGraph.Operator
import RowGraph.Proofs.Lists
import RowGraph.Sql.Fragment
import Std.Data.String.ToInt

/-!
Where a literal ends.

A value or a column in a text is followed by the end of its group or by the comma before the next
item.  It ends at the first such character that is not inside a string, so it can be told from what
follows: a word contains no such character, and inside a string a quote is followed by a second one.
What a literal says can be told from the literal, up to the width of an integer.
-/

namespace RowGraph

/-- A value that can be told from its literal: floating-point numbers look like other values, and an
integer shows no width. -/
inductive Scalar.Legible : Scalar → Prop
  | null : Legible .null
  | bool (b : Bool) : Legible (.bool b)
  | i64 (n : Int64) : Legible (.i64 n)
  | string (s : String) : Legible (.string s)

namespace Operator

theorem symbol_inj {op op' : Operator} (h : op.symbol = op'.symbol) : op = op' := by
  revert h
  cases op <;> cases op' <;> decide

theorem space_not_mem_symbol (op : Operator) : ' ' ∉ op.symbol.toList := by
  cases op <;> decide

end Operator

namespace Sql

/-! ## Where a token ends -/

/-- The characters of names, of keywords and of integers. -/
def IsWordChar (c : Char) : Prop :=
  c.isAlphanum = true ∨ c = '_' ∨ c = '-' ∨ c = '.'

/-- The text begins with the end of a group or with a comma. -/
def Closes : List Char → Prop
  | c :: _ => c = ')' ∨ c = ','
  | [] => False

theorem closes_paren (xs : List Char) : Closes (')' :: xs) := Or.inl rfl

inductive IsToken : List Char → Prop
  | word {cs : List Char} (h : ∀ c ∈ cs, IsWordChar c) : IsToken cs
  | string (s : String) : IsToken (stringLiteral s).toList

theorem not_isWordChar_of_closes {xs : List Char} (hxs : Closes xs) {c : Char}
    (hc : xs.head? = some c) : ¬IsWordChar c ∧ c ≠ '\x27' ∧ c ≠ '(' := by
  cases xs with
  | nil => cases hc
  | cons x rest =>
    cases hc
    rcases hxs with rfl | rfl
    · unfold IsWordChar
      decide
    · unfold IsWordChar
      decide

/-! ## Strings -/

/-- What stands between the quotes of a string. -/
def quotedChars (s : List Char) : List Char :=
  s.flatMap fun c => if c = '\x27' then [c, c] else [c]

theorem quotedChars_quote {s : List Char} :
    quotedChars ('\x27' :: s) = '\x27' :: '\x27' :: quotedChars s := rfl

theorem quotedChars_of_ne {c : Char} {s : List Char} (h : c ≠ '\x27') :
    quotedChars (c :: s) = c :: quotedChars s := by
  rw [quotedChars, List.flatMap_cons, if_neg h]
  rfl

theorem toList_stringLiteral (s : String) :
    (stringLiteral s).toList = '\x27' :: (quotedChars s.toList ++ ['\x27']) := by
  simp [stringLiteral, quotedChars]

/-- The quote that ends a string is the first one that no second one follows. -/
theorem quotedChars_append_inj {s t xs ys : List Char} (hxs : xs.head? ≠ some '\x27')
    (hys : ys.head? ≠ some '\x27')
    (h : quotedChars s ++ '\x27' :: xs = quotedChars t ++ '\x27' :: ys) : s = t ∧ xs = ys := by
  induction s generalizing t with
  | nil =>
    cases t with
    | nil =>
      injection h with _ h
      exact ⟨rfl, h⟩
    | cons d t =>
      -- The second string goes on: its next quote is doubled, and none follows the first string.
      exfalso
      by_cases hd : d = '\x27'
      · rw [hd, quotedChars_quote] at h
        injection h with _ h
        exact hxs (by rw [h]; rfl)
      · rw [quotedChars_of_ne hd] at h
        injection h with h _
        exact hd h.symm
  | cons c s ih =>
    cases t with
    | nil =>
      exfalso
      by_cases hc : c = '\x27'
      · rw [hc, quotedChars_quote] at h
        injection h with _ h
        exact hys (by rw [← h]; rfl)
      · rw [quotedChars_of_ne hc] at h
        injection h with h _
        exact hc h
    | cons d t =>
      rw [quotedChars, quotedChars, List.flatMap_cons, List.flatMap_cons] at h
      have hcd : c = d := by
        split at h <;> split at h <;> injection h
      subst hcd
      rw [List.append_assoc, List.append_assoc, List.append_cancel_left_eq] at h
      obtain ⟨hst, hrest⟩ := ih h
      exact ⟨by rw [hst], hrest⟩

theorem stringLiteral_append_inj {s t : String} {xs ys : List Char}
    (hxs : xs.head? ≠ some '\x27') (hys : ys.head? ≠ some '\x27')
    (h : (stringLiteral s).toList ++ xs = (stringLiteral t).toList ++ ys) : s = t ∧ xs = ys := by
  rw [toList_stringLiteral, toList_stringLiteral, List.cons_append, List.cons_append,
    List.append_assoc, List.append_assoc] at h
  injection h with _ h
  obtain ⟨hst, hrest⟩ := quotedChars_append_inj hxs hys h
  exact ⟨String.toList_inj.mp hst, hrest⟩

theorem quote_mem_stringLiteral (s : String) : '\x27' ∈ (stringLiteral s).toList := by
  rw [toList_stringLiteral]
  exact List.mem_cons_self

/-! ## Tokens -/

theorem not_isWordChar_quote : ¬IsWordChar '\x27' := by
  unfold IsWordChar
  decide

theorem word_append_ne_stringLiteral {as xs ys : List Char} {s : String}
    (has : ∀ c ∈ as, IsWordChar c) (hxs : Closes xs) : as ++ xs ≠ (stringLiteral s).toList ++ ys := by
  intro h
  rw [toList_stringLiteral] at h
  cases as with
  | nil => exact (not_isWordChar_of_closes hxs (congrArg List.head? h)).2.1 rfl
  | cons a as =>
    injection h with ha _
    exact not_isWordChar_quote (ha ▸ has a List.mem_cons_self)

/-- A token is told from what closes it. -/
theorem IsToken.append_inj {as bs xs ys : List Char} (has : IsToken as) (hbs : IsToken bs)
    (hxs : Closes xs) (hys : Closes ys) (h : as ++ xs = bs ++ ys) : as = bs ∧ xs = ys := by
  cases has with
  | word has =>
    cases hbs with
    | word hbs =>
      exact append_inj_of_head? has hbs (fun c hc => (not_isWordChar_of_closes hxs hc).1)
        (fun c hc => (not_isWordChar_of_closes hys hc).1) h
    | string t => exact absurd h (word_append_ne_stringLiteral has hxs)
  | string s =>
    cases hbs with
    | word hbs => exact absurd h.symm (word_append_ne_stringLiteral hbs hys)
    | string t =>
      have hquote : ∀ {zs : List Char}, Closes zs → zs.head? ≠ some '\x27' :=
        fun hzs hhead => (not_isWordChar_of_closes hzs hhead).2.1 rfl
      obtain ⟨rfl, hrest⟩ := stringLiteral_append_inj (hquote hxs) (hquote hys) h
      exact ⟨rfl, hrest⟩

theorem IsToken.append_ne_group {as xs ys : List Char} (has : IsToken as) (hxs : Closes xs) :
    as ++ xs ≠ '(' :: ys := by
  intro h
  cases has with
  | word has =>
    cases as with
    | nil => exact (not_isWordChar_of_closes hxs (congrArg List.head? h)).2.2 rfl
    | cons a as =>
      injection h with ha _
      have hword := has a List.mem_cons_self
      rw [ha] at hword
      revert hword
      unfold IsWordChar
      decide
  | string s =>
    rw [toList_stringLiteral] at h
    injection h with hquote _
    revert hquote
    decide

/-! ## Literals -/

theorem isWordChar_of_isDigit {c : Char} (h : c.isDigit = true) : IsWordChar c :=
  Or.inl (by rw [Char.isAlphanum, h, Bool.or_true])

theorem isWordChar_of_mem_significantDigits {n : Nat} {c : Char}
    (h : c ∈ Binary64.significantDigits n) : IsWordChar c := by
  rw [Binary64.significantDigits, List.mem_reverse] at h
  have hdigit : c ∈ Nat.toDigits 10 n := List.mem_reverse.mp ((List.dropWhile_suffix _).mem h)
  exact isWordChar_of_isDigit (Nat.isDigit_of_mem_toDigits (by decide) (by decide) hdigit)

/-- A number that is written out in places has its digits, zeros and a point. -/
theorem isWordChar_positionalText (point : Bool) {digits : List Char} (e : Int)
    (hdigits : ∀ c ∈ digits, IsWordChar c) :
    ∀ c ∈ (Binary64.positionalText point digits e).toList, IsWordChar c := by
  have hpoint : IsWordChar '.' := Or.inr (Or.inr (Or.inr rfl))
  have hzero : ∀ c ∈ ['0'], IsWordChar c := by simp [isWordChar_of_isDigit]
  have hzeros : ∀ n, ∀ c ∈ List.replicate n '0', IsWordChar c := fun n c hc =>
    hzero c (List.mem_singleton.mpr (List.eq_of_mem_replicate hc))
  rw [Binary64.positionalText, String.toList_ofList]
  refine List.forall_mem_append.mpr ⟨?_, ?_⟩
  · split
    next => exact hzero
    next =>
      exact List.forall_mem_append.mpr ⟨fun c hc => hdigits c (List.mem_of_mem_take hc), hzeros _⟩
  · split
    next =>
      split
      next => exact List.forall_mem_cons.mpr ⟨hpoint, hzero⟩
      next => simp
    next =>
      exact List.forall_mem_cons.mpr ⟨hpoint, List.forall_mem_append.mpr
        ⟨hzeros _, fun c hc => hdigits c (List.mem_of_mem_drop hc)⟩⟩

theorem isWordChar_text (x : Binary64) : ∀ c ∈ (x.text .statement).toList, IsWordChar c := by
  have hbody : ∀ c ∈ (if x.isInfinite then "inf" else
      Binary64.magnitudeText .statement x).toList, IsWordChar c := by
    split
    next => simp [IsWordChar]
    next =>
      rw [Binary64.magnitudeText]
      split
      next => exact isWordChar_positionalText _ _ (by simp [isWordChar_of_isDigit])
      next => exact isWordChar_positionalText _ _ fun c => isWordChar_of_mem_significantDigits
  rw [Binary64.text]
  by_cases hnan : x.isNaN = true
  · rw [if_pos hnan]
    simp [IsWordChar]
  · rw [if_neg hnan]
    dsimp only
    generalize (if x.isInfinite then "inf" else Binary64.magnitudeText .statement x) = body
      at hbody ⊢
    cases x.isNegative with
    | true =>
      rw [if_pos rfl, String.toList_append]
      exact List.forall_mem_append.mpr ⟨by simp [IsWordChar], hbody⟩
    | false => exact hbody

/-- In every dialect a value that is no string is written as a word. -/
theorem isWordChar_literal (flavor : Flavor) {v : Scalar} (hv : ∀ s, v ≠ .string s) :
    ∀ c ∈ (literal flavor v).toList, IsWordChar c := by
  have hint : ∀ n : Int, ∀ c ∈ (toString n).toList, IsWordChar c := by
    intro n c hc
    rcases mem_toString_int hc with hdigit | rfl
    · exact isWordChar_of_isDigit hdigit
    · exact Or.inr (Or.inr (Or.inl rfl))
  cases v with
  | null => simp [literal, IsWordChar]
  | bool b =>
    rw [literal]
    split <;> cases b <;> simp [IsWordChar]
  | f64 x => exact isWordChar_text x
  | i16 n => exact hint n.toInt
  | i32 n => exact hint n.toInt
  | i64 n => exact hint n.toInt
  | string s => exact absurd rfl (hv s)

variable {flavor : Flavor}

theorem literal_null : literal flavor .null = "NULL" := rfl

theorem literal_bool (hflavor : flavor ≠ .mssql) (b : Bool) :
    literal flavor (.bool b) = if b then "TRUE" else "FALSE" :=
  if_neg hflavor

/-- A value that is no string is written as a word without a point. -/
theorem mem_literal (hflavor : flavor ≠ .mssql) {v : Scalar} (hv : v.Legible)
    (hstring : ∀ s, v ≠ .string s) {c : Char} (hc : c ∈ (literal flavor v).toList) :
    IsWordChar c ∧ c ≠ '.' := by
  cases hv with
  | null =>
    have hall : ∀ c ∈ "NULL".toList, c.isAlphanum = true ∧ c ≠ '.' := by simp
    exact ⟨Or.inl (hall c hc).1, (hall c hc).2⟩
  | bool b =>
    rw [literal_bool hflavor] at hc
    have hall : ∀ b : Bool, ∀ c ∈ (if b then "TRUE" else "FALSE").toList,
        c.isAlphanum = true ∧ c ≠ '.' := by simp
    exact ⟨Or.inl (hall b c hc).1, (hall b c hc).2⟩
  | i64 n =>
    rcases mem_toString_int hc with hdigit | rfl
    · refine ⟨isWordChar_of_isDigit hdigit, ?_⟩
      rintro rfl
      cases hdigit
    · exact ⟨Or.inr (Or.inr (Or.inl rfl)), by decide⟩
  | string s => exact absurd rfl (hstring s)

theorem isToken_literal (hflavor : flavor ≠ .mssql) {v : Scalar} (hv : v.Legible) :
    IsToken (literal flavor v).toList := by
  by_cases hstring : ∃ s, v = .string s
  · obtain ⟨s, rfl⟩ := hstring
    exact .string s
  · exact .word fun c hc => (mem_literal hflavor hv (not_exists.mp hstring) hc).1

theorem e_mem_bool (b : Bool) : 'E' ∈ (if b then "TRUE" else "FALSE").toList := by
  cases b <;> decide

theorem literal_ne_stringLiteral (hflavor : flavor ≠ .mssql) {v : Scalar} (hv : v.Legible)
    (hstring : ∀ s, v ≠ .string s) (s : String) : literal flavor v ≠ stringLiteral s := by
  intro h
  have hquote := quote_mem_stringLiteral s
  rw [← h] at hquote
  exact not_isWordChar_quote (mem_literal hflavor hv hstring hquote).1

theorem literal_inj (hflavor : flavor ≠ .mssql) {v w : Scalar} (hv : v.Legible) (hw : w.Legible)
    (h : literal flavor v = literal flavor w) : v = w := by
  cases hv with
  | null =>
    cases hw with
    | null => rfl
    | bool b =>
      rw [literal_null, literal_bool hflavor] at h
      cases b <;> exact absurd h (by decide)
    | i64 n =>
      rw [literal_null] at h
      exact absurd h.symm (toString_ne (c := 'N') (by decide) rfl (by decide) n.toInt)
    | string s => exact absurd h (literal_ne_stringLiteral hflavor .null nofun s)
  | bool b =>
    cases hw with
    | null =>
      rw [literal_null, literal_bool hflavor] at h
      cases b <;> exact absurd h (by decide)
    | bool b' =>
      rw [literal_bool hflavor, literal_bool hflavor] at h
      cases b <;> cases b' <;> first | rfl | exact absurd h (by decide)
    | i64 n =>
      rw [literal_bool hflavor] at h
      exact absurd h.symm (toString_ne (e_mem_bool b) rfl (by decide) n.toInt)
    | string s => exact absurd h (literal_ne_stringLiteral hflavor (.bool b) nofun s)
  | i64 n =>
    cases hw with
    | null =>
      rw [literal_null] at h
      exact absurd h (toString_ne (c := 'N') (by decide) rfl (by decide) n.toInt)
    | bool b =>
      rw [literal_bool hflavor] at h
      exact absurd h (toString_ne (e_mem_bool b) rfl (by decide) n.toInt)
    | i64 m =>
      have hrepr : n.toInt.repr = m.toInt.repr := h
      rw [Int64.toInt_inj.mp (Int.repr_injective hrepr)]
    | string s => exact absurd h (literal_ne_stringLiteral hflavor (.i64 n) nofun s)
  | string s =>
    by_cases hstring : ∃ t, w = .string t
    · obtain ⟨t, rfl⟩ := hstring
      have happend : (stringLiteral s).toList ++ [] = (stringLiteral t).toList ++ [] := by
        rw [List.append_nil, List.append_nil]
        exact congrArg String.toList h
      rw [(stringLiteral_append_inj (by simp) (by simp) happend).1]
    · exact absurd h.symm (literal_ne_stringLiteral hflavor hw (not_exists.mp hstring) s)

end Sql
end RowGraph
