import RowGraph.Proofs.Lists
import RowGraph.Proofs.Sql.Literals

/-!
Strings before a reader that knows escapes.

MySQL reads a backslash in a string as the beginning of an escape, unless it is told otherwise.  A
literal doubles the quotes of its string and leaves the backslashes alone, so that such a reader can
take a quote that was doubled, or the one that ends the literal, for an escaped one.  What an escape
stands for does not matter to where the string ends, and is left open.
-/

namespace RowGraph
namespace Sql

variable {meaning : Char → List Char} {read left : List Char} {c : Char} {s t : List Char}

/-! ## The reader -/

/-- What is read of a string behind its first quote, and what is left of the text. -/
def readRest (meaning : Char → List Char) : List Char → Option (List Char × List Char)
  | [] => none
  | '\x27' :: '\x27' :: text => (readRest meaning text).map (Prod.map ('\x27' :: ·) id)
  | '\x27' :: text => some ([], text)
  | ['\\'] => none
  | '\\' :: c :: text => (readRest meaning text).map (Prod.map (meaning c ++ ·) id)
  | c :: text => (readRest meaning text).map (Prod.map (c :: ·) id)

/-- The string at the beginning of a text, and what follows it. -/
def readString (meaning : Char → List Char) : List Char → Option (List Char × List Char)
  | '\x27' :: text => readRest meaning text
  | _ => none

theorem readRest_of_ne (hquote : c ≠ '\x27') (hescape : c ≠ '\\') :
    readRest meaning (c :: t) = (readRest meaning t).map (Prod.map (c :: ·) id) := by
  rw [readRest.eq_def]
  split <;> simp_all

theorem readRest_close (ht : t.head? ≠ some '\x27') :
    readRest meaning ('\x27' :: t) = some ([], t) := by
  rw [readRest]
  rintro text rfl
  exact ht rfl

/-- A reader that ends has consumed something. -/
theorem length_lt_of_readRest {text : List Char} (h : readRest meaning text = some (read, left)) :
    left.length < text.length := by
  fun_induction readRest meaning text generalizing read with
  | case1 => cases h
  | case2 text ih =>
    obtain ⟨r, hr, -⟩ := map_fst_eq_some.mp h
    exact Nat.lt_succ_of_lt (Nat.lt_succ_of_lt (ih hr))
  | case3 text =>
    cases h
    exact Nat.lt_succ_self _
  | case4 => cases h
  | case5 c text ih =>
    obtain ⟨r, hr, -⟩ := map_fst_eq_some.mp h
    exact Nat.lt_succ_of_lt (Nat.lt_succ_of_lt (ih hr))
  | case6 c text _ _ _ _ ih =>
    obtain ⟨r, hr, -⟩ := map_fst_eq_some.mp h
    exact Nat.lt_succ_of_lt (ih hr)

/-! ## Reading what was quoted -/

theorem readRest_quotedChars_cons (h : c ≠ '\\') :
    readRest meaning (quotedChars (c :: s) ++ t) =
      (readRest meaning (quotedChars s ++ t)).map (Prod.map (c :: ·) id) := by
  by_cases hc : c = '\x27'
  · subst hc
    rfl
  · rw [quotedChars_of_ne hc, List.cons_append, readRest_of_ne hc h]

/-- A reader that takes half of a doubled quote for an escape does not end where the literal does:
the other half ends the string too early or pairs with the quotes after it. -/
theorem left_ne_of_readRest_quote
    (h : readRest meaning ('\x27' :: (quotedChars s ++ '\x27' :: t)) = some (read, left)) :
    left ≠ t := by
  induction s generalizing read with
  | nil =>
    obtain ⟨r, hr, -⟩ := map_fst_eq_some.mp h
    have hlength := length_lt_of_readRest hr
    rintro rfl
    omega
  | cons c s ih =>
    by_cases hc : c = '\x27'
    · rw [hc, quotedChars_quote] at h
      obtain ⟨r, hr, -⟩ := map_fst_eq_some.mp h
      exact ih hr
    · rw [quotedChars_of_ne hc, List.cons_append, readRest_close (by simpa using hc)] at h
      cases h
      intro heq
      have hlength := congrArg List.length heq
      simp only [List.length_cons, List.length_append] at hlength
      omega

/-- No quote is escaped by a backslash of the string, neither one of the string nor the one that
ends its literal. -/
def Contained : List Char → Prop
  | [] => True
  | ['\\'] => False
  | '\\' :: c :: s => c ≠ '\x27' ∧ Contained s
  | _ :: s => Contained s

theorem ne_backslash (hlone : c = '\\' → s = [] → False)
    (hescape : ∀ d rest, c = '\\' → s = d :: rest → False) : c ≠ '\\' := by
  intro hc
  cases s with
  | nil => exact hlone hc rfl
  | cons d rest => exact hescape d rest hc rfl

/-- The string with its escapes replaced by what they stand for. -/
def unescape (meaning : Char → List Char) : List Char → List Char
  | [] => []
  | '\\' :: c :: s => meaning c ++ unescape meaning s
  | c :: s => c :: unescape meaning s

theorem unescape_of_ne (h : c ≠ '\\') : unescape meaning (c :: s) = c :: unescape meaning s := by
  rw [unescape.eq_def]
  split <;> simp_all

/-- The reader ends where the literal does exactly when the string escapes no quote. -/
theorem readRest_quotedChars_iff (ht : t.head? ≠ some '\x27') :
    readRest meaning (quotedChars s ++ '\x27' :: t) = some (read, t) ↔
      Contained s ∧ read = unescape meaning s := by
  fun_induction Contained s generalizing read with
  | case1 =>
    rw [show quotedChars [] ++ '\x27' :: t = '\x27' :: t from rfl, readRest_close ht]
    simp [unescape, eq_comm]
  | case2 =>
    -- The backslash escapes the quote that ends the literal, so the reader goes on into `t`.
    refine iff_of_false ?_ (fun h => h.1)
    intro h
    obtain ⟨r, hr, -⟩ := map_fst_eq_some.mp h
    exact Nat.lt_irrefl _ (length_lt_of_readRest hr)
  | case3 c s ih =>
    by_cases hc : c = '\x27'
    · refine iff_of_false ?_ (fun h => h.1.1 hc)
      subst hc
      intro h
      obtain ⟨r, hr, -⟩ := map_fst_eq_some.mp h
      exact left_ne_of_readRest_quote hr rfl
    · rw [quotedChars_of_ne (by decide), quotedChars_of_ne hc, and_iff_right hc]
      exact map_fst_eq_some_iff fun r => ih
  | case4 c s hlone hescape ih =>
    have hc := ne_backslash hlone hescape
    rw [readRest_quotedChars_cons hc, unescape_of_ne hc]
    exact map_fst_eq_some_iff fun r => ih

/-! ## Strings without backslashes -/

theorem length_unescape_le (hshort : ∀ c, (meaning c).length ≤ 1) :
    (unescape meaning s).length ≤ s.length := by
  fun_induction unescape meaning s with
  | case1 => exact Nat.le_refl _
  | case2 c s ih =>
    have hc := hshort c
    simp only [List.length_append, List.length_cons]
    omega
  | case3 c s _ ih => exact Nat.succ_le_succ ih

/-- Where an escape stands for one character, a string is read as it is only if it has none. -/
theorem contained_and_unescape_eq_iff (hshort : ∀ c, (meaning c).length ≤ 1) :
    Contained s ∧ s = unescape meaning s ↔ '\\' ∉ s := by
  fun_induction Contained s with
  | case1 => simp [unescape]
  | case2 => simp
  | case3 c s ih =>
    refine iff_of_false ?_ (by simp)
    rintro ⟨-, heq⟩
    have hlength := congrArg List.length heq
    have hc := hshort c
    have hs := length_unescape_le hshort (s := s)
    simp only [unescape, List.length_cons, List.length_append] at hlength
    omega
  | case4 c s hlone hescape ih =>
    have hc := ne_backslash hlone hescape
    rw [unescape_of_ne hc, List.cons_inj_right, ih, List.mem_cons, not_or, and_iff_right hc.symm]

/-- What follows the literal of a string is left to be read exactly when the string escapes no
quote.  Where an escape stands for one character, the string itself is read exactly when it has no
backslash. -/
theorem readString_literal_mysql (meaning : Char → List Char) (s : String) {t : List Char}
    (ht : t.head? ≠ some '\x27') :
    (∀ read, readString meaning ((literal .mysql (.string s)).toList ++ t) = some (read, t) ↔
      Contained s.toList ∧ read = unescape meaning s.toList) ∧
    ((∀ c, (meaning c).length ≤ 1) →
      (readString meaning ((literal .mysql (.string s)).toList ++ t) = some (s.toList, t) ↔
        '\\' ∉ s.toList)) := by
  have hread : readString meaning ((literal .mysql (.string s)).toList ++ t) =
      readRest meaning (quotedChars s.toList ++ '\x27' :: t) := by
    show readString meaning ((stringLiteral s).toList ++ t) = _
    rw [toList_stringLiteral, List.cons_append, List.append_assoc]
    rfl
  rw [hread]
  refine ⟨fun read => readRest_quotedChars_iff ht, ?_⟩
  intro hshort
  rw [readRest_quotedChars_iff ht, contained_and_unescape_eq_iff hshort]

/-! ### A string that ends its literal -/

/-- A condition that holds everywhere, behind a quote that the reader takes for an escaped one. -/
def injected : String := "\\\x27 OR 1=1 -- "

theorem readString_injected (meaning : Char → List Char) :
    readString meaning ((literal .mysql (.string injected)).toList ++ []) =
      some (meaning '\x27' ++ [], " OR 1=1 -- \x27".toList) := by
  rfl

/-- Whatever escapes stand for, some string ends before its literal does. -/
theorem not_all_strings_read :
    ¬∃ meaning, ∀ (s : String) (t : List Char), t.head? ≠ some '\x27' →
      readString meaning ((literal .mysql (.string s)).toList ++ t) = some (s.toList, t) := by
  rintro ⟨meaning, h⟩
  have hread := (readString_injected meaning).symm.trans (h injected [] (by decide))
  have hleft : " OR 1=1 -- \x27".toList = [] := congrArg Prod.snd (Option.some.inj hread)
  exact absurd hleft (by decide)

theorem readString_literal_mysql_path :
    readString (fun c => [c]) ((literal .mysql (.string "a\\b")).toList ++ [';']) =
        some ("ab".toList, [';']) ∧
      readString (fun c => [c]) ((literal .mysql (.string "a\\b")).toList ++ [';']) ≠
        some ("a\\b".toList, [';']) := by
  obtain ⟨hends, hsame⟩ := readString_literal_mysql (fun c => [c]) "a\\b" (t := [';']) (by decide)
  refine ⟨(hends "ab".toList).mpr ⟨?_, ?_⟩, ?_⟩
  · simp [Contained]
  · decide
  · rw [ne_eq, hsame (fun c => Nat.le_refl 1)]
    decide

end Sql
end RowGraph
