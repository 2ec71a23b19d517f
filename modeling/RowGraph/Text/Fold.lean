/-!
Case folding of names.  Column names and row keys are compared without regard to the case of the
ASCII letters and of those alone, because that is the one rule every database agrees on.
-/

namespace RowGraph
namespace Text

/-- The name with its ASCII capitals made small. -/
def fold (s : String) : String :=
  s.map Char.toLower

/-- Two names are the same name to a database. -/
def foldsTo (a b : String) : Bool :=
  fold a == fold b

theorem toLower_toLower (c : Char) : c.toLower.toLower = c.toLower := by
  unfold Char.toLower
  split
  next h =>
    split
    next h' =>
      exfalso
      have := h.1; have := h.2; have := h'.1; have := h'.2
      simp only [ge_iff_le, UInt32.le_iff_toNat_le, UInt32.toNat_add] at *
      simp at *
      omega
    next => rfl
  next => rfl

@[simp] theorem fold_fold (s : String) : fold (fold s) = fold s := by
  apply String.toList_inj.mp
  rw [fold, fold, String.toList_map, String.toList_map, List.map_map]
  exact List.map_congr_left fun c _ => toLower_toLower c

theorem foldsTo_iff {a b : String} : foldsTo a b = true ↔ fold a = fold b := by
  simp [foldsTo]

end Text
end RowGraph
