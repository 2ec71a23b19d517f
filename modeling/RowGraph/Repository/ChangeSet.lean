/-!
Change tracking: whether an instance was stored before, and which of its fields changed since.
-/

namespace RowGraph

structure ChangeSet where
  /-- The fields that changed, each once, in the order of their first change. -/
  dirty : List String
  /-- The instance is not stored yet. -/
  isNew : Bool
  deriving DecidableEq

namespace ChangeSet

def fresh : ChangeSet := ⟨[], true⟩

def loaded : ChangeSet := ⟨[], false⟩

instance : Inhabited ChangeSet := ⟨fresh⟩

def isDirty (c : ChangeSet) (field : String) : Bool :=
  c.dirty.contains field

def mark (c : ChangeSet) (field : String) : ChangeSet :=
  if c.isDirty field then c else { c with dirty := c.dirty ++ [field] }

def reset (c : ChangeSet) : ChangeSet :=
  { c with dirty := [] }

/-- The state once the instance has been written. -/
def persisted (c : ChangeSet) : ChangeSet :=
  { c.reset with isNew := false }

theorem isDirty_mark (c : ChangeSet) (field : String) : (c.mark field).isDirty field = true := by
  unfold mark
  split
  next h => exact h
  next => simp [isDirty]

theorem nodup_mark {c : ChangeSet} (h : c.dirty.Nodup) (field : String) :
    (c.mark field).dirty.Nodup := by
  unfold mark
  split
  next => exact h
  next hf =>
    refine List.nodup_append.mpr ⟨h, by simp, ?_⟩
    intro a ha b hb e
    rw [List.mem_singleton] at hb
    exact hf (by simpa [isDirty] using hb ▸ e ▸ ha)

theorem persisted_eq (c : ChangeSet) : c.persisted = loaded := rfl

end ChangeSet
end RowGraph
