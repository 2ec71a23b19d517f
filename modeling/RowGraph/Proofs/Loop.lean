/-!
Loops taken turn by turn.

A loop is what one turn of it does to its state: `turn` gives the next state, and nothing where the
loop ends.  A recursive definition says what a loop comes to; that it comes to an end, and after how
many turns, is said here.

Where the turns are asked for one by one and each gives an answer, a loop is known by its
transcript.
-/

namespace RowGraph

/-- The loop, started in the first state, ends in the second after so many turns. -/
inductive EndsAfter {σ : Type} (turn : σ → Option σ) : Nat → σ → σ → Prop
  | here {s : σ} (h : turn s = none) : EndsAfter turn 0 s s
  | next {n : Nat} {s t last : σ} (h : turn s = some t) (hrest : EndsAfter turn n t last) :
      EndsAfter turn (n + 1) s last

namespace EndsAfter

variable {σ : Type} {turn : σ → Option σ}

/-- Through states that follow one another a loop comes to the first of them where it ends. -/
theorem of_states {state : Nat → σ} {n : Nat} (hend : turn (state n) = none)
    (hnext : ∀ k < n, turn (state k) = some (state (k + 1))) :
    EndsAfter turn n (state 0) (state n) := by
  suffices hgen : ∀ m k, k + m = n → EndsAfter turn m (state k) (state n) from
    hgen n 0 (Nat.zero_add n)
  intro m
  induction m with
  | zero =>
    rintro k rfl
    exact here hend
  | succ m ih =>
    intro k hk
    exact next (hnext k (by omega)) (ih (k + 1) (by omega))

end EndsAfter

/-! ## Turns with answers -/

/-- What steps taken one after another answer, and the state after them. -/
def transcript {σ ι ω : Type} (step : σ → ι → ω × σ) (s : σ) : List ι → List ω × σ
  | [] => ([], s)
  | i :: rest =>
    let (answer, next) := step s i
    let (answers, last) := transcript step next rest
    (answer :: answers, last)

/-- Steps that answer alike and keep two states related do so for as long as they are taken. -/
theorem transcript_related {σ τ ι ω : Type} {R : σ → τ → Prop} {f : σ → ι → ω × σ}
    {g : τ → ι → ω × τ}
    (hstep : ∀ s t i, R s t → (f s i).1 = (g t i).1 ∧ R (f s i).2 (g t i).2) (is : List ι) {s : σ}
    {t : τ} (h : R s t) :
    (transcript f s is).1 = (transcript g t is).1 ∧
      R (transcript f s is).2 (transcript g t is).2 := by
  induction is generalizing s t with
  | nil => exact ⟨rfl, h⟩
  | cons i rest ih =>
    obtain ⟨hanswer, hnext⟩ := hstep s t i h
    obtain ⟨hanswers, hlast⟩ := ih hnext
    have hall : (f s i).1 :: (transcript f (f s i).2 rest).1 =
        (g t i).1 :: (transcript g (g t i).2 rest).1 := by
      rw [hanswer, hanswers]
    exact ⟨hall, hlast⟩

end RowGraph
