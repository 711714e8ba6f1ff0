import LvglAic.Machine.Run

/-! # Progress along infinite runs

A ranking argument: while a goal is not met, no step raises the rank and every
helpful step lowers it.  A run that takes helpful steps again and again then
meets the goal.
-/

namespace LvglAic.Machine

variable {State Action Event : Type*} {machine : Machine State Action Event}

/-- An infinite continuation of a run that has emitted `past`. -/
structure Path (machine : Machine State Action Event) (past : List Event) (start : State) where
  state : Nat → State
  action : Nat → Action
  emitted : Nat → List Event
  begins : state 0 = start
  moves : ∀ i, machine.step (state i) (action i) = some (state (i + 1), emitted i)

namespace Path

variable {past : List Event} {start : State}

/-- All events up to the `i`-th state. -/
def trace (path : Path machine past start) : Nat → List Event
  | 0 => past
  | i + 1 => path.trace i ++ path.emitted i

theorem reaches (path : Path machine past start)
    (reached : machine.Reaches Always past start) (i : Nat) :
    machine.Reaches Always (path.trace i) (path.state i) := by
  induction i with
  | zero =>
      rw [path.begins]
      exact reached
  | succ i ih => exact ih.extend (path.moves i)

/-- A property every step keeps holds from its first position on. -/
theorem stable (path : Path machine past start) (Kept : List Event → State → Prop)
    (kept : ∀ i, Kept (path.trace i) (path.state i) →
      Kept (path.trace (i + 1)) (path.state (i + 1)))
    {i j : Nat} (later : i ≤ j) (holds : Kept (path.trace i) (path.state i)) :
    Kept (path.trace j) (path.state j) := by
  obtain ⟨steps, rfl⟩ := Nat.exists_eq_add_of_le later
  induction steps with
  | zero => exact holds
  | succ steps ih => exact kept _ (ih (Nat.le_add_right _ _))

/-- Infinitely many positions satisfy the predicate. -/
def Often (path : Path machine past start) (Helpful : State → Action → Prop) : Prop :=
  ∀ i, ∃ j, i ≤ j ∧ Helpful (path.state j) (path.action j)

/-- The ranking rule. -/
theorem eventually (path : Path machine past start) (Goal : List Event → State → Prop)
    {Helpful : State → Action → Prop} (rank : List Event → State → Nat) {i : Nat}
    (often : path.Often Helpful)
    (progress : ∀ j, i ≤ j → ¬Goal (path.trace j) (path.state j) →
      Goal (path.trace (j + 1)) (path.state (j + 1)) ∨
      (rank (path.trace (j + 1)) (path.state (j + 1)) ≤ rank (path.trace j) (path.state j) ∧
        (Helpful (path.state j) (path.action j) →
          rank (path.trace (j + 1)) (path.state (j + 1)) < rank (path.trace j) (path.state j)))) :
    ∃ j, i ≤ j ∧ Goal (path.trace j) (path.state j) := by
  by_contra unmet
  have missed : ∀ j, i ≤ j → ¬Goal (path.trace j) (path.state j) := fun j later met =>
    unmet ⟨j, later, met⟩
  have step : ∀ j, i ≤ j →
      rank (path.trace (j + 1)) (path.state (j + 1)) ≤ rank (path.trace j) (path.state j) ∧
      (Helpful (path.state j) (path.action j) →
        rank (path.trace (j + 1)) (path.state (j + 1)) < rank (path.trace j) (path.state j)) :=
    fun j later => (progress j later (missed j later)).resolve_left (missed _ (by omega))
  have descends : ∀ j, i ≤ j → ∀ k, rank (path.trace (j + k)) (path.state (j + k)) ≤
      rank (path.trace j) (path.state j) := by
    intro j later k
    induction k with
    | zero => exact Nat.le_refl _
    | succ k ih => exact Nat.le_trans (step (j + k) (by omega)).1 ih
  have bounded : ∀ bound j, i ≤ j → rank (path.trace j) (path.state j) ≤ bound → False := by
    intro bound
    induction bound with
    | zero =>
        intro j later low
        obtain ⟨k, after, helpful⟩ := often j
        obtain ⟨steps, rfl⟩ := Nat.exists_eq_add_of_le after
        have falls := (step (j + steps) (by omega)).2 helpful
        have below := descends j later steps
        omega
    | succ bound ih =>
        intro j later low
        obtain ⟨k, after, helpful⟩ := often j
        obtain ⟨steps, rfl⟩ := Nat.exists_eq_add_of_le after
        have falls := (step (j + steps) (by omega)).2 helpful
        have below := descends j later steps
        exact ih (j + steps + 1) (by omega) (by omega)
  exact bounded _ i (Nat.le_refl _) (Nat.le_refl _)

end Path

end LvglAic.Machine
