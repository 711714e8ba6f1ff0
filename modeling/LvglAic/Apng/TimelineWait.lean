import LvglAic.Apng.TimelineRun

/-! # The wait of a timeline

A poll that answers `WAIT` says how long.  The media time left is rounded up to
whole microseconds, and so is the wall-clock time that the rate makes of it.
-/

namespace LvglAic.Apng

namespace Timeline

/-- The media time until the deadline, in whole microseconds. -/
def remaining (c : Timeline) : Nat :=
  c.deadlineUs - c.mediaUs +
    if c.mediaFraction * 2 ^ 32 < c.deadlineFraction * c.rateDen then 1 else 0

/-- The products of the due test and of the wait stay within 64 bits. -/
structure Fits (c : Timeline) : Prop where
  shift : c.mediaFraction * 2 ^ 32 < 2 ^ 64
  scaled : c.deadlineFraction * c.rateDen < 2 ^ 64
  difference : ¬c.Reached → c.mediaUs ≤ c.deadlineUs
  tail : c.remaining % c.rateNum * c.rateDen < 2 ^ 64
  whole : ∀ wait, c.waitTime = some wait →
    c.remaining < 2 ^ 64 ∧ c.remaining / c.rateNum * c.rateDen < 2 ^ 64 ∧ wait < 2 ^ 64

section
variable {c next read : Timeline} {now later : UInt64} {step after : Step} {wait : Nat}

theorem difference_nonneg (sound : c.Sound) (early : ¬c.Reached) : c.mediaUs ≤ c.deadlineUs := by
  by_contra above
  have late : c.due = true := by
    simp only [due, Bool.or_eq_true, decide_eq_true_eq]
    exact Or.inl (by omega)
  exact early ((due_iff sound).mp late)

/-- The whole microseconds left are the exact media time left, rounded up. -/
theorem remaining_exact (sound : c.Sound) (early : ¬c.Reached) :
    c.deadline * c.rateDen ≤ c.media * 2 ^ 32 + c.remaining * c.rateDen * 2 ^ 32 ∧
      c.media * 2 ^ 32 + c.remaining * c.rateDen * 2 ^ 32 <
        c.deadline * c.rateDen + c.rateDen * 2 ^ 32 := by
  have fraction := sound.fraction
  have small := sound.deadlineFraction
  have order := difference_nonneg sound early
  obtain ⟨left, split⟩ := Nat.exists_eq_add_of_le order
  have scaled : c.deadlineFraction * c.rateDen < c.rateDen * 2 ^ 32 := by
    rw [Nat.mul_comm]
    exact Nat.mul_lt_mul_of_pos_left small sound.rateDen.1
  have deadline : c.deadline * c.rateDen =
      c.mediaUs * c.rateDen * 2 ^ 32 + left * c.rateDen * 2 ^ 32 +
        c.deadlineFraction * c.rateDen := by
    rw [Timeline.deadline, split]
    ring
  have media : c.media * 2 ^ 32 =
      c.mediaUs * c.rateDen * 2 ^ 32 + c.mediaFraction * 2 ^ 32 := by
    rw [Timeline.media]
    ring
  have difference : c.deadlineUs - c.mediaUs = left := by omega
  rw [deadline, media, remaining, difference]
  split
  · have one : (left + 1) * c.rateDen * 2 ^ 32 =
        left * c.rateDen * 2 ^ 32 + c.rateDen * 2 ^ 32 := by ring
    rw [one]
    omega
  · rw [Nat.add_zero]
    omega

/-- A quotient rounded up. -/
theorem roundUp_exact (value : Nat) {unit : Nat} (positive : 0 < unit) :
    value ≤ (value / unit + if value % unit ≠ 0 then 1 else 0) * unit ∧
      (value / unit + if value % unit ≠ 0 then 1 else 0) * unit < value + unit := by
  have split := Nat.div_add_mod value unit
  have rest := Nat.mod_lt value positive
  rw [Nat.mul_comm] at split
  rw [Nat.add_mul]
  by_cases divides : value % unit = 0
  · rw [if_neg (not_not.mpr divides)]
    omega
  · rw [if_pos divides]
    omega

theorem shift_fits (sound : c.Sound) : c.mediaFraction * 2 ^ 32 < 2 ^ 64 := by
  have fraction := sound.fraction
  have small := sound.rateDen.2
  omega

theorem scaled_fits (sound : c.Sound) : c.deadlineFraction * c.rateDen < 2 ^ 64 := by
  have product := Nat.mul_le_mul (Nat.le_of_lt sound.deadlineFraction) sound.rateDen.2
  omega

theorem tail_fits (sound : c.Sound) (delta : Nat) : delta % c.rateNum * c.rateDen < 2 ^ 64 := by
  have rest := Nat.mod_lt delta sound.rateNum.1
  have small : delta % c.rateNum ≤ 1000000 := by
    have limit := sound.rateNum.2
    omega
  have product := Nat.mul_le_mul small sound.rateDen.2
  omega

/-- What a wait is computed from, once nothing wraps. -/
theorem waitTime_cases (sound : c.Sound) (waits : c.waitTime = some wait) :
    c.remaining < 2 ^ 64 ∧ c.remaining / c.rateNum * c.rateDen < 2 ^ 64 ∧ wait < 2 ^ 64 ∧
      wait = c.remaining / c.rateNum * c.rateDen +
        (c.remaining % c.rateNum * c.rateDen / c.rateNum +
          if c.remaining % c.rateNum * c.rateDen % c.rateNum ≠ 0 then 1 else 0) := by
  have deadline := sound.deadline
  unfold waitTime at waits
  simp only [u64_of_lt (shift_fits sound), u64_of_lt (scaled_fits sound)] at waits
  split at waits
  · contradiction
  · rename_i room
    have delta : (if c.mediaFraction * 2 ^ 32 < c.deadlineFraction * c.rateDen then
        c.deadlineUs - c.mediaUs + 1 else c.deadlineUs - c.mediaUs) = c.remaining := by
      rw [remaining]
      split <;> omega
    rw [delta, u64_of_lt (tail_fits sound c.remaining)] at waits
    have bounded : c.remaining < 2 ^ 64 := by
      unfold uint64Max at room deadline
      rw [remaining]
      split <;> omega
    split at waits
    · contradiction
    · rename_i narrow
      have product : c.remaining / c.rateNum * c.rateDen ≤ uint64Max :=
        (Nat.le_div_iff_mul_le sound.rateDen.1).mp (Nat.not_lt.mp narrow)
      have fits : c.remaining / c.rateNum * c.rateDen < 2 ^ 64 := by
        unfold uint64Max at product
        omega
      rw [u64_of_lt fits] at waits
      generalize (c.remaining % c.rateNum * c.rateDen / c.rateNum +
        if c.remaining % c.rateNum * c.rateDen % c.rateNum ≠ 0 then 1 else 0) = tail at waits ⊢
      split at waits
      · contradiction
      · rename_i total
        unfold uint64Max at total product
        have sum := Option.some.inj waits
        exact ⟨bounded, fits, by omega, sum.symm⟩

/-- The wait is the time that the rate makes of the remaining one, rounded up. -/
theorem waitTime_exact (sound : c.Sound) (waits : c.waitTime = some wait) :
    c.remaining * c.rateDen ≤ wait * c.rateNum ∧
      wait * c.rateNum < c.remaining * c.rateDen + c.rateNum := by
  obtain ⟨_, _, _, sum⟩ := waitTime_cases sound waits
  obtain ⟨enough, tight⟩ :=
    roundUp_exact (c.remaining % c.rateNum * c.rateDen) sound.rateNum.1
  have whole : c.remaining * c.rateDen =
      c.remaining / c.rateNum * c.rateDen * c.rateNum + c.remaining % c.rateNum * c.rateDen := by
    have split := Nat.div_add_mod c.remaining c.rateNum
    calc c.remaining * c.rateDen
        = (c.rateNum * (c.remaining / c.rateNum) + c.remaining % c.rateNum) * c.rateDen := by
          rw [split]
      _ = _ := by ring
  rw [sum, Nat.add_mul, whole]
  omega

theorem Sound.fits (sound : c.Sound) : c.Fits where
  shift := shift_fits sound
  scaled := scaled_fits sound
  difference := difference_nonneg sound
  tail := tail_fits sound _
  whole := by
    intro wait waits
    obtain ⟨bounded, product, small, _⟩ := waitTime_cases sound waits
    exact ⟨bounded, product, small⟩

/-! ## Polls after a wait -/

/-- A timeline that waits: the media time runs, and the shown frame is not due. -/
structure Waiting (c : Timeline) (wait : Nat) : Prop where
  sound : c.Sound
  running : c.ended = false
  playing : c.paused = false
  shows : c.awaitingFrame = false
  early : ¬c.Reached
  waits : c.waitTime = some wait

/-- The clock of a waiting timeline at a later poll. -/
theorem Waiting.advanced (waiting : c.Waiting wait) (reads : c.advance later = some read) :
    c.lastUs ≤ later.toNat ∧ read.Sound ∧ read.ended = false ∧ read.paused = false ∧
      read.awaitingFrame = false ∧ read.deadline = c.deadline ∧ read.rateDen = c.rateDen ∧
      read.media = c.media + (later.toNat - c.lastUs) * c.rateNum := by
  have kept := advance_sound waiting.sound reads
  obtain ⟨forward, _, rfl⟩ := advance_cases waiting.sound reads
  refine ⟨forward, kept, waiting.running, waiting.playing, waiting.shows, rfl, rfl, ?_⟩
  rw [media_setClock, mediaAt, elapsed, if_neg]
  rw [waiting.playing]
  exact Bool.false_ne_true

/-- Once the wait is over the shown frame is due. -/
theorem Waiting.late (waiting : c.Waiting wait) (reads : c.advance later = some read)
    (expired : c.lastUs + wait ≤ later.toNat) : read.Reached := by
  obtain ⟨_, _, _, _, _, deadline, den, media⟩ := waiting.advanced reads
  obtain ⟨enough, _⟩ := remaining_exact waiting.sound waiting.early
  obtain ⟨rounded, _⟩ := waitTime_exact waiting.sound waiting.waits
  have passed : wait * c.rateNum ≤ (later.toNat - c.lastUs) * c.rateNum :=
    Nat.mul_le_mul_right _ (by omega)
  unfold Reached
  rw [deadline, den, media]
  calc c.deadline * c.rateDen
      ≤ c.media * 2 ^ 32 + c.remaining * c.rateDen * 2 ^ 32 := enough
    _ ≤ c.media * 2 ^ 32 + (later.toNat - c.lastUs) * c.rateNum * 2 ^ 32 :=
        Nat.add_le_add_left (Nat.mul_le_mul_right _ (rounded.trans passed)) _
    _ = _ := (Nat.add_mul _ _ _).symm

/-- More than a microsecond of the rate before the end of the wait it is not. -/
theorem Waiting.soon (waiting : c.Waiting wait) (reads : c.advance later = some read)
    (early : (later.toNat - c.lastUs) * c.rateNum + c.rateDen + c.rateNum < wait * c.rateNum) :
    ¬read.Reached := by
  obtain ⟨_, _, _, _, _, deadline, den, media⟩ := waiting.advanced reads
  obtain ⟨_, tight⟩ := remaining_exact waiting.sound waiting.early
  obtain ⟨_, rounded⟩ := waitTime_exact waiting.sound waiting.waits
  have short : (later.toNat - c.lastUs) * c.rateNum + c.rateDen ≤ c.remaining * c.rateDen := by
    omega
  have grown := Nat.mul_le_mul_right (2 ^ 32) short
  rw [Nat.add_mul] at grown
  unfold Reached
  rw [deadline, den, media, Nat.add_mul, Nat.not_le]
  refine Nat.lt_of_add_lt_add_right (n := c.rateDen * 2 ^ 32) (Nat.lt_of_le_of_lt ?_ tight)
  rw [Nat.add_assoc]
  exact Nat.add_le_add_left grown _

end

end Timeline

section
variable {frames plays : UInt32} {animated : Bool} {minimum : UInt32} {begun : UInt64}
  {trace : List TimelineEvent} {c : Timeline}

end

end LvglAic.Apng
