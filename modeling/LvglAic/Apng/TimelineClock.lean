import LvglAic.Apng.Timeline

/-! # The arithmetic of the timeline

Under `Sound` every function of the timeline computes exactly: the clock carries
the remainder of a rational rate, and the deadline the remainder of a delay.
-/

namespace LvglAic.Apng.Timeline

/-! ## The clock -/

/-- What every timeline from `init` keeps. -/
structure Sound (c : Timeline) : Prop where
  initialized : c.initialized = true
  rateNum : 0 < c.rateNum ∧ c.rateNum ≤ 1000000
  rateDen : 0 < c.rateDen ∧ c.rateDen ≤ 1000000
  fraction : c.mediaFraction < c.rateDen
  media : c.mediaUs ≤ uint64Max
  last : c.lastUs ≤ uint64Max
  deadline : c.deadlineUs ≤ uint64Max
  deadlineFraction : c.deadlineFraction < 2 ^ 32
  index : c.index < c.frames
  frames : c.frames < 2 ^ 32
  minimum : 0 < c.minimumDelayUs ∧ c.minimumDelayUs ≤ 1000000
  completed : c.completedPlays ≤ uint64Max

/-- The media time, in `1 / rateDen` microseconds. -/
def media (c : Timeline) : Nat := c.mediaUs * c.rateDen + c.mediaFraction

/-- The time that `now` adds to the clock. -/
def elapsed (c : Timeline) (now : UInt64) : Nat := if c.paused then 0 else now.toNat - c.lastUs

/-- The exact media time at `now`. -/
def mediaAt (c : Timeline) (now : UInt64) : Nat := c.media + c.elapsed now * c.rateNum

/-- The clock cannot be read at `now`. -/
def Unreadable (c : Timeline) (now : UInt64) : Prop :=
  now.toNat < c.lastUs ∨ uint64Max < c.mediaAt now / c.rateDen

instance (c : Timeline) (now : UInt64) : Decidable (c.Unreadable now) :=
  inferInstanceAs (Decidable (_ ∨ _))

def setClock (c : Timeline) (mediaUs mediaFraction lastUs : Nat) : Timeline :=
  { c with mediaUs, mediaFraction, lastUs }

section
variable {c next : Timeline} {now later : UInt64}

theorem elapsed_le (c : Timeline) (now : UInt64) : c.elapsed now ≤ uint64Max := by
  have bound := now.toNat_lt
  unfold elapsed uint64Max
  split <;> omega

/-- The carried remainder stands for the whole product. -/
theorem mediaAt_split (c : Timeline) (now : UInt64) :
    c.mediaAt now = (c.mediaUs + c.elapsed now / c.rateDen * c.rateNum) * c.rateDen +
      (c.elapsed now % c.rateDen * c.rateNum + c.mediaFraction) := by
  have split := Nat.div_add_mod (c.elapsed now) c.rateDen
  unfold mediaAt media
  calc c.mediaUs * c.rateDen + c.mediaFraction + c.elapsed now * c.rateNum
      = c.mediaUs * c.rateDen + c.mediaFraction +
          (c.rateDen * (c.elapsed now / c.rateDen) + c.elapsed now % c.rateDen) * c.rateNum := by
        rw [split]
    _ = _ := by ring

/-- No product of the clock wraps: it fails exactly when it cannot be read, and
otherwise carries the exact media time. -/
theorem advance_eq (sound : c.Sound) (now : UInt64) :
    c.advance now = if c.Unreadable now then none
      else some (c.setClock (c.mediaAt now / c.rateDen) (c.mediaAt now % c.rateDen) now.toNat) := by
  obtain ⟨init, num, den, fraction, bounded⟩ := sound
  have exact := c.mediaAt_split now
  have small : c.elapsed now % c.rateDen * c.rateNum + c.mediaFraction < 2 ^ 41 := by
    have rest := Nat.mod_lt (c.elapsed now) den.1
    have product := Nat.mul_le_mul (Nat.le_of_lt (Nat.lt_of_lt_of_le rest den.2)) num.2
    omega
  generalize tailed : c.elapsed now % c.rateDen * c.rateNum + c.mediaFraction = tail at exact small
  generalize wholed : c.elapsed now / c.rateDen = whole at exact
  have quotient : c.mediaAt now / c.rateDen = c.mediaUs + whole * c.rateNum + tail / c.rateDen := by
    rw [exact, Nat.mul_comm _ c.rateDen, Nat.mul_add_div den.1]
  have remainder : c.mediaAt now % c.rateDen = tail % c.rateDen := by
    rw [exact, Nat.mul_add_mod_self_right]
  have product : u64 (c.elapsed now % c.rateDen * c.rateNum) + c.mediaFraction = tail := by
    rw [u64_of_lt (by omega), tailed]
  have tail_eq : u64 tail = tail := u64_of_lt (by omega)
  have fits : (uint64Max - c.mediaUs) / c.rateNum < whole ↔
      uint64Max - c.mediaUs < whole * c.rateNum := Nat.div_lt_iff_lt_mul num.1
  have carry : tail % c.rateDen < 2 ^ 32 :=
    Nat.lt_of_lt_of_le (Nat.mod_lt _ den.1) (by omega)
  have same : (if c.paused = true then 0 else now.toNat - c.lastUs) = c.elapsed now := rfl
  unfold advance Unreadable
  simp only [init, Bool.not_true, Bool.false_or, decide_eq_true_eq, same, wholed, product, tail_eq,
    fits, quotient, remainder, u32_of_lt carry, setClock]
  generalize tail / c.rateDen = carried
  by_cases backwards : now.toNat < c.lastUs
  · simp [backwards]
  by_cases wide : uint64Max - c.mediaUs < whole * c.rateNum
  · have past : uint64Max < c.mediaUs + whole * c.rateNum + carried := by omega
    simp [backwards, wide, past]
  have whole_eq : u64 (whole * c.rateNum) = whole * c.rateNum := u64_of_lt (by
    unfold uint64Max at wide
    omega)
  by_cases past : uint64Max < c.mediaUs + whole * c.rateNum + carried
  · have last : uint64Max - c.mediaUs - whole * c.rateNum < carried := by omega
    simp [backwards, wide, past, whole_eq, last]
  · have last : ¬uint64Max - c.mediaUs - whole * c.rateNum < carried := by omega
    have narrow : c.mediaUs + whole * c.rateNum + carried < 2 ^ 64 := by
      unfold uint64Max at past
      omega
    have inner : u64 (whole * c.rateNum + carried) = whole * c.rateNum + carried :=
      u64_of_lt (by omega)
    have outer : u64 (c.mediaUs + (whole * c.rateNum + carried)) =
        c.mediaUs + whole * c.rateNum + carried := by
      rw [u64_of_lt (by omega), Nat.add_assoc]
    simp only [backwards, wide, past, whole_eq, last, inner, outer, if_false, or_self]

theorem Sound.setClock (sound : c.Sound) {exact last : Nat}
    (bounded : exact / c.rateDen ≤ uint64Max) (limited : last ≤ uint64Max) :
    (c.setClock (exact / c.rateDen) (exact % c.rateDen) last).Sound where
  initialized := sound.initialized
  rateNum := sound.rateNum
  rateDen := sound.rateDen
  fraction := Nat.mod_lt _ sound.rateDen.1
  media := bounded
  last := limited
  deadline := sound.deadline
  deadlineFraction := sound.deadlineFraction
  index := sound.index
  frames := sound.frames
  minimum := sound.minimum
  completed := sound.completed

/-- Every outcome of a clock update. -/
theorem advance_cases (sound : c.Sound) (moved : c.advance now = some next) :
    c.lastUs ≤ now.toNat ∧ c.mediaAt now / c.rateDen ≤ uint64Max ∧
      next = c.setClock (c.mediaAt now / c.rateDen) (c.mediaAt now % c.rateDen) now.toNat := by
  rw [advance_eq sound] at moved
  split at moved
  · cases moved
  · rename_i readable
    unfold Unreadable at readable
    exact ⟨by omega, by omega, (Option.some.inj moved).symm⟩

theorem advance_sound (sound : c.Sound) (moved : c.advance now = some next) : next.Sound := by
  obtain ⟨_, bounded, rfl⟩ := advance_cases sound moved
  have small := now.toNat_lt
  exact sound.setClock bounded (by unfold uint64Max; omega)

theorem media_setClock {exact last : Nat} :
    (c.setClock (exact / c.rateDen) (exact % c.rateDen) last).media = exact :=
  Nat.div_add_mod' exact c.rateDen

/-- Two updates add what the later one alone would. -/
theorem advance_advance (sound : c.Sound) (moved : c.advance now = some next)
    (later_le : now.toNat ≤ later.toNat) : next.advance later = c.advance later := by
  have sound' := advance_sound sound moved
  obtain ⟨forward, bounded, rfl⟩ := advance_cases sound moved
  have total : (c.setClock (c.mediaAt now / c.rateDen) (c.mediaAt now % c.rateDen)
      now.toNat).mediaAt later = c.mediaAt later := by
    rw [mediaAt, media_setClock]
    simp only [mediaAt, elapsed, setClock]
    by_cases stopped : c.paused = true
    · simp only [stopped, if_true, Nat.zero_mul, Nat.add_zero]
    · have stretch : later.toNat - c.lastUs = now.toNat - c.lastUs + (later.toNat - now.toNat) := by
        omega
      simp only [stopped, Bool.false_eq_true, if_false, stretch, Nat.add_mul, Nat.add_assoc]
  rw [advance_eq sound', advance_eq sound]
  refine if_congr ?_ rfl ?_
  · have order : later.toNat < now.toNat ↔ later.toNat < c.lastUs := by omega
    unfold Unreadable
    rw [total]
    exact or_congr order Iff.rfl
  · rw [total]
    rfl

end

/-! ## The deadline -/

/-- The deadline, in `2 ^ -32` microseconds. -/
def deadline (c : Timeline) : Nat := c.deadlineUs * 2 ^ 32 + c.deadlineFraction

/-- The media time has reached the deadline. -/
def Reached (c : Timeline) : Prop := c.deadline * c.rateDen ≤ c.media * 2 ^ 32

section
variable {c next shown : Timeline} {now later : UInt64} {step : Step}

theorem due_iff (sound : c.Sound) : c.due = true ↔ c.Reached := by
  obtain ⟨_, _, den, fraction, _, _, _, small, _⟩ := sound
  have left : u64 (c.deadlineFraction * c.rateDen) = c.deadlineFraction * c.rateDen :=
    u64_of_lt (by
      have product := Nat.mul_le_mul (Nat.le_of_lt small) den.2
      omega)
  have right : u64 (c.mediaFraction * 2 ^ 32) = c.mediaFraction * 2 ^ 32 := u64_of_lt (by omega)
  have scaled : c.deadlineFraction * c.rateDen < 2 ^ 32 * c.rateDen :=
    Nat.mul_lt_mul_of_pos_right small den.1
  simp only [due, left, right, Bool.or_eq_true, decide_eq_true_eq, Bool.and_eq_true, beq_iff_eq,
    Reached, deadline, media, Nat.add_mul]
  rw [show c.deadlineUs * 2 ^ 32 * c.rateDen = c.deadlineUs * c.rateDen * 2 ^ 32 by ring]
  rcases Nat.lt_trichotomy c.mediaUs c.deadlineUs with below | same | above
  · have apart : c.mediaUs * c.rateDen + c.rateDen ≤ c.deadlineUs * c.rateDen := by
      rw [← Nat.succ_mul]
      exact Nat.mul_le_mul_right _ below
    omega
  · rw [same]
    omega
  · have apart : c.deadlineUs * c.rateDen + c.rateDen ≤ c.mediaUs * c.rateDen := by
      rw [← Nat.succ_mul]
      exact Nat.mul_le_mul_right _ above
    omega

theorem Reached.advance (sound : c.Sound) (reached : c.Reached)
    (moved : c.advance now = some next) : next.Reached := by
  obtain ⟨_, _, rfl⟩ := advance_cases sound moved
  unfold Reached at reached ⊢
  rw [media_setClock]
  refine Nat.le_trans reached (Nat.mul_le_mul_right _ ?_)
  exact Nat.le_add_right _ _

theorem turn_setClock {media fraction last : Nat} :
    (c.setClock media fraction last).turn =
      c.turn.map fun c => c.setClock media fraction last := by
  unfold turn
  by_cases more : u32 (c.index + 1) < c.frames
  · simp only [setClock, more, if_true, Option.map_some]
  by_cases full : c.completedPlays = uint64Max
  · simp only [setClock, more, full, if_true, if_false, Option.map_none]
  by_cases final : c.plays ≠ 0 ∧ c.plays ≤ c.completedPlays + 1
  · simp [setClock, more, full, final.1, final.2]
  · simp only [setClock, more, full, final, if_false, Option.map_some]

/-- Every way to the next frame. -/
theorem turn_cases (sound : c.Sound) (turned : c.turn = some next) :
    (c.index + 1 < c.frames ∧ next = { c with index := c.index + 1, awaitingFrame := true }) ∨
    c.index + 1 = c.frames ∧ c.completedPlays < uint64Max ∧
      ((c.plays ≠ 0 ∧ c.plays ≤ c.completedPlays + 1) ∧
          next = { c with
            completedPlays := c.completedPlays + 1, ended := true, awaitingFrame := false } ∨
        ¬(c.plays ≠ 0 ∧ c.plays ≤ c.completedPlays + 1) ∧
          next = { c with
            completedPlays := c.completedPlays + 1, index := 0, awaitingFrame := true }) := by
  have bounded := sound.index
  have counted := sound.completed
  have narrow : u32 (c.index + 1) = c.index + 1 := u32_of_lt (by have limit := sound.frames; omega)
  unfold turn at turned
  rw [narrow] at turned
  by_cases more : c.index + 1 < c.frames
  · rw [if_pos more] at turned
    exact .inl ⟨more, (Option.some.inj turned).symm⟩
  rw [if_neg more] at turned
  by_cases full : c.completedPlays = uint64Max
  · rw [if_pos full] at turned
    cases turned
  rw [if_neg full] at turned
  refine .inr ⟨by omega, by omega, ?_⟩
  by_cases final : c.plays ≠ 0 ∧ c.plays ≤ c.completedPlays + 1
  · rw [if_pos final] at turned
    exact .inl ⟨final, (Option.some.inj turned).symm⟩
  · rw [if_neg final] at turned
    exact .inr ⟨final, (Option.some.inj turned).symm⟩

theorem turn_sound (sound : c.Sound) (turned : c.turn = some next) : next.Sound := by
  obtain ⟨initialized, rateNum, rateDen, fraction, media, last, deadline, deadlineFraction, index,
    frames, minimum, completed⟩ := sound
  rcases turn_cases ⟨initialized, rateNum, rateDen, fraction, media, last, deadline,
    deadlineFraction, index, frames, minimum, completed⟩ turned with
    ⟨more, rfl⟩ | ⟨last, counted, ⟨_, rfl⟩ | ⟨_, rfl⟩⟩
  · constructor <;> assumption
  · constructor <;> assumption
  · have first : 0 < c.frames := by omega
    constructor <;> assumption

/-- Reading the clock and asking for the next frame commute. -/
theorem turn_advance (sound : c.Sound) (turned : c.turn = some next) :
    next.advance now = (c.advance now).bind turn := by
  have same : next.mediaAt now = c.mediaAt now ∧ next.rateDen = c.rateDen ∧
      next.lastUs = c.lastUs := by
    rcases turn_cases sound turned with ⟨_, rfl⟩ | ⟨_, _, ⟨_, rfl⟩ | ⟨_, rfl⟩⟩ <;>
      exact ⟨rfl, rfl, rfl⟩
  have readable : next.Unreadable now ↔ c.Unreadable now := by
    unfold Unreadable
    rw [same.1, same.2.1, same.2.2]
  rw [advance_eq (turn_sound sound turned), advance_eq sound]
  by_cases unread : c.Unreadable now
  · rw [if_pos unread, if_pos (readable.mpr unread), Option.bind_none]
  · rw [if_neg unread, if_neg (mt readable.mp unread), Option.bind_some, turn_setClock, turned,
      same.1, same.2.1, Option.map_some]

theorem turn_stays (sound : c.Sound) (turned : c.turn = some next) :
    next.paused = c.paused ∧ (next.ended = true ∨ next.ended = c.ended ∧ next.awaitingFrame = true) := by
  rcases turn_cases sound turned with ⟨_, rfl⟩ | ⟨_, _, ⟨_, rfl⟩ | ⟨_, rfl⟩⟩
  · exact ⟨rfl, .inr ⟨rfl, rfl⟩⟩
  · exact ⟨rfl, .inl rfl⟩
  · exact ⟨rfl, .inr ⟨rfl, rfl⟩⟩

/-- Every outcome of a poll once the clock was read. -/
theorem settle_cases (settled : c.settle = some (next, step)) :
    (c.ended = true ∧ next = c ∧ step = c.step .ended) ∨
    (c.ended = false ∧ c.paused = true ∧ next = c ∧ step = c.step .paused) ∨
    (c.ended = false ∧ c.paused = false ∧ c.catchUp = some next ∧
      ((next.ended = true ∧ step = next.step .ended) ∨
        (next.ended = false ∧ next.awaitingFrame = true ∧
          step = { next.step .frame with resetCanvas := next.index = 0 }) ∨
        (next.ended = false ∧ next.awaitingFrame = false ∧
          ∃ wait, next.waitTime = some wait ∧ step = { next.step .wait with waitUs := wait }))) := by
  unfold settle at settled
  cases ended : c.ended
  case true =>
    simp only [ended, if_true, Option.some.injEq, Prod.mk.injEq] at settled
    exact .inl ⟨rfl, settled.1.symm, settled.2.symm⟩
  simp only [ended, Bool.false_eq_true, if_false] at settled
  cases paused : c.paused
  case true =>
    simp only [paused, if_true, Option.some.injEq, Prod.mk.injEq] at settled
    exact .inr (.inl ⟨rfl, rfl, settled.1.symm, settled.2.symm⟩)
  simp only [paused, Bool.false_eq_true, if_false] at settled
  obtain ⟨caught, catches, settled⟩ := Option.bind_eq_some_iff.mp settled
  refine .inr (.inr ⟨rfl, rfl, ?_⟩)
  cases finished : caught.ended
  case true =>
    simp only [finished, if_true, Option.some.injEq, Prod.mk.injEq] at settled
    obtain ⟨rfl, rfl⟩ := settled
    exact ⟨catches, .inl ⟨finished, rfl⟩⟩
  simp only [finished, Bool.false_eq_true, if_false] at settled
  cases awaits : caught.awaitingFrame
  case true =>
    simp only [awaits, if_true, Option.some.injEq, Prod.mk.injEq] at settled
    obtain ⟨rfl, rfl⟩ := settled
    exact ⟨catches, .inr (.inl ⟨finished, awaits, rfl⟩)⟩
  simp only [awaits, Bool.false_eq_true, if_false] at settled
  obtain ⟨wait, waits, settled⟩ := Option.map_eq_some_iff.mp settled
  obtain ⟨rfl, rfl⟩ := Prod.mk.inj settled
  exact ⟨catches, .inr (.inr ⟨finished, awaits, wait, waits, rfl⟩)⟩

/-- Every outcome of catching up. -/
theorem catchUp_cases (sound : c.Sound) (caught : c.catchUp = some next) :
    (next = c ∧ (c.awaitingFrame = true ∨ ¬c.Reached)) ∨
    (c.awaitingFrame = false ∧ c.Reached ∧ c.turn = some next) := by
  unfold catchUp at caught
  split at caught
  · rename_i reached
    simp only [Bool.and_eq_true, Bool.not_eq_true', due_iff sound] at reached
    exact .inr ⟨reached.1, reached.2, caught⟩
  · rename_i unreached
    simp only [Bool.and_eq_true, Bool.not_eq_true', due_iff sound, not_and] at unreached
    refine .inl ⟨(Option.some.inj caught).symm, ?_⟩
    cases awaits : c.awaitingFrame
    · exact .inr (unreached awaits)
    · exact .inl rfl

theorem settle_turn (sound : c.Sound) (running : c.ended = false) (playing : c.paused = false)
    (shows : c.awaitingFrame = false) (reached : c.Reached) (turned : c.turn = some next) :
    next.settle = c.settle := by
  have caught : c.catchUp = some next := by
    simp only [catchUp, shows, (due_iff sound).mpr reached, Bool.not_false, Bool.and_self, if_true,
      turned]
  obtain ⟨paused, outcome⟩ := turn_stays sound turned
  unfold settle
  rw [running, playing, caught]
  rcases outcome with ended | ⟨ended, awaits⟩
  · simp [ended]
  · simp [ended, running, paused, playing, catchUp, awaits]

/-- A poll that succeeded changes no later poll. -/
theorem poll_poll (sound : c.Sound) (polled : c.poll now = some (next, step))
    (order : now.toNat ≤ later.toNat) : next.poll later = c.poll later := by
  obtain ⟨read, reads, settled⟩ := Option.bind_eq_some_iff.mp polled
  have kept := advance_sound sound reads
  have direct : read.poll later = c.poll later := by
    rw [poll, poll, advance_advance sound reads order]
  rw [← direct]
  rcases settle_cases settled with ⟨_, rfl, _⟩ | ⟨_, _, rfl, _⟩ | ⟨running, playing, caught, _⟩
  · rfl
  · rfl
  rcases catchUp_cases kept caught with ⟨rfl, _⟩ | ⟨awaits, reached, turned⟩
  · rfl
  have stays := turn_stays kept turned
  rw [poll, poll, turn_advance kept turned]
  cases advanced : read.advance later with
  | none => rfl
  | some last =>
      have final := advance_sound kept advanced
      obtain ⟨_, _, same⟩ := advance_cases kept advanced
      have again : last.turn = some (next.setClock (read.mediaAt later / read.rateDen)
          (read.mediaAt later % read.rateDen) later.toNat) := by
        rw [same, turn_setClock, turned, Option.map_some]
      rw [Option.bind_some, again, Option.bind_some, Option.bind_some]
      refine settle_turn final ?_ ?_ ?_ (reached.advance kept advanced) again
      all_goals rw [same]; assumption

/-! ## Commits, pauses and rates -/

/-- The delay of a frame, in `2 ^ -32` microseconds. -/
def exactDelay (minimum : Nat) (num den : UInt16) : Nat :=
  let den := if den = 0 then 100 else den.toNat
  if num.toNat * 1000000 / den < minimum then minimum * 2 ^ 32
  else num.toNat * 1000000 * 2 ^ 32 / den

theorem delay_divisor (den : UInt16) :
    0 < (if den = 0 then 100 else den.toNat) ∧ (if den = 0 then 100 else den.toNat) < 2 ^ 16 := by
  have bound := den.toNat_lt
  split
  · decide
  · rename_i apart
    exact ⟨Nat.pos_of_ne_zero fun zero => apart (UInt16.toNat_inj.mp zero), bound⟩

/-- The carry chain of a delay is one division. -/
theorem delay_exact (sound : c.Sound) (num den : UInt16) :
    (c.delay num den).1 * 2 ^ 32 + (c.delay num den).2 = exactDelay c.minimumDelayUs num den ∧
      (c.delay num den).1 < 2 ^ 40 ∧ (c.delay num den).2 < 2 ^ 32 := by
  have numBound := num.toNat_lt
  have least := sound.minimum.2
  obtain ⟨positive, narrow⟩ := delay_divisor den
  obtain ⟨divisor, named⟩ : ∃ divisor, divisor = if den = 0 then 100 else den.toNat := ⟨_, rfl⟩
  obtain ⟨units, same⟩ : ∃ units, units = num.toNat * 1000000 := ⟨_, rfl⟩
  rw [← named] at positive narrow
  have rest := Nat.mod_lt units positive
  have shape : c.delay num den = if units / divisor < c.minimumDelayUs then (c.minimumDelayUs, 0)
      else (units / divisor, units % divisor * 2 ^ 32 / divisor) := by
    have product : u64 (num.toNat * 1000000) = units := by
      rw [u64_of_lt (by omega), same]
    have shifted : u64 (units % divisor * 2 ^ 32) = units % divisor * 2 ^ 32 := u64_of_lt (by omega)
    simp only [delay, ← named, product, shifted]
  have total : exactDelay c.minimumDelayUs num den = if units / divisor < c.minimumDelayUs
      then c.minimumDelayUs * 2 ^ 32 else units * 2 ^ 32 / divisor := by
    simp only [exactDelay, ← named, ← same]
  rw [shape, total]
  by_cases short : units / divisor < c.minimumDelayUs
  · rw [if_pos short, if_pos short]
    exact ⟨Nat.add_zero _, by omega, Nat.two_pow_pos 32⟩
  · rw [if_neg short, if_neg short]
    refine ⟨?_, ?_, ?_⟩
    · calc units / divisor * 2 ^ 32 + units % divisor * 2 ^ 32 / divisor
          = (divisor * (units / divisor * 2 ^ 32) + units % divisor * 2 ^ 32) / divisor := by
            rw [Nat.mul_add_div positive]
        _ = (divisor * (units / divisor) + units % divisor) * 2 ^ 32 / divisor := by ring_nf
        _ = units * 2 ^ 32 / divisor := by rw [Nat.div_add_mod]
    · exact Nat.lt_of_le_of_lt (Nat.div_le_self _ _) (by omega)
    · rw [Nat.div_lt_iff_lt_mul positive, Nat.mul_comm]
      exact Nat.mul_lt_mul_of_pos_left rest (by decide)

theorem start_eq (c : Timeline) : c.start = c ∨ ∃ us fraction, c.start =
    { c with deadlineUs := us, deadlineFraction := fraction } := by
  unfold start
  split
  · exact .inl rfl
  · exact .inr ⟨_, _, rfl⟩

theorem start_sound (sound : c.Sound) : c.start.Sound := by
  obtain ⟨initialized, rateNum, rateDen, fraction, media, last, deadline, deadlineFraction, index,
    frames, minimum, completed⟩ := sound
  unfold start
  split
  · constructor <;> assumption
  · have small : u32 (u64 (c.mediaFraction * 2 ^ 32) / c.rateDen) < 2 ^ 32 :=
      Nat.mod_lt _ (Nat.two_pow_pos 32)
    constructor <;> assumption

/-- The first commit truncates the media time. -/
theorem start_deadline (sound : c.Sound) :
    c.start.deadline = if c.started then c.deadline else c.media * 2 ^ 32 / c.rateDen := by
  have den := sound.rateDen
  have fraction := sound.fraction
  unfold start
  split
  · rfl
  · have narrow : c.mediaFraction * 2 ^ 32 / c.rateDen < 2 ^ 32 := by
      rw [Nat.div_lt_iff_lt_mul den.1, Nat.mul_comm]
      exact Nat.mul_lt_mul_of_pos_left fraction (Nat.two_pow_pos 32)
    rw [deadline, u64_of_lt (by omega), u32_of_lt narrow, media, Nat.add_mul,
      show c.mediaUs * c.rateDen * 2 ^ 32 = c.rateDen * (c.mediaUs * 2 ^ 32) by ring,
      Nat.mul_add_div den.1]

/-- A commit moves the deadline by the exact delay, or fails when that leaves
the range of microseconds. -/
theorem commit_eq (sound : c.Sound) {num den : UInt16} (animated : c.animated = true)
    (awaits : c.awaitingFrame = true) (running : c.ended = false) :
    c.commit now num den = (c.advance now).bind fun c =>
      let total := c.start.deadline + exactDelay c.minimumDelayUs num den
      if uint64Max < total / 2 ^ 32 then none
      else some { c.start with
        deadlineUs := total / 2 ^ 32
        deadlineFraction := total % 2 ^ 32
        started := true
        awaitingFrame := false } := by
  unfold commit
  rw [awaits, running]
  simp only [Bool.not_true, Bool.or_self, Bool.false_eq_true, if_false]
  refine Option.bind_congr fun a advanced => ?_
  have kept := start_sound (advance_sound sound advanced)
  have moves : a.start.animated = true := by
    obtain ⟨_, _, rfl⟩ := advance_cases sound advanced
    rcases start_eq (c.setClock _ _ _) with same | ⟨_, _, same⟩ <;> rw [same] <;> exact animated
  have least : a.start.minimumDelayUs = a.minimumDelayUs := by
    rcases start_eq a with same | ⟨_, _, same⟩ <;> rw [same]
  obtain ⟨exact, short, small⟩ := delay_exact kept num den
  rw [least] at exact
  generalize a.start = c at kept moves exact short small
  have narrow := kept.deadlineFraction
  generalize (c.delay num den).1 = duration at short exact
  generalize (c.delay num den).2 = fraction at small exact
  rw [u64_of_lt (show fraction + c.deadlineFraction < 2 ^ 64 by omega), moves, ← exact, deadline]
  rw [u64_of_lt (show duration + (fraction + c.deadlineFraction) / 2 ^ 32 < 2 ^ 64 by omega)]
  have whole : (c.deadlineUs * 2 ^ 32 + c.deadlineFraction + (duration * 2 ^ 32 + fraction)) /
      2 ^ 32 = c.deadlineUs + (duration + (fraction + c.deadlineFraction) / 2 ^ 32) := by omega
  have rest : (c.deadlineUs * 2 ^ 32 + c.deadlineFraction + (duration * 2 ^ 32 + fraction)) %
      2 ^ 32 = u32 (fraction + c.deadlineFraction) := by
    unfold u32
    omega
  simp only [Bool.not_true, Bool.false_eq_true, if_false, whole, rest]
  generalize duration + (fraction + c.deadlineFraction) / 2 ^ 32 = moved
  have bounded := kept.deadline
  by_cases past : uint64Max < c.deadlineUs + moved
  · have late : uint64Max - c.deadlineUs < moved := by omega
    simp only [late, past, if_true]
  · have early : ¬uint64Max - c.deadlineUs < moved := by omega
    have fits : u64 (c.deadlineUs + moved) = c.deadlineUs + moved := u64_of_lt (by
      unfold uint64Max at past
      omega)
    simp only [early, past, if_false, fits]

/-- Every outcome of a commit. -/
theorem commit_cases (sound : c.Sound) {num den : UInt16}
    (committed : c.commit now num den = some next) :
    c.awaitingFrame = true ∧ c.ended = false ∧ ∃ read, c.advance now = some read ∧
      (read.animated = false ∧ next = { read.start with
          ended := true, completedPlays := 1, started := true, awaitingFrame := false } ∨
        read.animated = true ∧ ∃ us fraction, next = { read.start with
            deadlineUs := us, deadlineFraction := fraction, started := true,
            awaitingFrame := false } ∧
          us ≤ uint64Max ∧ fraction < 2 ^ 32 ∧
          next.deadline = read.start.deadline + exactDelay c.minimumDelayUs num den) := by
  have open_ : c.awaitingFrame = true ∧ c.ended = false := by
    unfold commit at committed
    split at committed
    · cases committed
    · rename_i idle
      simpa using idle
  refine ⟨open_.1, open_.2, ?_⟩
  cases animated : c.animated with
  | true =>
      rw [commit_eq sound animated open_.1 open_.2] at committed
      obtain ⟨read, reads, committed⟩ := Option.bind_eq_some_iff.mp committed
      have same : read.animated = c.animated ∧ read.minimumDelayUs = c.minimumDelayUs := by
        obtain ⟨_, _, rfl⟩ := advance_cases sound reads
        exact ⟨rfl, rfl⟩
      dsimp only at committed
      rw [same.2] at committed
      split at committed
      · cases committed
      · rename_i fits
        refine ⟨read, reads, .inr ⟨same.1.trans animated, _, _, (Option.some.inj committed).symm,
          Nat.le_of_not_lt fits, Nat.mod_lt _ (Nat.two_pow_pos 32), ?_⟩⟩
        rw [← Option.some.inj committed]
        exact Nat.div_add_mod' _ _
  | false =>
      unfold commit at committed
      rw [open_.1, open_.2] at committed
      simp only [Bool.not_true, Bool.or_self, Bool.false_eq_true, if_false] at committed
      obtain ⟨read, reads, committed⟩ := Option.bind_eq_some_iff.mp committed
      have same : read.animated = false := by
        obtain ⟨_, _, rfl⟩ := advance_cases sound reads
        exact animated
      have kept : read.start.animated = false := by
        rcases start_eq read with begun | ⟨_, _, begun⟩ <;> rw [begun] <;> exact same
      rw [if_pos (by rw [kept]; rfl)] at committed
      exact ⟨read, reads, .inl ⟨same, (Option.some.inj committed).symm⟩⟩

theorem init_sound {frames plays minimum : UInt32} {animated : Bool}
    (made : init frames plays animated minimum now = some c) : c.Sound := by
  unfold init at made
  split at made
  · cases made
  · rename_i accepted
    simp only [Bool.or_eq_true, not_or, decide_eq_true_eq] at accepted
    obtain ⟨⟨⟨first, _⟩, least⟩, most⟩ := accepted
    have framesPos : 0 < frames.toNat :=
      Nat.pos_of_ne_zero fun zero => first (UInt32.toNat_inj.mp zero)
    have minimumPos : 0 < minimum.toNat :=
      Nat.pos_of_ne_zero fun zero => least (UInt32.toNat_inj.mp zero)
    have small := now.toNat_lt
    have limit : uint64Max = 2 ^ 64 - 1 := rfl
    cases made
    constructor
    case initialized => rfl
    case frames => exact frames.toNat_lt
    all_goals dsimp only
    all_goals omega

theorem catchUp_sound (sound : c.Sound) (caught : c.catchUp = some next) : next.Sound := by
  rcases catchUp_cases sound caught with ⟨rfl, _⟩ | ⟨_, _, turned⟩
  · exact sound
  · exact turn_sound sound turned

theorem poll_sound (sound : c.Sound) (polled : c.poll now = some (next, step)) : next.Sound := by
  obtain ⟨read, reads, settled⟩ := Option.bind_eq_some_iff.mp polled
  have kept := advance_sound sound reads
  rcases settle_cases settled with ⟨_, rfl, _⟩ | ⟨_, _, rfl, _⟩ | ⟨_, _, caught, _⟩
  · exact kept
  · exact kept
  · exact catchUp_sound kept caught

theorem commit_sound (sound : c.Sound) {num den : UInt16}
    (committed : c.commit now num den = some next) : next.Sound := by
  obtain ⟨_, _, read, reads, outcome⟩ := commit_cases sound committed
  obtain ⟨initialized, rateNum, rateDen, fraction, media, last, deadline, deadlineFraction, index,
    frames, minimum, completed⟩ := start_sound (advance_sound sound reads)
  rcases outcome with ⟨_, rfl⟩ | ⟨_, us, rest, rfl, bounded, small, _⟩
  · have one : 1 ≤ uint64Max := by decide
    constructor <;> assumption
  · constructor <;> assumption

theorem pause_cases {paused : Bool} (moved : c.pause now paused = some next) :
    ∃ read, c.advance now = some read ∧ next = { read with paused := paused } := by
  obtain ⟨read, reads, same⟩ := Option.map_eq_some_iff.mp moved
  exact ⟨read, reads, same.symm⟩

theorem pause_sound (sound : c.Sound) {paused : Bool} (moved : c.pause now paused = some next) :
    next.Sound := by
  obtain ⟨read, reads, rfl⟩ := pause_cases moved
  obtain ⟨initialized, rateNum, rateDen, fraction, media, last, deadline, deadlineFraction, index,
    frames, minimum, completed⟩ := advance_sound sound reads
  constructor <;> assumption

/-- A rate change rescales the remainder, rounding it down. -/
theorem rate_cases (sound : c.Sound) {num den : UInt32} (moved : c.rate now num den = some next) :
    (0 < num.toNat ∧ num.toNat ≤ 1000000) ∧ (0 < den.toNat ∧ den.toNat ≤ 1000000) ∧
      ∃ read, c.advance now = some read ∧ next = { read with
        mediaFraction := read.mediaFraction * den.toNat / read.rateDen
        rateNum := num.toNat
        rateDen := den.toNat } := by
  unfold rate at moved
  split at moved
  · cases moved
  · rename_i accepted
    simp only [Bool.or_eq_true, not_or, decide_eq_true_eq] at accepted
    obtain ⟨⟨⟨⟨⟨first, second⟩, numBound⟩, denBound⟩, _⟩, _⟩ := accepted
    have numPos : 0 < num.toNat := Nat.pos_of_ne_zero fun zero => first (UInt32.toNat_inj.mp zero)
    have denPos : 0 < den.toNat := Nat.pos_of_ne_zero fun zero => second (UInt32.toNat_inj.mp zero)
    obtain ⟨read, reads, rfl⟩ := Option.map_eq_some_iff.mp moved
    refine ⟨⟨numPos, by omega⟩, ⟨denPos, by omega⟩, read, reads, ?_⟩
    have kept := advance_sound sound reads
    have fraction := kept.fraction
    have old := kept.rateDen
    have product : read.mediaFraction * den.toNat ≤ 1000000 * 1000000 :=
      Nat.mul_le_mul (by omega) (by omega)
    have quotient := Nat.div_le_self (read.mediaFraction * den.toNat) read.rateDen
    have narrow : read.mediaFraction * den.toNat / read.rateDen < den.toNat := by
      rw [Nat.div_lt_iff_lt_mul old.1, Nat.mul_comm]
      exact Nat.mul_lt_mul_of_pos_left fraction denPos
    rw [u64_of_lt (by omega), u32_of_lt (by omega)]

theorem rate_sound (sound : c.Sound) {num den : UInt32} (moved : c.rate now num den = some next) :
    next.Sound := by
  obtain ⟨num', den', read, reads, rfl⟩ := rate_cases sound moved
  obtain ⟨initialized, rateNum, rateDen, fraction, media, last, deadline, deadlineFraction, index,
    frames, minimum, completed⟩ := advance_sound sound reads
  have narrow : read.mediaFraction * den.toNat / read.rateDen < den.toNat := by
    rw [Nat.div_lt_iff_lt_mul rateDen.1, Nat.mul_comm]
    exact Nat.mul_lt_mul_of_pos_left fraction den'.1
  constructor <;> assumption

end

end LvglAic.Apng.Timeline
