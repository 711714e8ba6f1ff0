import LvglAic.Apng.TimelineOrder

/-! # Deadlines do not drift

The deadline is the media time of the first commit and the delays since, whenever
the commits, polls, pauses and rate changes were made.
-/

namespace LvglAic.Apng

/-- The delays of the committed frames, in `2 ^ -32` microseconds. -/
def delaySum (minimum : Nat) (trace : List TimelineEvent) : Nat :=
  (trace.map fun event => match event with
    | .committed num den _ => Timeline.exactDelay minimum num den
    | .polled _ _ => 0).sum

/-- The timeline that the first commit left. -/
def firstCommit (trace : List TimelineEvent) : Option Timeline :=
  trace.findSome? fun event => match event with
    | .committed _ _ clock => some clock
    | .polled _ _ => none

namespace Timeline

/-- The media position in microseconds. -/
def position (c : Timeline) : ℚ := c.mediaUs + c.mediaFraction / c.rateDen

/-- The deadline that a commit of the delay at `read` gives. -/
def nextDeadline (c read : Timeline) (num den : UInt16) : Nat :=
  (if c.started then c.deadline else read.media * 2 ^ 32 / read.rateDen) +
    exactDelay c.minimumDelayUs num den

section
variable {c next read : Timeline} {now : UInt64} {num den : UInt16}

theorem start_nextDeadline (sound : c.Sound) (reads : c.advance now = some read) :
    read.start.deadline + exactDelay c.minimumDelayUs num den = c.nextDeadline read num den := by
  rw [start_deadline (advance_sound sound reads), nextDeadline]
  obtain ⟨_, _, rfl⟩ := advance_cases sound reads
  rfl

/-- A commit fails exactly when its deadline leaves the range of microseconds. -/
theorem commit_overflow (sound : c.Sound) (animated : c.animated = true)
    (awaits : c.awaitingFrame = true) (open_ : c.ended = false)
    (reads : c.advance now = some read) :
    c.commit now num den = none ↔ uint64Max < c.nextDeadline read num den / 2 ^ 32 := by
  have least : read.minimumDelayUs = c.minimumDelayUs := by
    obtain ⟨_, _, rfl⟩ := advance_cases sound reads
    rfl
  rw [commit_eq sound animated awaits open_, reads, Option.bind_some]
  dsimp only
  rw [least, start_nextDeadline sound reads]
  split
  · rename_i past
    exact ⟨fun _ => past, fun _ => rfl⟩
  · rename_i fits
    exact ⟨nofun, fun past => absurd past fits⟩

/-- A rate change moves the media position back by less than one new unit. -/
theorem rate_position (sound : c.Sound) {num den : UInt32} (moved : c.rate now num den = some next) :
    ∃ read, c.advance now = some read ∧ next.position ≤ read.position ∧
      read.position < next.position + 1 / den.toNat := by
  obtain ⟨_, ⟨denPos, _⟩, read, reads, rfl⟩ := rate_cases sound moved
  obtain ⟨_, _, ⟨oldPos, _⟩, _⟩ := advance_sound sound reads
  have newRat : (0 : ℚ) < den.toNat := by exact_mod_cast denPos
  have oldRat : (0 : ℚ) < read.rateDen := by exact_mod_cast oldPos
  have low := Nat.div_mul_le_self (read.mediaFraction * den.toNat) read.rateDen
  have high : read.mediaFraction * den.toNat <
      (read.mediaFraction * den.toNat / read.rateDen + 1) * read.rateDen := by
    rw [Nat.succ_mul]
    exact Nat.lt_div_mul_add oldPos
  refine ⟨read, reads, ?_, ?_⟩
  · unfold position
    refine add_le_add_right ?_ _
    rw [div_le_div_iff₀ newRat oldRat]
    exact_mod_cast low
  · unfold position
    rw [add_assoc, ← add_div]
    refine add_lt_add_right ?_ _
    rw [div_lt_div_iff₀ oldRat newRat]
    exact_mod_cast high

end

end Timeline

section
variable {frames plays : UInt32} {minimum : UInt32} {begun : UInt64}
  {trace : List TimelineEvent} {c next : Timeline} {now : UInt64} {least : Nat}

/-- The deadline after the commits of a trace. -/
structure Scheduled (least : Nat) (trace : List TimelineEvent) (c : Timeline) : Prop where
  sound : c.Sound
  animated : c.animated = true
  minimum : c.minimumDelayUs = least
  idle : c.started = false →
    commits trace = 0 ∧ firstCommit trace = none ∧ delaySum least trace = 0
  begun : c.started = true → ∃ first, firstCommit trace = some first ∧
    c.deadline = first.media * 2 ^ 32 / first.rateDen + delaySum least trace

/-- Nothing but the clock, the shown frame and the rate changed. -/
structure SameSchedule (c next : Timeline) : Prop where
  animated : next.animated = c.animated
  minimum : next.minimumDelayUs = c.minimumDelayUs
  started : next.started = c.started
  deadline : next.deadline = c.deadline

theorem Scheduled.quiet (scheduled : Scheduled least trace c) (sound : next.Sound)
    (same : SameSchedule c next) : Scheduled least trace next := by
  obtain ⟨_, animated, minimum, idle, begun⟩ := scheduled
  refine ⟨sound, same.animated.trans animated, same.minimum.trans minimum, ?_, ?_⟩
  · rw [same.started]
    exact idle
  · rw [same.started, same.deadline]
    exact begun

theorem firstCommit_committed {num den : UInt16} :
    firstCommit (trace ++ [.committed num den c]) = (firstCommit trace).or (some c) := by
  simp [firstCommit, List.findSome?_append]

theorem Scheduled.polled {step : Step} {clock : Timeline} (scheduled : Scheduled least trace c) :
    Scheduled least (trace ++ [.polled step clock]) c := by
  obtain ⟨sound, animated, minimum, idle, begun⟩ := scheduled
  refine ⟨sound, animated, minimum, ?_, ?_⟩
  · simpa [firstCommit, delaySum, List.findSome?_append] using idle
  · simpa [firstCommit, delaySum, List.findSome?_append] using begun

theorem advance_sameSchedule (sound : c.Sound) (moved : c.advance now = some next) :
    SameSchedule c next := by
  obtain ⟨_, _, rfl⟩ := Timeline.advance_cases sound moved
  exact ⟨rfl, rfl, rfl, rfl⟩

theorem poll_sameSchedule (sound : c.Sound) {step : Step}
    (polled : c.poll now = some (next, step)) : SameSchedule c next := by
  obtain ⟨read, reads, settled⟩ := Option.bind_eq_some_iff.mp polled
  have kept := Timeline.advance_sound sound reads
  have same := advance_sameSchedule sound reads
  rcases Timeline.settle_cases settled with ⟨_, rfl, _⟩ | ⟨_, _, rfl, _⟩ | ⟨_, _, caught, _⟩
  · exact same
  · exact same
  rcases Timeline.catchUp_cases kept caught with ⟨rfl, _⟩ | ⟨_, _, turned⟩
  · exact same
  obtain ⟨animated, minimum, started, deadline⟩ := same
  rcases Timeline.turn_cases kept turned with ⟨_, rfl⟩ | ⟨_, _, ⟨_, rfl⟩ | ⟨_, rfl⟩⟩ <;>
    exact ⟨animated, minimum, started, deadline⟩

/-- A commit adds its delay to the deadline; the first one starts it. -/
theorem Scheduled.commit (scheduled : Scheduled least trace c) {num den : UInt16}
    (committed : c.commit now num den = some next) :
    Scheduled least (trace ++ [.committed num den next]) next := by
  obtain ⟨sound, animated, minimum, idle, begun⟩ := scheduled
  obtain ⟨_, _, read, reads, outcome⟩ := Timeline.commit_cases sound committed
  have same := advance_sameSchedule sound reads
  rcases outcome with ⟨still, _⟩ | ⟨_, us, fraction, shape, _, _, total⟩
  · rw [same.animated, animated] at still
    cases still
  rw [Timeline.start_nextDeadline sound reads, Timeline.nextDeadline, minimum] at total
  have fields : next.animated = read.animated ∧ next.minimumDelayUs = read.minimumDelayUs ∧
      next.started = true ∧ next.media = read.media ∧ next.rateDen = read.rateDen := by
    rcases Timeline.start_eq read with kept | ⟨_, _, kept⟩ <;> rw [kept] at shape <;> subst shape <;>
      exact ⟨rfl, rfl, rfl, rfl, rfl⟩
  obtain ⟨animated', minimum', started, media, rateDen⟩ := fields
  have adds : delaySum least (trace ++ [.committed num den next]) =
      delaySum least trace + Timeline.exactDelay least num den := by
    rw [delaySum, List.map_append, List.sum_append, List.map_singleton, List.sum_singleton]
    rfl
  refine ⟨Timeline.commit_sound sound committed, animated'.trans (same.animated.trans animated),
    minimum'.trans (same.minimum.trans minimum), fun idle => ?_, fun _ => ?_⟩
  · rw [started] at idle
    cases idle
  · cases first : c.started with
    | true =>
        obtain ⟨found, known, law⟩ := begun first
        rw [first, if_pos rfl, law] at total
        refine ⟨found, by rw [firstCommit_committed, known]; rfl, ?_⟩
        rw [total, adds, Nat.add_assoc]
    | false =>
        obtain ⟨_, unknown, none⟩ := idle first
        rw [first, if_neg (by decide)] at total
        refine ⟨next, by rw [firstCommit_committed, unknown]; rfl, ?_⟩
        rw [total, adds, none, Nat.zero_add, media, rateDen]

theorem timeline_scheduled
    (reached : (timelineMachine frames plays true minimum begun).Reaches Machine.Always trace c) :
    Scheduled minimum.toNat trace c := by
  refine reached.invariant (Scheduled minimum.toNat) ?_ ?_
  · intro c made
    have sound := Timeline.init_sound made
    change Timeline.init frames plays true minimum begun = some c at made
    unfold Timeline.init at made
    split at made
    · cases made
    · cases made
      exact ⟨sound, rfl, rfl, fun _ => ⟨rfl, rfl, rfl⟩, nofun⟩
  · intro trace before call after events scheduled _ moved
    obtain ⟨rfl, rfl⟩ := Prod.ext_iff.mp (Option.some.inj moved)
    have sound := scheduled.sound
    have kept : (before.perform call).1.Sound := Timeline.perform_sound sound
    rcases before.perform_cases call with same | ⟨now, next, step, rfl, polled, same⟩ |
      ⟨now, num, den, next, rfl, committed, same⟩ | ⟨now, paused, next, rfl, paused', same⟩ |
      ⟨now, num, den, next, rfl, rated, same⟩ <;> rw [same] at kept ⊢
    · simpa using scheduled
    · exact (scheduled.quiet kept (poll_sameSchedule sound polled)).polled
    · exact scheduled.commit committed
    · obtain ⟨read, reads, rfl⟩ := Timeline.pause_cases paused'
      obtain ⟨animated, minimum, started, deadline⟩ := advance_sameSchedule sound reads
      simpa using scheduled.quiet kept ⟨animated, minimum, started, deadline⟩
    · obtain ⟨_, _, read, reads, rfl⟩ := Timeline.rate_cases sound rated
      obtain ⟨animated, minimum, started, deadline⟩ := advance_sameSchedule sound reads
      simpa using scheduled.quiet kept ⟨animated, minimum, started, deadline⟩

/-- The deadline is the truncated media time of the first commit and the sum of the
delays; a commit beyond its range does nothing; a rate change loses less than one unit. -/
theorem timeline_never_drifts
    (reached : (timelineMachine frames plays true minimum begun).Reaches Machine.Always trace c) :
    (0 < commits trace → ∃ first, firstCommit trace = some first ∧
      c.deadlineUs * 2 ^ 32 + c.deadlineFraction =
        (first.mediaUs * first.rateDen + first.mediaFraction) * 2 ^ 32 / first.rateDen +
          delaySum minimum.toNat trace) ∧
    (∀ now num den read, c.awaitingFrame = true → c.ended = false → c.advance now = some read →
      (uint64Max < c.nextDeadline read num den / 2 ^ 32 ↔ c.commit now num den = none)) ∧
    (∀ now num den, c.commit now num den = none → c.perform (.commit now num den) = (c, [])) ∧
    ∀ now num den next, c.rate now num den = some next → ∃ read, c.advance now = some read ∧
      next.position ≤ read.position ∧ read.position < next.position + 1 / den.toNat := by
  obtain ⟨sound, animated, least, idle, begun⟩ := timeline_scheduled reached
  refine ⟨fun some => ?_, fun now num den read awaits open_ reads =>
    (Timeline.commit_overflow sound animated awaits open_ reads).symm, fun now num den failed => ?_,
    fun now num den next => Timeline.rate_position sound⟩
  · cases started : c.started with
    | true => exact begun started
    | false => exact absurd (idle started).1 (Nat.ne_of_gt some)
  · simp only [Timeline.perform, failed]

/-- The first commit is at a half microsecond, and the last one is late. -/
def driftCalls : List TimelineCall :=
  [.rate 0 1 2, .poll 1, .commit 1 1 3, .poll 900000, .commit 900000 0 0, .rate 900000 1 3]

theorem timeline_never_drifts_shown :
    ∃ trace c, (timelineMachine 2 0 true 10000 0).Reaches Machine.Always trace c ∧
      0 < commits trace ∧ ∃ first, firstCommit trace = some first ∧
        c.deadlineUs * 2 ^ 32 + c.deadlineFraction =
          (first.mediaUs * first.rateDen + first.mediaFraction) * 2 ^ 32 / first.rateDen +
            delaySum 10000 trace := by
  obtain ⟨start, made⟩ : ∃ start, Timeline.init 2 0 true 10000 0 = some start :=
    Option.isSome_iff_exists.mp (by decide)
  obtain ⟨⟨c, trace⟩, executed⟩ : ∃ last, (timelineMachine 2 0 true 10000 0).execute start
      driftCalls = some last := by
    cases made
    exact Option.isSome_iff_exists.mp (by decide)
  have shown : ((timelineMachine 2 0 true 10000 0).execute start driftCalls).map
      (fun last => commits last.2) = some 2 := by
    cases made
    decide
  rw [executed] at shown
  have committed : commits trace = 2 := Option.some.inj shown
  have run : (timelineMachine 2 0 true 10000 0).Reaches Machine.Always trace c :=
    (Machine.Reaches.start made).execute executed
  exact ⟨trace, c, run, by omega, (timeline_never_drifts run).1 (by omega)⟩

end

end LvglAic.Apng
