import LvglAic.Machine.Run
import LvglAic.Apng.TimelineClock

/-! # Runs of the timeline

The caller makes any calls at any times; a failed call changes nothing.
-/

namespace LvglAic.Apng

inductive TimelineCall where
  | poll (now : UInt64)
  | commit (now : UInt64) (num den : UInt16)
  | pause (now : UInt64) (paused : Bool)
  | rate (now : UInt64) (num den : UInt32)
deriving DecidableEq, Repr

/-- The calls that succeed and answer, with the timeline they leave. -/
inductive TimelineEvent where
  | polled (step : Step) (clock : Timeline)
  | committed (num den : UInt16) (clock : Timeline)
deriving DecidableEq, Repr

def TimelineCall.now : TimelineCall → UInt64
  | .poll now | .commit now _ _ | .pause now _ | .rate now _ _ => now

namespace Timeline

/-- One call; what it writes when it succeeds. -/
def perform (c : Timeline) : TimelineCall → Timeline × List TimelineEvent
  | .poll now =>
      match c.poll now with
      | none => (c, [])
      | some (next, step) => (next, [.polled step next])
  | .commit now num den =>
      match c.commit now num den with
      | none => (c, [])
      | some next => (next, [.committed num den next])
  | .pause now paused => ((c.pause now paused).getD c, [])
  | .rate now num den => ((c.rate now num den).getD c, [])

def performAll (c : Timeline) (calls : List TimelineCall) : Timeline :=
  calls.foldl (fun c call => (c.perform call).1) c

/-- Polls at the given times, as long as each succeeds. -/
def pollAll : Timeline → List UInt64 → Option Timeline
  | c, [] => some c
  | c, now :: rest => (c.poll now).bind fun polled => polled.1.pollAll rest

/-- The time that the calls let pass while not paused. -/
def unpaused : Timeline → List TimelineCall → Nat
  | _, [] => 0
  | c, call :: rest =>
      (if c.paused then 0 else (c.perform call).1.lastUs - c.lastUs) +
        (c.perform call).1.unpaused rest

end Timeline

/-- The timeline that `lv_aic_apng_timeline_init` makes of its arguments. -/
def timelineMachine (frames plays : UInt32) (animated : Bool) (minimum : UInt32) (begun : UInt64) :
    Machine Timeline TimelineCall TimelineEvent where
  Initial c := Timeline.init frames plays animated minimum begun = some c
  step c call := some (c.perform call)

namespace Timeline

variable {c next : Timeline} {now : UInt64} {call : TimelineCall} {step : Step}

/-- Every outcome of a call. -/
theorem perform_cases (c : Timeline) (call : TimelineCall) :
    c.perform call = (c, []) ∨
    (∃ now next step, call = .poll now ∧ c.poll now = some (next, step) ∧
      c.perform call = (next, [.polled step next])) ∨
    (∃ now num den next, call = .commit now num den ∧ c.commit now num den = some next ∧
      c.perform call = (next, [.committed num den next])) ∨
    (∃ now paused next, call = .pause now paused ∧ c.pause now paused = some next ∧
      c.perform call = (next, [])) ∨
    ∃ now num den next, call = .rate now num den ∧ c.rate now num den = some next ∧
      c.perform call = (next, []) := by
  cases call with
  | poll now =>
      cases polled : c.poll now with
      | none => exact .inl (by simp only [perform, polled])
      | some result =>
          exact .inr (.inl ⟨now, result.1, result.2, rfl, polled, by simp only [perform, polled]⟩)
  | commit now num den =>
      cases committed : c.commit now num den with
      | none => exact .inl (by simp only [perform, committed])
      | some next =>
          exact .inr (.inr (.inl
            ⟨now, num, den, next, rfl, committed, by simp only [perform, committed]⟩))
  | pause now paused =>
      cases moved : c.pause now paused with
      | none => exact .inl (by simp only [perform, moved, Option.getD_none])
      | some next =>
          exact .inr (.inr (.inr (.inl
            ⟨now, paused, next, rfl, moved, by simp only [perform, moved, Option.getD_some]⟩)))
  | rate now num den =>
      cases moved : c.rate now num den with
      | none => exact .inl (by simp only [perform, moved, Option.getD_none])
      | some next =>
          exact .inr (.inr (.inr (.inr
            ⟨now, num, den, next, rfl, moved, by simp only [perform, moved, Option.getD_some]⟩)))

theorem perform_sound (sound : c.Sound) : (c.perform call).1.Sound := by
  rcases c.perform_cases call with same | ⟨_, _, _, _, moved, same⟩ | ⟨_, _, _, _, _, moved, same⟩ |
    ⟨_, _, _, _, moved, same⟩ | ⟨_, _, _, _, _, moved, same⟩ <;> rw [same]
  · exact sound
  · exact poll_sound sound moved
  · exact commit_sound sound moved
  · exact pause_sound sound moved
  · exact rate_sound sound moved

/-- When the clock cannot be read, no call does anything. -/
theorem perform_unreadable (unread : c.advance call.now = none) : c.perform call = (c, []) := by
  cases call <;> simp only [TimelineCall.now] at unread
  case poll => simp only [perform, poll, unread, Option.bind_none]
  case commit => simp only [perform, commit, unread, Option.bind_none, ite_self]
  case pause => simp only [perform, pause, unread, Option.map_none, Option.getD_none]
  case rate => simp only [perform, rate, unread, Option.map_none, ite_self, Option.getD_none]

/-- A call reads the clock, and then moves it no further unless it changes the rate. -/
theorem perform_clock (sound : c.Sound) (keeps : ∀ now num den, call ≠ .rate now num den) :
    (c.perform call).1 = c ∨ ∃ read, c.advance call.now = some read ∧
      (c.perform call).1.media = read.media ∧ (c.perform call).1.lastUs = read.lastUs ∧
      (c.perform call).1.rateNum = read.rateNum ∧ (c.perform call).1.rateDen = read.rateDen ∧
      ((∀ now paused, call ≠ .pause now paused) → (c.perform call).1.paused = read.paused) := by
  rcases c.perform_cases call with same | ⟨now, next, step, rfl, moved, same⟩ |
    ⟨now, num, den, next, rfl, moved, same⟩ | ⟨now, paused, next, rfl, moved, same⟩ |
    ⟨now, num, den, next, rfl, moved, same⟩ <;> rw [same]
  · exact .inl rfl
  · obtain ⟨read, reads, settled⟩ := Option.bind_eq_some_iff.mp moved
    refine .inr ⟨read, reads, ?_⟩
    rcases settle_cases settled with ⟨_, rfl, _⟩ | ⟨_, _, rfl, _⟩ | ⟨_, _, caught, _⟩
    · exact ⟨rfl, rfl, rfl, rfl, fun _ => rfl⟩
    · exact ⟨rfl, rfl, rfl, rfl, fun _ => rfl⟩
    rcases catchUp_cases (advance_sound sound reads) caught with ⟨rfl, _⟩ | ⟨_, _, turned⟩
    · exact ⟨rfl, rfl, rfl, rfl, fun _ => rfl⟩
    rcases turn_cases (advance_sound sound reads) turned with
      ⟨_, rfl⟩ | ⟨_, _, ⟨_, rfl⟩ | ⟨_, rfl⟩⟩ <;> exact ⟨rfl, rfl, rfl, rfl, fun _ => rfl⟩
  · obtain ⟨_, _, read, reads, outcome⟩ := commit_cases sound moved
    refine .inr ⟨read, reads, ?_⟩
    rcases start_eq read with begun | ⟨_, _, begun⟩ <;> rw [begun] at outcome <;>
      rcases outcome with ⟨_, rfl⟩ | ⟨_, _, _, rfl, _⟩ <;>
      exact ⟨rfl, rfl, rfl, rfl, fun _ => rfl⟩
  · obtain ⟨read, reads, rfl⟩ := pause_cases moved
    exact .inr ⟨read, reads, rfl, rfl, rfl, rfl, fun calm => absurd rfl (calm now paused)⟩
  · exact absurd rfl (keeps now num den)

/-- One call adds exactly the unpaused time. -/
theorem perform_media (sound : c.Sound) (keeps : ∀ now num den, call ≠ .rate now num den) :
    (c.perform call).1.media = c.media +
        (if c.paused then 0 else (c.perform call).1.lastUs - c.lastUs) * c.rateNum ∧
      c.lastUs ≤ (c.perform call).1.lastUs ∧ (c.perform call).1.rateNum = c.rateNum ∧
      (c.perform call).1.rateDen = c.rateDen ∧
      ((∀ now paused, call ≠ .pause now paused) → (c.perform call).1.paused = c.paused) := by
  rcases perform_clock sound keeps with same | ⟨read, reads, media, last, num, den, paused⟩
  · rw [same]
    simp
  · obtain ⟨forward, _, rfl⟩ := advance_cases sound reads
    rw [media, media_setClock, last]
    exact ⟨rfl, forward, num, den, paused⟩

/-- Between rate changes, the calls add exactly the unpaused time. -/
theorem performAll_media {calls : List TimelineCall} (sound : c.Sound)
    (keeps : ∀ now num den, .rate now num den ∉ calls) :
    (c.performAll calls).media = c.media + c.unpaused calls * c.rateNum := by
  induction calls generalizing c with
  | nil => simp [performAll, unpaused]
  | cons call rest ih =>
      have first : ∀ now num den, call ≠ .rate now num den :=
        fun now num den same => keeps now num den (by simp [same])
      have others : ∀ now num den, .rate now num den ∉ rest :=
        fun now num den member => keeps now num den (List.mem_cons_of_mem _ member)
      obtain ⟨media, _, num, _⟩ := perform_media sound first
      have kept : (c.perform call).1.Sound := perform_sound sound
      have tail := ih kept others
      rw [performAll, List.foldl_cons]
      rw [performAll] at tail
      rw [tail, media, num, unpaused, Nat.add_mul, Nat.add_assoc]

theorem performAll_forward {calls : List TimelineCall} (sound : c.Sound)
    (keeps : ∀ now num den, .rate now num den ∉ calls) : c.lastUs ≤ (c.performAll calls).lastUs := by
  induction calls generalizing c with
  | nil => exact Nat.le_refl _
  | cons call rest ih =>
      have first : ∀ now num den, call ≠ .rate now num den :=
        fun now num den same => keeps now num den (by simp [same])
      obtain ⟨_, forward, _⟩ := perform_media sound first
      exact Nat.le_trans forward (ih (perform_sound sound)
        fun now num den member => keeps now num den (List.mem_cons_of_mem _ member))

/-- Polls and commits alone are one stretch, paused or not. -/
theorem unpaused_stretch {calls : List TimelineCall} (sound : c.Sound)
    (keeps : ∀ now num den, .rate now num den ∉ calls)
    (calm : ∀ now paused, .pause now paused ∉ calls) :
    c.unpaused calls = if c.paused then 0 else (c.performAll calls).lastUs - c.lastUs := by
  induction calls generalizing c with
  | nil => simp [performAll, unpaused]
  | cons call rest ih =>
      have first : ∀ now num den, call ≠ .rate now num den :=
        fun now num den same => keeps now num den (by simp [same])
      have others : ∀ now num den, .rate now num den ∉ rest :=
        fun now num den member => keeps now num den (List.mem_cons_of_mem _ member)
      obtain ⟨_, forward, _, _, paused⟩ := perform_media sound first
      have kept : (c.perform call).1.Sound := perform_sound sound
      have onward := performAll_forward kept others
      have same := paused fun now paused same => calm now paused (by simp [same])
      rw [unpaused, ih kept others fun now paused member =>
        calm now paused (List.mem_cons_of_mem _ member), same]
      change _ = if c.paused then 0 else ((c.perform call).1.performAll rest).lastUs - c.lastUs
      split
      · rfl
      · omega

/-- Polls that succeeded change no later poll. -/
theorem pollAll_poll {times : List UInt64} {later : UInt64} (sound : c.Sound)
    (polled : c.pollAll times = some next) (order : ∀ now ∈ times, now.toNat ≤ later.toNat) :
    next.poll later = c.poll later := by
  induction times generalizing c with
  | nil =>
      rw [Option.some.inj polled]
  | cons now rest ih =>
      obtain ⟨⟨middle, step⟩, first, others⟩ := Option.bind_eq_some_iff.mp polled
      rw [ih (poll_sound sound first) others fun time member =>
        order time (List.mem_cons_of_mem _ member)]
      exact poll_poll sound first (order now List.mem_cons_self)

end Timeline

section
variable {frames plays : UInt32} {animated : Bool} {minimum : UInt32} {begun : UInt64}
  {trace : List TimelineEvent} {c : Timeline}

theorem timeline_sound {Allowed : List TimelineEvent → Timeline → TimelineCall → Prop}
    (reached : (timelineMachine frames plays animated minimum begun).Reaches Allowed trace c) :
    c.Sound := by
  refine reached.invariant (fun _ c => c.Sound) (fun _ made => Timeline.init_sound made) ?_
  intro trace before call after events sound _ moved
  obtain ⟨rfl, rfl⟩ := Prod.ext_iff.mp (Option.some.inj moved)
  exact Timeline.perform_sound sound

/-- When a timeline is polled does not matter, as far as its polls succeed. -/
theorem timeline_poll_independent
    (reached : (timelineMachine frames plays animated minimum begun).Reaches Machine.Always
      trace c) :
    (∀ calls, (∀ now num den, .rate now num den ∉ calls) →
      (c.performAll calls).media = c.media + c.unpaused calls * c.rateNum ∧
      ((∀ now paused, .pause now paused ∉ calls) →
        c.unpaused calls = if c.paused then 0 else (c.performAll calls).lastUs - c.lastUs)) ∧
    (∀ now : UInt64, c.advance now = none ↔ now.toNat < c.lastUs ∨
      uint64Max <
        (c.media + (if c.paused then 0 else now.toNat - c.lastUs) * c.rateNum) / c.rateDen) ∧
    (∀ call, c.advance call.now = none → c.perform call = (c, [])) ∧
    ∀ times next, ∀ later : UInt64, c.pollAll times = some next →
      (∀ now ∈ times, now.toNat ≤ later.toNat) → next.poll later = c.poll later := by
  have sound := timeline_sound reached
  refine ⟨fun calls keeps => ⟨Timeline.performAll_media sound keeps,
    Timeline.unpaused_stretch sound keeps⟩, fun now => ?_, fun call => Timeline.perform_unreadable,
    fun times next later => Timeline.pollAll_poll sound⟩
  rw [Timeline.advance_eq sound]
  change _ ↔ c.Unreadable now
  split
  · simpa
  · simpa

/-- Two frames at half speed: one is shown, paused and resumed. -/
def pausedCalls : List TimelineCall :=
  [.poll 0, .commit 5 1 10, .rate 1000 1 2, .pause 90000 true, .pause 95000 false, .poll 99001]

theorem timeline_poll_independent_shown :
    ∃ trace c, (timelineMachine 2 0 true 20000 0).Reaches Machine.Always trace c ∧
      c.media = 95001 ∧ (c.pollAll [150001, 204011]).isSome = true ∧
      ∀ next, c.pollAll [150001, 204011] = some next → next.poll 300000 = c.poll 300000 := by
  obtain ⟨start, made⟩ : ∃ start, Timeline.init 2 0 true 20000 0 = some start :=
    Option.isSome_iff_exists.mp (by decide)
  obtain ⟨⟨c, trace⟩, executed⟩ : ∃ last, (timelineMachine 2 0 true 20000 0).execute start
      pausedCalls = some last := by
    cases made
    exact Option.isSome_iff_exists.mp (by decide)
  have shown : ((timelineMachine 2 0 true 20000 0).execute start pausedCalls).map
      (fun last => (last.1.media, (last.1.pollAll [150001, 204011]).isSome)) =
      some (95001, true) := by
    cases made
    decide
  rw [executed] at shown
  obtain ⟨media, polled⟩ := Prod.ext_iff.mp (Option.some.inj shown)
  have reached : (timelineMachine 2 0 true 20000 0).Reaches Machine.Always trace c :=
    (Machine.Reaches.start made).execute executed
  refine ⟨trace, c, reached, media, polled, fun next polls => ?_⟩
  refine (timeline_poll_independent reached).2.2.2 _ next _ polls fun now member => ?_
  simp only [List.mem_cons, List.not_mem_nil, or_false] at member
  rcases member with rfl | rfl <;> decide

end

end LvglAic.Apng
