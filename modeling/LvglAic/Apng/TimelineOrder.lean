import LvglAic.Apng.TimelineRun

/-! # The order of frames and plays

A caller commits only what was requested.  Then the frames of a run are requested
in order, pass after pass, and the passes are counted when a poll finds the last
frame's deadline reached.
-/

namespace LvglAic.Apng

/-- The number of frames committed. -/
def commits (trace : List TimelineEvent) : Nat :=
  trace.countP fun event => match event with
    | .committed _ _ _ => true
    | .polled _ _ => false

/-- The frame requested last, unless it was committed since. -/
def lastFrame (trace : List TimelineEvent) : Option Step :=
  trace.foldl (fun shown event => match event with
    | .committed _ _ _ => none
    | .polled step _ => if step.action = .frame then some step else shown) none

/-- A frame was requested. -/
def Requested (trace : List TimelineEvent) : Prop :=
  ∃ step clock, .polled step clock ∈ trace ∧ step.action = .frame

/-- A poll answered `ENDED`. -/
def Finished (trace : List TimelineEvent) : Prop :=
  ∃ step clock, .polled step clock ∈ trace ∧ step.action = .ended

/-- The caller commits only after a `FRAME` step. -/
def CallerContract (trace : List TimelineEvent) (_ : Timeline) (call : TimelineCall) : Prop :=
  ∀ now num den, call = .commit now num den → Requested trace

/-- A poll that was not paused found the last frame of the pass to be past its
deadline: a later frame was committed, or the clock had reached the deadline. -/
def Elapsed (frames : Nat) (trace : List TimelineEvent) (pass : Nat) : Prop :=
  ∃ before step clock after, trace = before ++ .polled step clock :: after ∧
    step.action ≠ .paused ∧ (pass * frames < commits before ∨
      pass * frames = commits before ∧ clock.Reached)

def TimelineSafe (frames plays : Nat) (animated : Bool) (before : List TimelineEvent) :
    TimelineEvent → Prop
  | .committed _ _ _ => ¬Finished before ∧ (animated = false → commits before = 0) ∧
      ∃ step, lastFrame before = some step ∧ step.frameIndex = commits before % frames ∧
        (step.resetCanvas = true ↔ step.frameIndex = 0)
  | .polled step clock =>
      (step.action = .frame → step.frameIndex = commits before % frames ∧
        (step.resetCanvas = true ↔ step.frameIndex = 0)) ∧
      (Finished before → step.action = .ended) ∧
      (animated = true → ∀ pass, 0 < pass →
        (Elapsed frames (before ++ [.polled step clock]) pass ↔ pass ≤ step.completedPlays)) ∧
      (animated = true → step.action = .ended → plays ≠ 0 ∧ commits before = plays * frames ∧
        Elapsed frames (before ++ [.polled step clock]) plays) ∧
      (animated = false → (step.action = .ended ↔ commits before = 1) ∧
        step.completedPlays = commits before)

section
variable {trace : List TimelineEvent} {event : TimelineEvent} {frames pass : Nat}

@[simp] theorem commits_nil : commits [] = 0 := rfl

@[simp] theorem commits_committed {num den : UInt16} {clock : Timeline} :
    commits (trace ++ [.committed num den clock]) = commits trace + 1 := by
  simp [commits, List.countP_append]

@[simp] theorem commits_polled {step : Step} {clock : Timeline} :
    commits (trace ++ [.polled step clock]) = commits trace := by
  simp [commits, List.countP_append]

@[simp] theorem lastFrame_polled {step : Step} {clock : Timeline} :
    lastFrame (trace ++ [.polled step clock]) =
      if step.action = .frame then some step else lastFrame trace := by
  simp [lastFrame, List.foldl_append]

theorem elapsed_append : Elapsed frames (trace ++ [event]) pass ↔
    Elapsed frames trace pass ∨ ∃ step clock, event = .polled step clock ∧
      step.action ≠ .paused ∧ (pass * frames < commits trace ∨
        pass * frames = commits trace ∧ clock.Reached) := by
  constructor
  · rintro ⟨before, step, clock, after, split, playing, late⟩
    rcases List.eq_nil_or_concat after with rfl | ⟨rest, final, rfl⟩
    · obtain ⟨rfl, tail⟩ := List.append_inj' split rfl
      exact .inr ⟨step, clock, List.singleton_inj.mp tail, playing, late⟩
    · have regrouped : trace ++ [event] = (before ++ .polled step clock :: rest) ++ [final] := by
        simpa only [List.append_assoc, List.cons_append, List.concat_eq_append] using split
      exact .inl ⟨before, step, clock, rest, (List.append_inj' regrouped rfl).1, playing, late⟩
  · rintro (⟨before, step, clock, after, rfl, playing, late⟩ | ⟨step, clock, rfl, playing, late⟩)
    · exact ⟨before, step, clock, after ++ [event], by simp, playing, late⟩
    · exact ⟨trace, step, clock, [], rfl, playing, late⟩

theorem requested_append : Requested (trace ++ [event]) ↔ Requested trace ∨
    ∃ step clock, event = .polled step clock ∧ step.action = .frame := by
  simp only [Requested, List.mem_append, List.mem_singleton, or_and_right, exists_or, eq_comm]

theorem finished_append : Finished (trace ++ [event]) ↔ Finished trace ∨
    ∃ step clock, event = .polled step clock ∧ step.action = .ended := by
  simp only [Finished, List.mem_append, List.mem_singleton, or_and_right, exists_or, eq_comm]

end

namespace Timeline

variable {c next : Timeline} {now : UInt64} {call : TimelineCall} {step : Step}

/-- Nothing that orders the frames changed. -/
structure SameOrder (c next : Timeline) : Prop where
  index : next.index = c.index
  completedPlays : next.completedPlays = c.completedPlays
  frames : next.frames = c.frames
  plays : next.plays = c.plays
  animated : next.animated = c.animated
  awaitingFrame : next.awaitingFrame = c.awaitingFrame
  ended : next.ended = c.ended

theorem advance_sameOrder (sound : c.Sound) (moved : c.advance now = some next) :
    SameOrder c next := by
  obtain ⟨_, _, rfl⟩ := advance_cases sound moved
  exact ⟨rfl, rfl, rfl, rfl, rfl, rfl, rfl⟩

/-- Every successful poll, as far as the order goes. -/
theorem poll_order (sound : c.Sound) (polled : c.poll now = some (next, step)) :
    (SameOrder c next ∧
      (c.ended = true ∧ step = next.step .ended ∨
        c.ended = false ∧ step = next.step .paused ∨
        c.ended = false ∧ c.awaitingFrame = true ∧
          step = { next.step .frame with resetCanvas := next.index = 0 } ∨
        c.ended = false ∧ c.awaitingFrame = false ∧ ¬next.Reached ∧
          ∃ wait, step = { next.step .wait with waitUs := wait })) ∨
    c.ended = false ∧ c.awaitingFrame = false ∧ next.Reached ∧
      next.frames = c.frames ∧ next.plays = c.plays ∧ next.animated = c.animated ∧
      ((c.index + 1 < c.frames ∧ next.index = c.index + 1 ∧
          next.completedPlays = c.completedPlays ∧ next.ended = false ∧
          next.awaitingFrame = true ∧
          step = { next.step .frame with resetCanvas := next.index = 0 }) ∨
        (c.index + 1 = c.frames ∧ next.completedPlays = c.completedPlays + 1 ∧
          ((c.plays ≠ 0 ∧ c.plays ≤ c.completedPlays + 1) ∧ next.ended = true ∧
              next.awaitingFrame = false ∧ step = next.step .ended ∨
            ¬(c.plays ≠ 0 ∧ c.plays ≤ c.completedPlays + 1) ∧ next.index = 0 ∧
              next.ended = false ∧ next.awaitingFrame = true ∧
              step = { next.step .frame with resetCanvas := next.index = 0 }))) := by
  obtain ⟨read, reads, settled⟩ := Option.bind_eq_some_iff.mp polled
  have same := advance_sameOrder sound reads
  have kept := advance_sound sound reads
  rcases settle_cases settled with ⟨ended, rfl, rfl⟩ | ⟨running, _, rfl, rfl⟩ |
    ⟨running, _, caught, outcome⟩
  · exact .inl ⟨same, .inl ⟨same.ended.symm.trans ended, rfl⟩⟩
  · exact .inl ⟨same, .inr (.inl ⟨same.ended.symm.trans running, rfl⟩)⟩
  have open_ := same.ended.symm.trans running
  rcases catchUp_cases kept caught with ⟨rfl, waiting⟩ | ⟨shows, reached, turned⟩
  · rcases outcome with ⟨ended, _⟩ | ⟨_, awaits, rfl⟩ | ⟨_, shows, wait, _, rfl⟩
    · rw [running] at ended
      cases ended
    · exact .inl ⟨same, .inr (.inr (.inl ⟨open_, same.awaitingFrame.symm.trans awaits, rfl⟩))⟩
    · refine .inl ⟨same, .inr (.inr (.inr ⟨open_, same.awaitingFrame.symm.trans shows, ?_, wait,
        rfl⟩))⟩
      rcases waiting with awaits | early
      · rw [shows] at awaits
        cases awaits
      · exact early
  · refine .inr ⟨open_, same.awaitingFrame.symm.trans shows, ?_⟩
    obtain ⟨index, completed, frames, plays, animated, _, _⟩ := same
    rw [← index, ← completed, ← frames, ← plays, ← animated]
    rcases turn_cases kept turned with ⟨more, rfl⟩ | ⟨last, _, ⟨final, rfl⟩ | ⟨again, rfl⟩⟩
    · refine ⟨reached, rfl, rfl, rfl, .inl ⟨more, rfl, rfl, running, rfl, ?_⟩⟩
      simpa [running] using outcome
    · refine ⟨reached, rfl, rfl, rfl, .inr ⟨last, rfl, .inl ⟨final, rfl, rfl, ?_⟩⟩⟩
      simpa using outcome
    · refine ⟨reached, rfl, rfl, rfl, .inr ⟨last, rfl, .inr ⟨again, rfl, running, rfl, ?_⟩⟩⟩
      simpa [running] using outcome

/-- Every successful commit, as far as the order goes. -/
theorem commit_order (sound : c.Sound) {num den : UInt16}
    (committed : c.commit now num den = some next) :
    c.awaitingFrame = true ∧ c.ended = false ∧ next.awaitingFrame = false ∧
      next.index = c.index ∧ next.frames = c.frames ∧ next.plays = c.plays ∧
      next.animated = c.animated ∧
      (c.animated = false ∧ next.ended = true ∧ next.completedPlays = 1 ∨
        c.animated = true ∧ next.ended = false ∧ next.completedPlays = c.completedPlays) := by
  obtain ⟨awaits, running, read, reads, outcome⟩ := commit_cases sound committed
  obtain ⟨index, completed, frames, plays, animated, _, ended⟩ := advance_sameOrder sound reads
  rw [← index, ← completed, ← frames, ← plays, ← animated]
  refine ⟨awaits, running, ?_⟩
  rcases start_eq read with begun | ⟨_, _, begun⟩ <;> rw [begun] at outcome <;>
    rcases outcome with ⟨static, rfl⟩ | ⟨moving, us, fraction, rfl, _⟩
  · exact ⟨rfl, rfl, rfl, rfl, rfl, .inl ⟨static, rfl, rfl⟩⟩
  · exact ⟨rfl, rfl, rfl, rfl, rfl, .inr ⟨moving, ended.trans running, rfl⟩⟩
  · exact ⟨rfl, rfl, rfl, rfl, rfl, .inl ⟨static, rfl, rfl⟩⟩
  · exact ⟨rfl, rfl, rfl, rfl, rfl, .inr ⟨moving, ended.trans running, rfl⟩⟩

end Timeline

/-! ## Passes -/

/-- The next frame of a pass, or the first of the next one. -/
theorem next_frame {frames count index : Nat} (positive : 0 < count)
    (shown : index = (count - 1) % frames) :
    (index + 1 < frames → count % frames = index + 1 ∧ count / frames = (count - 1) / frames) ∧
    (index + 1 = frames → count % frames = 0 ∧ count / frames = (count - 1) / frames + 1 ∧
      count = ((count - 1) / frames + 1) * frames) := by
  have split := Nat.div_add_mod (count - 1) frames
  rw [← shown] at split
  generalize (count - 1) / frames = passes at split ⊢
  constructor
  · intro more
    have total : count = (index + 1) + frames * passes := by omega
    rw [total, Nat.add_mul_mod_self_left, Nat.add_mul_div_left _ _ (by omega),
      Nat.mod_eq_of_lt more, Nat.div_eq_of_lt more]
    exact ⟨rfl, Nat.zero_add _⟩
  · intro last
    have total : count = frames * (passes + 1) := by
      rw [Nat.mul_succ]
      omega
    rw [total, Nat.mul_mod_right, Nat.mul_div_cancel_left _ (by omega)]
    exact ⟨rfl, rfl, Nat.mul_comm _ _⟩

section
variable {frames plays : Nat} {animated : Bool} {trace : List TimelineEvent} {c next : Timeline}
  {now : UInt64} {step : Step}

/-- What orders the frames and plays once `count` frames were committed. -/
structure InOrder (frames plays : Nat) (animated : Bool) (count : Nat) (c : Timeline) : Prop where
  sound : c.Sound
  framesKept : c.frames = frames
  animatedKept : c.animated = animated
  playsKept : animated = true → c.plays = plays
  static : animated = false →
    frames = 1 ∧ c.plays = 1 ∧ (c.ended = false → c.awaitingFrame = true)
  awaiting : c.ended = false → c.awaitingFrame = true →
    c.index = count % frames ∧ c.completedPlays = count / frames
  showing : c.ended = false → c.awaitingFrame = false → 0 < count ∧
    c.index = (count - 1) % frames ∧ c.completedPlays = (count - 1) / frames
  done : c.ended = true → c.plays ≠ 0 ∧ count = c.plays * frames ∧
    c.completedPlays = c.plays ∧ c.awaitingFrame = false
  running : c.ended = false → c.plays = 0 ∨ c.completedPlays < c.plays

/-- What the events of a run say about its timeline. -/
structure Ordered (frames plays : Nat) (animated : Bool) (trace : List TimelineEvent)
    (c : Timeline) : Prop where
  core : InOrder frames plays animated (commits trace) c
  requested : c.awaitingFrame = true → Requested trace → ∃ step, lastFrame trace = some step ∧
    step.frameIndex = c.index ∧ (step.resetCanvas = true ↔ step.frameIndex = 0)
  finished : Finished trace → c.ended = true
  elapsed : animated = true → ∀ pass, 0 < pass →
    (Elapsed frames trace pass ↔ pass ≤ c.completedPlays)
  guarded : Guarded (TimelineSafe frames plays animated) trace

theorem InOrder.positive {count : Nat} (order : InOrder frames plays animated count c) :
    0 < frames := by
  have bound := order.sound.index
  rw [order.framesKept] at bound
  omega

/-- A timeline that never moves is over after its one commit. -/
theorem InOrder.single {count : Nat} (order : InOrder frames plays animated count c)
    (still : animated = false) (open_ : c.ended = false) : count = 0 ∧ c.completedPlays = 0 := by
  obtain ⟨one, single, awaits⟩ := order.static still
  have below := order.running open_
  obtain ⟨_, completed⟩ := order.awaiting open_ (awaits open_)
  rw [one, Nat.div_one] at completed
  omega

theorem InOrder.quiet {count : Nat} (order : InOrder frames plays animated count c)
    (sound : next.Sound) (same : Timeline.SameOrder c next) :
    InOrder frames plays animated count next := by
  obtain ⟨_, framesKept, animatedKept, playsKept, static, awaiting, showing, done, running⟩ := order
  obtain ⟨index, completed, frames', plays', animated', awaits, ended⟩ := same
  constructor <;> (try rw [index]) <;> (try rw [completed]) <;> (try rw [frames']) <;>
    (try rw [plays']) <;> (try rw [animated']) <;> (try rw [awaits]) <;> (try rw [ended]) <;>
    assumption

theorem InOrder.commit {count : Nat} (order : InOrder frames plays animated count c)
    {num den : UInt16} (committed : c.commit now num den = some next) :
    InOrder frames plays animated (count + 1) next := by
  obtain ⟨awaits, open_, shows, index, frames', plays', animated', outcome⟩ :=
    Timeline.commit_order order.sound committed
  obtain ⟨atIndex, atPlay⟩ := order.awaiting open_ awaits
  have moving : next.ended = false → c.animated = true ∧ next.completedPlays = c.completedPlays := by
    intro onward
    rcases outcome with ⟨_, ended, _⟩ | ⟨moving, _, completed⟩
    · rw [ended] at onward
      cases onward
    · exact ⟨moving, completed⟩
  have still : next.ended = true → animated = false ∧ next.completedPlays = 1 := by
    intro ended
    rcases outcome with ⟨still, _, completed⟩ | ⟨_, onward, _⟩
    · exact ⟨order.animatedKept.symm.trans still, completed⟩
    · rw [onward] at ended
      cases ended
  constructor
  case sound => exact Timeline.commit_sound order.sound committed
  case framesKept => exact frames'.trans order.framesKept
  case animatedKept => exact animated'.trans order.animatedKept
  case playsKept => exact fun moves => plays'.trans (order.playsKept moves)
  case static =>
    intro quiet
    obtain ⟨one, single, _⟩ := order.static quiet
    refine ⟨one, plays'.trans single, fun onward => ?_⟩
    have moves := (moving onward).1
    rw [order.animatedKept, quiet] at moves
    cases moves
  case awaiting =>
    intro _ awaits
    rw [shows] at awaits
    cases awaits
  case showing =>
    intro onward _
    rw [index, Nat.add_sub_cancel]
    exact ⟨Nat.succ_pos _, atIndex, (moving onward).2.trans atPlay⟩
  case done =>
    intro ended
    obtain ⟨quiet, completed⟩ := still ended
    obtain ⟨one, single, _⟩ := order.static quiet
    rw [plays', single, one, (order.single quiet open_).1]
    exact ⟨by decide, rfl, completed, shows⟩
  case running =>
    intro onward
    rw [plays', (moving onward).2]
    exact order.running open_

/-- The next frame, or the next play, when the shown frame is due. -/
theorem InOrder.poll {count : Nat} (order : InOrder frames plays animated count c)
    (polled : c.poll now = some (next, step)) : InOrder frames plays animated count next := by
  have sound := Timeline.poll_sound order.sound polled
  rcases Timeline.poll_order order.sound polled with ⟨same, _⟩ |
    ⟨open_, shows, _, frames', plays', animated', outcome⟩
  · exact order.quiet sound same
  obtain ⟨some, atIndex, atPlay⟩ := order.showing open_ shows
  obtain ⟨onward, wrap⟩ := next_frame some atIndex
  rw [order.framesKept] at outcome
  have moving : animated ≠ false := by
    intro still
    have awaits := (order.static still).2.2 open_
    rw [shows] at awaits
    cases awaits
  have below := order.running open_
  constructor
  case sound => exact sound
  case framesKept => exact frames'.trans order.framesKept
  case animatedKept => exact animated'.trans order.animatedKept
  case playsKept => exact fun moves => plays'.trans (order.playsKept moves)
  case static => exact fun still => absurd still moving
  case awaiting =>
    intro open' _
    rcases outcome with ⟨more, index, completed, _⟩ | ⟨last, completed, ⟨_, ended, _⟩ |
      ⟨_, index, _⟩⟩
    · rw [index, completed, atPlay, (onward more).1, (onward more).2]
      exact ⟨rfl, rfl⟩
    · rw [ended] at open'
      cases open'
    · rw [index, completed, atPlay, (wrap last).1, (wrap last).2.1]
      exact ⟨rfl, rfl⟩
  case showing =>
    intro open' shows'
    rcases outcome with ⟨_, _, _, _, awaits, _⟩ | ⟨_, _, ⟨_, ended, _⟩ | ⟨_, _, _, awaits, _⟩⟩
    · rw [awaits] at shows'
      cases shows'
    · rw [ended] at open'
      cases open'
    · rw [awaits] at shows'
      cases shows'
  case done =>
    intro past
    rcases outcome with ⟨_, _, _, open', _⟩ | ⟨last, completed, ⟨final, _, shows', _⟩ |
      ⟨_, _, open', _⟩⟩
    · rw [open'] at past
      cases past
    · have all : c.plays = c.completedPlays + 1 := by omega
      rw [plays', completed, ← all, (wrap last).2.2, ← atPlay, ← all]
      exact ⟨final.1, rfl, rfl, shows'⟩
    · rw [open'] at past
      cases past
  case running =>
    intro open'
    rcases outcome with ⟨_, _, completed, _⟩ | ⟨_, completed, ⟨_, ended, _⟩ | ⟨again, _⟩⟩
    · rw [plays', completed]
      exact below
    · rw [ended] at open'
      cases open'
    · rw [plays', completed]
      omega

/-- What a successful poll answers is what it leaves behind. -/
theorem poll_answers (sound : c.Sound) (polled : c.poll now = some (next, step)) :
    step.frameIndex = next.index ∧ step.completedPlays = next.completedPlays ∧
      (step.action = .ended ↔ next.ended = true) ∧
      (step.action = .frame → next.ended = false ∧ next.awaitingFrame = true ∧
        (step.resetCanvas = true ↔ step.frameIndex = 0)) ∧
      (c.ended = true → next.ended = true) ∧
      (next.awaitingFrame = true → step.action ≠ .frame →
        c.awaitingFrame = true ∧ next.index = c.index) := by
  rcases Timeline.poll_order sound polled with ⟨same, outcome⟩ | ⟨_, _, _, _, _, _, outcome⟩
  · have ended := same.ended
    have awaits := same.awaitingFrame
    have index := same.index
    rcases outcome with ⟨_, rfl⟩ | ⟨_, rfl⟩ | ⟨_, _, rfl⟩ | ⟨_, _, _, wait, rfl⟩ <;>
      simp_all [Timeline.step]
  · rcases outcome with ⟨_, _, _, _, _, rfl⟩ | ⟨_, _, ⟨_, _, _, rfl⟩ | ⟨_, _, _, _, rfl⟩⟩ <;>
      simp_all [Timeline.step]

/-- A poll finds a pass elapsed exactly when it counts it. -/
theorem Ordered.elapsed_poll (ordered : Ordered frames plays animated trace c)
    (polled : c.poll now = some (next, step)) (moving : animated = true) (pass : Nat)
    (positive : 0 < pass) :
    Elapsed frames (trace ++ [.polled step next]) pass ↔ pass ≤ next.completedPlays := by
  have framesPos := ordered.core.positive
  rw [elapsed_append, ordered.elapsed moving pass positive]
  rcases Timeline.poll_order ordered.core.sound polled with ⟨same, outcome⟩ |
    ⟨open_, shows, reached, _, _, _, outcome⟩
  · rw [same.completedPlays, or_iff_left_iff_imp]
    rintro ⟨_, _, found, playing, late⟩
    cases found
    have reaches : pass * frames ≤ commits trace := by omega
    rcases outcome with ⟨ended, _⟩ | ⟨_, rfl⟩ | ⟨open_, awaits, _⟩ | ⟨open_, shows, early, _⟩
    · obtain ⟨_, total, all, _⟩ := ordered.core.done ended
      rw [total] at reaches
      rw [all]
      exact Nat.le_of_mul_le_mul_right reaches framesPos
    · exact absurd rfl playing
    · rw [(ordered.core.awaiting open_ awaits).2]
      exact (Nat.le_div_iff_mul_le framesPos).mpr reaches
    · rw [(ordered.core.showing open_ shows).2.2, Nat.le_div_iff_mul_le framesPos]
      rcases late with before | ⟨_, reached⟩
      · omega
      · exact absurd reached early
  · obtain ⟨some, atIndex, atPlay⟩ := ordered.core.showing open_ shows
    obtain ⟨onward, wrap⟩ := next_frame some atIndex
    rw [ordered.core.framesKept] at outcome
    have counted : next.completedPlays = commits trace / frames ∧ step.action ≠ .paused := by
      rcases outcome with ⟨more, _, completed, _, _, rfl⟩ |
        ⟨last, completed, ⟨_, _, _, rfl⟩ | ⟨_, _, _, _, rfl⟩⟩
      · exact ⟨completed.trans (atPlay.trans (onward more).2.symm), nofun⟩
      · exact ⟨by rw [completed, atPlay, (wrap last).2.1], nofun⟩
      · exact ⟨by rw [completed, atPlay, (wrap last).2.1], nofun⟩
    rw [counted.1, atPlay, Nat.le_div_iff_mul_le framesPos, Nat.le_div_iff_mul_le framesPos]
    constructor
    · rintro (before | ⟨_, _, _, _, late⟩) <;> omega
    · intro within
      rcases Nat.lt_or_eq_of_le within with before | last
      · exact .inl (by omega)
      · exact .inr ⟨step, next, rfl, counted.2, .inr ⟨last, reached⟩⟩

theorem Ordered.poll (ordered : Ordered frames plays animated trace c)
    (polled : c.poll now = some (next, step)) :
    Ordered frames plays animated (trace ++ [.polled step next]) next := by
  have core := ordered.core.poll polled
  have elapsed := ordered.elapsed_poll polled
  obtain ⟨atIndex, counted, ends, frame, stays, kept⟩ := poll_answers ordered.core.sound polled
  constructor
  case core => rwa [commits_polled]
  case requested =>
    intro awaits request
    rw [lastFrame_polled]
    by_cases asks : step.action = .frame
    · rw [if_pos asks]
      exact ⟨step, rfl, atIndex, (frame asks).2.2⟩
    · obtain ⟨before, index⟩ := kept awaits asks
      rw [if_neg asks, index]
      refine ordered.requested before ((requested_append.mp request).resolve_right ?_)
      rintro ⟨_, _, same, found⟩
      cases same
      exact asks found
  case finished =>
    intro finished
    rcases finished_append.mp finished with before | ⟨_, _, same, found⟩
    · exact stays (ordered.finished before)
    · cases same
      exact ends.mp found
  case elapsed => exact elapsed
  case guarded =>
    refine ordered.guarded.snoc ⟨fun asks => ?_, fun past => ends.mpr (stays (ordered.finished past)),
      fun moving => ?_, fun moving past => ?_, fun still => ?_⟩
    · obtain ⟨open_, awaits, reset⟩ := frame asks
      exact ⟨atIndex.trans (core.awaiting open_ awaits).1, reset⟩
    · rw [counted]
      exact elapsed moving
    · obtain ⟨some, total, all, _⟩ := core.done (ends.mp past)
      rw [core.playsKept moving] at some total all
      exact ⟨some, total,
        (elapsed moving plays (Nat.pos_of_ne_zero some)).mpr (Nat.le_of_eq all.symm)⟩
    · rw [ends, counted]
      cases past : next.ended with
      | true =>
          obtain ⟨_, total, all, _⟩ := core.done past
          obtain ⟨one, single, _⟩ := core.static still
          rw [total, all, single, one]
          simp
      | false =>
          obtain ⟨zero, none⟩ := core.single still past
          rw [zero, none]
          simp

theorem Ordered.commit (ordered : Ordered frames plays animated trace c) {num den : UInt16}
    (asked : Requested trace) (committed : c.commit now num den = some next) :
    Ordered frames plays animated (trace ++ [.committed num den next]) next := by
  obtain ⟨awaits, open_, shows, _, _, _, _, outcome⟩ :=
    Timeline.commit_order ordered.core.sound committed
  have unfinished : ¬Finished trace := by
    intro past
    have ended := ordered.finished past
    rw [open_] at ended
    cases ended
  constructor
  case core =>
    rw [commits_committed]
    exact ordered.core.commit committed
  case requested =>
    intro awaits
    rw [shows] at awaits
    cases awaits
  case finished =>
    rw [finished_append]
    rintro (past | ⟨_, _, same, _⟩)
    · exact absurd past unfinished
    · cases same
  case elapsed =>
    intro moving pass positive
    rw [elapsed_append]
    rcases outcome with ⟨still, _⟩ | ⟨_, _, completed⟩
    · rw [ordered.core.animatedKept, moving] at still
      cases still
    · rw [completed, ← ordered.elapsed moving pass positive, or_iff_left_iff_imp]
      rintro ⟨_, _, same, _⟩
      cases same
  case guarded =>
    obtain ⟨step, last, frame, reset⟩ := ordered.requested awaits asked
    exact ordered.guarded.snoc ⟨unfinished, fun still => (ordered.core.single still open_).1, step,
      last, frame.trans (ordered.core.awaiting open_ awaits).1, reset⟩

theorem Ordered.quiet (ordered : Ordered frames plays animated trace c) (sound : next.Sound)
    (same : Timeline.SameOrder c next) : Ordered frames plays animated trace next := by
  obtain ⟨core, requested, finished, elapsed, guarded⟩ := ordered
  refine ⟨core.quiet sound same, ?_, ?_, ?_, guarded⟩
  · rw [same.awaitingFrame, same.index]
    exact requested
  · rw [same.ended]
    exact finished
  · rw [same.completedPlays]
    exact elapsed

end

section
variable {frames plays : UInt32} {animated : Bool} {minimum : UInt32} {begun : UInt64}
  {trace : List TimelineEvent} {c : Timeline}

theorem init_order (made : Timeline.init frames plays animated minimum begun = some c) :
    Ordered frames.toNat plays.toNat animated [] c := by
  have sound := Timeline.init_sound made
  unfold Timeline.init at made
  split at made
  · cases made
  · rename_i accepted
    simp only [Bool.or_eq_true, not_or, Bool.and_eq_true, Bool.not_eq_true', decide_eq_true_eq,
      not_and, ne_eq, not_not] at accepted
    cases made
    refine ⟨⟨sound, rfl, rfl, fun moving => if_pos moving, fun still => ⟨?_, ?_, fun _ => rfl⟩,
      fun _ _ => ⟨(Nat.zero_mod _).symm, (Nat.zero_div _).symm⟩, nofun, nofun, fun _ => ?_⟩, ?_, ?_,
      ?_, .nil⟩
    · rw [accepted.1.1.2 still]
      rfl
    · simp [still]
    · dsimp only
      split <;> omega
    · rintro _ ⟨_, _, member, _⟩
      cases member
    · rintro ⟨_, _, member, _⟩
      cases member
    · intro _ pass positive
      constructor
      · rintro ⟨before, step, clock, after, split, _⟩
        simp at split
      · intro none
        exact absurd positive (by simpa using none)

theorem timeline_order
    (reached : (timelineMachine frames plays animated minimum begun).Reaches CallerContract
      trace c) : Ordered frames.toNat plays.toNat animated trace c := by
  refine reached.invariant (Ordered frames.toNat plays.toNat animated) (fun _ => init_order) ?_
  intro trace before call after events ordered contract moved
  obtain ⟨rfl, rfl⟩ := Prod.ext_iff.mp (Option.some.inj moved)
  have sound := ordered.core.sound
  have kept : (before.perform call).1.Sound := Timeline.perform_sound sound
  rcases before.perform_cases call with same | ⟨now, next, step, rfl, polled, same⟩ |
    ⟨now, num, den, next, rfl, committed, same⟩ | ⟨now, paused, next, rfl, paused', same⟩ |
    ⟨now, num, den, next, rfl, rated, same⟩ <;> rw [same] at kept ⊢
  · simpa using ordered
  · exact ordered.poll polled
  · exact ordered.commit (contract now num den rfl) committed
  · obtain ⟨read, reads, rfl⟩ := Timeline.pause_cases paused'
    obtain ⟨index, completed, frames, plays, animated, awaits, ended⟩ :=
      Timeline.advance_sameOrder sound reads
    simpa using ordered.quiet kept ⟨index, completed, frames, plays, animated, awaits, ended⟩
  · obtain ⟨_, _, read, reads, rfl⟩ := Timeline.rate_cases sound rated
    obtain ⟨index, completed, frames, plays, animated, awaits, ended⟩ :=
      Timeline.advance_sameOrder sound reads
    simpa using ordered.quiet kept ⟨index, completed, frames, plays, animated, awaits, ended⟩

/-- The frames of a run come in order, and a pass is counted when a poll that is
not paused finds its last frame's delay elapsed. -/
theorem timeline_orders_frames
    (reached : (timelineMachine frames plays animated minimum begun).Reaches CallerContract
      trace c) :
    Guarded (TimelineSafe frames.toNat plays.toNat animated) trace ∧
    (animated = true → ∀ pass, 0 < pass →
      (Elapsed frames.toNat trace pass ↔ pass ≤ c.completedPlays)) ∧
    (animated = false → c.completedPlays = commits trace ∧ (c.ended = true ↔ commits trace = 1)) ∧
    (Finished trace → ∀ now num den, c.commit now num den = none) := by
  obtain ⟨core, _, finished, elapsed, guarded⟩ := timeline_order reached
  refine ⟨guarded, elapsed, fun still => ?_, fun past now num den => ?_⟩
  · cases ended : c.ended with
    | true =>
        obtain ⟨_, total, all, _⟩ := core.done ended
        obtain ⟨one, single, _⟩ := core.static still
        rw [total, all, single, one]
        simp
    | false =>
        obtain ⟨zero, none⟩ := core.single still ended
        rw [zero, none]
        simp
  · have ended := finished past
    unfold Timeline.commit
    simp [ended]

/-- The frames of the pass were committed, and the clock has reached the deadline
of the last one. -/
def PassOver (frames : Nat) (trace : List TimelineEvent) (c : Timeline) (pass : Nat) : Prop :=
  pass * frames < commits trace ∨ pass * frames = commits trace ∧ c.Reached

instance (c : Timeline) : Decidable c.Reached := inferInstanceAs (Decidable (_ ≤ _))

def callerContract (trace : List TimelineEvent) (_ : Timeline) : TimelineCall → Bool
  | .commit _ _ _ => trace.any fun event => match event with
      | .polled step _ => step.action = .frame
      | .committed _ _ _ => false
  | _ => true

theorem callerContract_sound {call : TimelineCall} (asked : callerContract trace c call = true) :
    CallerContract trace c call := by
  rintro now num den rfl
  obtain ⟨event, member, frame⟩ := List.any_eq_true.mp asked
  cases event with
  | polled step clock => exact ⟨step, clock, member, of_decide_eq_true frame⟩
  | committed => cases frame

/-- One frame of 10 ms is shown for 20 ms, and then the timeline is paused. -/
def lateCalls : List TimelineCall :=
  [.poll 0, .commit 0 1 100, .pause 20000 true, .poll 20000]

/-- A paused timeline counts no pass, although the delay of the last frame elapsed
before the pause. -/
theorem timeline_counts_late :
    ¬∀ trace c, (timelineMachine 1 0 true 10000 0).Reaches CallerContract trace c →
      ∀ pass, 0 < pass → (PassOver 1 trace c pass ↔ pass ≤ c.completedPlays) := by
  intro counts
  obtain ⟨start, made⟩ : ∃ start, Timeline.init 1 0 true 10000 0 = some start :=
    Option.isSome_iff_exists.mp (by decide)
  obtain ⟨⟨c, trace⟩, executed⟩ : ∃ last, (timelineMachine 1 0 true 10000 0).execute start
      lateCalls = some last := by
    cases made
    exact Option.isSome_iff_exists.mp (by decide)
  have shown : ((timelineMachine 1 0 true 10000 0).execute start lateCalls).map
      (fun last => (commits last.2, decide last.1.Reached, last.1.completedPlays)) =
      some (1, true, 0) := by
    cases made
    decide
  have conforming : (timelineMachine 1 0 true 10000 0).conforms callerContract [] start
      lateCalls = true := by
    cases made
    decide
  rw [executed] at shown
  obtain ⟨committed, rest⟩ := Prod.ext_iff.mp (Option.some.inj shown)
  obtain ⟨reached, completed⟩ := Prod.ext_iff.mp rest
  have run : (timelineMachine 1 0 true 10000 0).Reaches CallerContract trace c :=
    (Machine.Reaches.start made).conform (fun _ _ _ => callerContract_sound) conforming executed
  have past : PassOver 1 trace c 1 := .inr ⟨committed.symm, of_decide_eq_true reached⟩
  have counted := (counts trace c run 1 (by decide)).mp past
  dsimp only at completed
  omega

/-- Two plays of two frames, caught up late. -/
def finishedCalls : List TimelineCall :=
  [.poll 0, .commit 0 1 100, .poll 10000, .commit 10000 1 100, .poll 90000, .commit 90000 1 100,
    .poll 90001, .commit 90001 1 100, .poll 90002]

theorem timeline_orders_frames_finished :
    ∃ trace c, (timelineMachine 2 2 true 10000 0).Reaches CallerContract trace c ∧
      c.completedPlays = 2 ∧ Elapsed 2 trace 2 := by
  obtain ⟨start, made⟩ : ∃ start, Timeline.init 2 2 true 10000 0 = some start :=
    Option.isSome_iff_exists.mp (by decide)
  obtain ⟨⟨c, trace⟩, executed⟩ : ∃ last, (timelineMachine 2 2 true 10000 0).execute start
      finishedCalls = some last := by
    cases made
    exact Option.isSome_iff_exists.mp (by decide)
  have shown : ((timelineMachine 2 2 true 10000 0).execute start finishedCalls).map
      (fun last => last.1.completedPlays) = some 2 := by
    cases made
    decide
  have conforming : (timelineMachine 2 2 true 10000 0).conforms callerContract [] start
      finishedCalls = true := by
    cases made
    decide
  rw [executed] at shown
  have completed : c.completedPlays = 2 := Option.some.inj shown
  have run : (timelineMachine 2 2 true 10000 0).Reaches CallerContract trace c :=
    (Machine.Reaches.start made).conform (fun _ _ _ => callerContract_sound) conforming executed
  exact ⟨trace, c, run, completed,
    ((timeline_orders_frames run).2.1 rfl 2 (by decide)).mpr (Nat.le_of_eq completed.symm)⟩

end

end LvglAic.Apng
