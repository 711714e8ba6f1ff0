import LvglAic.Spi.PipelineProgress

namespace LvglAic.Spi

variable {trace events past : List PipeEvent} {p next start : Pipeline} {q : Ledger} {n : Nat}

/-! # Fair runs deliver every accepted frame

Four rankings, one for each stage of a frame: the worker begins it, the worker
finishes it, the producer takes its release, the producer takes its completion. -/

theorem Flow.begun_mono (flow : Flow p next) : p.begun ≤ next.begun := by
  cases flow with
  | wake pc after token accepted begun stopping producer => exact Nat.le_of_eq begun.symm
  | mark round pc after begun accepted wake stopping producer => omega
  | _ => exact Nat.le_of_eq (SameCounts.begun ‹_›).symm

theorem Flow.accepted (flow : Flow p next) : next.accepted = p.accepted := by
  cases flow with
  | wake pc after token accepted begun stopping producer => exact accepted
  | mark round pc after begun accepted wake stopping producer => exact accepted
  | _ => exact SameCounts.accepted ‹_›

/-- Both threads only add frames. -/
theorem pipelineMachine_mono {action : PipeAction}
    (moved : pipelineMachine.step p action = some (next, events)) :
    p.accepted ≤ next.accepted ∧ p.begun ≤ next.begun := by
  cases action with
  | producer action =>
      have flow := Pipeline.stepProducer_flow moved
      have accepted := flow.accepted
      have begun := flow.begun
      omega
  | worker answers =>
      have flow := Pipeline.stepWorker_flow moved
      exact ⟨Nat.le_of_eq flow.accepted.symm, flow.begun_mono⟩

/-! ## The worker begins a waiting frame -/

/-- Steps until the next `mark`, when a frame waits. -/
def queueRank : WorkerPc → Nat
  | .mark _ | .exit | .exited => 0
  | .load _ => 1
  | .wake => 2
  | .drainStore _ _ _ => 3
  | .drainFault _ _ => 4
  | .drain _ _ => 5
  | .stopLoad _ => 6
  | .publish _ _ _ => 7
  | .quarantine _ _ => 8
  | .check _ _ _ => 9
  | .receipt _ _ _ _ => 10
  | .submit _ _ => 11
  | .faultLoad _ _ => 12

theorem queueRank_frame {pc : WorkerPc} {round : Round} {stage : Nat}
    (frame : pc.frame = some (round, stage)) : queueRank pc = 7 + stage ∧ stage ≤ 5 := by
  cases pc <;> simp_all [WorkerPc.frame, queueRank] <;> omega

def beginRank (n : Nat) (p : Pipeline) : Nat := 16 * (n + 1 - p.begun) + queueRank p.worker

theorem Flow.begins (flow : Flow p next) (tracks : Tracks p q) (before : LastRound p)
    (after : LastRound next) (waiting : p.begun ≤ n) (accepted : n < p.accepted) :
    beginRank n next < beginRank n p := by
  have ends : ∀ {round : Round}, RoundEnds next round → SameCounts p next →
      queueRank next.worker = 6 := by
    rintro round (⟨_, moved⟩ | ⟨_, moved, _⟩ | ⟨_, index, moved⟩) counts
    · rw [moved]
      rfl
    · simp only [LastRound, moved, counts.accepted, counts.begun] at after
      omega
    · simp only [LastRound, moved, counts.accepted, counts.begun] at after
      have served := after trivial
      omega
  unfold beginRank
  cases flow with
  | wake pc moved token acceptedSame begun =>
      rw [pc, moved, begun]
      simp [queueRank]
  | queued round pc moved counts =>
      rw [pc, moved, counts.begun]
      simp [queueRank]
  | unqueued round pc empty roundEnds counts =>
      exact absurd (tracks.head_queued (by omega)) empty
  | mark round pc moved begun =>
      obtain ⟨rank, _⟩ := queueRank_frame moved
      rw [pc, rank, begun]
      simp only [queueRank]
      omega
  | frame round stage later pc moved closer counts =>
      rw [(queueRank_frame pc).1, (queueRank_frame moved).1, counts.begun]
      omega
  | turn round pc short moved counts =>
      rw [(queueRank_frame pc).1, moved, counts.begun]
      simp only [queueRank]
      omega
  | past round pc spent roundEnds counts =>
      rw [(queueRank_frame pc).1, ends roundEnds counts, counts.begun]
      omega
  | stopped round pc stopping moved counts =>
      rw [pc, moved, counts.begun]
      simp [queueRank]
  | idle round pc moved counts =>
      rw [pc, counts.begun]
      rcases moved with ⟨moved, _⟩ | ⟨index, moved⟩ <;> rw [moved] <;> simp [queueRank]
  | again round pc running busy moved counts =>
      rw [pc, moved, counts.begun]
      simp [queueRank]
  | drain last index pc moved counts =>
      rw [pc, counts.begun]
      rcases moved with moved | ⟨result, moved⟩ <;> rw [moved] <;> simp [queueRank]
  | drainFault last index pc moved counts =>
      obtain ⟨result, moved⟩ := moved
      rw [pc, moved, counts.begun]
      simp [queueRank]
  | drainStore last index result pc moved active counts =>
      rw [pc, moved, counts.begun]
      cases last <;> simp [queueRank]
  | exit pc moved active counts =>
      simp only [LastRound, pc] at before
      omega

/-! ## The worker finishes a begun frame -/

def WorkerPc.draining : WorkerPc → Bool
  | .drain _ _ | .drainFault _ _ | .drainStore _ _ _ => true
  | _ => false

/-- Frame `n` is begun and not finished, as far as the worker's control shows. -/
structure Unsettled (n : Nat) (p : Pipeline) : Prop where
  bounded : p.begun ≤ p.accepted
  room : p.accepted ≤ n + 2
  busy : p.worker.running = true ∨ p.active ≠ none ∨ p.worker.draining = true

theorem CurrentIndex.running (current : CurrentIndex p q) (running : p.worker.running = true) :
    ∃ index n, q.begun = n + 1 ∧ q.taken ≤ n ∧ index = slotOf n := by
  unfold CurrentIndex at current
  cases pc : p.worker <;> simp only [pc, WorkerPc.running, Bool.false_eq_true] at running current
  all_goals exact ⟨_, current⟩

theorem ActiveIndex.busy (active : ActiveIndex p q) (found : q.active = some n) :
    p.active ≠ none ∨ p.worker.draining = true := by
  unfold ActiveIndex at active
  split at active
  all_goals rename_i pc
  · exact .inr (by rw [pc]; rfl)
  · exact .inr (by rw [pc]; rfl)
  · exact .inr (by rw [pc]; rfl)
  · exact .inl (by rw [active, found]; simp)

theorem PipeInvariant.unsettled (invariant : PipeInvariant trace p q) (begun : n < p.begun)
    (unfinished : .finished n ∉ trace) : Unsettled n p := by
  obtain ⟨tracks, explained⟩ := invariant
  rw [tracks.ring.begun] at begun
  have pending : (p.worker.running = true ∧ q.begun = n + 1) ∨ q.active = some n := by
    by_contra settled
    rw [not_or] at settled
    exact unfinished ((explained.handedOver.finished n).mpr ⟨begun, settled.1, settled.2⟩)
  have bounded : p.begun ≤ p.accepted := by
    rw [tracks.ring.begun, tracks.ring.count]
    exact tracks.ring.begunAccepted
  have room := tracks.ring.acceptedRoom
  rcases pending with ⟨running, last⟩ | active
  · obtain ⟨index, m, same, low, _⟩ := tracks.currentIndex.running running
    exact ⟨bounded, by rw [tracks.ring.count]; omega, .inl running⟩
  · have low := tracks.phases.activeTaken n active
    exact ⟨bounded, by rw [tracks.ring.count]; omega, .inr (tracks.activeIndex.busy active)⟩

/-- Steps until an idle timeout, within one pass of the worker's loop. -/
def loopRank (stopping : Bool) : WorkerPc → Nat
  | .wake => if stopping then 33 else 30
  | .load round => if round.last then 8 else if round.ran || round.woke then 32 else 10
  | .stopLoad round => if round.ran || round.woke then 31 else 9
  | .mark _ | .exit | .exited => 0
  | .drainStore _ _ _ => 1
  | .drainFault _ _ => 2
  | .drain _ _ => 3
  | .publish _ _ _ => 34
  | .quarantine _ _ => 35
  | .check _ _ _ => 36
  | .receipt _ _ _ _ => 37
  | .submit _ _ => 38
  | .faultLoad _ _ => 39

theorem loopRank_frame (stopping : Bool) {pc : WorkerPc} {round : Round} {stage : Nat}
    (frame : pc.frame = some (round, stage)) : loopRank stopping pc = 34 + stage ∧ stage ≤ 5 := by
  cases pc <;> simp_all [WorkerPc.frame, loopRank] <;> omega

/-- Frames that can still begin before `n` is taken, wakeups that can still be
pending, and the rest of the current pass. -/
def settleRank (n : Nat) (p : Pipeline) : Nat :=
  40 * (n + 2 - p.begun) +
    (if p.stopping then 0 else 5 + 40 * (p.wake + p.producer.gives + (n + 2 - p.accepted))) +
    loopRank p.stopping p.worker

theorem Flow.settles (flow : Flow p next) (drained : ActiveIndex p q) (lastRound : LastRound p)
    (after : Unsettled n next) : settleRank n next < settleRank n p := by
  obtain ⟨stopping, producer⟩ := flow.producer
  have accepted := flow.accepted
  have bounded := after.bounded
  have room := after.room
  have busy := after.busy
  unfold settleRank
  rw [stopping, producer, accepted]
  cases flow with
  | wake pc moved token _ begun =>
      rw [pc, moved, begun, token]
      simp only [loopRank]
      cases p.stopping <;> by_cases woken : p.wake = 0 <;> simp [woken]
      omega
  | queued round pc moved counts =>
      rw [pc, moved, counts.begun, counts.wake]
      simp only [loopRank]
      cases round.last <;> cases round.ran <;> cases round.woke <;> simp
  | unqueued round pc empty roundEnds counts =>
      rw [counts.begun, counts.wake, pc]
      rcases roundEnds with ⟨regular, moved⟩ | ⟨last, moved, idle⟩ | ⟨last, index, moved⟩
      · simp only [loopRank, moved, regular]
        cases round.ran <;> cases round.woke <;> simp
      · simp [moved, idle, WorkerPc.running, WorkerPc.draining] at busy
      · simp [loopRank, moved, last]
  | mark round pc moved begun _ wake =>
      obtain ⟨rank, _⟩ := loopRank_frame p.stopping moved
      rw [pc, rank, begun, wake]
      simp only [loopRank]
      omega
  | frame round stage later pc moved closer counts =>
      rw [(loopRank_frame _ pc).1, (loopRank_frame _ moved).1, counts.begun, counts.wake]
      omega
  | turn round pc short moved counts =>
      rw [(loopRank_frame _ pc).1, moved, counts.begun, counts.wake]
      simp only [loopRank]
      cases round.last <;> simp
  | past round pc spent roundEnds counts =>
      rw [counts.begun, counts.wake, (loopRank_frame _ pc).1]
      rcases roundEnds with ⟨regular, moved⟩ | ⟨last, moved, idle⟩ | ⟨last, index, moved⟩
      · simp [loopRank, moved]
      · simp [moved, idle, WorkerPc.running, WorkerPc.draining] at busy
      · simp [loopRank, moved]
  | stopped round pc stopped moved counts =>
      rw [counts.begun, counts.wake, pc, moved]
      simp only [loopRank]
      cases round.ran <;> cases round.woke <;> simp
  | idle round pc moved counts =>
      rw [counts.begun, counts.wake, pc]
      rcases moved with ⟨moved, idle⟩ | ⟨index, moved⟩
      · simp [moved, idle, WorkerPc.running, WorkerPc.draining] at busy
      · simp only [loopRank, moved]
        cases round.ran <;> cases round.woke <;> simp
  | again round pc running active moved counts =>
      rw [counts.begun, counts.wake, pc, moved, running]
      simp only [loopRank]
      cases ran : round.ran <;> cases woke : round.woke <;> simp_all
  | drain last index pc moved counts =>
      rw [counts.begun, counts.wake, pc]
      rcases moved with moved | ⟨result, moved⟩ <;> simp [loopRank, moved]
  | drainFault last index pc moved counts =>
      obtain ⟨result, moved⟩ := moved
      rw [counts.begun, counts.wake, pc, moved]
      simp [loopRank]
  | drainStore last index result pc moved active counts =>
      simp only [ActiveIndex, pc] at drained
      cases last <;> simp [moved, active, drained.1, WorkerPc.running, WorkerPc.draining] at busy
  | exit pc moved active counts =>
      simp only [LastRound, pc] at lastRound
      simp [moved, active, lastRound.2.2, WorkerPc.running, WorkerPc.draining] at busy

theorem ProducerFlow.settles (flow : ProducerFlow p next) (before : Unsettled n p)
    (after : Unsettled n next) : settleRank n next ≤ settleRank n p := by
  have beforeRoom := before.room
  have afterRoom := after.room
  have tokens := flow.tokens
  unfold settleRank
  rw [flow.worker, flow.begun]
  cases stopping : p.stopping with
  | true => simp [flow.stopping stopping]
  | false =>
      cases later : next.stopping with
      | true =>
          have slower : loopRank true p.worker ≤ loopRank false p.worker + 3 := by
            cases p.worker <;> simp [loopRank]
          simp only [↓reduceIte, Bool.false_eq_true]
          omega
      | false =>
          have given := tokens later
          simp only [Bool.false_eq_true, ↓reduceIte]
          omega

/-! ## The producer takes the events of a finished frame -/

def releasedCount (trace : List PipeEvent) : Nat := (takenList .sourceReleased trace).length

def completedCount (trace : List PipeEvent) : Nat := (takenList .completed trace).length

theorem Delivered.counts (delivered : Delivered trace q) :
    releasedCount trace = q.released ∧ completedCount trace = q.taken := by
  constructor
  · rw [releasedCount, delivered.released]
    simp [Ledger.deliveries]
  · rw [completedCount, delivered.completed]
    simp [Ledger.deliveries]

/-- The slot at `release` reports the oldest unreleased frame if it is published. -/
theorem PipeInvariant.releasable (invariant : PipeInvariant trace p q)
    (waiting : q.released ≤ n) (published : .published n ∈ trace) :
    (p.slots p.release).state.sourceFree = true ∧ (p.slots p.release).released = false := by
  obtain ⟨tracks, explained⟩ := invariant
  obtain ⟨begun, settled⟩ := (explained.handedOver.published n).mp published
  have inside : q.released < q.accepted := by
    have bound := tracks.ring.begunAccepted
    omega
  rw [tracks.ring.release, tracks.ring.held _ tracks.ring.takenReleased inside]
  constructor
  · refine (tracks.phases.sourceFree inside).mpr ⟨by omega, ?_⟩
    rintro ⟨running, last⟩
    obtain rfl : n = q.released := by omega
    exact settled ⟨running, last⟩
  · have fresh := tracks.ring.flag _ inside
    simpa using fresh

theorem PipeInvariant.takeable (invariant : PipeInvariant trace p q)
    (released : q.taken < q.released) (finished : .finished q.taken ∈ trace) :
    (p.slots p.take).state = .done ∧ (p.slots p.take).released = true := by
  obtain ⟨tracks, explained⟩ := invariant
  have inside : q.taken < q.accepted := Nat.lt_of_lt_of_le released
    (Nat.le_trans tracks.ring.releasedBegun tracks.ring.begunAccepted)
  rw [tracks.ring.take, tracks.ring.held _ (Nat.le_refl _) inside]
  exact ⟨(tracks.phases.done inside).mpr ((explained.handedOver.finished _).mp finished),
    (tracks.ring.flag _ inside).mpr released⟩

/-- Steps of the `take` in progress. -/
def takeRank : ProducerPc → Nat
  | .takeStore _ => 0
  | .takeComplete => 1
  | _ => 2

def completeRank (n : Nat) (trace : List PipeEvent) (p : Pipeline) : Nat :=
  3 * (n + 1 - completedCount trace) + 3 * (n + 2 - releasedCount trace) + takeRank p.producer

theorem releasedCount_append : releasedCount (trace ++ events) =
    releasedCount trace + (takenList .sourceReleased events).length := by
  simp [releasedCount]

theorem completedCount_append : completedCount (trace ++ events) =
    completedCount trace + (takenList .completed events).length := by
  simp [completedCount]

/-- A producer step other than `take`'s neither takes an event nor changes its rank. -/
theorem completeRank_quiet (silent : ∀ kind, takenList kind events = [])
    (pace : takeRank next.producer ≤ takeRank p.producer) :
    completeRank n (trace ++ events) next ≤ completeRank n trace p := by
  unfold completeRank
  rw [releasedCount_append, completedCount_append, silent, silent]
  simpa using pace

theorem Pipeline.complete_silent {index : Fin 2} {result : SpiResult} (kind : EventKind) :
    takenList kind (p.complete index result).2 = [] := rfl

theorem Pipeline.completeActive_silent {result : SpiResult} (kind : EventKind) :
    takenList kind (p.completeActive result).2 = [] := by
  unfold Pipeline.completeActive
  split <;> rfl

/-- The worker takes no events. -/
theorem Pipeline.stepWorker_silent {answers : WorkerAnswers} (kind : EventKind)
    (moved : p.stepWorker answers = some (next, events)) : takenList kind events = [] := by
  unfold Pipeline.stepWorker at moved
  split at moved
  case h_4 => split at moved <;> (cases moved; rfl)
  case h_6 round index result received pc =>
    obtain ⟨-, rfl⟩ := Prod.ext_iff.mp (Option.some.inj moved)
    dsimp only [Pipeline.stepReceipt, Pipeline.acknowledge]
    rw [takenList_append]
    split
    · rw [Pipeline.completeActive_silent]
      rfl
    · rfl
  case h_7 round index result pc =>
    obtain ⟨-, rfl⟩ := Prod.ext_iff.mp (Option.some.inj moved)
    dsimp only [Pipeline.stepCheck]
    split <;> rfl
  case h_8 round index pc =>
    obtain ⟨-, rfl⟩ := Prod.ext_iff.mp (Option.some.inj moved)
    exact Pipeline.completeActive_silent kind
  case h_9 round index result pc =>
    obtain ⟨-, rfl⟩ := Prod.ext_iff.mp (Option.some.inj moved)
    dsimp only [Pipeline.stepPublish]
    split <;> rfl
  case h_15 => cases moved
  all_goals
    obtain ⟨-, rfl⟩ := Prod.ext_iff.mp (Option.some.inj moved)
    rfl

/-- A `take` with a published frame waiting reports a release. -/
theorem PipeInvariant.take_releases (invariant : PipeInvariant trace p q)
    (waiting : releasedCount trace ≤ n) (published : .published n ∈ trace)
    (moved : p.stepProducer .take = some (next, events)) :
    next.producer = .idle ∧ releasedCount (trace ++ events) = releasedCount trace + 1 ∧
      completedCount (trace ++ events) = completedCount trace := by
  rw [invariant.explained.delivered.counts.1] at waiting
  obtain ⟨free, unreported⟩ := invariant.releasable waiting published
  cases pc : p.producer <;> simp only [Pipeline.stepProducer, pc, reduceCtorEq] at moved
  have released : p.stepTake.2 = [.took (p.slots p.release).releaseReport] ∧
      p.stepTake.1.producer = .idle := by
    simp [Pipeline.stepTake, free, unreported, pc]
  obtain ⟨rfl, rfl⟩ := Prod.ext_iff.mp (Option.some.inj moved)
  refine ⟨released.2, ?_, ?_⟩
  · rw [releasedCount_append, released.1]
    rfl
  · rw [completedCount_append, released.1]
    rfl

/-- With all frames up to `n` finished and released, `take` delivers completions. -/
theorem PipeInvariant.producer_completes {action : ProducerAction}
    (invariant : PipeInvariant trace p q) (finished : ∀ m, m ≤ n → .finished m ∈ trace)
    (released : n < releasedCount trace) (waiting : completedCount trace ≤ n)
    (moved : p.stepProducer action = some (next, events)) :
    completeRank n (trace ++ events) next ≤ completeRank n trace p ∧
      (action = .take → completeRank n (trace ++ events) next < completeRank n trace p) := by
  obtain ⟨releasedSame, completedSame⟩ := invariant.explained.delivered.counts
  rw [releasedSame] at released
  rw [completedSame] at waiting
  have room : q.released ≤ n + 2 := by
    have bound := invariant.tracks.ring.acceptedRoom
    have begun := invariant.tracks.ring.releasedBegun
    have accepted := invariant.tracks.ring.begunAccepted
    omega
  obtain ⟨done, reported⟩ := invariant.takeable (by omega) (finished q.taken waiting)
  unfold Pipeline.stepProducer at moved
  split at moved
  case h_2 pc =>
    obtain ⟨rfl, rfl⟩ := Prod.ext_iff.mp (Option.some.inj moved)
    unfold completeRank
    rw [releasedCount_append, completedCount_append, releasedSame, completedSame, pc]
    dsimp only [Pipeline.stepTake]
    split
    · rename_i available
      have inside := (invariant.tracks.release_head available.1 (by simpa using available.2)).1
      have bound := invariant.tracks.ring.acceptedRoom
      simp [takenList, PipeSlot.releaseReport, takeRank, pc]
      omega
    · simp [takenList, takeRank]
  case h_9 given pc =>
    obtain ⟨rfl, rfl⟩ := Prod.ext_iff.mp (Option.some.inj moved)
    have stored : p.stepTakeComplete =
        ({ p with producer := .takeStore (p.slots p.take).completionReport }, []) := by
      simp [Pipeline.stepTakeComplete, done, reported]
    rw [stored]
    refine ⟨completeRank_quiet (fun _ => rfl) (by simp [takeRank]), by simp⟩
  case h_10 report given pc =>
    obtain ⟨rfl, rfl⟩ := Prod.ext_iff.mp (Option.some.inj moved)
    have read : report = (q.frames q.taken).completionReport := by
      have producer := invariant.tracks.producer
      simp only [Producer, pc] at producer
      exact producer.2.2
    refine ⟨?_, by simp⟩
    unfold completeRank
    rw [releasedCount_append, completedCount_append, releasedSame, completedSame, pc]
    simp [Pipeline.stepTakeStore, takenList, read, PipeSlot.completionReport, takeRank]
    omega
  case h_11 index given pc =>
    split at moved
    · obtain ⟨rfl, rfl⟩ := Prod.ext_iff.mp (Option.some.inj moved)
      exact ⟨completeRank_quiet (fun _ => rfl) (by rw [pc]; exact Nat.le_refl 2), by simp⟩
    · split at moved <;>
        (obtain ⟨rfl, rfl⟩ := Prod.ext_iff.mp (Option.some.inj moved)
         exact ⟨completeRank_quiet (fun _ => rfl) (by rw [pc]; exact Nat.le_refl 2), by simp⟩)
  case h_12 => cases moved
  case h_3 pc =>
    obtain ⟨rfl, rfl⟩ := Prod.ext_iff.mp (Option.some.inj moved)
    exact ⟨completeRank_quiet (fun _ => rfl) (by rw [pc]; exact Nat.le_refl 2), by simp⟩
  case h_7 frame degrees cookie given pc =>
    obtain ⟨rfl, rfl⟩ := Prod.ext_iff.mp (Option.some.inj moved)
    exact ⟨completeRank_quiet (fun _ => rfl) (by rw [pc]; exact Nat.le_refl 2), by simp⟩
  case h_8 given pc =>
    obtain ⟨rfl, rfl⟩ := Prod.ext_iff.mp (Option.some.inj moved)
    exact ⟨completeRank_quiet (fun _ => rfl) (by rw [pc]; exact Nat.le_refl 2), by simp⟩
  all_goals
    rename_i pc
    split at moved <;>
      (obtain ⟨rfl, rfl⟩ := Prod.ext_iff.mp (Option.some.inj moved)
       exact ⟨completeRank_quiet (fun _ => rfl) (by simp [takeRank, pc]), by simp⟩)

/-! ## Fairness -/

/-- The worker moves, unless it has returned. -/
def WorkerMoves (p : Pipeline) (action : PipeAction) : Prop :=
  p.worker = .exited ∨ ∃ answers, action = .worker answers

def TakeCalled (_ : Pipeline) (action : PipeAction) : Prop := action = .producer .take

section
variable (path : pipelineMachine.Path past start)
  (reached : pipelineMachine.Reaches Machine.Always past start) {i j : Nat}

theorem path_member {event : PipeEvent} (later : i ≤ j) (member : event ∈ path.trace i) :
    event ∈ path.trace j :=
  path.stable (fun trace _ => event ∈ trace)
    (fun _ member => List.mem_append_left _ member) later member

include reached

theorem path_begins (moves : path.Often WorkerMoves) (accepted : n < (path.state i).accepted) :
    ∃ j, i ≤ j ∧ n < (path.state j).begun := by
  refine path.eventually (fun _ p => n < p.begun) (fun _ p => beginRank n p) moves ?_
  intro j later unmet
  obtain ⟨q, invariant⟩ := pipelineMachine_invariant (path.reaches reached j)
  have winding := pipelineMachine_winding (path.reaches reached j)
  have after := pipelineMachine_winding (path.reaches reached (j + 1))
  have inside : n < (path.state j).accepted :=
    path.stable (fun _ p => n < p.accepted)
      (fun k kept => Nat.lt_of_lt_of_le kept (pipelineMachine_mono (path.moves k)).1) later accepted
  have waiting : (path.state j).begun ≤ n := Nat.le_of_not_lt unmet
  have moved := path.moves j
  refine .inr ?_
  cases action : path.action j with
  | worker answers =>
      rw [action] at moved
      have falls := (Pipeline.stepWorker_flow moved).begins invariant.tracks winding.lastRound
        after.lastRound waiting inside
      exact ⟨Nat.le_of_lt falls, fun _ => falls⟩
  | producer action =>
      rw [action] at moved
      have flow := Pipeline.stepProducer_flow moved
      refine ⟨Nat.le_of_eq (by rw [beginRank, beginRank, flow.begun, flow.worker]), ?_⟩
      rintro (exited | ⟨answers, other⟩)
      · have lastRound := winding.lastRound
        simp only [LastRound, exited] at lastRound
        omega
      · cases other

theorem path_finishes (moves : path.Often WorkerMoves) (begun : n < (path.state i).begun) :
    ∃ j, i ≤ j ∧ .finished n ∈ path.trace j := by
  by_contra missed
  have unfinished : ∀ j, i ≤ j → .finished n ∉ path.trace j := fun j later found =>
    missed ⟨j, later, found⟩
  refine missed (path.eventually (fun trace _ => .finished n ∈ trace)
    (fun _ p => settleRank n p) moves ?_)
  intro j later _
  have inside : ∀ k, i ≤ k → n < (path.state k).begun := fun k after =>
    path.stable (fun _ p => n < p.begun)
      (fun k kept => Nat.lt_of_lt_of_le kept (pipelineMachine_mono (path.moves k)).2) after begun
  obtain ⟨q, invariant⟩ := pipelineMachine_invariant (path.reaches reached j)
  obtain ⟨_, invariantAfter⟩ := pipelineMachine_invariant (path.reaches reached (j + 1))
  have winding := pipelineMachine_winding (path.reaches reached j)
  have before := invariant.unsettled (inside j later) (unfinished j later)
  have after := invariantAfter.unsettled (inside (j + 1) (by omega)) (unfinished (j + 1) (by omega))
  have moved := path.moves j
  refine .inr ?_
  cases action : path.action j with
  | worker answers =>
      rw [action] at moved
      have falls := (Pipeline.stepWorker_flow moved).settles invariant.tracks.activeIndex
        winding.lastRound after
      exact ⟨Nat.le_of_lt falls, fun _ => falls⟩
  | producer action =>
      rw [action] at moved
      refine ⟨(Pipeline.stepProducer_flow moved).settles before after, ?_⟩
      rintro (exited | ⟨answers, other⟩)
      · have lastRound := winding.lastRound
        simp only [LastRound, exited] at lastRound
        have busy := before.busy
        simp [exited, lastRound.2.2, WorkerPc.running, WorkerPc.draining] at busy
      · cases other

theorem path_releases (takes : path.Often TakeCalled) (published : .published n ∈ path.trace i) :
    ∃ j, i ≤ j ∧ n < releasedCount (path.trace j) := by
  refine path.eventually (fun trace _ => n < releasedCount trace)
    (fun trace _ => n + 1 - releasedCount trace) takes ?_
  intro j later unmet
  obtain ⟨q, invariant⟩ := pipelineMachine_invariant (path.reaches reached j)
  have moved := path.moves j
  refine .inr ⟨?_, fun taking => ?_⟩
  · simp only [Machine.Path.trace, releasedCount_append]
    omega
  · rw [taking] at moved
    have releases := (invariant.take_releases (Nat.le_of_not_lt unmet)
      (path_member path later published) moved).2.1
    simp only [Machine.Path.trace, releases]
    omega

theorem path_completes (takes : path.Often TakeCalled)
    (finished : ∀ m, m ≤ n → .finished m ∈ path.trace i)
    (released : n < releasedCount (path.trace i)) :
    ∃ j, i ≤ j ∧ n < completedCount (path.trace j) := by
  refine path.eventually (fun trace _ => n < completedCount trace) (completeRank n) takes ?_
  intro j later unmet
  obtain ⟨q, invariant⟩ := pipelineMachine_invariant (path.reaches reached j)
  have below : n < releasedCount (path.trace j) :=
    path.stable (fun trace _ => n < releasedCount trace)
      (fun k kept => by
        simp only [Machine.Path.trace, releasedCount_append]
        omega) later released
  have moved := path.moves j
  refine .inr ?_
  cases action : path.action j with
  | worker answers =>
      rw [action] at moved
      refine ⟨completeRank_quiet (fun kind => Pipeline.stepWorker_silent kind moved) ?_, by
        simp [TakeCalled]⟩
      exact Nat.le_of_eq (congrArg takeRank (Pipeline.stepWorker_flow moved).producer.2)
  | producer action =>
      rw [action] at moved
      obtain ⟨paced, falls⟩ := invariant.producer_completes
        (fun m low => path_member path later (finished m low)) below
        (Nat.le_of_not_lt unmet) moved
      exact ⟨paced, fun taking => falls (by simpa [TakeCalled] using taking)⟩

theorem path_finishes_all (moves : path.Often WorkerMoves) (accepted : n < (path.state i).accepted) :
    ∃ j, i ≤ j ∧ ∀ m, m ≤ n → .finished m ∈ path.trace j := by
  induction n with
  | zero =>
      obtain ⟨j, later, begun⟩ := path_begins path reached moves accepted
      obtain ⟨k, after, finished⟩ := path_finishes path reached moves begun
      refine ⟨k, by omega, fun m low => ?_⟩
      obtain rfl : m = 0 := by omega
      exact finished
  | succ n ih =>
      obtain ⟨earlier, reach, others⟩ := ih (by omega)
      obtain ⟨j, later, begun⟩ := path_begins path reached moves accepted
      obtain ⟨k, after, finished⟩ := path_finishes path reached moves begun
      refine ⟨max earlier k, by omega, fun m low => ?_⟩
      rcases Nat.lt_or_ge n m with last | before
      · obtain rfl : m = n + 1 := by omega
        exact path_member path (Nat.le_max_right _ _) finished
      · exact path_member path (Nat.le_max_left _ _) (others m before)

theorem path_completes_accepted (moves : path.Often WorkerMoves) (takes : path.Often TakeCalled)
    (accepted : n < (path.state 0).accepted) : ∃ j, n < completedCount (path.trace j) := by
  obtain ⟨first, _, finished⟩ := path_finishes_all path reached moves accepted
  obtain ⟨_, settled⟩ := pipelineMachine_invariant (path.reaches reached first)
  have published : .published n ∈ path.trace first := by
    obtain ⟨begun, past, _⟩ :=
      (settled.explained.handedOver.finished n).mp (finished n (Nat.le_refl n))
    exact (settled.explained.handedOver.published n).mpr ⟨begun, past⟩
  obtain ⟨second, later, released⟩ := path_releases path reached takes published
  obtain ⟨third, _, completed⟩ := path_completes path reached takes
    (fun m low => path_member path later (finished m low)) released
  exact ⟨third, completed⟩

/-- Under fair scheduling every accepted frame is completed. -/
theorem path_delivers (moves : path.Often WorkerMoves) (takes : path.Often TakeCalled)
    {delivery : Nat × Nat} (accepted : delivery ∈ acceptedList past) :
    ∃ j, delivery ∈ takenList .completed (path.trace j) := by
  obtain ⟨q, invariant⟩ := pipelineMachine_invariant reached
  have listed := accepted
  rw [invariant.explained.delivered.accepted] at listed
  obtain ⟨n, member, rfl⟩ := List.mem_map.mp listed
  have inside : n < (path.state 0).accepted := by
    rw [path.begins, invariant.tracks.ring.count]
    exact List.mem_range.mp member
  obtain ⟨third, completed⟩ := path_completes_accepted path reached moves takes inside
  obtain ⟨last, final⟩ := pipelineMachine_invariant (path.reaches reached third)
  have kept := path.stable (fun trace _ => (n, (q.frames n).cookie) ∈ acceptedList trace)
    (fun k known => by
      simp only [Machine.Path.trace, acceptedList_append]
      exact List.mem_append_left _ known) (Nat.zero_le third) accepted
  rw [final.explained.delivered.accepted] at kept
  obtain ⟨m, _, same⟩ := List.mem_map.mp kept
  obtain ⟨rfl, cookie⟩ := Prod.mk.inj same
  refine ⟨third, ?_⟩
  rw [final.explained.delivered.counts.2] at completed
  rw [final.explained.delivered.completed, ← cookie]
  exact List.mem_map.mpr ⟨m, List.mem_range.mpr completed, rfl⟩

end

/-- Exactly-once, in-order delivery.  In every run the completions taken are a
prefix of the releases taken, which are a prefix of the accepted frames, each
under its own number and cookie; every event respects the handovers before it;
and every fair continuation takes the completion of every accepted frame. -/
theorem pipeline_delivers_exactly_once
    (reached : pipelineMachine.Reaches Machine.Always trace p) :
    Guarded PipeSafe trace ∧
    (acceptedList trace).map Prod.fst = List.range p.accepted ∧
    takenList .completed trace <+: takenList .sourceReleased trace ∧
    takenList .sourceReleased trace <+: acceptedList trace ∧
    ∀ path : pipelineMachine.Path trace p, path.Often WorkerMoves → path.Often TakeCalled →
      ∀ delivery ∈ acceptedList trace, ∃ i, delivery ∈ takenList .completed (path.trace i) := by
  obtain ⟨q, invariant⟩ := pipelineMachine_invariant reached
  have delivered := invariant.explained.delivered
  have ring := invariant.tracks.ring
  refine ⟨invariant.explained.guarded, ?_, ?_, ?_, fun path moves takes delivery accepted =>
    path_delivers path reached moves takes accepted⟩
  · rw [delivered.accepted, ring.count]
    simp [Ledger.deliveries, Function.comp_def]
  · rw [delivered.completed, delivered.released]
    exact q.deliveries_prefix ring.takenReleased
  · rw [delivered.released, delivered.accepted]
    exact q.deliveries_prefix (Nat.le_trans ring.releasedBegun ring.begunAccepted)

/-- Two frames: the first one's receipt arrives with the second one's submit,
whose own transfer is drained. -/
def overlapActions : List PipeAction :=
  let frame : Rgb565Frame := { data := 4096, capacity := 64, stride := 8, width := 4, height := 4 }
  let submit (cookie : Nat) : List PipeAction :=
    .producer (.submit frame 0 cookie) :: List.replicate 4 (.producer (.resume true))
  let worker (receipt : Bool) : PipeAction :=
    .worker { submit := .ok, receipt, drain := .ok, elapsed := 1 }
  submit 7 ++ submit 8 ++ List.replicate 8 (worker false) ++ List.replicate 7 (worker true) ++
    List.replicate 20 (worker false) ++
    [.producer .take, .producer .take, .producer .take, .producer (.resume true),
      .producer (.resume true)]

theorem pipeline_delivers_exactly_once_overlap :
    ∃ trace p, pipelineMachine.execute Pipeline.created overlapActions = some (p, trace) ∧
      takenList .completed trace = [(0, 7)] ∧
      takenList .completed trace <+: takenList .sourceReleased trace := by
  obtain ⟨last, executed⟩ : ∃ last, pipelineMachine.execute Pipeline.created overlapActions =
      some last := Option.isSome_iff_exists.mp (by decide)
  have reached := (Machine.Reaches.start rfl).execute executed
  have completed : (pipelineMachine.execute Pipeline.created overlapActions).map
      (fun last => takenList .completed last.2) = some [(0, 7)] := by decide
  rw [executed] at completed
  exact ⟨last.2, last.1, executed, Option.some.inj completed,
    (pipeline_delivers_exactly_once reached).2.2.1⟩

end LvglAic.Spi
