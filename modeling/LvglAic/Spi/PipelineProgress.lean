import LvglAic.Machine.Progress
import LvglAic.Spi.PipelineDelivery

namespace LvglAic.Spi

variable {trace events : List PipeEvent} {p next : Pipeline} {q : Ledger}

/-! # The last round

After `stopping` is set no frame is accepted any more, and the two turns of the
last round are enough for the frames that still wait. -/

/-- The producer is past the admission test of a submit. -/
def ProducerPc.submitting : ProducerPc → Bool
  | .submitFault _ _ _ | .submitState _ _ _ | .submitStore _ _ _ => true
  | _ => false

def LastRound (p : Pipeline) : Prop :=
  match p.worker with
  | .load round | .mark round =>
      round.turn < 2 ∧
        (round.last = true → p.stopping = true ∧ p.accepted + round.turn ≤ p.begun + 2)
  | .faultLoad round _ | .submit round _ | .receipt round _ _ _ | .check round _ _
  | .quarantine round _ | .publish round _ _ =>
      round.turn < 2 ∧
        (round.last = true → p.stopping = true ∧ p.accepted + round.turn ≤ p.begun + 1)
  | .drain last _ | .drainFault last _ | .drainStore last _ _ =>
      last = true → p.stopping = true ∧ p.accepted ≤ p.begun
  | .exit | .exited => p.stopping = true ∧ p.accepted ≤ p.begun ∧ p.active = none
  | .wake | .stopLoad _ => True

structure Winding (p : Pipeline) : Prop where
  closedAdmission : p.stopping = true → p.producer.submitting = false
  lastRound : LastRound p

/-- While frames wait, the head of the queue is QUEUED. -/
theorem Tracks.head_queued (tracks : Tracks p q) (waiting : p.begun < p.accepted) :
    (p.slots p.run).state = .queued := by
  rw [tracks.ring.begun, tracks.ring.count] at waiting
  have low := Nat.le_trans tracks.ring.takenReleased tracks.ring.releasedBegun
  rw [tracks.ring.run, tracks.ring.held _ low waiting]
  exact (tracks.phases.queued waiting).mpr (Nat.le_refl _)

/-- What a worker step other than `wake` and `mark` leaves alone. -/
structure SameCounts (p next : Pipeline) : Prop where
  accepted : next.accepted = p.accepted
  begun : next.begun = p.begun
  wake : next.wake = p.wake
  stopping : next.stopping = p.stopping
  producer : next.producer = p.producer

theorem Pipeline.complete_counts {index : Fin 2} {result : SpiResult} :
    SameCounts p (p.complete index result).1 := ⟨rfl, rfl, rfl, rfl, rfl⟩

theorem Pipeline.completeActive_counts {result : SpiResult} :
    SameCounts p (p.completeActive result).1 := by
  unfold Pipeline.completeActive
  split <;> exact ⟨rfl, rfl, rfl, rfl, rfl⟩

theorem Pipeline.acknowledge_counts {received : Bool} :
    SameCounts p (p.acknowledge received).1 := by
  unfold Pipeline.acknowledge
  split
  · exact Pipeline.completeActive_counts
  · exact ⟨rfl, rfl, rfl, rfl, rfl⟩

theorem Pipeline.enterDrain_counts {last : Bool} : SameCounts p (p.enterDrain last) := by
  unfold Pipeline.enterDrain
  split <;> exact ⟨rfl, rfl, rfl, rfl, rfl⟩

theorem Pipeline.endRound_counts {round : Round} : SameCounts p (p.endRound round) := by
  unfold Pipeline.endRound
  split
  · exact Pipeline.enterDrain_counts
  · exact ⟨rfl, rfl, rfl, rfl, rfl⟩

theorem Pipeline.nextTurn_counts {round : Round} : SameCounts p (p.nextTurn round) := by
  unfold Pipeline.nextTurn
  dsimp only
  split
  · exact ⟨rfl, rfl, rfl, rfl, rfl⟩
  · exact Pipeline.endRound_counts

theorem Pipeline.stepReceipt_counts {round : Round} {index : Fin 2} {result : SpiResult}
    {received : Bool} {answers : WorkerAnswers} :
    SameCounts p (p.stepReceipt round index result received answers).1 := by
  have acknowledged : SameCounts _ ((p.record index result answers.elapsed).acknowledge received).1 :=
    Pipeline.acknowledge_counts
  exact ⟨acknowledged.accepted, acknowledged.begun, acknowledged.wake, acknowledged.stopping,
    acknowledged.producer⟩

theorem Pipeline.stepCheck_counts {round : Round} {index : Fin 2} {result : SpiResult} :
    SameCounts p (p.stepCheck round index result).1 := by
  unfold Pipeline.stepCheck
  dsimp only
  split <;> exact ⟨rfl, rfl, rfl, rfl, rfl⟩

theorem Pipeline.stepQuarantine_counts {round : Round} {index : Fin 2} :
    SameCounts p (p.stepQuarantine round index).1 := by
  have completed : SameCounts p (p.completeActive .fault).1 := Pipeline.completeActive_counts
  exact ⟨completed.accepted, completed.begun, completed.wake, completed.stopping,
    completed.producer⟩

theorem Pipeline.stepPublish_counts {round : Round} {index : Fin 2} {result : SpiResult} :
    SameCounts p (p.stepPublish round index result).1 := by
  unfold Pipeline.stepPublish
  dsimp only
  split
  · have turned : SameCounts _ (Pipeline.nextTurn { p.setSlot index
        { p.slots index with state := .submitted } with active := some index } round) :=
      Pipeline.nextTurn_counts
    exact ⟨turned.accepted, turned.begun, turned.wake, turned.stopping, turned.producer⟩
  · have turned : SameCounts _ ((p.complete index result).1.nextTurn round) :=
      Pipeline.nextTurn_counts
    exact ⟨turned.accepted, turned.begun, turned.wake, turned.stopping, turned.producer⟩

theorem Pipeline.stepLoad_counts {round : Round} : SameCounts p (p.stepLoad round) := by
  unfold Pipeline.stepLoad
  split
  · exact ⟨rfl, rfl, rfl, rfl, rfl⟩
  · exact Pipeline.endRound_counts

theorem Pipeline.stepStopLoad_counts {round : Round} : SameCounts p (p.stepStopLoad round) := by
  unfold Pipeline.stepStopLoad
  split
  · exact ⟨rfl, rfl, rfl, rfl, rfl⟩
  · split
    · exact Pipeline.enterDrain_counts
    · exact ⟨rfl, rfl, rfl, rfl, rfl⟩

/-! ## The worker's control flow

Every worker step falls under one case of `Flow`: where control goes, and which
counters move. -/

/-- Where control goes after a round of `run_next`. -/
inductive RoundEnds (next : Pipeline) (round : Round) : Prop where
  | stop (regular : round.last = false) (after : next.worker = .stopLoad round)
  | exit (last : round.last = true) (after : next.worker = .exit) (idle : next.active = none)
  | drain (last : round.last = true) (index : Fin 2) (after : next.worker = .drain true index)

/-- The round of the frame in progress, and the steps until its handover. -/
def WorkerPc.frame : WorkerPc → Option (Round × Nat)
  | .faultLoad round _ => some (round, 5)
  | .submit round _ => some (round, 4)
  | .receipt round _ _ _ => some (round, 3)
  | .check round _ _ => some (round, 2)
  | .quarantine round _ => some (round, 1)
  | .publish round _ _ => some (round, 0)
  | _ => none

inductive Flow (p next : Pipeline) : Prop where
  | wake (pc : p.worker = .wake)
      (after : next.worker = .load { last := false, turn := 0, woke := p.wake != 0, ran := false })
      (token : next.wake = p.wake - 1) (accepted : next.accepted = p.accepted)
      (begun : next.begun = p.begun) (stopping : next.stopping = p.stopping)
      (producer : next.producer = p.producer)
  | queued (round : Round) (pc : p.worker = .load round) (after : next.worker = .mark round)
      (counts : SameCounts p next)
  | unqueued (round : Round) (pc : p.worker = .load round)
      (empty : (p.slots p.run).state ≠ .queued) (ends : RoundEnds next round)
      (counts : SameCounts p next)
  | mark (round : Round) (pc : p.worker = .mark round)
      (after : next.worker.frame = some (round, 5)) (begun : next.begun = p.begun + 1)
      (accepted : next.accepted = p.accepted) (wake : next.wake = p.wake)
      (stopping : next.stopping = p.stopping) (producer : next.producer = p.producer)
  | frame (round : Round) (stage later : Nat) (pc : p.worker.frame = some (round, stage))
      (after : next.worker.frame = some (round, later)) (closer : later < stage)
      (counts : SameCounts p next)
  | turn (round : Round) (pc : p.worker.frame = some (round, 0)) (short : round.turn + 1 < 2)
      (after : next.worker = .load { round with turn := round.turn + 1, ran := true })
      (counts : SameCounts p next)
  | past (round : Round) (pc : p.worker.frame = some (round, 0)) (spent : ¬round.turn + 1 < 2)
      (ends : RoundEnds next { round with turn := round.turn + 1, ran := true })
      (counts : SameCounts p next)
  | stopped (round : Round) (pc : p.worker = .stopLoad round) (stopping : p.stopping = true)
      (after : next.worker = .load { round with last := true, turn := 0 })
      (counts : SameCounts p next)
  | idle (round : Round) (pc : p.worker = .stopLoad round)
      (after : next.worker = .wake ∧ next.active = none ∨ ∃ index, next.worker = .drain false index)
      (counts : SameCounts p next)
  | again (round : Round) (pc : p.worker = .stopLoad round) (running : p.stopping = false)
      (busy : ¬(round.ran = false ∧ round.woke = false)) (after : next.worker = .wake)
      (counts : SameCounts p next)
  | drain (last : Bool) (index : Fin 2) (pc : p.worker = .drain last index)
      (after : next.worker = .drainFault last index ∨
        ∃ result, next.worker = .drainStore last index result)
      (counts : SameCounts p next)
  | drainFault (last : Bool) (index : Fin 2) (pc : p.worker = .drainFault last index)
      (after : ∃ result, next.worker = .drainStore last index result)
      (counts : SameCounts p next)
  | drainStore (last : Bool) (index : Fin 2) (result : SpiResult)
      (pc : p.worker = .drainStore last index result)
      (after : next.worker = if last then .exit else .wake) (active : next.active = p.active)
      (counts : SameCounts p next)
  | exit (pc : p.worker = .exit) (after : next.worker = .exited) (active : next.active = p.active)
      (counts : SameCounts p next)

theorem Pipeline.endRound_ends {round : Round} : RoundEnds (p.endRound round) round := by
  unfold Pipeline.endRound
  split
  · rename_i last
    unfold Pipeline.enterDrain
    split
    · rename_i idle
      exact .exit last rfl idle
    · rename_i index _
      exact .drain last index rfl
  · rename_i regular
    exact .stop (by simpa using regular) rfl

theorem Flow.nextTurn {round : Round} (pc : p.worker.frame = some (round, 0))
    (counts : SameCounts p next) : Flow p (next.nextTurn round) := by
  have turned : SameCounts next (next.nextTurn round) := Pipeline.nextTurn_counts
  have total : SameCounts p (next.nextTurn round) := {
    accepted := turned.accepted.trans counts.accepted
    begun := turned.begun.trans counts.begun
    wake := turned.wake.trans counts.wake
    stopping := turned.stopping.trans counts.stopping
    producer := turned.producer.trans counts.producer }
  by_cases short : round.turn + 1 < 2
  · exact .turn round pc short (by simp [Pipeline.nextTurn, short]) total
  · refine .past round pc short ?_ total
    simp only [Pipeline.nextTurn, short, ↓reduceIte]
    exact Pipeline.endRound_ends

theorem Pipeline.stepWorker_flow {answers : WorkerAnswers}
    (moved : p.stepWorker answers = some (next, events)) : Flow p next := by
  unfold Pipeline.stepWorker at moved
  split at moved
  case h_1 pc =>
    obtain ⟨rfl, -⟩ := Prod.ext_iff.mp (Option.some.inj moved)
    exact .wake pc rfl rfl rfl rfl rfl rfl
  case h_2 round pc =>
    obtain ⟨rfl, -⟩ := Prod.ext_iff.mp (Option.some.inj moved)
    dsimp only [Pipeline.stepLoad]
    split
    · exact .queued round pc rfl ⟨rfl, rfl, rfl, rfl, rfl⟩
    · rename_i empty
      exact .unqueued round pc empty Pipeline.endRound_ends Pipeline.endRound_counts
  case h_3 round pc =>
    obtain ⟨rfl, -⟩ := Prod.ext_iff.mp (Option.some.inj moved)
    exact .mark round pc rfl rfl rfl rfl rfl rfl
  case h_4 round index pc =>
    have stage : p.worker.frame = some (round, 5) := by rw [pc]; rfl
    split at moved
    · obtain ⟨rfl, -⟩ := Prod.ext_iff.mp (Option.some.inj moved)
      exact .frame round 5 3 stage rfl (by decide) ⟨rfl, rfl, rfl, rfl, rfl⟩
    · obtain ⟨rfl, -⟩ := Prod.ext_iff.mp (Option.some.inj moved)
      exact .frame round 5 4 stage rfl (by decide) ⟨rfl, rfl, rfl, rfl, rfl⟩
  case h_5 round index pc =>
    obtain ⟨rfl, -⟩ := Prod.ext_iff.mp (Option.some.inj moved)
    exact .frame round 4 3 (by rw [pc]; rfl) rfl (by decide) ⟨rfl, rfl, rfl, rfl, rfl⟩
  case h_6 round index result received pc =>
    obtain ⟨rfl, -⟩ := Prod.ext_iff.mp (Option.some.inj moved)
    exact .frame round 3 2 (by rw [pc]; rfl) rfl (by decide) Pipeline.stepReceipt_counts
  case h_7 round index result pc =>
    obtain ⟨rfl, -⟩ := Prod.ext_iff.mp (Option.some.inj moved)
    have counts : SameCounts p (p.stepCheck round index result).1 := Pipeline.stepCheck_counts
    have stage : p.worker.frame = some (round, 2) := by rw [pc]; rfl
    cases violation : p.violates result with
    | true =>
        refine .frame round 2 1 stage ?_ (by decide) counts
        simp [Pipeline.stepCheck, violation, WorkerPc.frame]
    | false =>
        refine .frame round 2 0 stage ?_ (by decide) counts
        simp [Pipeline.stepCheck, violation, WorkerPc.frame]
  case h_8 round index pc =>
    obtain ⟨rfl, -⟩ := Prod.ext_iff.mp (Option.some.inj moved)
    exact .frame round 1 0 (by rw [pc]; rfl) rfl (by decide) Pipeline.stepQuarantine_counts
  case h_9 round index result pc =>
    obtain ⟨rfl, -⟩ := Prod.ext_iff.mp (Option.some.inj moved)
    have stage : p.worker.frame = some (round, 0) := by rw [pc]; rfl
    dsimp only [Pipeline.stepPublish]
    split
    · exact .nextTurn stage ⟨rfl, rfl, rfl, rfl, rfl⟩
    · exact .nextTurn stage Pipeline.complete_counts
  case h_10 round pc =>
    obtain ⟨rfl, -⟩ := Prod.ext_iff.mp (Option.some.inj moved)
    dsimp only [Pipeline.stepStopLoad]
    split
    · rename_i stopping
      exact .stopped round pc stopping rfl ⟨rfl, rfl, rfl, rfl, rfl⟩
    · rename_i running
      split
      · refine .idle round pc ?_ Pipeline.enterDrain_counts
        unfold Pipeline.enterDrain
        split
        · rename_i idle
          exact .inl ⟨rfl, idle⟩
        · rename_i index _
          exact .inr ⟨index, rfl⟩
      · rename_i busy
        exact .again round pc (by simpa using running) busy rfl ⟨rfl, rfl, rfl, rfl, rfl⟩
  case h_11 last index pc =>
    obtain ⟨rfl, -⟩ := Prod.ext_iff.mp (Option.some.inj moved)
    refine .drain last index pc ?_ ⟨rfl, rfl, rfl, rfl, rfl⟩
    dsimp only [Pipeline.stepDrain]
    split
    · exact .inr ⟨_, rfl⟩
    · exact .inl rfl
  case h_12 last index pc =>
    obtain ⟨rfl, -⟩ := Prod.ext_iff.mp (Option.some.inj moved)
    exact .drainFault last index pc ⟨_, rfl⟩ ⟨rfl, rfl, rfl, rfl, rfl⟩
  case h_13 last index result pc =>
    obtain ⟨rfl, -⟩ := Prod.ext_iff.mp (Option.some.inj moved)
    exact .drainStore last index result pc rfl rfl ⟨rfl, rfl, rfl, rfl, rfl⟩
  case h_14 pc =>
    obtain ⟨rfl, -⟩ := Prod.ext_iff.mp (Option.some.inj moved)
    exact .exit pc rfl rfl ⟨rfl, rfl, rfl, rfl, rfl⟩
  case h_15 => cases moved

/-! ## The last round -/

theorem LastRound.frame {round : Round} {stage : Nat}
    (pc : p.worker.frame = some (round, stage)) :
    LastRound p ↔ round.turn < 2 ∧
      (round.last = true → p.stopping = true ∧ p.accepted + round.turn ≤ p.begun + 1) := by
  unfold LastRound
  unfold WorkerPc.frame at pc
  split at pc <;> simp_all

theorem RoundEnds.lastRound {round : Round} (ends : RoundEnds next round)
    (served : round.last = true → next.stopping = true ∧ next.accepted ≤ next.begun) :
    LastRound next := by
  rcases ends with ⟨_, after⟩ | ⟨last, after, idle⟩ | ⟨last, index, after⟩
  · simp [LastRound, after]
  · simpa [LastRound, after, idle] using served last
  · simpa [LastRound, after] using served last

theorem Flow.lastRound (flow : Flow p next) (tracks : Tracks p q) (drained : ActiveIndex p q)
    (before : LastRound p) : LastRound next := by
  cases flow with
  | wake pc after => simp [LastRound, after]
  | queued round pc after counts =>
      simp only [LastRound, pc] at before
      simpa [LastRound, after, counts.accepted, counts.begun, counts.stopping] using before
  | unqueued round pc empty ends counts =>
      simp only [LastRound, pc] at before
      refine ends.lastRound fun last => ?_
      rw [counts.stopping, counts.accepted, counts.begun]
      refine ⟨(before.2 last).1, ?_⟩
      by_contra waiting
      exact empty (tracks.head_queued (by omega))
  | mark round pc after begun accepted wake stopping =>
      simp only [LastRound, pc] at before
      rw [LastRound.frame after, begun, accepted, stopping]
      refine ⟨before.1, fun last => ⟨(before.2 last).1, ?_⟩⟩
      have bound := (before.2 last).2
      omega
  | frame round stage later pc after closer counts =>
      rw [LastRound.frame pc] at before
      rwa [LastRound.frame after, counts.accepted, counts.begun, counts.stopping]
  | turn round pc short after counts =>
      rw [LastRound.frame pc] at before
      simp only [LastRound, after, counts.accepted, counts.begun, counts.stopping]
      refine ⟨short, fun last => ⟨(before.2 last).1, ?_⟩⟩
      have bound := (before.2 last).2
      omega
  | past round pc spent ends counts =>
      rw [LastRound.frame pc] at before
      refine ends.lastRound fun last => ?_
      rw [counts.stopping, counts.accepted, counts.begun]
      have bound := (before.2 last).2
      exact ⟨(before.2 last).1, by omega⟩
  | stopped round pc stopping after counts =>
      simp only [LastRound, after, counts.accepted, counts.begun, counts.stopping]
      refine ⟨by simp, fun _ => ⟨stopping, ?_⟩⟩
      have room := tracks.ring.acceptedRoom
      have taken := tracks.ring.takenReleased
      have released := tracks.ring.releasedBegun
      rw [tracks.ring.count, tracks.ring.begun]
      omega
  | idle round pc after counts =>
      rcases after with ⟨after, _⟩ | ⟨index, after⟩ <;> simp [LastRound, after]
  | again round pc running busy after counts => simp [LastRound, after]
  | drain last index pc after counts =>
      simp only [LastRound, pc] at before
      rcases after with after | ⟨result, after⟩ <;>
        simpa [LastRound, after, counts.accepted, counts.begun, counts.stopping] using before
  | drainFault last index pc after counts =>
      obtain ⟨result, after⟩ := after
      simp only [LastRound, pc] at before
      simpa [LastRound, after, counts.accepted, counts.begun, counts.stopping] using before
  | drainStore last index result pc after active counts =>
      simp only [LastRound, pc] at before
      simp only [ActiveIndex, pc] at drained
      cases last with
      | true => simpa [LastRound, after, counts.accepted, counts.begun, counts.stopping, active,
          drained.1] using before
      | false => simp [LastRound, after]
  | exit pc after active counts =>
      simp only [LastRound, pc] at before
      simpa [LastRound, after, counts.accepted, counts.begun, counts.stopping, active] using before

/-! ## The producer's side -/

/-- A semaphore give is on its way. -/
def ProducerPc.gives : ProducerPc → Nat
  | .give => 1
  | _ => 0

structure ProducerFlow (p next : Pipeline) : Prop where
  worker : next.worker = p.worker
  begun : next.begun = p.begun
  active : next.active = p.active
  stopping : p.stopping = true → next.stopping = true
  accepted : next.accepted = p.accepted ∨
    (p.producer.submitting = true ∧ next.accepted = p.accepted + 1)
  tokens : next.stopping = false →
    next.wake + next.producer.gives + p.accepted ≤ p.wake + p.producer.gives + next.accepted
  admission : next.stopping = true → next.producer.submitting = true →
    p.stopping = true ∧ p.producer.submitting = true

theorem Pipeline.stepProducer_flow {action : ProducerAction}
    (moved : p.stepProducer action = some (next, events)) : ProducerFlow p next := by
  unfold Pipeline.stepProducer at moved
  split at moved
  case h_1 frame degrees cookie pc =>
    split at moved
    · obtain ⟨rfl, -⟩ := Prod.ext_iff.mp (Option.some.inj moved)
      exact ⟨rfl, rfl, rfl, id, .inl rfl, by simp, fun stopping busy => ⟨stopping, busy⟩⟩
    · obtain ⟨rfl, -⟩ := Prod.ext_iff.mp (Option.some.inj moved)
      exact ⟨rfl, rfl, rfl, id, .inl rfl, by simp [ProducerPc.gives], by simp_all⟩
  case h_2 pc =>
    obtain ⟨rfl, -⟩ := Prod.ext_iff.mp (Option.some.inj moved)
    dsimp only [Pipeline.stepTake]
    split
    · exact ⟨rfl, rfl, rfl, id, .inl rfl, by simp, fun stopping busy => ⟨stopping, busy⟩⟩
    · exact ⟨rfl, rfl, rfl, id, .inl rfl, by simp [ProducerPc.gives], by
        simp [ProducerPc.submitting]⟩
  case h_3 pc =>
    obtain ⟨rfl, -⟩ := Prod.ext_iff.mp (Option.some.inj moved)
    exact ⟨rfl, rfl, rfl, fun _ => rfl, .inl rfl, by simp, by simp [ProducerPc.submitting]⟩
  case h_4 pc =>
    split at moved
    · obtain ⟨rfl, -⟩ := Prod.ext_iff.mp (Option.some.inj moved)
      exact ⟨rfl, rfl, rfl, id, .inl rfl, by simp [ProducerPc.gives], by
        simp [ProducerPc.submitting]⟩
    · obtain ⟨rfl, -⟩ := Prod.ext_iff.mp (Option.some.inj moved)
      exact ⟨rfl, rfl, rfl, id, .inl rfl, by simp, fun stopping busy => ⟨stopping, busy⟩⟩
  case h_5 frame degrees cookie given pc =>
    split at moved
    · obtain ⟨rfl, -⟩ := Prod.ext_iff.mp (Option.some.inj moved)
      exact ⟨rfl, rfl, rfl, id, .inl rfl, by simp [ProducerPc.gives], by
        simp [ProducerPc.submitting]⟩
    · obtain ⟨rfl, -⟩ := Prod.ext_iff.mp (Option.some.inj moved)
      exact ⟨rfl, rfl, rfl, id, .inl rfl, by simp [ProducerPc.gives], fun stopping _ =>
        ⟨stopping, by rw [pc]; rfl⟩⟩
  case h_6 frame degrees cookie given pc =>
    split at moved
    · obtain ⟨rfl, -⟩ := Prod.ext_iff.mp (Option.some.inj moved)
      exact ⟨rfl, rfl, rfl, id, .inl rfl, by simp [ProducerPc.gives], by
        simp [ProducerPc.submitting]⟩
    · obtain ⟨rfl, -⟩ := Prod.ext_iff.mp (Option.some.inj moved)
      exact ⟨rfl, rfl, rfl, id, .inl rfl, by simp [ProducerPc.gives], fun stopping _ =>
        ⟨stopping, by rw [pc]; rfl⟩⟩
  case h_7 frame degrees cookie given pc =>
    obtain ⟨rfl, -⟩ := Prod.ext_iff.mp (Option.some.inj moved)
    refine ⟨rfl, rfl, rfl, id, .inr ⟨by rw [pc]; rfl, rfl⟩, fun _ => ?_, by
      simp [Pipeline.stepSubmitStore, ProducerPc.submitting]⟩
    simp only [Pipeline.stepSubmitStore, Pipeline.setSlot_wake, ProducerPc.gives, pc]
    omega
  case h_8 given pc =>
    obtain ⟨rfl, -⟩ := Prod.ext_iff.mp (Option.some.inj moved)
    refine ⟨rfl, rfl, rfl, id, .inl rfl, fun _ => ?_, by simp [ProducerPc.submitting]⟩
    cases given <;> simp [pc, ProducerPc.gives]
  case h_9 given pc =>
    obtain ⟨rfl, -⟩ := Prod.ext_iff.mp (Option.some.inj moved)
    dsimp only [Pipeline.stepTakeComplete]
    split <;> exact ⟨rfl, rfl, rfl, id, .inl rfl, by simp [ProducerPc.gives], by
      simp [ProducerPc.submitting]⟩
  case h_10 report given pc =>
    obtain ⟨rfl, -⟩ := Prod.ext_iff.mp (Option.some.inj moved)
    exact ⟨rfl, rfl, rfl, id, .inl rfl, by simp [Pipeline.stepTakeStore, ProducerPc.gives], by
      simp [Pipeline.stepTakeStore, ProducerPc.submitting]⟩
  case h_11 index given pc =>
    split at moved
    · obtain ⟨rfl, -⟩ := Prod.ext_iff.mp (Option.some.inj moved)
      exact ⟨rfl, rfl, rfl, id, .inl rfl, by simp [ProducerPc.gives], by
        simp [ProducerPc.submitting]⟩
    · split at moved <;>
        (obtain ⟨rfl, -⟩ := Prod.ext_iff.mp (Option.some.inj moved)
         exact ⟨rfl, rfl, rfl, id, .inl rfl, by simp [ProducerPc.gives], by
           simp [ProducerPc.submitting]⟩)
  case h_12 => cases moved

theorem LastRound.congr (before : LastRound p) (worker : next.worker = p.worker)
    (begun : next.begun = p.begun) (active : next.active = p.active)
    (stopped : p.stopping = true → next.stopping = true ∧ next.accepted = p.accepted) :
    LastRound next := by
  unfold LastRound at *
  rw [worker, begun, active]
  split
  all_goals rename_i pc; simp only [pc] at before
  all_goals first
    | exact ⟨before.1, fun last => by
        obtain ⟨stopping, bound⟩ := before.2 last
        exact ⟨(stopped stopping).1, (stopped stopping).2 ▸ bound⟩⟩
    | exact fun last => ⟨(stopped (before last).1).1, (stopped (before last).1).2 ▸ (before last).2⟩
    | exact ⟨(stopped before.1).1, (stopped before.1).2 ▸ before.2.1, before.2.2⟩
    | trivial

theorem Winding.stepProducer (winding : Winding p) (flow : ProducerFlow p next) :
    Winding next where
  closedAdmission := fun stopping => by
    by_contra busy
    obtain ⟨stopped, submitting⟩ := flow.admission stopping (by simpa using busy)
    rw [winding.closedAdmission stopped] at submitting
    cases submitting
  lastRound := winding.lastRound.congr flow.worker flow.begun flow.active fun stopped =>
    ⟨flow.stopping stopped, flow.accepted.resolve_right fun accepting => by
      rw [winding.closedAdmission stopped] at accepting
      cases accepting.1⟩

theorem Flow.producer (flow : Flow p next) :
    next.stopping = p.stopping ∧ next.producer = p.producer := by
  cases flow with
  | wake pc after token accepted begun stopping producer => exact ⟨stopping, producer⟩
  | mark round pc after begun accepted wake stopping producer => exact ⟨stopping, producer⟩
  | _ => exact ⟨SameCounts.stopping ‹_›, SameCounts.producer ‹_›⟩

theorem pipelineMachine_winding (reached : pipelineMachine.Reaches Machine.Always trace p) :
    Winding p := by
  induction reached with
  | start initial =>
      obtain rfl := initial
      exact ⟨by simp [Pipeline.created], trivial⟩
  | @step trace events before after action reached _ moved ih =>
      cases action with
      | producer action => exact ih.stepProducer (Pipeline.stepProducer_flow moved)
      | worker answers =>
          have flow := Pipeline.stepWorker_flow moved
          obtain ⟨q, invariant⟩ := pipelineMachine_invariant reached
          obtain ⟨stopping, producer⟩ := flow.producer
          exact ⟨by rw [stopping, producer]; exact ih.closedAdmission,
            flow.lastRound invariant.tracks invariant.tracks.activeIndex ih.lastRound⟩

end LvglAic.Spi
