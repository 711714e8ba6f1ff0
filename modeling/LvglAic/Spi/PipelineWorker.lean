import LvglAic.Spi.PipelineHistory

namespace LvglAic.Spi

variable {trace events : List PipeEvent} {p next : Pipeline} {q : Ledger}

/-! # Reading the ring -/

/-- While the worker runs a frame, that frame is the last begun one. -/
theorem Tracks.current {index : Fin 2} (tracks : Tracks p q)
    (found : ∃ n, q.begun = n + 1 ∧ q.taken ≤ n ∧ index = slotOf n) :
    ∃ n, q.begun = n + 1 ∧ q.taken ≤ n ∧ n < q.accepted ∧ index = slotOf n ∧
      p.slots index = q.frames n ∧ (q.frames n).ticket = n := by
  obtain ⟨n, begun, low, rfl⟩ := found
  have high : n < q.accepted := by
    have bound := tracks.ring.begunAccepted
    omega
  exact ⟨n, begun, low, high, rfl, tracks.ring.held n low high, tracks.ring.ticket n high⟩

theorem Tracks.transfer {index : Fin 2} (tracks : Tracks p q)
    (active : q.active.map slotOf = some index) :
    ∃ n, q.active = some n ∧ q.taken ≤ n ∧ n < q.accepted ∧ index = slotOf n ∧
      p.slots index = q.frames n ∧ (q.frames n).ticket = n := by
  obtain ⟨n, found, rfl⟩ := Option.map_eq_some_iff.mp active
  have low := tracks.phases.activeTaken n found
  have high := Nat.lt_of_lt_of_le (tracks.phases.activeBegun n found) tracks.ring.begunAccepted
  exact ⟨n, found, low, high, rfl, tracks.ring.held n low high, tracks.ring.ticket n high⟩

/-- Only a frame the worker has begun leaves the QUEUED state. -/
theorem Phases.queued {n : Nat} (phases : Phases p q) (bound : n < q.accepted) :
    (q.frames n).state = .queued ↔ q.begun ≤ n := by
  rw [phases.state n bound, frameState]
  split
  · simpa using ‹q.begun ≤ n›
  · rename_i begun
    split
    · simpa using begun
    · split <;> simpa using begun

theorem Phases.done {n : Nat} (phases : Phases p q) (bound : n < q.accepted) :
    (q.frames n).state = .done ↔
      n < q.begun ∧ ¬(p.worker.running = true ∧ q.begun = n + 1) ∧ q.active ≠ some n := by
  rw [phases.state n bound, frameState]
  grind

theorem Phases.sourceFree {n : Nat} (phases : Phases p q) (bound : n < q.accepted) :
    (q.frames n).state.sourceFree = true ↔
      n < q.begun ∧ ¬(p.worker.running = true ∧ q.begun = n + 1) := by
  rw [phases.state n bound, frameState]
  grind [SlotState.sourceFree]

theorem Phases.nonempty {n : Nat} (phases : Phases p q) (bound : n < q.accepted) :
    (q.frames n).state ≠ .empty := by
  rw [phases.state n bound, frameState]
  grind

/-! # Keeping the history -/

theorem Delivered.append (delivered : Delivered trace q) (accepted : acceptedList events = [])
    (taken : ∀ kind, takenList kind events = []) : Delivered (trace ++ events) q where
  accepted := by rw [acceptedList_append, accepted, List.append_nil, delivered.accepted]
  released := by rw [takenList_append, taken, List.append_nil, delivered.released]
  completed := by rw [takenList_append, taken, List.append_nil, delivered.completed]

theorem Delivered.edit {n : Nat} (slot : PipeSlot) (active : Option Nat) (begun : Nat)
    (delivered : Delivered trace q) (cookie : slot.cookie = (q.frames n).cookie) :
    Delivered trace { q.edit n slot with active, begun } where
  accepted := delivered.accepted.trans (Ledger.deliveries_edit cookie).symm
  released := delivered.released.trans (Ledger.deliveries_edit cookie).symm
  completed := delivered.completed.trans (Ledger.deliveries_edit cookie).symm

theorem HandedOver.append {running : Bool} (handed : HandedOver trace running q)
    (published : ∀ n, .published n ∉ events) (finished : ∀ n, .finished n ∉ events) :
    HandedOver (trace ++ events) running q where
  published := by
    intro n
    rw [List.mem_append, or_iff_left (published n), handed.published]
  finished := by
    intro n
    rw [List.mem_append, or_iff_left (finished n), handed.finished]

theorem Accounted.append {fault : Bool} (accounted : Accounted trace fault q)
    (unfaulted : .faultSet ∉ events) : Accounted (trace ++ events) fault q where
  faulted := by rw [List.mem_append, or_iff_left unfaulted, accounted.faulted]
  outcome := fun n bound done => (accounted.outcome n bound done).append
  submitted := fun n active => (accounted.submitted n active).append

theorem Accounted.edit {n : Nat} {fault : Bool} (slot : PipeSlot) (active : Option Nat)
    (begun : Nat) (accounted : Accounted trace fault q)
    (outcome : slot.state = .done → Outcome trace n slot.completed)
    (submitted : ∀ m, active = some m → SubmittedIn trace m) :
    Accounted trace fault { q.edit n slot with active, begun } where
  faulted := accounted.faulted
  outcome := by
    intro m bound done
    by_cases same : m = n
    · subst same
      rw [Ledger.edit_same] at done ⊢
      exact outcome done
    · rw [Ledger.edit_other q n slot same] at done ⊢
      exact accounted.outcome m bound done
  submitted := submitted

/-! # Steps between two frames -/

/-- Between two frames the worker holds neither a frame nor a drained index. -/
def WorkerPc.resting : WorkerPc → Bool
  | .wake | .load _ | .stopLoad _ | .exit => true
  | _ => false

theorem WorkerPc.resting_running {pc : WorkerPc} (resting : pc.resting = true) :
    pc.running = false := by
  cases pc <;> simp_all [WorkerPc.resting, WorkerPc.running]

theorem ActiveIndex.resting (resting : p.worker.resting = true) :
    ActiveIndex p q ↔ p.active = q.active.map slotOf := by
  unfold ActiveIndex
  split <;> simp_all [WorkerPc.resting]

theorem CurrentIndex.resting (resting : p.worker.resting = true) : CurrentIndex p q := by
  unfold CurrentIndex
  split <;> simp_all [WorkerPc.resting]

theorem Owed.resting (resting : p.worker.resting = true) :
    Owed trace p q ↔ ∀ m, q.active = some m → owedTransfer trace = some m := by
  unfold Owed
  split <;> simp_all [WorkerPc.resting]

theorem Quiescent.resting (resting : p.worker.resting = true) :
    Quiescent p ↔ (p.fault = true → p.active = none) := by
  unfold Quiescent
  split <;> simp_all [WorkerPc.resting]

theorem PipeInvariant.alive (invariant : PipeInvariant trace p q) (busy : p.worker ≠ .exited) :
    p.exited = false :=
  Bool.eq_false_iff.mpr fun exited => busy (invariant.tracks.exited exited)

/-- The worker's private moves between two frames change nothing else. -/
theorem PipeInvariant.rest (pc : WorkerPc) (wake : Nat) (invariant : PipeInvariant trace p q)
    (resting : p.worker.resting = true) (stays : pc.resting = true) :
    PipeInvariant trace { p with wake, worker := pc } q := by
  have alive := invariant.alive fun gone => by simp [gone, WorkerPc.resting] at resting
  obtain ⟨tracks, explained⟩ := invariant
  have idle : pc.running = p.worker.running := by
    rw [WorkerPc.resting_running stays, WorkerPc.resting_running resting]
  exact {
    tracks := {
      ring := tracks.ring.congr ⟨rfl, rfl, rfl, rfl, rfl, rfl, rfl⟩
      phases := tracks.phases.congr idle
      activeIndex := (ActiveIndex.resting stays).mpr
        ((ActiveIndex.resting resting).mp tracks.activeIndex)
      currentIndex := CurrentIndex.resting stays
      exited := fun gone => absurd gone (by simp [alive])
      producer := tracks.producer.congr rfl rfl rfl }
    explained := {
      guarded := explained.guarded
      delivered := explained.delivered
      handedOver := by
        have handed := explained.handedOver
        rwa [← idle] at handed
      accounted := explained.accounted
      owed := (Owed.resting stays).mpr ((Owed.resting resting).mp explained.owed)
      quiescent := (Quiescent.resting stays).mpr
        ((Quiescent.resting resting).mp explained.quiescent) } }

/-- `drain` starts: it moves the active index into a local variable. -/
theorem PipeInvariant.enterDrain {last : Bool} (invariant : PipeInvariant trace p q)
    (resting : p.worker.resting = true) : PipeInvariant trace (p.enterDrain last) q := by
  unfold Pipeline.enterDrain
  split
  · exact invariant.rest _ p.wake resting (by cases last <;> rfl)
  · rename_i index active
    have alive := invariant.alive fun gone => by simp [gone, WorkerPc.resting] at resting
    obtain ⟨tracks, explained⟩ := invariant
    have tracked := (ActiveIndex.resting resting).mp tracks.activeIndex
    have idle := WorkerPc.resting_running resting
    exact {
      tracks := {
        ring := tracks.ring.congr ⟨rfl, rfl, rfl, rfl, rfl, rfl, rfl⟩
        phases := tracks.phases.congr idle.symm
        activeIndex := ⟨rfl, tracked.symm.trans active⟩
        currentIndex := trivial
        exited := fun gone => absurd gone (by simp [alive])
        producer := tracks.producer.congr rfl rfl rfl }
      explained := {
        guarded := explained.guarded
        delivered := explained.delivered
        handedOver := by
          have handed := explained.handedOver
          rwa [idle] at handed
        accounted := explained.accounted
        owed := (Owed.resting resting).mp explained.owed
        quiescent := fun fault => by
          have drained := (Quiescent.resting resting).mp explained.quiescent fault
          simp [active] at drained } }

theorem PipeInvariant.endRound {round : Round} (invariant : PipeInvariant trace p q)
    (resting : p.worker.resting = true) : PipeInvariant trace (p.endRound round) q := by
  unfold Pipeline.endRound
  split
  · exact invariant.enterDrain resting
  · exact invariant.rest _ p.wake resting rfl

theorem PipeInvariant.nextTurn {round : Round}
    (invariant : PipeInvariant trace { p with worker := .wake } q) :
    PipeInvariant trace (p.nextTurn round) q := by
  unfold Pipeline.nextTurn
  dsimp only
  split
  · exact invariant.rest (.load _) p.wake rfl rfl
  · exact invariant.endRound rfl

theorem PipeInvariant.stepStopLoad {round : Round} (invariant : PipeInvariant trace p q)
    (pc : p.worker = .stopLoad round) : PipeInvariant trace (p.stepStopLoad round) q := by
  have resting : p.worker.resting = true := by rw [pc]; rfl
  unfold Pipeline.stepStopLoad
  split
  · exact invariant.rest _ p.wake resting rfl
  · split
    · exact invariant.enterDrain resting
    · exact invariant.rest _ p.wake resting rfl

theorem PipeInvariant.stepExit (invariant : PipeInvariant trace p q) (pc : p.worker = .exit) :
    PipeInvariant (trace ++ [.exited]) { p with exited := true, worker := .exited } q := by
  obtain ⟨tracks, explained⟩ := invariant
  have idle : p.worker.running = false := by rw [pc]; rfl
  have resting : p.worker.resting = true := by rw [pc]; rfl
  have handed := explained.handedOver
  rw [idle] at handed
  exact {
    tracks := {
      ring := tracks.ring.congr ⟨rfl, rfl, rfl, rfl, rfl, rfl, rfl⟩
      phases := tracks.phases.congr idle.symm
      activeIndex := (ActiveIndex.resting resting).mp tracks.activeIndex
      currentIndex := trivial
      exited := fun _ => rfl
      producer := by
        have producer := tracks.producer
        unfold Producer at *
        dsimp only
        split <;> simp_all }
    explained := {
      guarded := explained.guarded.append ⟨trivial, trivial⟩
      delivered := explained.delivered.append rfl fun _ => rfl
      handedOver := handed.append (by simp) (by simp)
      accounted := explained.accounted.append (by simp)
      owed := by
        rw [Owed, owedTransfer_append]
        exact (Owed.resting resting).mp explained.owed
      quiescent := (Quiescent.resting resting).mp explained.quiescent } }

/-! # Steps on the current frame -/

/-- The head of the queue is QUEUED exactly while a frame waits. -/
theorem Tracks.queued_head (tracks : Tracks p q) (queued : (p.slots p.run).state = .queued) :
    q.begun < q.accepted := by
  have bounds := tracks.ring.begunAccepted
  have room := tracks.ring.acceptedRoom
  by_contra stuck
  have last : q.begun = q.accepted := by omega
  rw [tracks.ring.run] at queued
  by_cases free : q.accepted < q.taken + 2
  · have vacant := tracks.ring.vacant q.begun (by omega) (by omega)
    rw [queued] at vacant
    cases vacant
  · have wrapped : slotOf q.begun = slotOf q.taken := by
      apply Fin.ext
      simp only [slotOf]
      omega
    rw [wrapped, tracks.ring.held q.taken (by omega) (by omega)] at queued
    have waiting := (tracks.phases.queued (by omega)).mp queued
    omega

theorem PipeInvariant.stepLoad {round : Round} (invariant : PipeInvariant trace p q)
    (pc : p.worker = .load round) : PipeInvariant trace (p.stepLoad round) q := by
  have resting : p.worker.resting = true := by rw [pc]; rfl
  unfold Pipeline.stepLoad
  split
  · rename_i queued
    have calm := invariant.rest .wake p.wake resting rfl
    have waiting := invariant.tracks.queued_head queued
    obtain ⟨tracks, explained⟩ := calm
    exact {
      tracks := {
        ring := tracks.ring.congr ⟨rfl, rfl, rfl, rfl, rfl, rfl, rfl⟩
        phases := tracks.phases.congr rfl
        activeIndex := tracks.activeIndex
        currentIndex := waiting
        exited := fun gone => absurd (tracks.exited gone) (by simp)
        producer := tracks.producer.congr rfl rfl rfl }
      explained := {
        guarded := explained.guarded
        delivered := explained.delivered
        handedOver := explained.handedOver
        accounted := explained.accounted
        owed := explained.owed
        quiescent := explained.quiescent } }
  · exact invariant.endRound resting

/-- The head of the queue becomes the current frame. -/
theorem PipeInvariant.stepMark {round : Round} (invariant : PipeInvariant trace p q)
    (pc : p.worker = .mark round) : ∃ q', PipeInvariant trace (p.stepMark round) q' := by
  have alive := invariant.alive (by simp [pc])
  obtain ⟨tracks, explained⟩ := invariant
  have waiting : q.begun < q.accepted := by simpa [CurrentIndex, pc] using tracks.currentIndex
  have low : q.taken ≤ q.begun :=
    Nat.le_trans tracks.ring.takenReleased tracks.ring.releasedBegun
  have head : p.slots p.run = q.frames q.begun := by
    rw [tracks.ring.run, tracks.ring.held _ low waiting]
  have idle : p.worker.running = false := by rw [pc]; rfl
  have queued := (tracks.phases.queued waiting).mpr (Nat.le_refl _)
  let slot : PipeSlot := { q.frames q.begun with state := .running }
  have ring := tracks.ring.edit slot low waiting rfl rfl
  refine ⟨{ q.edit q.begun slot with begun := q.begun + 1 }, ?_⟩
  unfold Pipeline.stepMark
  rw [head, tracks.ring.run]
  exact {
    tracks := {
      ring := {
        ring with
        releasedBegun := Nat.le_succ_of_le ring.releasedBegun
        begunAccepted := waiting
        begun := congrArg (· + 1) ring.begun
        run := (slotOf_succ _).symm }
      phases := tracks.phases.begin idle rfl rfl
      activeIndex := by simpa [ActiveIndex, pc] using tracks.activeIndex
      currentIndex := ⟨q.begun, rfl, low, rfl⟩
      exited := fun gone => absurd gone (by simp [Pipeline.setSlot, alive])
      producer := tracks.producer.edit rfl alive (by simp [queued]) }
    explained := {
      guarded := explained.guarded
      delivered := explained.delivered.edit _ _ _ rfl
      handedOver := by
        have handed := explained.handedOver
        rw [idle] at handed
        have activeBegun := tracks.phases.activeBegun
        exact {
          published := fun n => by
            have known := handed.published n
            simp only [WorkerPc.running, Bool.false_eq_true, false_and, not_false_eq_true,
              and_true, true_and] at *
            rw [known]
            omega
          finished := fun n => by
            have known := handed.finished n
            simp only [WorkerPc.running, Bool.false_eq_true, false_and, not_false_eq_true,
              true_and, Ledger.edit_active] at *
            rw [known]
            grind }
      accounted := explained.accounted.edit _ _ _ (by simp [slot]) explained.accounted.submitted
      owed := by
        have owed := explained.owed
        simpa [Owed, pc] using owed
      quiescent := by
        have quiescent := explained.quiescent
        simpa [Quiescent, pc] using quiescent } }

theorem PipeInvariant.stepFaultLoad {round : Round} {index : Fin 2}
    (invariant : PipeInvariant trace p q) (pc : p.worker = .faultLoad round index) :
    PipeInvariant trace { p with
      worker := if p.fault then .receipt round index .fault false else .submit round index } q := by
  have alive := invariant.alive (by simp [pc])
  obtain ⟨tracks, explained⟩ := invariant
  have owed : ∀ m, q.active = some m → owedTransfer trace = some m := by
    simpa [Owed, pc] using explained.owed
  have quiescent : p.fault = true → p.active = none := by
    simpa [Quiescent, pc] using explained.quiescent
  have busy : p.worker.running = true := by rw [pc]; rfl
  have handed := explained.handedOver
  rw [busy] at handed
  have activeIndex : p.active = q.active.map slotOf := by
    simpa [ActiveIndex, pc] using tracks.activeIndex
  have currentIndex : ∃ n, q.begun = n + 1 ∧ q.taken ≤ n ∧ index = slotOf n := by
    simpa [CurrentIndex, pc] using tracks.currentIndex
  by_cases fault : p.fault = true
  · rw [if_pos fault]
    exact {
      tracks := {
        ring := tracks.ring.congr ⟨rfl, rfl, rfl, rfl, rfl, rfl, rfl⟩
        phases := tracks.phases.congr busy.symm
        activeIndex := activeIndex
        currentIndex := currentIndex
        exited := fun gone => absurd gone (by simp [alive])
        producer := tracks.producer.congr rfl rfl rfl }
      explained := {
        guarded := explained.guarded
        delivered := explained.delivered
        handedOver := handed
        accounted := explained.accounted
        owed := by simp [Owed]
        quiescent := fun _ => ⟨quiescent fault, rfl⟩ } }
  · rw [if_neg fault]
    exact {
      tracks := {
        ring := tracks.ring.congr ⟨rfl, rfl, rfl, rfl, rfl, rfl, rfl⟩
        phases := tracks.phases.congr busy.symm
        activeIndex := activeIndex
        currentIndex := currentIndex
        exited := fun gone => absurd gone (by simp [alive])
        producer := tracks.producer.congr rfl rfl rfl }
      explained := {
        guarded := explained.guarded
        delivered := explained.delivered
        handedOver := handed
        accounted := explained.accounted
        owed := owed
        quiescent := fun faulted => absurd faulted fault } }

/-- The only step that passes a frame to the session. -/
theorem PipeInvariant.stepSubmit {round : Round} {index : Fin 2} {answers : WorkerAnswers}
    (invariant : PipeInvariant trace p q) (pc : p.worker = .submit round index) :
    PipeInvariant (trace ++ (p.stepSubmit round index answers).2)
      (p.stepSubmit round index answers).1 q := by
  have alive := invariant.alive (by simp [pc])
  obtain ⟨tracks, explained⟩ := invariant
  have owed : ∀ m, q.active = some m → owedTransfer trace = some m := by
    simpa [Owed, pc] using explained.owed
  have clean : p.fault = false := by
    simpa [Quiescent, pc] using explained.quiescent
  have unfaulted : .faultSet ∉ trace := fun member => by
    have faulted := explained.accounted.faulted.mpr member
    simp [clean] at faulted
  have busy : p.worker.running = true := by rw [pc]; rfl
  have handed := explained.handedOver
  rw [busy] at handed
  have currentIndex : ∃ n, q.begun = n + 1 ∧ q.taken ≤ n ∧ index = slotOf n := by
    simpa [CurrentIndex, pc] using tracks.currentIndex
  obtain ⟨n, begun, low, high, rfl, content, ticket⟩ := tracks.current currentIndex
  have unpublished : .published n ∉ trace := fun member =>
    ((handed.published n).mp member).2 ⟨rfl, begun⟩
  unfold Pipeline.stepSubmit
  rw [content]
  dsimp only
  rw [ticket]
  have submitted : SubmittedIn
      (trace ++ [.readFrame n, .sessionSubmit n answers.submit answers.receipt]) n :=
    ⟨answers.submit, answers.receipt, by simp⟩
  exact {
    tracks := {
      ring := tracks.ring.congr ⟨rfl, rfl, rfl, rfl, rfl, rfl, rfl⟩
      phases := tracks.phases.congr busy.symm
      activeIndex := by
        have activeIndex := tracks.activeIndex
        simpa [ActiveIndex, pc] using activeIndex
      currentIndex := currentIndex
      exited := fun gone => absurd gone (by simp [alive])
      producer := tracks.producer.congr rfl rfl rfl }
    explained := {
      guarded := explained.guarded.append ⟨unpublished, by simpa [PipeSafe] using unfaulted, trivial⟩
      delivered := explained.delivered.append rfl fun _ => rfl
      handedOver := handed.append (by simp) (by simp)
      accounted := explained.accounted.append (by simp)
      owed := by
        refine ⟨fun m last => ?_, fun m active => ⟨fun received => ?_, fun missing invalid => ?_⟩⟩
        · obtain rfl : n = m := by omega
          refine ⟨fun _ => submitted, fun succeeded => ?_⟩
          simp [observeSession, succeeded]
        · exact ⟨trace ++ [.readFrame n], .sessionSubmit n answers.submit answers.receipt, [],
            by simp, by simpa [observeSession] using owed m active, received⟩
        · simpa [observeSession, missing, invalid] using owed m active
      quiescent := fun faulted => by simp [clean] at faulted } }

/-! # Completing the outstanding transfer -/

/-- The worker reports a result for the active frame and forgets it. -/
theorem Tracks.completeActive {m : Nat} {result : SpiResult} {pc : WorkerPc}
    (tracks : Tracks p q) (active : q.active = some m) (alive : p.exited = false)
    (same : pc.running = p.worker.running)
    (activeIndex : ∀ q', q'.active = none →
      ActiveIndex { p with worker := pc, active := none } q')
    (currentIndex : CurrentIndex { p with worker := pc } q) :
    Tracks { p.setSlot (slotOf m) { q.frames m with completed := result, state := .done } with
        worker := pc, active := none }
      { q.edit m { q.frames m with completed := result, state := .done } with
        active := none } := by
  have low := tracks.phases.activeTaken m active
  have begun := tracks.phases.activeBegun m active
  have high := Nat.lt_of_lt_of_le begun tracks.ring.begunAccepted
  have pending : (q.frames m).state ≠ .done := fun done =>
    ((tracks.phases.done high).mp done).2.2 active
  have ring := tracks.ring.edit (n := m)
    { q.frames m with completed := result, state := .done } low high rfl rfl
  exact {
    ring := { ring with }
    phases := tracks.phases.completeActive same active rfl
    activeIndex := activeIndex _ rfl
    currentIndex := currentIndex
    exited := fun gone => absurd gone (by simp [alive])
    producer := tracks.producer.edit rfl alive pending }

theorem HandedOver.completeActive {m : Nat} {running : Bool} (slot : PipeSlot)
    (handed : HandedOver trace running q) (active : q.active = some m) (begun : m < q.begun)
    (settled : ¬(running = true ∧ q.begun = m + 1)) :
    HandedOver (trace ++ [.wrote m .completed, .finished m]) running
      { q.edit m slot with active := none } where
  published := fun n => by simpa using handed.published n
  finished := by
    intro n
    have known := handed.finished n
    by_cases same : n = m
    · subst same
      simpa [begun] using settled
    · have apart : q.active ≠ some n := by simpa [active] using Ne.symm same
      simpa [same, apart] using known

theorem Accounted.completeActive {m : Nat} {result : SpiResult} {fault : Bool}
    (accounted : Accounted trace fault q) (outcome : Outcome trace m result) :
    Accounted (trace ++ [.wrote m .completed, .finished m]) fault
      { q.edit m { q.frames m with completed := result, state := .done } with active := none } :=
  (accounted.append (by simp)).edit _ _ _ (fun _ => outcome.append) (by simp)

/-! # Recording an answer -/

/-- Rewriting what a pending frame will report keeps the ledger in step. -/
theorem Tracks.rewrite {n : Nat} (slot : PipeSlot) (tracks : Tracks p q)
    (alive : p.exited = false) (low : q.taken ≤ n) (high : n < q.accepted)
    (pending : (q.frames n).state ≠ .done) (state : slot.state = (q.frames n).state)
    (ticket : slot.ticket = (q.frames n).ticket) (flag : slot.released = (q.frames n).released) :
    Tracks (p.setSlot (slotOf n) slot) (q.edit n slot) where
  ring := tracks.ring.edit slot low high ticket flag
  phases := tracks.phases.edit _ slot rfl state
  activeIndex := tracks.activeIndex
  currentIndex := tracks.currentIndex
  exited := fun gone => absurd gone (by simp [alive])
  producer := tracks.producer.edit rfl alive pending

theorem HandedOver.edit {n : Nat} {slot : PipeSlot} {running : Bool}
    (handed : HandedOver trace running q) : HandedOver trace running (q.edit n slot) where
  published := handed.published
  finished := handed.finished

/-- Events that the session does not see leave the worker's reliance alone. -/
theorem Owed.append (owed : Owed trace p q)
    (silent : ∀ before, events.foldl observeSession before = before) :
    Owed (trace ++ events) p q := by
  have same : owedTransfer (trace ++ events) = owedTransfer trace := by
    rw [owedTransfer_append, silent]
  unfold Owed at *
  split
  all_goals rename_i pc; simp only [pc] at owed
  · exact ⟨fun n last => ⟨fun answered => ((owed.1 n last).1 answered).append, fun succeeded =>
      same.trans ((owed.1 n last).2 succeeded)⟩, fun m active => ⟨fun received =>
      ((owed.2 m active).1 received).append, fun missing invalid =>
      same.trans ((owed.2 m active).2 missing invalid)⟩⟩
  · exact ⟨fun n last => ⟨fun answered => ((owed.1 n last).1 answered).append, fun succeeded =>
      same.trans ((owed.1 n last).2 succeeded)⟩, fun m active invalid =>
      same.trans (owed.2 m active invalid)⟩
  · trivial
  · exact ⟨fun n last => ⟨fun answered => ((owed.1 n last).1 answered).append, fun succeeded =>
      ⟨((owed.1 n last).2 succeeded).1, same.trans ((owed.1 n last).2 succeeded).2⟩⟩,
      fun m active => same.trans (owed.2 m active)⟩
  · trivial
  · exact fun m active succeeded => (owed m active succeeded).append
  · exact fun m active => same.trans (owed m active)

/-- A list of writes to the report of one frame. -/
def writes (n : Nat) (fields : List ReportField) : List PipeEvent := fields.map (.wrote n)

section
variable {n : Nat} {fields : List ReportField}

theorem writes_silent (owed : Option Nat) : (writes n fields).foldl observeSession owed = owed := by
  induction fields with
  | nil => rfl
  | cons field rest ih => exact ih

theorem writes_allowed (unpublished : .published n ∉ trace) (unfinished : .finished n ∉ trace) :
    Guarded.Continues PipeSafe trace (writes n fields) := by
  induction fields generalizing trace with
  | nil => trivial
  | cons field rest ih =>
      refine ⟨?_, ih (by simpa using unpublished) (by simpa using unfinished)⟩
      cases field <;> assumption

theorem writes_only {event : PipeEvent} (member : event ∈ writes n fields) :
    ∃ field, event = .wrote n field := by
  obtain ⟨field, _, rfl⟩ := List.mem_map.mp member
  exact ⟨field, rfl⟩

theorem acceptedList_writes : acceptedList (writes n fields) = [] := by
  induction fields with
  | nil => rfl
  | cons field rest ih => exact ih

theorem takenList_writes (kind : EventKind) : takenList kind (writes n fields) = [] := by
  induction fields with
  | nil => rfl
  | cons field rest ih => exact ih

end

/-- The worker writes what its current frame will report. -/
theorem PipeInvariant.record {n : Nat} (slot : PipeSlot) (fields : List ReportField)
    (invariant : PipeInvariant trace p q) (busy : p.worker.running = true)
    (begun : q.begun = n + 1) (low : q.taken ≤ n) (state : slot.state = (q.frames n).state)
    (ticket : slot.ticket = (q.frames n).ticket) (flag : slot.released = (q.frames n).released)
    (cookie : slot.cookie = (q.frames n).cookie) :
    PipeInvariant (trace ++ writes n fields) (p.setSlot (slotOf n) slot) (q.edit n slot) := by
  have alive := invariant.alive fun gone => by simp [gone, WorkerPc.running] at busy
  obtain ⟨tracks, explained⟩ := invariant
  have high : n < q.accepted := by
    have bound := tracks.ring.begunAccepted
    omega
  have pending : (q.frames n).state ≠ .done := fun done =>
    ((tracks.phases.done high).mp done).2.1 ⟨busy, begun⟩
  have unpublished : .published n ∉ trace := fun member =>
    ((explained.handedOver.published n).mp member).2 ⟨busy, begun⟩
  have unfinished : .finished n ∉ trace := fun member =>
    ((explained.handedOver.finished n).mp member).2.1 ⟨busy, begun⟩
  exact {
    tracks := tracks.rewrite slot alive low high pending state ticket flag
    explained := {
      guarded := explained.guarded.append (writes_allowed unpublished unfinished)
      delivered := (explained.delivered.edit _ q.active q.begun cookie).append
        acceptedList_writes takenList_writes
      handedOver := explained.handedOver.edit.append
        (fun m member => by obtain ⟨field, same⟩ := writes_only member; cases same)
        (fun m member => by obtain ⟨field, same⟩ := writes_only member; cases same)
      accounted := (explained.accounted.append
        (fun member => by obtain ⟨field, same⟩ := writes_only member; cases same)).edit
        _ q.active q.begun (fun done => absurd (state.symm.trans done) pending)
        (fun m active => (explained.accounted.submitted m active).append)
      owed := explained.owed.append writes_silent
      quiescent := explained.quiescent } }

theorem Pipeline.complete_frame {n : Nat} {result : SpiResult}
    (content : p.slots (slotOf n) = q.frames n) (ticket : (q.frames n).ticket = n) :
    p.complete (slotOf n) result =
      (p.setSlot (slotOf n) { q.frames n with completed := result, state := .done },
        [.wrote n .completed, .finished n]) := by
  refine Prod.ext ?_ ?_
  · simp only [Pipeline.complete, content]
  · simp only [Pipeline.complete, content, ticket]

/-- The outstanding transfer gets its result while the worker runs a frame. -/
theorem PipeInvariant.completeActive (result : SpiResult) (invariant : PipeInvariant trace p q)
    (busy : p.worker.running = true)
    (outcome : ∀ m, q.active = some m → Outcome trace m result) :
    ∃ q', PipeInvariant (trace ++ (p.completeActive result).2) (p.completeActive result).1 q' ∧
      q'.active = none ∧ q'.begun = q.begun := by
  have alive := invariant.alive fun gone => by simp [gone, WorkerPc.running] at busy
  have plain : ∀ p' q', p'.worker = p.worker →
      (ActiveIndex p' q' ↔ p'.active = q'.active.map slotOf) := by
    intro p' q' same
    unfold ActiveIndex
    rw [same]
    split <;> simp_all [WorkerPc.running]
  have activeIndex := (plain p q rfl).mp invariant.tracks.activeIndex
  unfold Pipeline.completeActive
  split
  · rename_i previous held
    obtain ⟨tracks, explained⟩ := invariant
    obtain ⟨m, active, low, high, rfl, content, ticket⟩ :=
      tracks.transfer (activeIndex.symm.trans held)
    have settled := tracks.phases.activeSettled m active
    have begun := tracks.phases.activeBegun m active
    have unfinished : .finished m ∉ trace := fun member =>
      ((explained.handedOver.finished m).mp member).2.2 active
    let slot : PipeSlot := { q.frames m with completed := result, state := .done }
    refine ⟨{ q.edit m slot with active := none }, ?_, rfl, rfl⟩
    rw [Pipeline.complete_frame (p := { p with active := none }) content ticket]
    exact {
      tracks := tracks.completeActive active alive rfl
        (fun q' idle => (plain { p with active := none } q' rfl).mpr (by simp [idle]))
        tracks.currentIndex
      explained := {
        guarded := explained.guarded.append ⟨unfinished, trivial, trivial⟩
        delivered := (explained.delivered.edit slot _ _ rfl).append rfl fun _ => rfl
        handedOver := explained.handedOver.completeActive _ active begun settled
        accounted := explained.accounted.completeActive (outcome m active)
        owed := by
          have owed : Owed (trace ++ [.wrote m .completed, .finished m]) _ _ :=
            explained.owed.append fun _ => rfl
          unfold Owed at *
          simp only [Pipeline.setSlot_worker]
          split
          all_goals rename_i pc; simp only [pc] at owed
          · exact ⟨owed.1, by simp⟩
          · exact ⟨owed.1, by simp⟩
          · trivial
          · exact ⟨fun n last => ⟨(owed.1 n last).1, fun succeeded =>
              by simpa using ((owed.1 n last).2 succeeded).2⟩, by simp⟩
          · trivial
          · simp
          · simp
        quiescent := fun faulted => by
          have quiescent := explained.quiescent faulted
          simp only [Pipeline.setSlot_worker]
          split <;> simp_all } }
  · rename_i idle
    refine ⟨q, by simpa using invariant, ?_, rfl⟩
    rw [idle] at activeIndex
    exact Option.map_eq_none_iff.mp activeIndex.symm

/-- With the receipt evaluated, the answer can be checked. -/
theorem PipeInvariant.toCheck {round : Round} {index : Fin 2} {result : SpiResult}
    {received : Bool} (invariant : PipeInvariant trace p q)
    (pc : p.worker = .receipt round index result received)
    (evaluated : received = true → q.active = none) :
    PipeInvariant trace { p with worker := .check round index result } q := by
  have alive := invariant.alive (by simp [pc])
  obtain ⟨tracks, explained⟩ := invariant
  have busy : p.worker.running = true := by rw [pc]; rfl
  have handed := explained.handedOver
  rw [busy] at handed
  have owed := explained.owed
  simp only [Owed, pc] at owed
  exact {
    tracks := {
      ring := tracks.ring.congr ⟨rfl, rfl, rfl, rfl, rfl, rfl, rfl⟩
      phases := tracks.phases.congr busy.symm
      activeIndex := by simpa [ActiveIndex, pc] using tracks.activeIndex
      currentIndex := by simpa [CurrentIndex, pc] using tracks.currentIndex
      exited := fun gone => absurd gone (by simp [alive])
      producer := tracks.producer.congr rfl rfl rfl }
    explained := {
      guarded := explained.guarded
      delivered := explained.delivered
      handedOver := handed
      accounted := explained.accounted
      owed := ⟨owed.1, fun m active invalid => (owed.2 m active).2
        (Bool.eq_false_iff.mpr fun given => by simp [evaluated given] at active) invalid⟩
      quiescent := by simpa [Quiescent, pc] using explained.quiescent } }

theorem PipeInvariant.stepReceipt {round : Round} {index : Fin 2} {result : SpiResult}
    {received : Bool} {answers : WorkerAnswers} (invariant : PipeInvariant trace p q)
    (pc : p.worker = .receipt round index result received) :
    ∃ q', PipeInvariant (trace ++ (p.stepReceipt round index result received answers).2)
      (p.stepReceipt round index result received answers).1 q' := by
  have busy : p.worker.running = true := by rw [pc]; rfl
  have currentIndex : ∃ n, q.begun = n + 1 ∧ q.taken ≤ n ∧ index = slotOf n := by
    simpa [CurrentIndex, pc] using invariant.tracks.currentIndex
  obtain ⟨n, begun, low, high, rfl, content, ticket⟩ := invariant.tracks.current currentIndex
  have recorded := invariant.record
    { p.slots (slotOf n) with
      submitted := result, timing := { submitMs := answers.elapsed, drainMs := 0 } }
    [.submitted, .submitMs, .drainMs] busy begun low (by rw [content])
    (by rw [content]) (by rw [content]) (by rw [content])
  have owed := recorded.explained.owed
  simp only [Owed, Pipeline.setSlot_worker, pc] at owed
  have acknowledged : ∃ q', PipeInvariant
      (trace ++ writes n [.submitted, .submitMs, .drainMs] ++
        ((p.record (slotOf n) result answers.elapsed).acknowledge received).2)
      ((p.record (slotOf n) result answers.elapsed).acknowledge received).1 q' ∧
      ((p.record (slotOf n) result answers.elapsed).acknowledge received).1.worker =
        .receipt round (slotOf n) result received ∧
      (received = true → q'.active = none) := by
    cases received with
    | true =>
        obtain ⟨q', completed, idle, _⟩ := recorded.completeActive .ok busy
          fun m active => .verified (fun _ => (owed.2 m active).1 rfl) fun _ =>
            recorded.explained.accounted.submitted m active
        refine ⟨q', completed, ?_, fun _ => idle⟩
        simp only [Pipeline.acknowledge, Pipeline.completeActive, ↓reduceIte]
        split <;> exact pc
    | false => exact ⟨_, by simpa [Pipeline.acknowledge, Pipeline.record] using recorded, pc,
        by simp⟩
  obtain ⟨q', completed, stays, evaluated⟩ := acknowledged
  have checked := completed.toCheck stays evaluated
  refine ⟨q', ?_⟩
  have named : (p.slots (slotOf n)).ticket = n := by rw [content, ticket]
  simpa only [Pipeline.stepReceipt, named, writes, List.map_cons, List.map_nil,
    List.append_assoc] using checked

/-- Setting the fault is announced and keeps the frame counts. -/
theorem Accounted.setFault {fault : Bool} (accounted : Accounted trace fault q) :
    Accounted (trace ++ [.faultSet]) true q where
  faulted := by simp
  outcome := fun n bound done => (accounted.outcome n bound done).append
  submitted := fun n active => (accounted.submitted n active).append

theorem Pipeline.violates_ok {result : SpiResult} (harmless : p.violates result = false) :
    result ≠ .fault ∧ result ≠ .busy ∧ (result = .ok → p.active = none) := by
  cases result <;> simp_all [Pipeline.violates]

theorem PipeInvariant.stepCheck {round : Round} {index : Fin 2} {result : SpiResult}
    (invariant : PipeInvariant trace p q) (pc : p.worker = .check round index result) :
    ∃ q', PipeInvariant (trace ++ (p.stepCheck round index result).2)
      (p.stepCheck round index result).1 q' := by
  have alive := invariant.alive (by simp [pc])
  have busy : p.worker.running = true := by rw [pc]; rfl
  have currentIndex : ∃ n, q.begun = n + 1 ∧ q.taken ≤ n ∧ index = slotOf n := by
    simpa [CurrentIndex, pc] using invariant.tracks.currentIndex
  have activeIndex : p.active = q.active.map slotOf := by
    simpa [ActiveIndex, pc] using invariant.tracks.activeIndex
  unfold Pipeline.stepCheck
  dsimp only
  split
  · obtain ⟨n, begun, low, high, rfl, content, ticket⟩ := invariant.tracks.current currentIndex
    have named : (p.slots (slotOf n)).ticket = n := by rw [content, ticket]
    have recorded := invariant.record
      { p.slots (slotOf n) with submitted := .fault } [.submitted]
      busy begun low (by rw [content]) (by rw [content]) (by rw [content]) (by rw [content])
    obtain ⟨tracks, explained⟩ := recorded
    have handed := explained.handedOver
    rw [Pipeline.setSlot_worker, busy] at handed
    have quarantined : PipeInvariant (trace ++ writes n [.submitted] ++ [.faultSet])
        { p.setSlot (slotOf n) { p.slots (slotOf n) with submitted := .fault } with
          fault := true, worker := .quarantine round (slotOf n) }
        (q.edit n { p.slots (slotOf n) with submitted := .fault }) := {
      tracks := {
        ring := tracks.ring.congr ⟨rfl, rfl, rfl, rfl, rfl, rfl, rfl⟩
        phases := tracks.phases.congr busy.symm
        activeIndex := activeIndex
        currentIndex := currentIndex
        exited := fun gone => absurd gone (by simp [alive])
        producer := tracks.producer.congr rfl rfl rfl }
      explained := {
        guarded := explained.guarded.append ⟨trivial, trivial⟩
        delivered := explained.delivered.append rfl fun _ => rfl
        handedOver := handed.append (by simp) (by simp)
        accounted := explained.accounted.setFault
        owed := trivial
        quiescent := fun _ => trivial } }
    have emitted : trace ++ [.wrote (p.slots (slotOf n)).ticket .submitted, .faultSet] =
        trace ++ writes n [.submitted] ++ [.faultSet] := by
      rw [named, List.append_assoc]
      rfl
    exact ⟨_, emitted ▸ quarantined⟩
  · rename_i harmless
    obtain ⟨faultless, idle, receipted⟩ :=
      Pipeline.violates_ok (Bool.eq_false_iff.mpr harmless)
    obtain ⟨tracks, explained⟩ := invariant
    have handed := explained.handedOver
    rw [busy] at handed
    have owed := explained.owed
    simp only [Owed, pc] at owed
    have answered : result ≠ .ok → result = .invalid := by
      cases result <;> simp_all
    refine ⟨q, ?_⟩
    rw [List.append_nil]
    exact {
      tracks := {
        ring := tracks.ring.congr ⟨rfl, rfl, rfl, rfl, rfl, rfl, rfl⟩
        phases := tracks.phases.congr busy.symm
        activeIndex := activeIndex
        currentIndex := currentIndex
        exited := fun gone => absurd gone (by simp [alive])
        producer := tracks.producer.congr rfl rfl rfl }
      explained := {
        guarded := explained.guarded
        delivered := explained.delivered
        handedOver := handed
        accounted := explained.accounted
        owed := by
          refine ⟨fun n last => ⟨(owed.1 n last).1, fun succeeded => ⟨?_, (owed.1 n last).2 succeeded⟩⟩,
            fun m active => owed.2 m active (answered fun succeeded => ?_)⟩
          · rw [receipted succeeded] at activeIndex
            exact Option.map_eq_none_iff.mp activeIndex.symm
          · rw [receipted succeeded, active] at activeIndex
            cases activeIndex
        quiescent := by simpa [Quiescent, pc] using explained.quiescent } }

theorem PipeInvariant.stepQuarantine {round : Round} {index : Fin 2}
    (invariant : PipeInvariant trace p q) (pc : p.worker = .quarantine round index) :
    ∃ q', PipeInvariant (trace ++ (p.stepQuarantine round index).2)
      (p.stepQuarantine round index).1 q' := by
  have busy : p.worker.running = true := by rw [pc]; rfl
  obtain ⟨q', completed, idle, begun⟩ := invariant.completeActive .fault busy
    fun m active => ⟨by simp, by simp⟩
  have stays : (p.completeActive .fault).1.worker = .quarantine round index := by
    unfold Pipeline.completeActive
    split <;> exact pc
  unfold Pipeline.stepQuarantine
  generalize p.completeActive .fault = completion at completed stays ⊢
  have alive := completed.alive (by simp [stays])
  obtain ⟨tracks, explained⟩ := completed
  have running : completion.1.worker.running = true := by rw [stays]; rfl
  have handed := explained.handedOver
  rw [running] at handed
  have activeIndex : completion.1.active = q'.active.map slotOf := by
    simpa [ActiveIndex, stays] using tracks.activeIndex
  refine ⟨q', ?_⟩
  exact {
    tracks := {
      ring := tracks.ring.congr ⟨rfl, rfl, rfl, rfl, rfl, rfl, rfl⟩
      phases := tracks.phases.congr running.symm
      activeIndex := activeIndex
      currentIndex := by simpa [CurrentIndex, stays] using tracks.currentIndex
      exited := fun gone => absurd gone (by simp [alive])
      producer := tracks.producer.congr rfl rfl rfl }
    explained := {
      guarded := explained.guarded
      delivered := explained.delivered
      handedOver := handed
      accounted := explained.accounted
      owed := ⟨by simp, by simp [idle]⟩
      quiescent := fun _ => ⟨by simpa [idle] using activeIndex, rfl⟩ } }

/-! # Handing the current frame over -/

/-- After the handover the worker is between two frames. -/
theorem HandedOver.submit {n : Nat} {slot : PipeSlot} (handed : HandedOver trace true q)
    (begun : q.begun = n + 1) (free : q.active = none) :
    HandedOver (trace ++ [.published n]) false { q.edit n slot with active := some n } where
  published := by
    intro m
    have known := handed.published m
    simp only [List.mem_append, List.mem_singleton, PipeEvent.published.injEq, known,
      Ledger.edit_begun, Bool.false_eq_true, false_and, not_false_eq_true, and_true, true_and]
    omega
  finished := by
    intro m
    have known := handed.finished m
    simp only [List.mem_append, List.mem_singleton, reduceCtorEq, or_false, known,
      Ledger.edit_begun, Bool.false_eq_true, false_and, not_false_eq_true, true_and,
      Option.some.injEq, ne_eq, free, reduceCtorEq, and_true]
    omega

theorem HandedOver.reject {n : Nat} {slot : PipeSlot} (handed : HandedOver trace true q)
    (begun : q.begun = n + 1) (inactive : q.active ≠ some n) :
    HandedOver (trace ++ [.published n, .wrote n .completed, .finished n]) false
      (q.edit n slot) where
  published := by
    intro m
    have known := handed.published m
    simp only [List.mem_append, List.mem_cons, List.not_mem_nil, PipeEvent.published.injEq, known,
      reduceCtorEq, or_false, Ledger.edit_begun, Bool.false_eq_true, false_and, not_false_eq_true,
      and_true, true_and]
    omega
  finished := by
    intro m
    have known := handed.finished m
    by_cases same : m = n
    · subst same
      simp [begun, inactive]
    · simp only [List.mem_append, List.mem_cons, List.not_mem_nil, PipeEvent.finished.injEq, known,
        reduceCtorEq, or_false, same, Ledger.edit_begun, Bool.false_eq_true, false_and,
        not_false_eq_true, true_and, Ledger.edit_active]
      constructor
      · rintro ⟨low, _, apart⟩
        exact ⟨low, apart⟩
      · rintro ⟨low, apart⟩
        exact ⟨low, fun last => same (by omega), apart⟩

theorem PipeInvariant.stepPublish {round : Round} {index : Fin 2} {result : SpiResult}
    (invariant : PipeInvariant trace p q) (pc : p.worker = .publish round index result) :
    ∃ q', PipeInvariant (trace ++ (p.stepPublish round index result).2)
      (p.stepPublish round index result).1 q' := by
  have alive := invariant.alive (by simp [pc])
  obtain ⟨tracks, explained⟩ := invariant
  have busy : p.worker.running = true := by rw [pc]; rfl
  have currentIndex : ∃ n, q.begun = n + 1 ∧ q.taken ≤ n ∧ index = slotOf n := by
    simpa [CurrentIndex, pc] using tracks.currentIndex
  obtain ⟨n, begun, low, high, rfl, content, ticket⟩ := tracks.current currentIndex
  have current : Current p q n := ⟨busy, begun⟩
  have pending : (q.frames n).state ≠ .done := fun done =>
    ((tracks.phases.done high).mp done).2.1 current
  have unpublished : .published n ∉ trace := fun member =>
    ((explained.handedOver.published n).mp member).2 current
  have unfinished : .finished n ∉ trace := fun member =>
    ((explained.handedOver.finished n).mp member).2.1 current
  have activeIndex : p.active = q.active.map slotOf := by
    simpa [ActiveIndex, pc] using tracks.activeIndex
  have inactive : q.active ≠ some n := fun active => tracks.phases.activeSettled n active current
  have handed := explained.handedOver
  rw [busy] at handed
  have owed := explained.owed
  simp only [Owed, pc] at owed
  have quiescent : p.fault = true → p.active = none ∧ result = .fault := by
    simpa [Quiescent, pc] using explained.quiescent
  unfold Pipeline.stepPublish
  dsimp only
  split
  · rename_i succeeded
    obtain ⟨free, outstanding⟩ := (owed.1 n begun).2 succeeded
    have submitted := (owed.1 n begun).1 (by simp [succeeded])
    let slot : PipeSlot := { q.frames n with state := .submitted }
    have ring := tracks.ring.edit (n := n) slot low high rfl rfl
    refine ⟨{ q.edit n slot with active := some n }, PipeInvariant.nextTurn ?_⟩
    rw [content, show [PipeEvent.published (q.frames n).ticket] = [.published n] by rw [ticket]]
    exact {
      tracks := {
        ring := { ring with }
        phases := tracks.phases.submit current rfl low free rfl
        activeIndex := rfl
        currentIndex := trivial
        exited := fun gone => absurd gone (by simp [alive])
        producer := tracks.producer.edit rfl alive pending }
      explained := {
        guarded := explained.guarded.append ⟨trivial, trivial⟩
        delivered := (explained.delivered.edit slot _ _ rfl).append rfl fun _ => rfl
        handedOver := handed.submit begun free
        accounted := (explained.accounted.append (by simp)).edit _ _ _ (by simp [slot])
          (by rintro m ⟨⟩; exact submitted.append)
        owed := by
          rintro m ⟨⟩
          rw [owedTransfer_append]
          exact outstanding
        quiescent := fun faulted => by
          have failed := (quiescent faulted).2
          simp [succeeded] at failed } }
  · rename_i failed
    rw [Pipeline.complete_frame content ticket]
    let slot : PipeSlot := { q.frames n with completed := result, state := .done }
    refine ⟨q.edit n slot, PipeInvariant.nextTurn ?_⟩
    rw [content, ticket]
    have ring := tracks.ring.edit (n := n) slot low high rfl rfl
    exact {
      tracks := {
        ring := ring.congr ⟨rfl, rfl, rfl, rfl, rfl, rfl, rfl⟩
        phases := tracks.phases.reject current rfl rfl
        activeIndex := activeIndex
        currentIndex := trivial
        exited := fun gone => absurd gone (by simp [alive])
        producer := tracks.producer.edit rfl alive pending }
      explained := {
        guarded := explained.guarded.append ⟨trivial, by simpa [PipeSafe] using unfinished,
          trivial, trivial⟩
        delivered := (explained.delivered.edit slot q.active q.begun rfl).append rfl fun _ => rfl
        handedOver := handed.reject begun inactive
        accounted := (explained.accounted.append (by simp)).edit _ q.active q.begun
          (fun _ => ⟨fun succeeded => absurd succeeded failed, fun answered =>
            ((owed.1 n begun).1 answered).append⟩)
          (fun m active => (explained.accounted.submitted m active).append)
        owed := fun m active => by
          rw [owedTransfer_append]
          exact owed.2 m active
        quiescent := fun faulted => (quiescent faulted).1 } }

/-! # Draining -/

theorem PipeInvariant.stepDrain {last : Bool} {index : Fin 2} {answers : WorkerAnswers}
    (invariant : PipeInvariant trace p q) (pc : p.worker = .drain last index) :
    ∃ q', PipeInvariant (trace ++ (p.stepDrain last index answers).2)
      (p.stepDrain last index answers).1 q' := by
  have alive := invariant.alive (by simp [pc])
  obtain ⟨tracks, explained⟩ := invariant
  have drained : p.active = none ∧ q.active.map slotOf = some index := by
    simpa [ActiveIndex, pc] using tracks.activeIndex
  obtain ⟨m, active, low, high, rfl, content, ticket⟩ := tracks.transfer drained.2
  have pending : (q.frames m).state ≠ .done := fun done =>
    ((tracks.phases.done high).mp done).2.2 active
  have unfinished : .finished m ∉ trace := fun member =>
    ((explained.handedOver.finished m).mp member).2.2 active
  have clean : p.fault = false := by
    simpa [Quiescent, pc] using explained.quiescent
  have unfaulted : .faultSet ∉ trace := fun member => by
    have faulted := explained.accounted.faulted.mpr member
    simp [clean] at faulted
  have idle : p.worker.running = false := by rw [pc]; rfl
  have owed : owedTransfer trace = some m := by
    have owed : ∀ m, q.active = some m → owedTransfer trace = some m := by
      simpa [Owed, pc] using explained.owed
    exact owed m active
  have handed := explained.handedOver
  rw [idle] at handed
  let slot : PipeSlot := { p.slots (slotOf m) with
    timing := { (p.slots (slotOf m)).timing with drainMs := answers.elapsed } }
  have same : slot = { q.frames m with
      timing := { (q.frames m).timing with drainMs := answers.elapsed } } := by
    simp only [slot, content]
  have timed := tracks.rewrite slot alive low high pending (by rw [same])
    (by rw [same]) (by rw [same])
  have emitted : (p.stepDrain last (slotOf m) answers).2 =
      [.sessionDrain answers.drain, .wrote m .drainMs] := by
    simp only [Pipeline.stepDrain, content, ticket]
  refine ⟨q.edit m slot, ?_⟩
  rw [emitted]
  unfold Pipeline.stepDrain
  dsimp only
  have guarded : Guarded PipeSafe
      (trace ++ [.sessionDrain answers.drain, .wrote m .drainMs]) :=
    explained.guarded.append ⟨unfaulted, by simpa [PipeSafe] using unfinished, trivial⟩
  have delivered : Delivered (trace ++ [.sessionDrain answers.drain, .wrote m .drainMs])
      (q.edit m slot) :=
    (explained.delivered.edit slot q.active q.begun
      (by rw [same])).append rfl fun _ => rfl
  have handedOver : HandedOver (trace ++ [.sessionDrain answers.drain, .wrote m .drainMs]) false
      (q.edit m slot) := handed.edit.append (by simp) (by simp)
  have accounted : Accounted (trace ++ [.sessionDrain answers.drain, .wrote m .drainMs]) p.fault
      (q.edit m slot) :=
    (explained.accounted.append (by simp)).edit _ q.active q.begun
      (fun done => absurd (by simpa [same] using done) pending)
      (fun n found => (explained.accounted.submitted n found).append)
  split
  · rename_i succeeded
    exact {
      tracks := {
        ring := timed.ring.congr ⟨rfl, rfl, rfl, rfl, rfl, rfl, rfl⟩
        phases := timed.phases.congr idle.symm
        activeIndex := drained
        currentIndex := trivial
        exited := fun gone => absurd gone (by simp [alive])
        producer := timed.producer.congr rfl rfl rfl }
      explained := {
        guarded, delivered, handedOver, accounted
        owed := fun n found _ => by
          obtain rfl : m = n := by simpa [active] using found
          exact ⟨trace, .sessionDrain answers.drain, [.wrote m .drainMs], rfl, owed, by
            simp [PipeEvent.verifies, succeeded]⟩
        quiescent := fun _ => drained.1 } }
  · exact {
      tracks := {
        ring := timed.ring.congr ⟨rfl, rfl, rfl, rfl, rfl, rfl, rfl⟩
        phases := timed.phases.congr idle.symm
        activeIndex := drained
        currentIndex := trivial
        exited := fun gone => absurd gone (by simp [alive])
        producer := timed.producer.congr rfl rfl rfl }
      explained := {
        guarded, delivered, handedOver, accounted
        owed := trivial
        quiescent := fun _ => drained.1 } }

theorem PipeInvariant.stepDrainFault {last : Bool} {index : Fin 2}
    (invariant : PipeInvariant trace p q) (pc : p.worker = .drainFault last index) :
    PipeInvariant (trace ++ [.faultSet])
      { p with fault := true, worker := .drainStore last index .fault } q := by
  have alive := invariant.alive (by simp [pc])
  obtain ⟨tracks, explained⟩ := invariant
  have drained : p.active = none ∧ q.active.map slotOf = some index := by
    simpa [ActiveIndex, pc] using tracks.activeIndex
  have idle : p.worker.running = false := by rw [pc]; rfl
  have handed := explained.handedOver
  rw [idle] at handed
  exact {
    tracks := {
      ring := tracks.ring.congr ⟨rfl, rfl, rfl, rfl, rfl, rfl, rfl⟩
      phases := tracks.phases.congr idle.symm
      activeIndex := drained
      currentIndex := trivial
      exited := fun gone => absurd gone (by simp [alive])
      producer := tracks.producer.congr rfl rfl rfl }
    explained := {
      guarded := explained.guarded.append ⟨trivial, trivial⟩
      delivered := explained.delivered.append rfl fun _ => rfl
      handedOver := handed.append (by simp) (by simp)
      accounted := explained.accounted.setFault
      owed := fun m _ succeeded => by cases succeeded
      quiescent := fun _ => drained.1 } }

theorem PipeInvariant.stepDrainStore {last : Bool} {index : Fin 2} {result : SpiResult}
    (invariant : PipeInvariant trace p q) (pc : p.worker = .drainStore last index result) :
    ∃ q', PipeInvariant (trace ++ (p.stepDrainStore last index result).2)
      (p.stepDrainStore last index result).1 q' := by
  have alive := invariant.alive (by simp [pc])
  obtain ⟨tracks, explained⟩ := invariant
  have drained : p.active = none ∧ q.active.map slotOf = some index := by
    simpa [ActiveIndex, pc] using tracks.activeIndex
  obtain ⟨m, active, low, high, rfl, content, ticket⟩ := tracks.transfer drained.2
  have begun := tracks.phases.activeBegun m active
  have settled := tracks.phases.activeSettled m active
  have unfinished : .finished m ∉ trace := fun member =>
    ((explained.handedOver.finished m).mp member).2.2 active
  have idle : p.worker.running = false := by rw [pc]; rfl
  have owed : ∀ m, q.active = some m → result = .ok → VerifiedIn trace m := by
    simpa [Owed, pc] using explained.owed
  have outcome : Outcome trace m result :=
    .verified (owed m active) fun _ => explained.accounted.submitted m active
  have handed := explained.handedOver.completeActive
    { q.frames m with completed := result, state := .done } active begun settled
  rw [idle] at handed
  unfold Pipeline.stepDrainStore
  dsimp only
  rw [Pipeline.complete_frame content ticket]
  have resting : (if last then WorkerPc.exit else .wake).resting = true := by
    cases last <;> rfl
  generalize (if last then WorkerPc.exit else .wake) = after at resting
  have running := WorkerPc.resting_running resting
  refine ⟨{ q.edit m { q.frames m with completed := result, state := .done } with
    active := none }, ?_⟩
  have ring := tracks.ring.edit (n := m)
    { q.frames m with completed := result, state := .done } low high rfl rfl
  have pending : (q.frames m).state ≠ .done := fun done =>
    ((tracks.phases.done high).mp done).2.2 active
  exact {
    tracks := {
      ring := { ring with }
      phases := tracks.phases.completeActive (running.trans idle.symm) active rfl
      activeIndex := (ActiveIndex.resting resting).mpr drained.1
      currentIndex := CurrentIndex.resting resting
      exited := fun gone => absurd gone (by simp [alive])
      producer := tracks.producer.edit rfl alive pending }
    explained := {
      guarded := explained.guarded.append ⟨unfinished, trivial, trivial⟩
      delivered := (explained.delivered.edit
        { q.frames m with completed := result, state := .done } _ _ rfl).append
        rfl fun _ => rfl
      handedOver := by rw [running]; exact handed
      accounted := explained.accounted.completeActive outcome
      owed := (Owed.resting resting).mpr (by simp)
      quiescent := (Quiescent.resting resting).mpr fun _ => drained.1 } }

end LvglAic.Spi
