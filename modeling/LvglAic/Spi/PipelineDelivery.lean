import LvglAic.Spi.PipelineWorker

namespace LvglAic.Spi

variable {trace events : List PipeEvent} {p next : Pipeline} {q : Ledger}

/-! # The producer's steps -/

/-- A producer step that only moves the producer's own program counter. -/
theorem PipeInvariant.proceed {pc : ProducerPc} (wake : Nat) (stopping : Bool)
    (invariant : PipeInvariant trace p q) (silent : events = [] ∨ (∃ result, events = [.refused result]) ∨
      events = [.tookNothing])
    (producer : Producer { p with wake, stopping, producer := pc } q) :
    PipeInvariant (trace ++ events) { p with wake, stopping, producer := pc } q := by
  obtain ⟨tracks, explained⟩ := invariant
  have quiet : ∀ before, events.foldl observeSession before = before := by
    rcases silent with rfl | ⟨result, rfl⟩ | rfl <;> exact fun _ => rfl
  have taken : ∀ kind, takenList kind events = [] := by
    rcases silent with rfl | ⟨result, rfl⟩ | rfl <;> exact fun _ => rfl
  exact {
    tracks := {
      ring := tracks.ring.congr ⟨rfl, rfl, rfl, rfl, rfl, rfl, rfl⟩
      phases := tracks.phases.congr rfl
      activeIndex := tracks.activeIndex
      currentIndex := tracks.currentIndex
      exited := tracks.exited
      producer := producer }
    explained := {
      guarded := explained.guarded.append (by
        rcases silent with rfl | ⟨result, rfl⟩ | rfl <;> simp [Guarded.Continues, PipeSafe])
      delivered := explained.delivered.append
        (by rcases silent with rfl | ⟨result, rfl⟩ | rfl <;> rfl) taken
      handedOver := explained.handedOver.append
        (by rcases silent with rfl | ⟨result, rfl⟩ | rfl <;> simp)
        (by rcases silent with rfl | ⟨result, rfl⟩ | rfl <;> simp)
      accounted := explained.accounted.append
        (by rcases silent with rfl | ⟨result, rfl⟩ | rfl <;> simp)
      owed := explained.owed.append quiet
      quiescent := explained.quiescent } }

/-- The slot at `put` is EMPTY exactly when the ring has room. -/
theorem Tracks.room (tracks : Tracks p q) (empty : (p.slots p.put).state = .empty) :
    q.accepted < q.taken + 2 := by
  have bound := tracks.ring.acceptedRoom
  by_contra full
  have wrapped : slotOf q.accepted = slotOf q.taken := by
    apply Fin.ext
    simp only [slotOf]
    omega
  rw [tracks.ring.put, wrapped, tracks.ring.held q.taken (by omega) (by omega)] at empty
  exact tracks.phases.nonempty (by omega) empty

theorem Ledger.deliveries_edit_beyond {n count : Nat} {slot : PipeSlot} (beyond : count ≤ n) :
    (q.edit n slot).deliveries count = q.deliveries count := by
  apply List.map_congr_left
  intro m member
  have low := List.mem_range.mp member
  rw [Ledger.edit_other q n slot (by omega)]

/-- A new frame enters behind all others. -/
theorem Ring.accept (slot : PipeSlot) (ring : Ring p q) (room : q.accepted < q.taken + 2)
    (ticket : slot.ticket = q.accepted) (flag : slot.released = false) :
    Ring { p.setSlot (slotOf q.accepted) slot with
        put := slotOf (q.accepted + 1), accepted := q.accepted + 1 }
      { q.edit q.accepted slot with accepted := q.accepted + 1 } where
  takenReleased := ring.takenReleased
  releasedBegun := ring.releasedBegun
  begunAccepted := Nat.le_succ_of_le ring.begunAccepted
  acceptedRoom := room
  count := rfl
  begun := ring.begun
  put := rfl
  release := ring.release
  take := ring.take
  run := ring.run
  held := by
    intro m low high
    have bound : m < q.accepted + 1 := high
    by_cases same : m = q.accepted
    · subst same
      simp [Pipeline.setSlot, Ledger.edit]
    · have taken : q.taken ≤ q.accepted := Nat.le_trans ring.takenReleased
        (Nat.le_trans ring.releasedBegun ring.begunAccepted)
      have lowTaken : q.taken ≤ m := low
      have apart : slotOf m ≠ slotOf q.accepted := fun equal => same
        (slotOf_inj _ lowTaken (by omega) taken room equal)
      simpa [Pipeline.setSlot, Ledger.edit, same, apart] using
        ring.held m lowTaken (by omega)
  vacant := by
    intro m low high
    have beyond : q.accepted + 1 ≤ m := low
    have window : m < q.taken + 2 := high
    have taken : q.taken ≤ q.accepted := Nat.le_trans ring.takenReleased
      (Nat.le_trans ring.releasedBegun ring.begunAccepted)
    have apart : slotOf m ≠ slotOf q.accepted := fun equal => by
      have same := slotOf_inj q.taken (by omega) window taken room equal
      omega
    simpa [Pipeline.setSlot, apart] using ring.vacant m (by omega) window
  ticket := by
    intro m high
    have bound : m < q.accepted + 1 := high
    by_cases same : m = q.accepted
    · subst same
      simpa [Ledger.edit] using ticket
    · simpa [Ledger.edit, same] using ring.ticket m (by omega)
  flag := by
    intro m high
    have bound : m < q.accepted + 1 := high
    have released : q.released ≤ q.accepted :=
      Nat.le_trans ring.releasedBegun ring.begunAccepted
    by_cases same : m = q.accepted
    · subst same
      simpa [Ledger.edit, flag] using released
    · simpa [Ledger.edit, same] using ring.flag m (by omega)

theorem Phases.accept {slot : PipeSlot} (phases : Phases p q) (begun : q.begun ≤ q.accepted)
    (same : next.worker.running = p.worker.running) (state : slot.state = .queued) :
    Phases next { q.edit q.accepted slot with accepted := q.accepted + 1 } where
  state := by
    intro m high
    have bound : m < q.accepted + 1 := high
    by_cases equal : m = q.accepted
    · subst equal
      rw [Ledger.edit_same, state]
      simp [frameState, begun]
    · rw [Ledger.edit_other q _ slot equal]
      exact (phases.congr same).state m (by omega)
  activeTaken := phases.activeTaken
  activeBegun := phases.activeBegun
  activeSettled := (phases.congr same).activeSettled

theorem Delivered.accept (slot : PipeSlot) (delivered : Delivered trace q)
    (released : q.released ≤ q.accepted) (taken : q.taken ≤ q.accepted) :
    Delivered (trace ++ [.accepted q.accepted slot.cookie])
      { q.edit q.accepted slot with accepted := q.accepted + 1 } where
  accepted := by
    change _ = (q.edit q.accepted slot).deliveries (q.accepted + 1)
    rw [acceptedList_append, delivered.accepted, Ledger.deliveries_succ,
      Ledger.deliveries_edit_beyond (Nat.le_refl _), Ledger.edit_same]
    rfl
  released := by
    rw [takenList_append, delivered.released]
    exact (List.append_nil _).trans (Ledger.deliveries_edit_beyond released).symm
  completed := by
    rw [takenList_append, delivered.completed]
    exact (List.append_nil _).trans (Ledger.deliveries_edit_beyond taken).symm

theorem PipeInvariant.stepSubmitStore {frame : Rgb565Frame} {degrees cookie : Nat}
    (invariant : PipeInvariant trace p q) (pc : p.producer = .submitStore frame degrees cookie) :
    ∃ q', PipeInvariant (trace ++ (p.stepSubmitStore frame degrees cookie).2)
      (p.stepSubmitStore frame degrees cookie).1 q' := by
  obtain ⟨tracks, explained⟩ := invariant
  have room : q.accepted < q.taken + 2 := by simpa [Producer, pc] using tracks.producer
  let slot : PipeSlot := { p.slots (slotOf q.accepted) with
    frame, degrees, cookie, released := false, state := .queued, ticket := q.accepted }
  refine ⟨{ q.edit q.accepted slot with accepted := q.accepted + 1 }, ?_⟩
  unfold Pipeline.stepSubmitStore
  rw [tracks.ring.put, tracks.ring.count]
  have ring := tracks.ring.accept slot room rfl rfl
  have released : q.released ≤ q.accepted :=
    Nat.le_trans tracks.ring.releasedBegun tracks.ring.begunAccepted
  have handed : HandedOver (trace ++ [.accepted q.accepted cookie]) _ q :=
    explained.handedOver.append
    (by simp) (by simp)
  exact {
    tracks := {
      ring := ring.congr ⟨rfl, rfl, rfl, (slotOf_succ _).symm, rfl, rfl, rfl⟩
      phases := tracks.phases.accept tracks.ring.begunAccepted rfl rfl
      activeIndex := tracks.activeIndex
      currentIndex := by
        have currentIndex := tracks.currentIndex
        unfold CurrentIndex at *
        dsimp only [Pipeline.setSlot_worker]
        split <;> simp_all <;> omega
      exited := tracks.exited
      producer := trivial }
    explained := {
      guarded := explained.guarded.append ⟨trivial, trivial⟩
      delivered := explained.delivered.accept slot released
        (Nat.le_trans tracks.ring.takenReleased released)
      handedOver := ⟨handed.published, handed.finished⟩
      accounted := {
        faulted := by simpa using explained.accounted.faulted
        outcome := by
          intro m high done
          have bound : m < q.accepted + 1 := high
          by_cases same : m = q.accepted
          · subst same
            simp [slot] at done
          · rw [Ledger.edit_other q _ slot same] at done ⊢
            exact (explained.accounted.outcome m (by omega) done).append
        submitted := fun m active => (explained.accounted.submitted m active).append }
      owed := explained.owed.append fun _ => rfl
      quiescent := explained.quiescent } }

/-- An unreported free source is the oldest unreleased frame. -/
theorem Tracks.release_head (tracks : Tracks p q)
    (free : (p.slots p.release).state.sourceFree = true)
    (unreported : (p.slots p.release).released = false) :
    q.released < q.accepted ∧ p.slots p.release = q.frames q.released := by
  have room := tracks.ring.acceptedRoom
  have taken := tracks.ring.takenReleased
  have released := Nat.le_trans tracks.ring.releasedBegun tracks.ring.begunAccepted
  rw [tracks.ring.release] at free unreported ⊢
  have inside : q.released < q.accepted := by
    by_contra beyond
    by_cases wrapped : q.released = q.taken + 2
    · have same : slotOf q.released = slotOf q.taken := by
        apply Fin.ext
        simp only [slotOf]
        omega
      rw [same, tracks.ring.held q.taken (Nat.le_refl _) (by omega)] at unreported
      have reported := (tracks.ring.flag q.taken (by omega)).mpr (by omega)
      rw [unreported] at reported
      cases reported
    · have vacant := tracks.ring.vacant q.released (by omega) (by omega)
      rw [vacant] at free
      cases free
  exact ⟨inside, tracks.ring.held _ taken inside⟩

theorem Tracks.take_head (tracks : Tracks p q) (done : (p.slots p.take).state = .done)
    (reported : (p.slots p.take).released = true) :
    q.taken < q.released ∧ p.slots p.take = q.frames q.taken := by
  have bound := Nat.le_trans tracks.ring.takenReleased
    (Nat.le_trans tracks.ring.releasedBegun tracks.ring.begunAccepted)
  rw [tracks.ring.take] at done reported ⊢
  have inside : q.taken < q.accepted := by
    by_contra beyond
    have vacant := tracks.ring.vacant q.taken (by omega) (by omega)
    rw [done] at vacant
    cases vacant
  have content := tracks.ring.held _ (Nat.le_refl _) inside
  rw [content] at reported
  exact ⟨(tracks.ring.flag _ inside).mp reported, content⟩

/-- The oldest unreleased frame is reported as released. -/
theorem Ring.advanceRelease (slot : PipeSlot) (ring : Ring p q) (high : q.released < q.accepted)
    (begun : q.released < q.begun) (ticket : slot.ticket = (q.frames q.released).ticket)
    (flag : slot.released = true) :
    Ring { p.setSlot (slotOf q.released) slot with release := slotOf (q.released + 1) }
      { q.edit q.released slot with released := q.released + 1 } where
  takenReleased := Nat.le_succ_of_le ring.takenReleased
  releasedBegun := begun
  begunAccepted := ring.begunAccepted
  acceptedRoom := ring.acceptedRoom
  count := ring.count
  begun := ring.begun
  put := ring.put
  release := rfl
  take := ring.take
  run := ring.run
  held := by
    intro m mLow mHigh
    by_cases same : m = q.released
    · subst same
      simp [Pipeline.setSlot, Ledger.edit]
    · have apart : slotOf m ≠ slotOf q.released := fun equal => same
        (slotOf_inj _ mLow (Nat.lt_of_lt_of_le mHigh ring.acceptedRoom) ring.takenReleased
          (Nat.lt_of_lt_of_le high ring.acceptedRoom) equal)
      simpa [Pipeline.setSlot, Ledger.edit, same, apart] using ring.held m mLow mHigh
  vacant := by
    intro m mLow mHigh
    have beyond : q.accepted ≤ m := mLow
    have taken := ring.takenReleased
    have room := ring.acceptedRoom
    have apart : slotOf m ≠ slotOf q.released := fun equal => by
      have same := slotOf_inj q.taken (by omega) mHigh taken (by omega) equal
      omega
    simpa [Pipeline.setSlot, apart] using ring.vacant m mLow mHigh
  ticket := by
    intro m bound
    by_cases same : m = q.released
    · subst same
      simpa [Ledger.edit, ticket] using ring.ticket _ bound
    · simpa [Ledger.edit, same] using ring.ticket m bound
  flag := by
    intro m bound
    by_cases same : m = q.released
    · subst same
      simp [Ledger.edit, flag]
    · have known := ring.flag m bound
      simp only [Ledger.edit, ne_eq, same, not_false_eq_true, Function.update_of_ne]
      rw [known]
      omega

theorem PipeInvariant.stepTake (invariant : PipeInvariant trace p q) (pc : p.producer = .idle) :
    ∃ q', PipeInvariant (trace ++ p.stepTake.2) p.stepTake.1 q' := by
  unfold Pipeline.stepTake
  dsimp only
  split
  · rename_i available
    obtain ⟨tracks, explained⟩ := invariant
    obtain ⟨inside, content⟩ := tracks.release_head available.1 (by simpa using available.2)
    have free := available.1
    rw [content] at free
    obtain ⟨begun, settled⟩ := (tracks.phases.sourceFree inside).mp free
    have published : .published q.released ∈ trace :=
      (explained.handedOver.published _).mpr ⟨begun, settled⟩
    let slot : PipeSlot := { q.frames q.released with released := true }
    have ring := tracks.ring.advanceRelease slot inside begun rfl rfl
    have handed : HandedOver (trace ++ [.took (q.frames q.released).releaseReport]) _ q :=
      explained.handedOver.append (by simp) (by simp)
    have ticket := tracks.ring.ticket _ inside
    have phases := tracks.phases.edit (n := q.released) p slot rfl rfl
    refine ⟨{ q.edit q.released slot with released := q.released + 1 }, ?_⟩
    rw [content, tracks.ring.release]
    exact {
      tracks := {
        ring := ring.congr ⟨rfl, rfl, rfl, rfl, (slotOf_succ _).symm, rfl, rfl⟩
        phases := ⟨phases.state, phases.activeTaken, phases.activeBegun, phases.activeSettled⟩
        activeIndex := tracks.activeIndex
        currentIndex := tracks.currentIndex
        exited := tracks.exited
        producer := by simp [Producer, pc] }
      explained := {
        guarded := explained.guarded.append ⟨by
          simpa [PipeSafe, PipeSlot.releaseReport, ticket] using published, trivial⟩
        delivered := {
          accepted := by
            change _ = (q.edit q.released slot).deliveries q.accepted
            rw [acceptedList_append, explained.delivered.accepted, Ledger.deliveries_edit (by rfl)]
            exact List.append_nil _
          released := by
            change _ = (q.edit q.released slot).deliveries (q.released + 1)
            rw [takenList_append, explained.delivered.released,
              Ledger.deliveries_edit (by rfl), Ledger.deliveries_succ]
            simp [takenList, PipeSlot.releaseReport, ticket]
          completed := by
            change _ = (q.edit q.released slot).deliveries q.taken
            rw [takenList_append, explained.delivered.completed, Ledger.deliveries_edit (by rfl)]
            exact List.append_nil _ }
        handedOver := ⟨handed.published, handed.finished⟩
        accounted := by
          have kept : Accounted (trace ++ [.took (q.frames q.released).releaseReport]) _ q :=
            explained.accounted.append (by simp)
          have accounted := kept.edit (n := q.released) slot q.active q.begun
            (fun done => ((explained.accounted.outcome _ inside) done).append)
            (fun m active => (explained.accounted.submitted m active).append)
          exact ⟨accounted.faulted, accounted.outcome, accounted.submitted⟩
        owed := explained.owed.append fun _ => rfl
        quiescent := explained.quiescent } }
  · refine ⟨q, ?_⟩
    exact invariant.proceed p.wake p.stopping (.inl rfl) trivial

theorem PipeInvariant.stepTakeComplete (invariant : PipeInvariant trace p q) :
    PipeInvariant (trace ++ p.stepTakeComplete.2) p.stepTakeComplete.1 q := by
  unfold Pipeline.stepTakeComplete
  dsimp only
  split
  · exact invariant.proceed p.wake p.stopping (.inr (.inr rfl)) trivial
  · rename_i ready
    simp only [not_or, ne_eq, Decidable.not_not, Bool.not_eq_false] at ready
    obtain ⟨released, content⟩ := invariant.tracks.take_head ready.1 ready.2
    refine invariant.proceed p.wake p.stopping (.inl rfl) ?_
    exact ⟨released, by rw [← content, ready.1], by rw [content]⟩

/-- Taking the oldest frame out of the ring leaves its slot EMPTY. -/
theorem PipeInvariant.stepTakeStore {report : PipeReport} (invariant : PipeInvariant trace p q)
    (pc : p.producer = .takeStore report) :
    ∃ q', PipeInvariant (trace ++ (p.stepTakeStore report).2) (p.stepTakeStore report).1 q' := by
  obtain ⟨tracks, explained⟩ := invariant
  have read : q.taken < q.released ∧ (q.frames q.taken).state = .done ∧
      report = (q.frames q.taken).completionReport := by
    simpa [Producer, pc] using tracks.producer
  obtain ⟨released, done, rfl⟩ := read
  have inside : q.taken < q.accepted := Nat.lt_of_lt_of_le released
    (Nat.le_trans tracks.ring.releasedBegun tracks.ring.begunAccepted)
  have ticket := tracks.ring.ticket _ inside
  obtain ⟨begun, settled, inactive⟩ := (tracks.phases.done inside).mp done
  have finished : .finished q.taken ∈ trace :=
    (explained.handedOver.finished _).mpr ⟨begun, settled, inactive⟩
  have outcome := explained.accounted.outcome _ inside done
  have reported : (q.taken, (q.frames q.taken).cookie) ∈ takenList .sourceReleased trace := by
    rw [explained.delivered.released]
    exact List.mem_map.mpr ⟨q.taken, List.mem_range.mpr released, rfl⟩
  have handed : HandedOver (trace ++ [.took (q.frames q.taken).completionReport]) _ q :=
    explained.handedOver.append (by simp) (by simp)
  have accounted : Accounted (trace ++ [.took (q.frames q.taken).completionReport]) _ q :=
    explained.accounted.append (by simp)
  refine ⟨{ q with taken := q.taken + 1 }, ?_⟩
  unfold Pipeline.stepTakeStore
  rw [tracks.ring.take]
  exact {
    tracks := {
      ring := {
        tracks.ring with
        takenReleased := released
        acceptedRoom := Nat.le_succ_of_le tracks.ring.acceptedRoom
        take := (slotOf_succ _).symm
        held := by
          intro m low high
          have above : q.taken + 1 ≤ m := low
          have room := tracks.ring.acceptedRoom
          have apart : slotOf m ≠ slotOf q.taken := fun equal => by
            have same := slotOf_inj q.taken (by omega)
              (Nat.lt_of_lt_of_le high room) (Nat.le_refl _) (by omega) equal
            omega
          simpa [Pipeline.setSlot, apart] using tracks.ring.held m (by omega) high
        vacant := by
          intro m low high
          have beyond : q.accepted ≤ m := low
          have window : m < q.taken + 1 + 2 := high
          by_cases last : m = q.taken + 2
          · have same : slotOf m = slotOf q.taken := by
              apply Fin.ext
              simp only [slotOf]
              omega
            simp [Pipeline.setSlot, same]
          · have apart : slotOf m ≠ slotOf q.taken := fun equal => by
              have same := slotOf_inj q.taken (by omega) (by omega) (Nat.le_refl _)
                (by omega) equal
              omega
            simpa [Pipeline.setSlot, apart] using tracks.ring.vacant m low (by omega) }
      phases := {
        tracks.phases with
        activeTaken := by
          intro m active
          have low := tracks.phases.activeTaken m active
          have apart : q.taken ≠ m := fun same => inactive (same ▸ active)
          exact Nat.lt_of_le_of_ne low apart }
      activeIndex := tracks.activeIndex
      currentIndex := by
        have currentIndex := tracks.currentIndex
        have busy : ∀ {index : Fin 2}, p.worker.running = true →
            (∃ n, q.begun = n + 1 ∧ q.taken ≤ n ∧ index = slotOf n) →
            ∃ n, q.begun = n + 1 ∧ q.taken + 1 ≤ n ∧ index = slotOf n := by
          rintro index running ⟨n, last, low, rfl⟩
          have apart : q.taken ≠ n := fun same => settled ⟨running, same ▸ last⟩
          exact ⟨n, last, by omega, rfl⟩
        unfold CurrentIndex at *
        dsimp only [Pipeline.setSlot_worker]
        split
        all_goals rename_i at_; simp only [at_] at currentIndex
        all_goals first
          | exact busy (by rw [at_]; rfl) currentIndex
          | exact currentIndex
      exited := tracks.exited
      producer := trivial }
    explained := {
      guarded := explained.guarded.append ⟨by
        simpa [PipeSafe, PipeSlot.completionReport, ticket] using
          ⟨finished, reported, outcome⟩, trivial⟩
      delivered := {
        accepted := by
          change _ = q.deliveries q.accepted
          rw [acceptedList_append, explained.delivered.accepted]
          exact List.append_nil _
        released := by
          change _ = q.deliveries q.released
          rw [takenList_append, explained.delivered.released]
          exact List.append_nil _
        completed := by
          change _ = q.deliveries (q.taken + 1)
          rw [takenList_append, explained.delivered.completed, Ledger.deliveries_succ]
          simp [takenList, PipeSlot.completionReport, ticket] }
      handedOver := ⟨handed.published, handed.finished⟩
      accounted := ⟨accounted.faulted, accounted.outcome, accounted.submitted⟩
      owed := explained.owed.append fun _ => rfl
      quiescent := explained.quiescent } }

/-- The destructor ran over both slots: nothing is undelivered. -/
theorem PipeInvariant.stepClosed (invariant : PipeInvariant trace p q)
    (pc : p.producer = .closeSlot 1) (empty : (p.slots 1).state = .empty) :
    PipeInvariant (trace ++ [.closed]) { p with producer := .closed } q := by
  obtain ⟨tracks, explained⟩ := invariant
  have first : (p.slots 0).state = .empty := by
    have producer := tracks.producer
    simp only [Producer, pc] at producer
    exact producer.2 trivial
  have delivered : q.taken = q.accepted := by
    have bound := Nat.le_trans tracks.ring.takenReleased
      (Nat.le_trans tracks.ring.releasedBegun tracks.ring.begunAccepted)
    by_contra waiting
    have inside : q.taken < q.accepted := by omega
    have content := tracks.ring.held _ (Nat.le_refl _) inside
    refine tracks.phases.nonempty inside ?_
    rw [← content]
    generalize slotOf q.taken = index
    obtain rfl | rfl : index = 0 ∨ index = 1 := by omega
    · exact first
    · exact empty
  exact {
    tracks := {
      ring := tracks.ring.congr ⟨rfl, rfl, rfl, rfl, rfl, rfl, rfl⟩
      phases := tracks.phases.congr rfl
      activeIndex := tracks.activeIndex
      currentIndex := tracks.currentIndex
      exited := tracks.exited
      producer := trivial }
    explained := {
      guarded := explained.guarded.append ⟨by
        change takenList .completed trace = acceptedList trace
        rw [explained.delivered.completed, explained.delivered.accepted, delivered], trivial⟩
      delivered := explained.delivered.append rfl fun _ => rfl
      handedOver := explained.handedOver.append (by simp) (by simp)
      accounted := explained.accounted.append (by simp)
      owed := explained.owed.append fun _ => rfl
      quiescent := explained.quiescent } }

/-! # Runs -/

theorem PipeInvariant.stepWorker {answers : WorkerAnswers} (invariant : PipeInvariant trace p q)
    (moved : p.stepWorker answers = some (next, events)) :
    ∃ q', PipeInvariant (trace ++ events) next q' := by
  unfold Pipeline.stepWorker at moved
  split at moved
  case h_1 pc =>
    obtain ⟨rfl, rfl⟩ := Prod.ext_iff.mp (Option.some.inj moved)
    refine ⟨q, ?_⟩
    rw [List.append_nil]
    exact invariant.rest _ _ (by rw [pc]; rfl) rfl
  case h_2 round pc =>
    obtain ⟨rfl, rfl⟩ := Prod.ext_iff.mp (Option.some.inj moved)
    exact ⟨q, by simpa using invariant.stepLoad pc⟩
  case h_3 round pc =>
    obtain ⟨rfl, rfl⟩ := Prod.ext_iff.mp (Option.some.inj moved)
    simpa using invariant.stepMark pc
  case h_4 round index pc =>
    have loaded := invariant.stepFaultLoad pc
    split at moved
    · rename_i fault
      obtain ⟨rfl, rfl⟩ := Prod.ext_iff.mp (Option.some.inj moved)
      rw [if_pos fault] at loaded
      exact ⟨q, by simpa using loaded⟩
    · rename_i fault
      obtain ⟨rfl, rfl⟩ := Prod.ext_iff.mp (Option.some.inj moved)
      rw [if_neg fault] at loaded
      exact ⟨q, by simpa using loaded⟩
  case h_5 round index pc =>
    obtain ⟨rfl, rfl⟩ := Prod.ext_iff.mp (Option.some.inj moved)
    exact ⟨q, invariant.stepSubmit pc⟩
  case h_6 round index result received pc =>
    obtain ⟨rfl, rfl⟩ := Prod.ext_iff.mp (Option.some.inj moved)
    exact invariant.stepReceipt pc
  case h_7 round index result pc =>
    obtain ⟨rfl, rfl⟩ := Prod.ext_iff.mp (Option.some.inj moved)
    exact invariant.stepCheck pc
  case h_8 round index pc =>
    obtain ⟨rfl, rfl⟩ := Prod.ext_iff.mp (Option.some.inj moved)
    exact invariant.stepQuarantine pc
  case h_9 round index result pc =>
    obtain ⟨rfl, rfl⟩ := Prod.ext_iff.mp (Option.some.inj moved)
    exact invariant.stepPublish pc
  case h_10 round pc =>
    obtain ⟨rfl, rfl⟩ := Prod.ext_iff.mp (Option.some.inj moved)
    exact ⟨q, by simpa using invariant.stepStopLoad pc⟩
  case h_11 last index pc =>
    obtain ⟨rfl, rfl⟩ := Prod.ext_iff.mp (Option.some.inj moved)
    exact invariant.stepDrain pc
  case h_12 last index pc =>
    obtain ⟨rfl, rfl⟩ := Prod.ext_iff.mp (Option.some.inj moved)
    exact ⟨q, invariant.stepDrainFault pc⟩
  case h_13 last index result pc =>
    obtain ⟨rfl, rfl⟩ := Prod.ext_iff.mp (Option.some.inj moved)
    exact invariant.stepDrainStore pc
  case h_14 pc =>
    obtain ⟨rfl, rfl⟩ := Prod.ext_iff.mp (Option.some.inj moved)
    exact ⟨q, invariant.stepExit pc⟩
  case h_15 => cases moved

theorem PipeInvariant.stepProducer {action : ProducerAction} (invariant : PipeInvariant trace p q)
    (moved : p.stepProducer action = some (next, events)) :
    ∃ q', PipeInvariant (trace ++ events) next q' := by
  have proceed : ∀ pc, Producer { p with producer := pc } q →
      PipeInvariant (trace ++ []) { p with producer := pc } q := fun pc producer =>
    invariant.proceed p.wake p.stopping (.inl rfl) producer
  have refuse : ∀ result, PipeInvariant (trace ++ [.refused result]) { p with producer := .idle } q :=
    fun result => invariant.proceed p.wake p.stopping
      (.inr (.inl ⟨result, rfl⟩)) trivial
  unfold Pipeline.stepProducer at moved
  split at moved
  case h_1 frame degrees cookie pc =>
    split at moved
    · obtain ⟨rfl, rfl⟩ := Prod.ext_iff.mp (Option.some.inj moved)
      have refused := refuse .invalid
      rw [← pc] at refused
      exact ⟨q, refused⟩
    · obtain ⟨rfl, rfl⟩ := Prod.ext_iff.mp (Option.some.inj moved)
      exact ⟨q, proceed _ trivial⟩
  case h_2 pc =>
    obtain ⟨rfl, rfl⟩ := Prod.ext_iff.mp (Option.some.inj moved)
    exact invariant.stepTake pc
  case h_3 pc =>
    obtain ⟨rfl, rfl⟩ := Prod.ext_iff.mp (Option.some.inj moved)
    exact ⟨q, invariant.proceed p.wake _ (.inl rfl) trivial⟩
  case h_4 pc =>
    split at moved
    · rename_i gone
      obtain ⟨rfl, rfl⟩ := Prod.ext_iff.mp (Option.some.inj moved)
      exact ⟨q, proceed _ ⟨gone, by simp⟩⟩
    · obtain ⟨rfl, rfl⟩ := Prod.ext_iff.mp (Option.some.inj moved)
      exact ⟨q, by simpa using invariant⟩
  case h_5 frame degrees cookie given pc =>
    split at moved
    · obtain ⟨rfl, rfl⟩ := Prod.ext_iff.mp (Option.some.inj moved)
      exact ⟨q, refuse .fault⟩
    · obtain ⟨rfl, rfl⟩ := Prod.ext_iff.mp (Option.some.inj moved)
      exact ⟨q, proceed _ trivial⟩
  case h_6 frame degrees cookie given pc =>
    split at moved
    · obtain ⟨rfl, rfl⟩ := Prod.ext_iff.mp (Option.some.inj moved)
      exact ⟨q, refuse .busy⟩
    · rename_i vacant
      obtain ⟨rfl, rfl⟩ := Prod.ext_iff.mp (Option.some.inj moved)
      exact ⟨q, proceed _ (invariant.tracks.room (Decidable.not_not.mp vacant))⟩
  case h_7 frame degrees cookie given pc =>
    obtain ⟨rfl, rfl⟩ := Prod.ext_iff.mp (Option.some.inj moved)
    exact invariant.stepSubmitStore pc
  case h_8 given pc =>
    obtain ⟨rfl, rfl⟩ := Prod.ext_iff.mp (Option.some.inj moved)
    exact ⟨q, invariant.proceed _ p.stopping (.inl rfl) trivial⟩
  case h_9 given pc =>
    obtain ⟨rfl, rfl⟩ := Prod.ext_iff.mp (Option.some.inj moved)
    exact ⟨q, invariant.stepTakeComplete⟩
  case h_10 report given pc =>
    obtain ⟨rfl, rfl⟩ := Prod.ext_iff.mp (Option.some.inj moved)
    exact invariant.stepTakeStore pc
  case h_11 index given pc =>
    have gone : p.exited = true ∧ (index = 1 → (p.slots 0).state = .empty) := by
      have producer := invariant.tracks.producer
      simpa only [Producer, pc] using producer
    split at moved
    · obtain ⟨rfl, rfl⟩ := Prod.ext_iff.mp (Option.some.inj moved)
      exact ⟨q, proceed _ trivial⟩
    · rename_i empty
      rw [ne_eq, Decidable.not_not] at empty
      split at moved
      · rename_i first
        obtain ⟨rfl, rfl⟩ := Prod.ext_iff.mp (Option.some.inj moved)
        exact ⟨q, proceed _ ⟨gone.1, fun _ => first ▸ empty⟩⟩
      · rename_i second
        obtain rfl : index = 1 := by omega
        obtain ⟨rfl, rfl⟩ := Prod.ext_iff.mp (Option.some.inj moved)
        exact ⟨q, invariant.stepClosed pc empty⟩
  case h_12 => cases moved

/-- The empty pipeline and the empty ledger. -/
theorem pipelineCreated_invariant :
    PipeInvariant [] Pipeline.created
      { frames := fun _ => Pipeline.created.slots 0, accepted := 0, begun := 0, released := 0
        taken := 0, active := none } where
  tracks := {
    ring := {
      takenReleased := Nat.le_refl _
      releasedBegun := Nat.le_refl _
      begunAccepted := Nat.le_refl _
      acceptedRoom := by simp
      count := rfl
      begun := rfl
      put := rfl
      release := rfl
      take := rfl
      run := rfl
      held := by simp
      vacant := fun _ _ _ => rfl
      ticket := by simp
      flag := by simp }
    phases := {
      state := by simp
      activeTaken := by simp
      activeBegun := by simp
      activeSettled := by simp }
    activeIndex := rfl
    currentIndex := trivial
    exited := by simp [Pipeline.created]
    producer := trivial }
  explained := {
    guarded := .nil
    delivered := ⟨rfl, rfl, rfl⟩
    handedOver := ⟨by simp, by simp⟩
    accounted := ⟨by simp [Pipeline.created], by simp, by simp⟩
    owed := by simp [Owed, Pipeline.created]
    quiescent := by simp [Quiescent, Pipeline.created] }

/-- Every reachable pipeline agrees with some ledger and its own history. -/
theorem pipelineMachine_invariant (reached : pipelineMachine.Reaches Machine.Always trace p) :
    ∃ q, PipeInvariant trace p q := by
  refine reached.invariant (fun trace p => ∃ q, PipeInvariant trace p q) ?_ ?_
  · rintro p rfl
    exact ⟨_, pipelineCreated_invariant⟩
  · rintro trace before action after events ⟨q, invariant⟩ - moved
    cases action with
    | producer action => exact invariant.stepProducer moved
    | worker answers => exact invariant.stepWorker moved

end LvglAic.Spi
