import LvglAic.Camera.CaptureCustody

/-! # No buffer of the camera is lost or used twice -/

namespace LvglAic.Camera

/-- A buffer moves between VIN and the session. -/
def CameraEvent.moves : CameraEvent → Bool
  | .dequeued _ _ | .queued _ => true
  | _ => false

/-- A part of a step that moves no buffer: it tells of none and leaves VIN. -/
structure Still (c t : Capture) : Prop where
  slots : t.slots = c.slots
  vin : t.vin = c.vin
  told : ∀ event ∈ t.log, event ∈ c.log ∨ event.moves = false

namespace Still

variable {c t u : Capture} {i : Nat} {a : Answer} {r : Round}

theorem refl : Still c c := ⟨rfl, rfl, fun _ => .inl⟩

theorem trans (first : Still c t) (second : Still t u) : Still c u := by
  refine ⟨second.slots.trans first.slots, second.vin.trans first.vin, fun event member => ?_⟩
  rcases second.told event member with earlier | still
  · exact first.told event earlier
  · exact .inr still

theorem tell {event : CameraEvent} (still : event.moves = false) : Still c (c.tell event) := by
  refine ⟨rfl, rfl, fun other member => ?_⟩
  rcases List.mem_append.mp member with earlier | last
  · exact .inl earlier
  · rw [List.mem_singleton.mp last]
    exact .inr still

theorem quiet (slots : t.slots = c.slots) (vin : t.vin = c.vin) (log : t.log = c.log) : Still c t :=
  ⟨slots, vin, fun _ member => .inl (log ▸ member)⟩

theorem goTo {next : WorkerPc} : Still c (c.goTo next) := .quiet rfl rfl rfl

theorem setSlot {st : SlotState} : Still c (c.setSlot i st) := .quiet rfl rfl rfl

theorem returnReady : Still c c.returnReady := .quiet rfl rfl rfl

/-- A change that moves no buffer is told. -/
theorem andTell {event : CameraEvent} (slots : t.slots = c.slots) (vin : t.vin = c.vin)
    (log : t.log = c.log) (still : event.moves = false) : Still c (t.tell event) :=
  (Still.quiet slots vin log).trans (.tell still)

theorem tellTo {event : CameraEvent} {next : WorkerPc} (slots : t.slots = c.slots)
    (vin : t.vin = c.vin) (log : t.log = c.log) (still : event.moves = false) :
    Still c ((t.tell event).goTo next) :=
  (Still.andTell slots vin log still).trans .goTo

theorem cancelPending : Still c c.cancelPending := by
  unfold Capture.cancelPending
  split
  · exact .andTell rfl rfl rfl rfl
  · exact .refl

theorem shutDown : Still c c.shut.cancelPending := by
  have shut : Still c c.shut := .quiet rfl rfl rfl
  exact shut.trans .cancelPending

theorem fault : Still c c.fault := by
  have shut : Still c (c.shut.setState .fault) := .quiet rfl rfl rfl
  exact shut.trans .cancelPending

/-! ## Calls -/

theorem start : Still c c.start := by
  unfold Capture.start
  split
  · exact .refl
  · exact .quiet rfl rfl rfl

theorem poll : Still c c.poll := by
  unfold Capture.poll
  split
  · exact .refl
  split
  · exact .refl
  · exact .quiet rfl rfl rfl

theorem retainSlot : Still c (c.retainSlot i) := by
  unfold Capture.retainSlot
  split
  · exact .andTell rfl rfl rfl rfl
  · exact .quiet rfl rfl rfl

theorem barcodeConfigure {enabled only : Bool} : Still c (c.barcodeConfigure enabled only) := by
  have configured : Still c ((c.nextGeneration.setBarcode enabled only).tell .configured) :=
    .andTell rfl rfl rfl rfl
  unfold Capture.barcodeConfigure
  split
  · exact .refl
  dsimp only
  split
  · exact configured.trans .returnReady
  · exact configured

theorem barcodePoll {capacity : Option Nat} : Still c (c.barcodePoll capacity) := by
  unfold Capture.barcodePoll
  dsimp only
  split
  · exact .refl
  · exact .andTell rfl rfl rfl rfl

theorem selectInput {input : Nat} : Still c (c.selectInput input) := by
  unfold Capture.selectInput
  split
  · exact .refl
  dsimp only
  refine trans ?_ .returnReady
  split
  · exact .andTell rfl rfl rfl rfl
  · exact .andTell rfl rfl rfl rfl

theorem close : Still c c.close := by
  unfold Capture.close
  dsimp only
  split
  · exact shutDown.trans (.quiet rfl rfl rfl)
  · exact shutDown

/-- Outside the worker no buffer moves. -/
theorem perform {action : CameraAction} (acted : c.perform action = some t)
    (outside : ∀ a, action ≠ .work a) : Still c t := by
  have call : ∀ next : Capture, Still c next → c.called next = some t → Still c t := by
    intro next still called
    simp only [Capture.called, Option.ite_none_right_eq_some, Option.some.injEq] at called
    exact called.2 ▸ still
  cases action with
  | start => exact call _ .start acted
  | pause paused => exact call (c.pause paused) (.quiet rfl rfl rfl) acted
  | poll => exact call _ .poll acted
  | create ok =>
      simp only [Capture.perform] at acted
      split at acted
      · simp only [Option.some.injEq] at acted
        subst acted
        split
        · exact .retainSlot
        · exact .quiet rfl rfl rfl
      · cases acted
  | refuse =>
      simp only [Capture.perform] at acted
      split at acted
      · rename_i i _
        have still : Still c (c.refuse i) := .quiet rfl rfl rfl
        simp only [Option.some.injEq] at acted
        exact acted ▸ still
      · cases acted
  | release i =>
      have still : Still c (c.releaseSlot i) := .quiet rfl rfl rfl
      simp only [Capture.perform, Option.ite_none_right_eq_some, Option.some.injEq] at acted
      exact acted.2 ▸ still
  | barcodeConfigure enabled only => exact call _ .barcodeConfigure acted
  | barcodePoll capacity => exact call _ .barcodePoll acted
  | selectInput input => exact call _ .selectInput acted
  | close => exact call _ .close acted
  | work a => exact absurd rfl (outside a)

end Still

namespace Capture

variable {c t : Capture} {a : Answer} {r : Round} {i f : Nat} {event : CameraEvent}

/-- What a step of the worker tells about the buffers. -/
def workMoves (c : Capture) (a : Answer) : Option CameraEvent :=
  match c.worker with
  | .give i _ => some (.queued i)
  | .acquiring => (vinAcquire c.vin (if a.ok then some a.value else none)).1.map
      fun i => .dequeued i c.vin.delivered
  | _ => none

/-- The worker tells of the buffer that it gives back or dequeues, and of no other. -/
theorem work_moves (worked : c.work a = some t) (told : event ∈ t.log) (moves : event.moves = true) :
    event ∈ c.log ∨ c.workMoves a = some event := by
  have quiet : ∀ next : Capture, (∀ other ∈ next.log, other ∈ c.log ∨ other.moves = false) →
      next = t → event ∈ c.log := by
    rintro next silent rfl
    rcases silent event told with earlier | still
    · exact earlier
    · rw [moves] at still
      cases still
  have plain : ∀ next : Capture, next.log = c.log → next = t → event ∈ c.log :=
    fun next same => quiet next fun _ member => .inl (same ▸ member)
  unfold work at worked
  cases pc : c.worker with
  | give i r =>
      rw [pc] at worked
      simp only [Option.some.injEq] at worked
      have log : t.log = c.log ++ [.queued i] := by
        rw [← worked]
        unfold workGive
        dsimp only
        split <;> rfl
      rw [log, List.mem_append, List.mem_singleton] at told
      rcases told with earlier | rfl
      · exact .inl earlier
      · exact .inr (by rw [workMoves, pc])
  | acquiring =>
      rw [pc] at worked
      simp only [Option.some.injEq] at worked
      subst worked
      unfold workAcquiring at told
      dsimp only at told
      rw [workMoves, pc]
      dsimp only
      split at told
      · rename_i i acquired
        rcases List.mem_append.mp told with earlier | last
        · exact .inl earlier
        · rw [List.mem_singleton.mp last, acquired]
          exact .inr rfl
      · exact .inl told
  | fault =>
      rw [pc] at worked
      simp only [Option.some.injEq] at worked
      exact .inl (quiet _ (Still.fault.trans .goTo).told worked)
  | returnFault i r =>
      rw [pc] at worked
      simp only [Option.some.injEq] at worked
      exact .inl (quiet _ (Still.fault.trans .goTo).told worked)
  | top =>
      rw [pc] at worked
      simp only [Option.some.injEq] at worked
      refine .inl (plain _ ?_ worked)
      unfold workTop
      dsimp only
      split <;> rfl
  | returning i r =>
      rw [pc] at worked
      simp only [Option.some.injEq] at worked
      refine .inl (plain _ ?_ worked)
      unfold workReturning
      split
      · split <;> rfl
      · split <;> rfl
  | selecting r =>
      rw [pc] at worked
      simp only [Option.some.injEq] at worked
      refine .inl (quiet _ ?_ worked)
      unfold workSelecting
      split
      · exact Still.told (.tellTo rfl rfl rfl rfl)
      · exact Still.refl.told
  | driving input r =>
      rw [pc] at worked
      simp only [Option.some.injEq] at worked
      exact .inl (quiet _ (Still.told (.tellTo rfl rfl rfl rfl)) worked)
  | driven ok input r =>
      rw [pc] at worked
      simp only [Option.some.injEq] at worked
      refine .inl (quiet _ ?_ worked)
      unfold workDriven
      split
      · exact Still.told (.tellTo rfl rfl rfl rfl)
      · exact Still.told (.tellTo rfl rfl rfl rfl)
  | starting r =>
      rw [pc] at worked
      simp only [Option.some.injEq] at worked
      refine .inl (plain _ ?_ worked)
      unfold workStarting
      split
      · rfl
      split <;> rfl
  | pausing r =>
      rw [pc] at worked
      simp only [Option.some.injEq] at worked
      refine .inl (plain _ ?_ worked)
      unfold workPausing
      split <;> rfl
  | scanning i =>
      rw [pc] at worked
      simp only [Option.some.injEq] at worked
      refine .inl (quiet _ ?_ worked)
      unfold workScanning
      split
      · exact Still.told (.tellTo rfl rfl rfl rfl)
      · exact Still.refl.told
  | decoded i generation length =>
      rw [pc] at worked
      simp only [Option.some.injEq] at worked
      refine .inl (quiet _ ?_ worked)
      unfold workDecoded
      split
      · exact Still.told (.tellTo rfl rfl rfl rfl)
      · exact Still.refl.told
  | stopped =>
      rw [pc] at worked
      cases worked
  | opening | given i r | close | closed | running r | viewing i | refusing i
  | decoding i generation | publishing i =>
      rw [pc] at worked
      simp only [Option.some.injEq] at worked
      refine .inl (plain _ ?_ worked)
      rfl

/-- The worker only comes to dequeue when the session leaves a buffer with VIN. -/
theorem work_acquiring (worked : c.work a = some t) (arrived : t.worker = .acquiring) :
    ∃ r, c.worker = .running r := by
  have elsewhere : ∀ next : Capture, next.worker ≠ .acquiring → next = t → False := by
    rintro next other rfl
    exact other arrived
  have branch : ∀ (ok : Bool) (first second : WorkerPc), first ≠ .acquiring → second ≠ .acquiring →
      (if ok then first else second) ≠ .acquiring := by
    intro ok first second one two
    cases ok with
    | true => exact one
    | false => exact two
  unfold work at worked
  cases pc : c.worker with
  | running r => exact ⟨r, rfl⟩
  | stopped =>
      rw [pc] at worked
      cases worked
  | top =>
      rw [pc] at worked
      simp only [Option.some.injEq] at worked
      exact (elsewhere _ (by simp [workTop, goTo]) worked).elim
  | returning i r =>
      rw [pc] at worked
      simp only [Option.some.injEq] at worked
      refine (elsewhere _ ?_ worked).elim
      unfold workReturning
      split
      · split <;> (intro same; cases same)
      · split <;> (intro same; cases same)
  | give i r =>
      rw [pc] at worked
      simp only [Option.some.injEq] at worked
      refine (elsewhere _ ?_ worked).elim
      unfold workGive
      dsimp only
      split <;> (intro same; cases same)
  | selecting r =>
      rw [pc] at worked
      simp only [Option.some.injEq] at worked
      refine (elsewhere _ ?_ worked).elim
      unfold workSelecting
      split <;> (intro same; cases same)
  | driven ok input r =>
      rw [pc] at worked
      simp only [Option.some.injEq] at worked
      refine (elsewhere _ ?_ worked).elim
      unfold workDriven
      split
      · refine branch _ _ _ ?_ ?_ <;> (intro same; cases same)
      · intro same
        cases same
  | starting r =>
      rw [pc] at worked
      simp only [Option.some.injEq] at worked
      refine (elsewhere _ ?_ worked).elim
      unfold workStarting
      split
      · intro same
        cases same
      split
      · intro same
        cases same
      · refine branch _ _ _ ?_ ?_ <;> (intro same; cases same)
  | pausing r =>
      rw [pc] at worked
      simp only [Option.some.injEq] at worked
      refine (elsewhere _ ?_ worked).elim
      unfold workPausing
      split
      · intro same
        cases same
      · refine branch _ _ _ ?_ ?_ <;> (intro same; cases same)
  | acquiring =>
      rw [pc] at worked
      simp only [Option.some.injEq] at worked
      refine (elsewhere _ ?_ worked).elim
      unfold workAcquiring
      dsimp only
      split
      · intro same
        cases same
      · refine branch _ _ _ ?_ ?_ <;> (intro same; cases same)
  | scanning i =>
      rw [pc] at worked
      simp only [Option.some.injEq] at worked
      refine (elsewhere _ ?_ worked).elim
      unfold workScanning
      split <;> (intro same; cases same)
  | decoded i generation length =>
      rw [pc] at worked
      simp only [Option.some.injEq] at worked
      refine (elsewhere _ ?_ worked).elim
      unfold workDecoded
      split <;> (intro same; cases same)
  | opening | close | viewing i =>
      rw [pc] at worked
      simp only [Option.some.injEq] at worked
      refine (elsewhere _ ?_ worked).elim
      refine branch _ _ _ ?_ ?_ <;> (intro same; cases same)
  | fault | returnFault i r | given i r | closed | driving input r | refusing i
  | decoding i generation | publishing i =>
      rw [pc] at worked
      simp only [Option.some.injEq] at worked
      refine (elsewhere _ ?_ worked).elim
      intro same
      cases same

theorem cancelPending_worker : c.cancelPending.worker = c.worker := by
  unfold cancelPending
  split <;> rfl

/-- Outside the worker its place stays. -/
theorem perform_worker {action : CameraAction} (acted : c.perform action = some t)
    (outside : ∀ a, action ≠ .work a) : t.worker = c.worker := by
  have call : ∀ next : Capture, next.worker = c.worker → c.called next = some t →
      t.worker = c.worker := by
    intro next same called
    simp only [Capture.called, Option.ite_none_right_eq_some, Option.some.injEq] at called
    exact called.2 ▸ same
  cases action with
  | start =>
      refine call _ ?_ acted
      unfold start
      split <;> rfl
  | pause paused => exact call (c.pause paused) rfl acted
  | poll =>
      refine call _ ?_ acted
      unfold poll
      split
      · rfl
      split <;> rfl
  | create ok =>
      simp only [perform] at acted
      split at acted
      · simp only [Option.some.injEq] at acted
        subst acted
        split
        · unfold retainSlot
          split <;> rfl
        · rfl
      · cases acted
  | refuse =>
      simp only [perform] at acted
      split at acted
      · simp only [Option.some.injEq] at acted
        subst acted
        rfl
      · cases acted
  | release i =>
      simp only [perform, Option.ite_none_right_eq_some, Option.some.injEq] at acted
      obtain ⟨_, rfl⟩ := acted
      rfl
  | barcodeConfigure enabled only =>
      refine call _ ?_ acted
      unfold barcodeConfigure
      split
      · rfl
      dsimp only
      split <;> rfl
  | barcodePoll capacity =>
      refine call _ ?_ acted
      unfold barcodePoll
      dsimp only
      split <;> rfl
  | selectInput input =>
      refine call _ ?_ acted
      unfold selectInput
      split
      · rfl
      dsimp only
      split <;> rfl
  | close =>
      refine call _ ?_ acted
      unfold close
      dsimp only
      split <;> exact cancelPending_worker
  | work a => exact absurd rfl (outside a)

end Capture

/-- Whoever dequeues leaves a buffer with VIN. -/
def Spare (c : Capture) : Prop :=
  c.worker = .acquiring → c.heldCount + 1 < c.vin.numBuffers

theorem Spare.perform {c t : Capture} {action : CameraAction} (spare : Spare c)
    (acted : c.perform action = some t) : Spare t := by
  intro arrived
  cases action with
  | work a =>
      have worked : c.work a = some t := acted
      obtain ⟨r, pc⟩ := Capture.work_acquiring worked arrived
      simp only [Capture.work, pc, Option.some.injEq] at worked
      subst worked
      change (if r.paused || c.vin.numBuffers ≤ c.heldCount + 1 then WorkerPc.top
        else .acquiring) = .acquiring at arrived
      split at arrived
      · cases arrived
      · rename_i room
        simp only [Bool.or_eq_true, decide_eq_true_eq, not_or, Nat.not_le] at room
        exact room.2
  | _ =>
      have still := Still.perform acted fun _ same => by cases same
      have worker := Capture.perform_worker acted fun _ same => by cases same
      rw [worker] at arrived
      rw [Capture.heldCount, still.slots, still.vin]
      exact spare arrived

theorem capture_custody {trace : List CameraEvent} {c : Capture}
    (reached : cameraMachine.Reaches Machine.Always trace c) :
    Custody c ∧ Spare c ∧ c.log = [] := by
  refine reached.invariant (fun _ c => Custody c ∧ Spare c ∧ c.log = []) ?_ ?_
  · rintro _ ⟨slots, barcodeBuild, rfl⟩
    refine ⟨⟨.zero, ⟨?_, ?_, nofun⟩, ⟨?_, nofun, nofun, nofun, nofun⟩, fun _ => rfl, ?_, nofun⟩,
      nofun, rfl⟩
    · exact fun _ => iff_of_false nofun nofun
    · exact fun _ => iff_of_false nofun nofun
    · exact fun _ full => absurd rfl full
    · rintro (last | last) <;> cases last
  · rintro _ before action after events ⟨custody, spare, _⟩ _ moved
    change before.step action = some (after, events) at moved
    simp only [Capture.step, Option.map_eq_some_iff, Prod.mk.injEq] at moved
    obtain ⟨next, acted, rfl, _⟩ := moved
    have spared : Spare next := spare.perform acted
    exact ⟨(custody.perform acted).congr rfl, spared, rfl⟩

/-- The buffers of the camera in a state and in the steps from there. -/
structure Conserved (c : Capture) : Prop where
  split : c.vin.streaming = true → ∀ i < c.vin.numBuffers, c.vin.queued i = !c.vin.held i
  occupied : ∀ i, c.vin.held i = true →
    (c.slot i).state ≠ .empty ∨ c.worker.inHand = some i
  backed : ∀ i, (c.slot i).state ≠ .empty → c.vin.held i = true ∨ c.worker.givenBack = some i
  oneReady : ∀ i j, (c.slot i).state = .ready → (c.slot j).state = .ready → i = j
  requeued : ∀ action t events i, c.step action = some (t, events) → .queued i ∈ events →
    (∃ a, action = .work a) ∧ c.vin.held i = true ∧ (c.slot i).state ≠ .ready ∧
      (c.slot i).state ≠ .publishing ∧ (c.slot i).image = none
  spared : ∀ action t events i f, c.step action = some (t, events) → .dequeued i f ∈ events →
    ∃ j < t.vin.numBuffers, t.vin.queued j = true
  ended : c.finished = true →
    (∀ i, c.vin.held i = false) ∧ c.vin.opened = false ∧ c.vin.streaming = false

theorem Capture.step_moves {c t : Capture} {action : CameraAction} {events : List CameraEvent}
    {event : CameraEvent} (empty : c.log = []) (stepped : c.step action = some (t, events))
    (told : event ∈ events) (moves : event.moves = true) :
    ∃ a next, action = .work a ∧ c.work a = some next ∧ t = { next with log := [] } ∧
      c.workMoves a = some event := by
  simp only [Capture.step, Option.map_eq_some_iff, Prod.mk.injEq] at stepped
  obtain ⟨next, acted, rfl, rfl⟩ := stepped
  cases action with
  | work a =>
      rcases Capture.work_moves acted told moves with earlier | found
      · rw [empty] at earlier
        cases earlier
      · exact ⟨a, next, rfl, acted, rfl, found⟩
  | _ =>
      rcases (Still.perform acted nofun).told event told with earlier | still
      · rw [empty] at earlier
        cases earlier
      · rw [moves] at still
        cases still

theorem Custody.requeued {c t : Capture} {action : CameraAction} {events : List CameraEvent}
    {i : Nat} (custody : Custody c) (empty : c.log = []) (stepped : c.step action = some (t, events))
    (told : .queued i ∈ events) :
    (∃ a, action = .work a) ∧ c.vin.held i = true ∧ (c.slot i).state ≠ .ready ∧
      (c.slot i).state ≠ .publishing ∧ (c.slot i).image = none := by
  obtain ⟨a, _, rfl, _, _, found⟩ := Capture.step_moves empty stepped told rfl
  have giving : c.worker.giving = some i := by
    unfold Capture.workMoves at found
    split at found
    · rename_i pc
      cases found
      rw [pc]
      rfl
    · simp only [Option.map_eq_some_iff, reduceCtorEq, and_false, exists_const] at found
    · cases found
  obtain ⟨held, back⟩ := custody.joined.giving i giving
  refine ⟨⟨a, rfl⟩, held, by rw [back]; nofun, by rw [back]; nofun, ?_⟩
  by_contra has
  have published := (custody.slots.images i).mp (Option.isSome_iff_ne_none.mpr has)
  rw [back] at published
  cases published

theorem free_among {n i : Nat} {held : Nat → Bool}
    (room : (List.range n).countP held + 1 < n) : ∃ j < n, j ≠ i ∧ held j = false := by
  by_contra none
  push Not at none
  have only : (List.range n).filter (fun j => !held j) ⊆ [i] := by
    intro j member
    obtain ⟨inside, free⟩ := List.mem_filter.mp member
    by_contra other
    have kept := none j (List.mem_range.mp inside) fun same => other (by rw [same]; simp)
    simp [kept] at free
  have few := ((List.nodup_range.filter _).subperm only).length_le
  rw [← List.countP_eq_length_filter, List.length_singleton] at few
  have all := List.length_eq_countP_add_countP held (l := List.range n)
  rw [List.length_range] at all
  simp only [Bool.not_eq_true, Bool.decide_eq_false] at all
  omega

theorem Custody.spared {c t : Capture} {action : CameraAction} {events : List CameraEvent}
    {i f : Nat} (custody : Custody c) (spare : Spare c) (empty : c.log = [])
    (stepped : c.step action = some (t, events)) (told : .dequeued i f ∈ events) :
    ∃ j < t.vin.numBuffers, t.vin.queued j = true := by
  obtain ⟨a, next, rfl, worked, rfl, found⟩ := Capture.step_moves empty stepped told rfl
  have pc : c.worker = .acquiring ∧
      (vinAcquire c.vin (if a.ok then some a.value else none)).1 = some i := by
    unfold Capture.workMoves at found
    split at found
    · cases found
    · rename_i pc
      simp only [Option.map_eq_some_iff, CameraEvent.dequeued.injEq] at found
      obtain ⟨j, acquired, rfl, _⟩ := found
      exact ⟨pc, acquired⟩
    · cases found
  have room := spare pc.1
  rcases VinSafe.vinAcquire_cases (v := c.vin) (if a.ok then some a.value else none) with
    ⟨nothing, _⟩ | ⟨j, acquired, runs, below, free, taken⟩
  · rw [pc.2] at nothing
    cases nothing
  obtain rfl : i = j := Option.some.inj (pc.2.symm.trans acquired)
  have vin : next.vin = { c.vin with
      held := Function.update c.vin.held i true
      queued := Function.update c.vin.queued i false
      delivered := c.vin.delivered + 1 } := by
    simp only [Capture.work, pc.1, Option.some.injEq] at worked
    rw [← worked, ← taken]
    unfold Capture.workAcquiring
    dsimp only
    rw [acquired]
    rfl
  have among : (List.range c.vin.numBuffers).countP c.vin.held ≤ c.heldCount :=
    (List.range_sublist.mpr custody.vin.fits).countP_le
  obtain ⟨j, inside, other, unheld⟩ : ∃ j < c.vin.numBuffers, j ≠ i ∧ c.vin.held j = false :=
    free_among (by omega)
  refine ⟨j, ?_, ?_⟩
  · change j < next.vin.numBuffers
    rw [vin]
    exact inside
  · change next.vin.queued j = true
    rw [vin]
    dsimp only
    rw [Function.update_of_ne other, custody.vin.split runs j inside, unheld]
    rfl

/-- In every run VIN and the session share the buffers; a held buffer has a full slot
but for the one in the worker's hand, and a full slot has a held buffer but for the one that
VIN just took back; the worker alone gives buffers back, and only those that nobody reads. -/
theorem camera_buffers_conserved {trace : List CameraEvent} {c : Capture}
    (reached : cameraMachine.Reaches Machine.Always trace c) : Conserved c := by
  obtain ⟨custody, spare, empty⟩ := capture_custody reached
  refine ⟨custody.vin.split, custody.joined.heldSlot, custody.joined.slotHeld,
    custody.slots.oneReady, fun action t events i stepped told => ?_,
    fun action t events i f stepped told => ?_, fun done => ?_⟩
  · exact custody.requeued empty stepped told
  · exact custody.spared spare empty stepped told
  · obtain ⟨opened, streaming⟩ := custody.ended (.inr (custody.finished done))
    exact ⟨fun i => custody.vin.unheld streaming, opened, streaming⟩

/-- The capture starts and its worker dequeues the first frame. -/
def firstFrame : List CameraAction :=
  .start :: List.replicate 10 (.work { ok := true, value := 3 }) ++
    [.work { ok := true, value := 0 }]

/-- The frame is published as an image. -/
def firstImage : List CameraAction :=
  firstFrame ++ List.replicate 3 (.work { ok := true, value := 0 }) ++ [.poll, .create true]

theorem camera_buffers_conserved_image :
    ∃ (trace : List CameraEvent) (c : Capture), cameraMachine.Reaches Machine.Always trace c ∧
      c.vin.streaming = true ∧ c.vin.held 0 = true ∧ (c.slot 0).image = some 0 ∧ Conserved c := by
  let start := Capture.prepare 3 false
  obtain ⟨⟨c, trace⟩, executed⟩ : ∃ last, cameraMachine.execute start firstImage = some last :=
    Option.isSome_iff_exists.mp (by decide +kernel)
  have shown : (cameraMachine.execute start firstImage).map (fun last =>
      (last.1.vin.streaming, last.1.vin.held 0, (last.1.slot 0).image)) =
        some (true, true, some 0) := by decide +kernel
  rw [executed] at shown
  simp only [Option.map_some, Option.some.injEq, Prod.mk.injEq] at shown
  have initial : cameraMachine.Initial start := ⟨_, _, rfl⟩
  have reached : cameraMachine.Reaches Machine.Always trace c :=
    (Machine.Reaches.start initial).execute executed
  exact ⟨trace, c, reached, shown.1, shown.2.1, shown.2.2, camera_buffers_conserved reached⟩

/-- The buffer that the worker has just dequeued has an empty slot. -/
theorem dequeued_buffer_slot_empty :
    ¬ ∀ (trace : List CameraEvent) (c : Capture), cameraMachine.Reaches Machine.Always trace c →
      c.vin.streaming = true → ∀ i, c.vin.held i = true → (c.slot i).state ≠ .empty := by
  intro claim
  let start := Capture.prepare 3 false
  obtain ⟨⟨c, trace⟩, executed⟩ : ∃ last, cameraMachine.execute start firstFrame = some last :=
    Option.isSome_iff_exists.mp (by decide +kernel)
  have shown : (cameraMachine.execute start firstFrame).map (fun last =>
      (last.1.vin.streaming, last.1.vin.held 0, (last.1.slot 0).state)) =
        some (true, true, .empty) := by decide +kernel
  rw [executed] at shown
  simp only [Option.map_some, Option.some.injEq, Prod.mk.injEq] at shown
  have initial : cameraMachine.Initial start := ⟨_, _, rfl⟩
  have reached : cameraMachine.Reaches Machine.Always trace c :=
    (Machine.Reaches.start initial).execute executed
  exact claim trace c reached shown.1 0 shown.2.1 shown.2.2

end LvglAic.Camera
