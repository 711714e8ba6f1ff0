import LvglAic.Player.Custody

/-! # The mailbox keeps custody

`Frames.custody` reads the mailbox as a custody, and every step of either
thread is a sequence of custody moves.  `Control` is what the steps rely on:
which slot states the two program counters stand for.
-/

namespace LvglAic.Player

namespace WorkerPc

/-- The BUILDING slot of the submit in progress. -/
def builds : WorkerPc → Option LeaseIndex
  | .submitPin slot _ | .submitReject slot _ _ | .submitPublish slot => some slot
  | _ => none

/-- The RELEASING slot of the drain in progress. -/
def returns : WorkerPc → Option LeaseIndex
  | .drainPin slot _ | .drainFault slot | .drainStore slot _ _ => some slot
  | _ => none

/-- The slot whose lease is back in the session. -/
def stores : WorkerPc → Option LeaseIndex
  | .drainStore slot _ true => some slot
  | _ => none

/-- A pin release failed and the next section quarantines the mailbox. -/
def faults : WorkerPc → Bool
  | .drainFault _ | .submitReject _ _ false => true
  | _ => false

/-- The pin a slot answers for, given its `pin` field: `submit` keeps the pin
of its slot in a local variable. -/
def pin (worker : WorkerPc) (index : LeaseIndex) (stored : Nat) : Nat :=
  match worker with
  | .submitPin slot _ => if index = slot then 0 else stored
  | .submitReject slot taken released =>
      if index = slot then if released then 0 else taken else stored
  | _ => stored

end WorkerPc

/-- The PUBLISHING slot of the poll in progress. -/
def UiPc.publishes : UiPc → Option LeaseIndex
  | .idle => none
  | .creating slot | .failing slot => some slot

def ownedPin (pin : Nat) : Option Nat := if pin = 0 then none else some pin

namespace Frames

def custody (f : Frames) : Custody where
  occupant index := if (f.slots index).state = .empty then none else some (f.slots index).lease
  pin index :=
    if (f.slots index).state = .empty then none
    else ownedPin (f.worker.pin index (f.slots index).pin)
  shown index := (f.slots index).state = .published
  building := f.worker.builds
  storing := f.worker.stores
  holds := f.session.Holds
  issued := f.session.nextTicket
  pins := f.nextPin
  quarantined := f.quarantined
  sealed := f.quarantined || f.worker.faults

structure Control (f : Frames) : Prop where
  session : f.session.Sound
  builds : ∀ index, f.worker.builds = some index ↔
    (f.slots index).state = .building ∧ f.quarantined = false
  returns : ∀ index, f.worker.returns = some index ↔
    (f.slots index).state = .releasing ∧ f.quarantined = false
  publishes : ∀ index, f.ui.publishes = some index ↔ (f.slots index).state = .publishing
  images : ∀ index, index ∈ f.images ↔ (f.slots index).state = .published
  nodup : f.images.Nodup
  quarantined : f.quarantined = true → f.worker = .idle
  rejected : ∀ index pin, f.worker = .submitReject index pin false → pin ≠ 0
  stored : ∀ index success returned, f.worker = .drainStore index success returned →
    (f.slots index).pin = 0

variable {f next : Frames} {index : LeaseIndex} {lease : Nat} {events : List FrameEvent}

theorem created_control : Control created where
  session := ⟨by simp [created, Session.zero], by simp [created, Session.zero]⟩
  builds := by simp [created, WorkerPc.builds]
  returns := by simp [created, WorkerPc.returns]
  publishes := by simp [created, UiPc.publishes]
  images := by simp [created]
  nodup := by simp [created]
  quarantined := by simp [created]
  rejected := by simp [created]
  stored := by simp [created]

theorem firstIndex_isSome {test : LeaseIndex → Bool} :
    (firstIndex test).isSome = true ↔ ∃ index, test index = true := by
  rw [← Bool.not_eq_false, Option.isSome_eq_false_iff, Option.isNone_iff_eq_none, firstIndex_none]
  simp

theorem anySlot_true {test : FrameSlot → Bool} :
    f.anySlot test = true ↔ ∃ index, test (f.slots index) = true := firstIndex_isSome

theorem anySlot_false {test : FrameSlot → Bool} :
    f.anySlot test = false ↔ ∀ index, test (f.slots index) = false := by
  rw [← Bool.not_eq_true, anySlot_true]
  simp

/-- Equal slots and an equal worker have an equal custody. -/
theorem custody_frame (slots : next.slots = f.slots) (worker : next.worker = f.worker)
    (session : next.session = f.session) (pins : next.nextPin = f.nextPin)
    (quarantined : next.quarantined = f.quarantined) : next.custody = f.custody := by
  simp only [custody, slots, worker, session, pins, quarantined]

/-- The custody sees of a state only whether it is EMPTY or PUBLISHED. -/
theorem custody_states (slots : ∀ index, (next.slots index).lease = (f.slots index).lease ∧
      (next.slots index).pin = (f.slots index).pin ∧
      ((next.slots index).state = .empty ↔ (f.slots index).state = .empty) ∧
      ((next.slots index).state = .published ↔ (f.slots index).state = .published))
    (worker : next.worker.builds = f.worker.builds ∧ next.worker.stores = f.worker.stores ∧
      next.worker.faults = f.worker.faults ∧ next.worker.pin = f.worker.pin)
    (session : next.session = f.session) (pins : next.nextPin = f.nextPin)
    (quarantined : next.quarantined = f.quarantined) : next.custody = f.custody := by
  simp only [custody, slots, worker, session, pins, quarantined]

theorem pin_unbuilt {worker : WorkerPc} {stored : Nat}
    (apart : worker.builds = none ∨ ∃ slot, worker.builds = some slot ∧ index ≠ slot) :
    worker.pin index stored = stored := by
  cases worker <;> simp_all [WorkerPc.pin, WorkerPc.builds]

/-- What the custody becomes when one slot and the worker change. -/
def slotCustody (f next : Frames) (slot : LeaseIndex) (new : FrameSlot) : Custody where
  occupant := Function.update f.custody.occupant slot
    (if new.state = .empty then none else some new.lease)
  pin := Function.update f.custody.pin slot
    (if new.state = .empty then none else ownedPin (next.worker.pin slot new.pin))
  shown := Function.update f.custody.shown slot (new.state = .published)
  building := next.worker.builds
  storing := next.worker.stores
  holds := next.session.Holds
  issued := next.session.nextTicket
  pins := next.nextPin
  quarantined := next.quarantined
  sealed := next.quarantined || next.worker.faults

theorem custody_slot {slot : LeaseIndex} {new : FrameSlot}
    (slots : next.slots = Function.update f.slots slot new)
    (before : f.worker.builds = none ∨ f.worker.builds = some slot)
    (after : next.worker.builds = none ∨ next.worker.builds = some slot) :
    next.custody = f.slotCustody next slot new := by
  have kept : ∀ index, index ≠ slot → next.worker.pin index = f.worker.pin index := by
    intro index apart
    funext stored
    rw [pin_unbuilt (after.imp_right fun built => ⟨slot, built, apart⟩),
      pin_unbuilt (before.imp_right fun built => ⟨slot, built, apart⟩)]
  simp only [slotCustody, custody, slots]
  ext1 <;> try rfl
  all_goals
    funext index
    by_cases same : index = slot
    · subst same
      simp
    · simp [same, kept]

theorem slot_moves {slot : LeaseIndex} {new : FrameSlot} {target : Custody}
    (slots : next.slots = Function.update f.slots slot new)
    (before : f.worker.builds = none ∨ f.worker.builds = some slot)
    (after : next.worker.builds = none ∨ next.worker.builds = some slot)
    (moves : Custody.Moves f.custody events target) (same : f.slotCustody next slot new = target) :
    Custody.Moves f.custody events next.custody := by
  rw [custody_slot slots before after, same]
  exact moves

@[simp] theorem custody_building : f.custody.building = f.worker.builds := rfl
@[simp] theorem custody_storing : f.custody.storing = f.worker.stores := rfl
@[simp] theorem custody_holds : f.custody.holds = f.session.Holds := rfl
@[simp] theorem custody_issued : f.custody.issued = f.session.nextTicket := rfl
@[simp] theorem custody_pins : f.custody.pins = f.nextPin := rfl
@[simp] theorem custody_quarantined : f.custody.quarantined = f.quarantined := rfl
@[simp] theorem custody_sealed : f.custody.sealed = (f.quarantined || f.worker.faults) := rfl

theorem custody_occupant : f.custody.occupant index = some lease ↔
    (f.slots index).state ≠ .empty ∧ (f.slots index).lease = lease := by
  simp [custody]

theorem custody_vacant (empty : (f.slots index).state = .empty) :
    f.custody.occupant index = none ∧ f.custody.pin index = none := by
  simp [custody, empty]

theorem custody_shown : f.custody.shown index = decide ((f.slots index).state = .published) := rfl

theorem custody_pin (occupied : (f.slots index).state ≠ .empty) :
    f.custody.pin index = ownedPin (f.worker.pin index (f.slots index).pin) := by
  simp [custody, occupied]

/-! ## `submit` -/

/-- What the first section of `submit` can do. -/
theorem submit_cases (f : Frames) (lease : Nat) :
    (f.submit lease = (f, [.submitted lease .ok]) ∧
      ∃ index, (f.slots index).state ≠ .empty ∧ (f.slots index).lease = lease) ∨
    (∃ result, result ≠ .ok ∧ f.submit lease = (f, [.submitted lease result]) ∧
      (f.session.Holds lease → 0 < lease →
        ∀ index, (f.slots index).state ≠ .empty → (f.slots index).lease ≠ lease)) ∨
    ∃ slot frame, f.session.Holds lease ∧ (f.slots slot).state = .empty ∧
      (∀ index, (f.slots index).state ≠ .empty → (f.slots index).lease ≠ lease) ∧
      f.blocked = false ∧ f.closing = false ∧ f.quarantined = false ∧
      f.submit lease = ({ f.setSlot slot { f.slots slot with lease, state := .building } with
        worker := .submitPin slot frame }, []) := by
  unfold submit
  split
  · rename_i zero
    exact .inr (.inl ⟨.failed, by simp, rfl, by omega⟩)
  · split
    · rename_i absent
      refine .inr (.inl ⟨.failed, by simp, rfl, fun holds _ => ?_⟩)
      obtain ⟨index, held, ticket⟩ := holds
      have missing := absent
      simp only [Session.lookup, Option.map_eq_none_iff, List.find?_eq_none, List.mem_reverse,
        List.mem_finRange, forall_const] at missing
      exact absurd (by simp [held, ticket]) (missing index)
    · rename_i frame found
      split
      · rename_i known
        obtain ⟨index, occupied⟩ := anySlot_true.mp known
        exact .inl ⟨rfl, index, by simpa using occupied⟩
      · rename_i unknown
        have free : ∀ index, (f.slots index).state ≠ .empty → (f.slots index).lease ≠ lease := by
          intro index occupied
          simpa [occupied] using anySlot_false.mp (Bool.eq_false_iff.mpr unknown) index
        split
        · exact .inr (.inl ⟨.failed, by simp, rfl, fun _ _ => free⟩)
        · split
          · exact .inr (.inl ⟨.wait, by simp, rfl, fun _ _ => free⟩)
          · rename_i unblocked
            split
            · exact .inr (.inl ⟨.failed, by simp, rfl, fun _ _ => free⟩)
            · rename_i opened
              simp only [Bool.or_eq_true, not_or, Bool.not_eq_true] at opened
              split
              · exact .inr (.inl ⟨.failed, by simp, rfl, fun _ _ => free⟩)
              · rename_i slot empty
                exact .inr (.inr ⟨slot, frame, Session.lookup_some found,
                  by simpa using firstIndex_some empty, free, by simpa using unblocked, opened.1,
                  opened.2, rfl⟩)

theorem submit_control (control : Control f) (idle : f.worker = .idle) :
    Control (f.submit lease).1 := by
  obtain ⟨same, _⟩ | ⟨_, _, same, _⟩ | ⟨slot, frame, _, empty, _, _, _, _, same⟩ :=
    submit_cases f lease
  · rw [same]
    exact control
  · rw [same]
    exact control
  · rw [same]
    obtain ⟨session, builds, returns, publishes, images, nodup, quarantined, rejected, stored⟩ :=
      control
    constructor <;> simp only [setSlot, Function.update_apply] <;>
      grind [WorkerPc.builds, WorkerPc.returns]

theorem quiet_moves (same : next.custody = f.custody)
    (neutral : ∀ event ∈ events, event.neutral = true)
    (permitted : ∀ event ∈ events, f.custody.Permits event) :
    Custody.Moves f.custody events next.custody := by
  rw [same]
  exact .one (.quiet _ neutral permitted)

theorem idle_rests (idle : f.worker = .idle) :
    f.worker.builds = none ∧ f.worker.stores = none ∧ f.worker.faults = false := by
  simp [idle, WorkerPc.builds, WorkerPc.stores, WorkerPc.faults]

theorem submit_custody (idle : f.worker = .idle) :
    Custody.Moves f.custody (f.submit lease).2 (f.submit lease).1.custody := by
  obtain ⟨same, index, occupied, owns⟩ | ⟨result, refused, same, _⟩ |
    ⟨slot, frame, held, empty, free, _, _, _, same⟩ := submit_cases f lease
  · rw [same]
    refine quiet_moves rfl (by simp [FrameEvent.neutral]) ?_
    simp only [List.mem_singleton, forall_eq, Custody.Permits]
    exact ⟨index, custody_occupant.mpr ⟨occupied, owns⟩, by simp [idle_rests idle]⟩
  · rw [same]
    refine quiet_moves rfl (by simp [FrameEvent.neutral]) ?_
    cases result <;> simp_all [Custody.Permits]
  · rw [same]
    obtain ⟨vacant, unpinned⟩ := custody_vacant empty
    have hidden : f.custody.shown slot = false := by simp [custody_shown, empty]
    obtain ⟨resting, unstored, sound⟩ := idle_rests idle
    refine slot_moves rfl (.inl resting) (.inr rfl)
      (.one (.claim slot lease held ?_ vacant unpinned hidden resting unstored)) ?_
    · intro index occupied
      obtain ⟨full, same⟩ := custody_occupant.mp occupied
      exact free index full same
    · ext1 <;> simp [slotCustody, ownedPin, unpinned, hidden, idle, WorkerPc.builds,
        WorkerPc.stores, WorkerPc.faults, WorkerPc.pin]

theorem stepPin_custody {slot : LeaseIndex} {frame : MppFrame} {answers : FrameAnswers}
    (control : Control f) (pc : f.worker = .submitPin slot frame) :
    Custody.Moves f.custody (f.stepPin slot frame answers).2
      (f.stepPin slot frame answers).1.custody := by
  have builds : f.worker.builds = some slot := by rw [pc]; rfl
  obtain ⟨state, opened⟩ := (control.builds slot).mp builds
  have full : (f.slots slot).state ≠ .empty := by simp [state]
  have occupied : f.custody.occupant slot = some (f.slots slot).lease :=
    custody_occupant.mpr ⟨full, rfl⟩
  have unpinned : f.custody.pin slot = none := by
    simp [custody_pin full, pc, WorkerPc.pin, ownedPin]
  have hidden : f.custody.shown slot = false := by simp [custody_shown, state]
  have sound : f.custody.sealed = false := by simp [opened, pc, WorkerPc.faults]
  unfold stepPin
  dsimp only
  split
  · refine slot_moves rfl (.inr builds) (.inr rfl) (.none f.custody) ?_
    ext1 <;> simp [slotCustody, state, occupied, unpinned, hidden, ownedPin, pc, WorkerPc.builds,
      WorkerPc.stores, WorkerPc.faults, WorkerPc.pin]
  · split
    · refine slot_moves rfl (.inr builds) (.inr rfl)
        (.one (.pin slot _ builds occupied unpinned)) ?_
      ext1 <;> simp [slotCustody, state, occupied, hidden, ownedPin, pc, WorkerPc.builds,
        WorkerPc.stores, WorkerPc.faults, WorkerPc.pin]
    · refine slot_moves rfl (.inr builds) (.inr rfl)
        (.more (.pin slot _ builds occupied unpinned)
          (.one (.unpin slot _ _ answers.unpin occupied (by simp) sound))) ?_
      cases unpin : answers.unpin <;> ext1 <;> simp [slotCustody, state, occupied, hidden, ownedPin,
        pc, opened, WorkerPc.builds, WorkerPc.stores, WorkerPc.faults, WorkerPc.pin]

theorem stepPin_control {slot : LeaseIndex} {frame : MppFrame} {answers : FrameAnswers}
    (control : Control f) (pc : f.worker = .submitPin slot frame) :
    Control (f.stepPin slot frame answers).1 := by
  obtain ⟨session, builds, returns, publishes, images, nodup, quarantined, rejected, stored⟩ :=
    control
  unfold stepPin
  dsimp only
  split
  · constructor <;> simp only [setSlot, Function.update_apply] <;>
      grind [WorkerPc.builds, WorkerPc.returns]
  · split
    · constructor <;> simp only [setSlot, Function.update_apply] <;>
        grind [WorkerPc.builds, WorkerPc.returns]
    · constructor <;> simp only [setSlot, Function.update_apply] <;>
        grind [WorkerPc.builds, WorkerPc.returns]

theorem stepReject_custody {slot : LeaseIndex} {pin : Nat} {released : Bool}
    (control : Control f) (pc : f.worker = .submitReject slot pin released) :
    Custody.Moves f.custody (f.stepReject slot pin released).2
      (f.stepReject slot pin released).1.custody := by
  have builds : f.worker.builds = some slot := by rw [pc]; rfl
  obtain ⟨state, opened⟩ := (control.builds slot).mp builds
  have full : (f.slots slot).state ≠ .empty := by simp [state]
  have occupied : f.custody.occupant slot = some (f.slots slot).lease :=
    custody_occupant.mpr ⟨full, rfl⟩
  have hidden : f.custody.shown slot = false := by simp [custody_shown, state]
  unfold stepReject
  dsimp only
  split
  · rename_i clean
    have unpinned : f.custody.pin slot = none := by
      simp [custody_pin full, pc, WorkerPc.pin, ownedPin, clean]
    refine slot_moves rfl (.inr builds) (.inl rfl)
      (.one (.reject slot _ builds occupied unpinned)) ?_
    ext1 <;> simp [slotCustody, setState, hidden, unpinned, opened, pc, clean, WorkerPc.builds,
      WorkerPc.stores, WorkerPc.faults]
  · rename_i failed
    have owned : f.custody.pin slot = ownedPin pin := by
      simp [custody_pin full, pc, WorkerPc.pin, failed]
    have sealed : f.custody.sealed = true := by simp [pc, failed, WorkerPc.faults]
    refine slot_moves rfl (.inr builds) (.inl rfl)
      (.more (.quarantine sealed) (.one (.publish slot _ builds occupied))) ?_
    ext1 <;> simp [slotCustody, state, hidden, occupied, owned, pc, failed, WorkerPc.builds,
      WorkerPc.stores, WorkerPc.faults, WorkerPc.pin]

theorem stepReject_control {slot : LeaseIndex} {pin : Nat} {released : Bool}
    (control : Control f) (pc : f.worker = .submitReject slot pin released) :
    Control (f.stepReject slot pin released).1 := by
  obtain ⟨session, builds, returns, publishes, images, nodup, quarantined, rejected, stored⟩ :=
    control
  unfold stepReject
  dsimp only
  split
  · constructor <;> simp only [setState, setSlot, Function.update_apply] <;>
      grind [WorkerPc.builds, WorkerPc.returns]
  · constructor <;> simp only [setSlot, Function.update_apply] <;>
      grind [WorkerPc.builds, WorkerPc.returns]

/-! ## Retiring publications -/

theorem retire_state {test : SlotState → Bool} : ((f.retire test).slots index).state =
    if test (f.slots index).state then .returning else (f.slots index).state := by
  unfold retire
  dsimp only
  split <;> rfl

theorem unconsumed_true {state : SlotState} :
    unconsumed state = true ↔ state = .ready ∨ state = .deferred := by
  cases state <;> simp [unconsumed]

theorem retire_custody : (f.retire unconsumed).custody = f.custody := by
  refine custody_states (fun index => ?_) ⟨rfl, rfl, rfl, rfl⟩ rfl rfl rfl
  unfold retire
  dsimp only
  split
  · rename_i waiting
    rcases unconsumed_true.mp waiting with ready | deferred
    · simp [ready]
    · simp [deferred]
  · simp

theorem retire_control (control : Control f) : Control (f.retire unconsumed) := by
  obtain ⟨session, builds, returns, publishes, images, nodup, quarantined, rejected, stored⟩ :=
    control
  constructor <;> grind [retire_state, retire, unconsumed]

theorem stepPublish_custody {slot : LeaseIndex} (control : Control f)
    (pc : f.worker = .submitPublish slot) :
    Custody.Moves f.custody (f.stepPublish slot).2 (f.stepPublish slot).1.custody := by
  have publishes : ∀ g : Frames, Control g → g.worker = .submitPublish slot → ∀ state,
      state ≠ .empty → state ≠ .published →
      Custody.Moves g.custody [.submitted (g.slots slot).lease .ok]
        { g.setState slot state with worker := .idle }.custody := by
    intro g control pc new full plain
    have builds : g.worker.builds = some slot := by rw [pc]; rfl
    obtain ⟨state, opened⟩ := (control.builds slot).mp builds
    have filled : (g.slots slot).state ≠ .empty := by simp [state]
    have occupied : g.custody.occupant slot = some (g.slots slot).lease :=
      custody_occupant.mpr ⟨filled, rfl⟩
    have hidden : g.custody.shown slot = false := by simp [custody_shown, state]
    have owned : g.custody.pin slot = ownedPin (g.slots slot).pin := by
      simp [custody_pin filled, pc, WorkerPc.pin]
    refine slot_moves rfl (.inr builds) (.inl rfl) (.one (.publish slot _ builds occupied)) ?_
    ext1 <;> simp [slotCustody, setState, full, plain, occupied, hidden, owned, pc,
      WorkerPc.builds, WorkerPc.stores, WorkerPc.faults, WorkerPc.pin]
  unfold stepPublish
  dsimp only
  split
  · exact publishes f control pc .deferred (by simp) (by simp)
  · have lease : ((f.retire unconsumed).slots slot).lease = (f.slots slot).lease := by
      unfold retire
      dsimp only
      split <;> rfl
    rw [← lease, ← retire_custody]
    refine publishes _ (retire_control control) pc _ ?_ ?_
    · split <;> simp
    · split <;> simp

theorem stepPublish_control {slot : LeaseIndex} (control : Control f)
    (pc : f.worker = .submitPublish slot) : Control (f.stepPublish slot).1 := by
  unfold stepPublish
  dsimp only
  split
  · obtain ⟨session, builds, returns, publishes, images, nodup, quarantined, rejected, stored⟩ :=
      control
    constructor <;> simp only [setState, setSlot, Function.update_apply] <;>
      grind [WorkerPc.builds, WorkerPc.returns]
  · obtain ⟨session, builds, returns, publishes, images, nodup, quarantined, rejected, stored⟩ :=
      retire_control control
    have retired : (f.retire unconsumed).worker = .submitPublish slot := pc
    constructor <;> simp only [setState, setSlot, Function.update_apply] <;>
      grind [WorkerPc.builds, WorkerPc.returns]

/-! ## `lv_aic_player_frames_drain` -/

theorem drain_custody (idle : f.worker = .idle) :
    Custody.Moves f.custody f.drain.2 f.drain.1.custody := by
  unfold drain
  split
  · exact quiet_moves rfl (by simp [FrameEvent.neutral]) (by simp [Custody.Permits])
  · refine quiet_moves ?_ (by simp) (by simp)
    exact custody_states (by simp) (by rw [idle]; exact ⟨rfl, rfl, rfl, rfl⟩) rfl rfl rfl

theorem drain_control (control : Control f) (idle : f.worker = .idle) : Control f.drain.1 := by
  unfold drain
  split
  · exact control
  · obtain ⟨session, builds, returns, publishes, images, nodup, quarantined, rejected, stored⟩ :=
      control
    constructor <;> grind [WorkerPc.builds, WorkerPc.returns]

/-- What the promoting section of `drain` can do. -/
theorem promote_cases (f : Frames) : f.promote = f ∨
    ∃ index, (∀ other, published (f.slots other).state = false) ∧
      (f.slots index).state = .deferred ∧
      (firstIndex fun index => (f.slots index).state == .deferred) = some index ∧
      f.promote = f.setState index (if f.closing then .returning else .ready) := by
  unfold promote
  split
  · exact .inl rfl
  · rename_i none
    split
    · exact .inl rfl
    · rename_i index found
      exact .inr ⟨index, anySlot_false.mp (Bool.eq_false_iff.mpr none),
        by simpa using firstIndex_some found, found, rfl⟩

theorem stepPromote_custody (pc : f.worker = .drainPromote) :
    Custody.Moves f.custody [] f.stepPromote.custody := by
  refine quiet_moves ?_ (by simp) (by simp)
  unfold stepPromote
  obtain same | ⟨slot, _, deferred, _, same⟩ := promote_cases f
  · rw [same]
    exact custody_states (by simp) (by rw [pc]; exact ⟨rfl, rfl, rfl, rfl⟩) rfl rfl rfl
  · rw [same]
    refine custody_states (fun index => ?_) (by rw [pc]; exact ⟨rfl, rfl, rfl, rfl⟩) rfl rfl rfl
    by_cases changed : index = slot
    · subst changed
      cases f.closing <;> simp [setState, deferred]
    · simp [setState, setSlot, changed]

theorem stepPromote_control (control : Control f) (pc : f.worker = .drainPromote) :
    Control f.stepPromote := by
  obtain ⟨session, builds, returns, publishes, images, nodup, quarantined, rejected, stored⟩ :=
    control
  unfold stepPromote
  obtain same | ⟨slot, _, deferred, _, same⟩ := promote_cases f
  · rw [same]
    constructor <;> grind [WorkerPc.builds, WorkerPc.returns]
  · rw [same]
    constructor <;> simp only [setState, setSlot, Function.update_apply] <;>
      grind [WorkerPc.builds, WorkerPc.returns]

theorem nextSlot_slots {slot : LeaseIndex} {success : Bool} : (f.nextSlot slot success).1.slots = f.slots := by
  unfold nextSlot
  split <;> rfl

/-- The loop of `drain` goes on without touching a slot. -/
theorem nextSlot_custody {slot : LeaseIndex} {success : Bool} (builds : f.worker.builds = none)
    (stores : f.worker.stores = none) (faults : f.worker.faults = false) :
    Custody.Moves f.custody (f.nextSlot slot success).2 (f.nextSlot slot success).1.custody := by
  have pin : f.worker.pin = fun _ stored => stored := by
    funext index stored
    exact pin_unbuilt (.inl builds)
  unfold nextSlot
  split
  · refine quiet_moves ?_ (by simp) (by simp)
    exact custody_states (by simp) ⟨builds.symm, stores.symm, faults.symm, pin.symm⟩ rfl rfl rfl
  · refine quiet_moves ?_ (by simp [FrameEvent.neutral]) (by simp [Custody.Permits])
    exact custody_states (by simp) ⟨builds.symm, stores.symm, faults.symm, pin.symm⟩ rfl rfl rfl

theorem nextSlot_control {slot : LeaseIndex} {success : Bool}
    (control : Control { f with worker := .idle }) (opened : f.quarantined = false) :
    Control (f.nextSlot slot success).1 := by
  unfold nextSlot
  split
  · obtain ⟨session, builds, returns, publishes, images, nodup, quarantined, rejected, stored⟩ :=
      control
    constructor <;> grind [WorkerPc.builds, WorkerPc.returns]
  · exact control

theorem stepDrainSlot_custody {slot : LeaseIndex} {success : Bool}
    (pc : f.worker = .drainSlot slot success) :
    Custody.Moves f.custody (f.stepDrainSlot slot success).2
      (f.stepDrainSlot slot success).1.custody := by
  unfold stepDrainSlot
  split
  · rename_i returning
    refine quiet_moves ?_ (by simp) (by simp)
    refine custody_states (fun index => ?_) (by rw [pc]; exact ⟨rfl, rfl, rfl, rfl⟩) rfl rfl rfl
    by_cases changed : index = slot
    · subst changed
      simp [setState, returning]
    · simp [setState, setSlot, changed]
  · exact nextSlot_custody (by rw [pc]; rfl) (by rw [pc]; rfl) (by rw [pc]; rfl)

theorem stepDrainSlot_control {slot : LeaseIndex} {success : Bool} (control : Control f)
    (pc : f.worker = .drainSlot slot success) : Control (f.stepDrainSlot slot success).1 := by
  have opened : f.quarantined = false := by
    rw [Bool.eq_false_iff]
    intro quarantined
    have idle := control.quarantined quarantined
    rw [pc] at idle
    cases idle
  obtain ⟨session, builds, returns, publishes, images, nodup, quarantined, rejected, stored⟩ :=
    control
  unfold stepDrainSlot
  split
  · constructor <;> simp only [setState, setSlot, Function.update_apply] <;>
      grind [WorkerPc.builds, WorkerPc.returns]
  · refine nextSlot_control ?_ opened
    constructor <;> grind [WorkerPc.builds, WorkerPc.returns]

theorem stepDrainPin_custody {slot : LeaseIndex} {success : Bool} {answers : FrameAnswers}
    (control : Control f) (pc : f.worker = .drainPin slot success) :
    Custody.Moves f.custody (f.stepDrainPin slot success answers).2
      (f.stepDrainPin slot success answers).1.custody := by
  obtain ⟨state, opened⟩ := (control.returns slot).mp (by rw [pc]; rfl)
  have full : (f.slots slot).state ≠ .empty := by simp [state]
  have occupied : f.custody.occupant slot = some (f.slots slot).lease :=
    custody_occupant.mpr ⟨full, rfl⟩
  have hidden : f.custody.shown slot = false := by simp [custody_shown, state]
  have owned : f.custody.pin slot = ownedPin (f.slots slot).pin := by
    simp [custody_pin full, pc, WorkerPc.pin]
  have resting : f.worker.builds = none ∧ f.worker.stores = none := by
    simp [pc, WorkerPc.builds, WorkerPc.stores]
  have sound : f.custody.sealed = false := by simp [opened, pc, WorkerPc.faults]
  have same : f.custody = { f.custody with sealed := false } := by
    ext1 <;> first | rfl | exact sound
  unfold stepDrainPin
  dsimp only
  split
  · rename_i kept
    simp only [ne_eq, decide_not, Bool.and_eq_true, Bool.not_eq_true', decide_eq_false_iff_not]
      at kept
    have pinned : f.custody.pin slot = some (f.slots slot).pin := by simp [owned, ownedPin, kept.1]
    rw [show ({ f with worker := .drainFault slot } : Frames).custody =
      { f.custody with pin := f.custody.pin, sealed := true } by
        ext1 <;> simp [custody, pc, WorkerPc.pin, WorkerPc.builds, WorkerPc.stores, WorkerPc.faults]]
    exact .one (.unpin slot _ _ false occupied pinned sound)
  · rename_i freed
    let clear : Custody := { f.custody with pin := Function.update f.custody.pin slot none }
    have cleared : Custody.Moves f.custody
        (if (f.slots slot).pin = 0 then []
          else [.unpinned (f.slots slot).lease (f.slots slot).pin true]) clear := by
      split
      · rename_i absent
        have unpinned : f.custody.pin slot = none := by simp [owned, ownedPin, absent]
        have unchanged : clear = f.custody := by ext1 <;> simp [clear, ← unpinned]
        rw [unchanged]
        exact .none _
      · rename_i present
        have pinned : f.custody.pin slot = some (f.slots slot).pin := by
          simp [owned, ownedPin, present]
        have unchanged : { f.custody with
            pin := Function.update f.custody.pin slot none, sealed := false } = clear := by
          ext1 <;> simp [clear, opened, pc, WorkerPc.faults]
        rw [← unchanged]
        exact .one (.unpin slot _ _ true occupied pinned sound)
    have unpinned : clear.pin slot = none := by simp [clear]
    cases returned : (f.session.release (f.slots slot).lease answers.sdk).1 with
    | false =>
        have leases := Session.release_false returned
        have holds : (f.session.release (f.slots slot).lease answers.sdk).2.Holds =
          f.session.Holds := by
            funext lease
            exact propext (leases.holds lease)
        refine slot_moves rfl (.inl resting.1) (.inl rfl) (cleared.append
          (.one (.putFailed slot (f.slots slot).lease occupied resting.2 unpinned hidden opened))) ?_
        ext1 <;> simp [slotCustody, clear, state, occupied, hidden, ownedPin, holds, pc,
          leases.nextTicket, WorkerPc.builds, WorkerPc.stores, WorkerPc.faults, WorkerPc.pin]
    | true =>
        obtain ⟨_, nextTicket, remaining, _⟩ := Session.release_true control.session returned
        have holds : (f.session.release (f.slots slot).lease answers.sdk).2.Holds =
          fun other => f.session.Holds other ∧ other ≠ (f.slots slot).lease := by
            funext lease
            exact propext (remaining lease)
        refine slot_moves rfl (.inl resting.1) (.inl rfl) (cleared.append
          (.one (.put slot (f.slots slot).lease occupied resting.1 resting.2 unpinned hidden
            opened))) ?_
        ext1 <;> simp [slotCustody, clear, state, occupied, hidden, ownedPin, holds, pc,
          nextTicket, WorkerPc.builds, WorkerPc.stores, WorkerPc.faults, WorkerPc.pin]

theorem stepDrainPin_control {slot : LeaseIndex} {success : Bool} {answers : FrameAnswers}
    (control : Control f) (pc : f.worker = .drainPin slot success) :
    Control (f.stepDrainPin slot success answers).1 := by
  obtain ⟨session, builds, returns, publishes, images, nodup, quarantined, rejected, stored⟩ :=
    control
  unfold stepDrainPin
  dsimp only
  split
  · constructor <;> grind [WorkerPc.builds, WorkerPc.returns]
  · have released : (f.session.release (f.slots slot).lease answers.sdk).2.Sound := by
      cases returned : (f.session.release (f.slots slot).lease answers.sdk).1 with
      | false => exact (Session.release_false returned).sound session
      | true => exact (Session.release_true session returned).2.2.2
    constructor <;> simp only [setSlot, Function.update_apply] <;>
      grind [WorkerPc.builds, WorkerPc.returns]

theorem stepDrainFault_custody {slot : LeaseIndex} (pc : f.worker = .drainFault slot) :
    Custody.Moves f.custody f.stepDrainFault.2 f.stepDrainFault.1.custody := by
  have sealed : f.custody.sealed = true := by simp [pc, WorkerPc.faults]
  have same : ({ f with quarantined := true, worker := .idle } : Frames).custody =
      { f.custody with quarantined := true } := by
    have kept : WorkerPc.idle.pin = f.worker.pin := by rw [pc]; rfl
    ext1 <;> simp [custody, kept]
    all_goals simp [pc, WorkerPc.builds, WorkerPc.stores, WorkerPc.faults]
  unfold stepDrainFault
  rw [same]
  exact .more (.quarantine sealed)
    (.one (.quiet [.drained false] (by simp [FrameEvent.neutral]) (by simp [Custody.Permits])))

theorem stepDrainFault_control (control : Control f) : Control f.stepDrainFault.1 := by
  obtain ⟨session, builds, returns, publishes, images, nodup, quarantined, rejected, stored⟩ :=
    control
  unfold stepDrainFault
  constructor <;> grind [WorkerPc.builds, WorkerPc.returns]

theorem stepDrainStore_custody {slot : LeaseIndex} {success returned : Bool} (control : Control f)
    (pc : f.worker = .drainStore slot success returned) :
    Custody.Moves f.custody (f.stepDrainStore slot success returned).2
      (f.stepDrainStore slot success returned).1.custody := by
  obtain ⟨state, opened⟩ := (control.returns slot).mp (by rw [pc]; rfl)
  have full : (f.slots slot).state ≠ .empty := by simp [state]
  have occupied : f.custody.occupant slot = some (f.slots slot).lease :=
    custody_occupant.mpr ⟨full, rfl⟩
  have unpinned : f.custody.pin slot = none := by
    simp [custody_pin full, pc, WorkerPc.pin, control.stored _ _ _ pc, ownedPin]
  have hidden : f.custody.shown slot = false := by simp [custody_shown, state]
  have rests : f.worker.builds = none := by simp [pc, WorkerPc.builds]
  let settled : Frames := { f.setState slot (if returned then .empty else .returning) with
    worker := .idle }
  have moved : Custody.Moves f.custody (if returned then [.emptied (f.slots slot).lease] else [])
      settled.custody := by
    cases returned with
    | true =>
        refine slot_moves rfl (.inl rests) (.inl rfl)
          (.one (.store slot _ (by simp [pc, WorkerPc.stores]) occupied unpinned)) ?_
        ext1 <;> simp [settled, slotCustody, setState, hidden, unpinned, pc, WorkerPc.builds,
          WorkerPc.stores, WorkerPc.faults]
    | false =>
        refine slot_moves rfl (.inl rests) (.inl rfl) (.none f.custody) ?_
        ext1 <;> simp [settled, slotCustody, setState, occupied, hidden, unpinned, pc,
          WorkerPc.builds, WorkerPc.stores, WorkerPc.faults, WorkerPc.pin, ownedPin,
          control.stored _ _ _ pc]
  have next : settled.nextSlot slot (success && returned) =
      (f.setState slot (if returned then .empty else .returning)).nextSlot slot
        (success && returned) := by
    unfold nextSlot
    split <;> rfl
  unfold stepDrainStore
  dsimp only
  rw [← next]
  exact moved.append (nextSlot_custody rfl rfl rfl)

theorem stepDrainStore_control {slot : LeaseIndex} {success returned : Bool} (control : Control f)
    (pc : f.worker = .drainStore slot success returned) :
    Control (f.stepDrainStore slot success returned).1 := by
  obtain ⟨state, opened⟩ := (control.returns slot).mp (by rw [pc]; rfl)
  obtain ⟨session, builds, returns, publishes, images, nodup, quarantined, rejected, stored⟩ :=
    control
  refine nextSlot_control ?_ opened
  constructor <;> simp only [setState, setSlot, Function.update_apply] <;>
    grind [WorkerPc.builds, WorkerPc.returns]

/-! ## Sections used by both threads -/

theorem close_custody : Custody.Moves f.custody [.closed] f.close.custody := by
  refine quiet_moves ?_ (by simp [FrameEvent.neutral]) (by simp [Custody.Permits])
  exact (custody_frame rfl rfl rfl rfl rfl).trans (retire_custody (f := f))

theorem close_control (control : Control f) : Control f.close := by
  obtain ⟨session, builds, returns, publishes, images, nodup, quarantined, rejected, stored⟩ :=
    retire_control control
  exact ⟨session, builds, returns, publishes, images, nodup, quarantined, rejected, stored⟩

theorem reopen_true (reopened : f.reopen.1 = true) :
    f.closing = true ∧ f.quarantined = false ∧ f.allEmpty = true := by
  unfold reopen at reopened
  split at reopened
  · rename_i ready
    simpa [and_assoc] using ready
  · cases reopened

theorem reopen_custody :
    Custody.Moves f.custody [.reopened f.reopen.1] f.reopen.2.custody := by
  refine quiet_moves ?_ (by simp [FrameEvent.neutral]) ?_
  · unfold reopen
    split
    · exact custody_frame rfl rfl rfl rfl rfl
    · rfl
  · cases reopened : f.reopen.1 with
    | false => simp [Custody.Permits]
    | true => simpa [Custody.Permits] using (reopen_true reopened).2.1

theorem reopen_control (control : Control f) : Control f.reopen.2 := by
  unfold reopen
  split
  · obtain ⟨session, builds, returns, publishes, images, nodup, quarantined, rejected, stored⟩ :=
      control
    exact ⟨session, builds, returns, publishes, images, nodup, quarantined, rejected, stored⟩
  · exact control

theorem idle_custody {result : Bool} (clean : result = true → f.isIdle = true) :
    f.custody.Permits (.idle result) ∧ f.custody.Permits (.destroyed result) := by
  cases result with
  | false => exact ⟨trivial, trivial⟩
  | true =>
      have idle := clean rfl
      simp only [isIdle, Bool.and_eq_true, Bool.not_eq_true'] at idle
      exact ⟨idle.1, idle.1⟩

/-! ## The worker's session calls -/

theorem session_custody {session : Session} (same : Session.SameLeases f.session session) :
    ({ f with session } : Frames).custody = f.custody := by
  have holds : session.Holds = f.session.Holds := by
    funext lease
    exact propext (same.holds lease)
  simp only [custody, holds, same.nextTicket]

theorem session_control {session : Session} (control : Control f) (sound : session.Sound) :
    Control { f with session } := by
  obtain ⟨_, builds, returns, publishes, images, nodup, quarantined, rejected, stored⟩ := control
  exact ⟨sound, builds, returns, publishes, images, nodup, quarantined, rejected, stored⟩

theorem callSession_custody {call : SessionCall} {sdk : Sdk} (control : Control f)
    (free : ∀ lease, call = .release lease → ∀ index, f.custody.occupant index ≠ some lease) :
    Custody.Moves f.custody (f.callSession call sdk).2 (f.callSession call sdk).1.custody := by
  cases call with
  | «open» uri =>
      exact quiet_moves (session_custody Session.open_sameLeases) 
        (by simp [callSession, FrameEvent.neutral]) (by simp [callSession, Custody.Permits])
  | allocator extraFrames =>
      exact quiet_moves (session_custody Session.allocator_sameLeases) (by simp [callSession])
        (by simp [callSession])
  | start =>
      exact quiet_moves (session_custody Session.start_sameLeases) (by simp [callSession])
        (by simp [callSession])
  | pause paused =>
      exact quiet_moves (session_custody Session.pause_sameLeases) (by simp [callSession])
        (by simp [callSession])
  | seek target =>
      exact quiet_moves (session_custody Session.seek_sameLeases) (by simp [callSession])
        (by simp [callSession])
  | volume volume => exact quiet_moves rfl (by simp [callSession]) (by simp [callSession])
  | stop =>
      exact quiet_moves (session_custody Session.stop_sameLeases) (by simp [callSession])
        (by simp [callSession])
  | close =>
      refine quiet_moves (session_custody Session.close_sameLeases)
        (by simp [callSession, FrameEvent.neutral]) ?_
      cases closed : (f.session.close sdk).1 with
      | false => simp [callSession, closed, Custody.Permits]
      | true =>
          have empty := Session.holding_false.mp (Session.close_closed closed).2
          simp [callSession, closed, Custody.Permits, Session.Holds, empty]
  | acquire =>
      unfold callSession
      dsimp only
      split
      · rename_i failed
        exact quiet_moves (session_custody (Session.acquire_none failed)) (by simp) (by simp)
      · rename_i lease index acquired
        obtain ⟨same, nextTicket, holds, _⟩ := Session.acquire_holds control.session acquired
        have moved : ({ f with session := (f.session.acquire sdk).2 } : Frames).custody =
            { f.custody with
              issued := f.session.nextTicket + 1
              holds := fun lease => f.session.Holds lease ∨ lease = f.session.nextTicket + 1 } := by
          simp only [custody, nextTicket]
          ext1 <;> first | rfl | (funext lease; exact propext (holds lease))
        rw [moved, same]
        exact .one .acquire
  | release lease =>
      unfold callSession
      dsimp only
      cases released : (f.session.release lease sdk).1 with
      | false =>
          exact quiet_moves (session_custody (Session.release_false released))
            (by simp [FrameEvent.neutral]) (by simp [Custody.Permits])
      | true =>
          obtain ⟨held, nextTicket, holds, _⟩ := Session.release_true control.session released
          have moved : ({ f with session := (f.session.release lease sdk).2 } : Frames).custody =
              { f.custody with
                holds := fun other => f.session.Holds other ∧ other ≠ lease } := by
            simp only [custody, nextTicket]
            ext1 <;> first | rfl | (funext lease; exact propext (holds lease))
          rw [moved]
          exact .one (.handBack lease held (free lease rfl))

theorem callSession_control {call : SessionCall} {sdk : Sdk} (control : Control f) :
    Control (f.callSession call sdk).1 := by
  cases call with
  | «open» uri => exact session_control control (Session.open_sameLeases.sound control.session)
  | allocator extraFrames =>
      exact session_control control (Session.allocator_sameLeases.sound control.session)
  | start => exact session_control control (Session.start_sameLeases.sound control.session)
  | pause paused => exact session_control control (Session.pause_sameLeases.sound control.session)
  | seek target => exact session_control control (Session.seek_sameLeases.sound control.session)
  | volume volume => exact control
  | stop => exact session_control control (Session.stop_sameLeases.sound control.session)
  | close => exact session_control control (Session.close_sameLeases.sound control.session)
  | acquire =>
      refine session_control control ?_
      cases acquired : (f.session.acquire sdk).1 with
      | none => exact (Session.acquire_none acquired).sound control.session
      | some lease => exact (Session.acquire_holds control.session acquired).2.2.2
  | release lease =>
      refine session_control control ?_
      cases released : (f.session.release lease sdk).1 with
      | false => exact (Session.release_false released).sound control.session
      | true => exact (Session.release_true control.session released).2.2.2

/-! ## The UI thread -/

/-- What the first section of a poll can do. -/
theorem poll_cases (f : Frames) (yuvOnly : Bool) : f.poll yuvOnly = (f, [.pollFailed]) ∨
    ∃ slot, f.closing = false ∧ f.quarantined = false ∧ (f.slots slot).state = .ready ∧
      f.poll yuvOnly = ({ f.setState slot .publishing with ui := .creating slot }, []) := by
  unfold poll
  split
  · exact .inl rfl
  · rename_i opened
    simp only [Bool.or_eq_true, not_or, Bool.not_eq_true] at opened
    split
    · exact .inl rfl
    · rename_i slot found
      have ready := firstIndex_some found
      simp only [Bool.and_eq_true, beq_iff_eq] at ready
      exact .inr ⟨slot, opened.1, opened.2, ready.1, rfl⟩

/-- A UI step that moves one slot between states the custody does not tell apart. -/
theorem restate_custody {slot : LeaseIndex} {state : SlotState} {ui : UiPc}
    (before : (f.slots slot).state ≠ .empty ∧ (f.slots slot).state ≠ .published)
    (after : state ≠ .empty ∧ state ≠ .published) :
    ({ f.setState slot state with ui } : Frames).custody = f.custody := by
  refine custody_states (fun index => ?_) ⟨rfl, rfl, rfl, rfl⟩ rfl rfl rfl
  by_cases changed : index = slot
  · subst changed
    simp [setState, before, after]
  · simp [setState, setSlot, changed]

theorem poll_custody {yuvOnly : Bool} :
    Custody.Moves f.custody (f.poll yuvOnly).2 (f.poll yuvOnly).1.custody := by
  obtain same | ⟨slot, _, _, ready, same⟩ := poll_cases f yuvOnly
  · rw [same]
    exact quiet_moves rfl (by simp [FrameEvent.neutral]) (by simp [Custody.Permits])
  · rw [same]
    exact quiet_moves (restate_custody (by simp [ready]) (by simp)) (by simp) (by simp)

theorem poll_control {yuvOnly : Bool} (control : Control f) (idle : f.ui = .idle) :
    Control (f.poll yuvOnly).1 := by
  obtain same | ⟨slot, _, _, ready, same⟩ := poll_cases f yuvOnly
  · rw [same]
    exact control
  · rw [same]
    obtain ⟨session, builds, returns, publishes, images, nodup, quarantined, rejected, stored⟩ :=
      control
    constructor <;> simp only [setState, setSlot, Function.update_apply] <;>
      grind [UiPc.publishes]

/-- What the image constructor with its `retain` can do. -/
theorem stepCreate_cases (f : Frames) (slot : LeaseIndex) (ready : Bool) :
    f.stepCreate slot ready = ({ f with ui := .failing slot }, []) ∨
    (f.closing = false ∧ f.quarantined = false ∧ f.stepCreate slot ready =
      ({ f.setState slot .published with images := f.images ++ [slot], ui := .idle },
        [.polled (f.slots slot).lease (f.slots slot).pts])) := by
  unfold stepCreate
  dsimp only
  split
  · rename_i accepted
    simp only [Bool.and_eq_true, Bool.not_eq_true', beq_iff_eq] at accepted
    exact .inr ⟨accepted.1.1.2, accepted.1.2, rfl⟩
  · exact .inl rfl

theorem stepCreate_custody {slot : LeaseIndex} {ready : Bool} (control : Control f)
    (pc : f.ui = .creating slot) :
    Custody.Moves f.custody (f.stepCreate slot ready).2 (f.stepCreate slot ready).1.custody := by
  have state : (f.slots slot).state = .publishing :=
    (control.publishes slot).mp (by rw [pc]; rfl)
  have full : (f.slots slot).state ≠ .empty := by simp [state]
  have occupied : f.custody.occupant slot = some (f.slots slot).lease :=
    custody_occupant.mpr ⟨full, rfl⟩
  have settled : f.worker.builds ≠ some slot := by simp [control.builds, state]
  have kept : f.worker.stores ≠ some slot := by
    intro stores
    have returns : f.worker.returns = some slot := by
      unfold WorkerPc.stores at stores
      split at stores
      · rename_i worker
        rw [worker, ← stores]
        rfl
      · cases stores
    simp [control.returns, state] at returns
  have owned : f.custody.pin slot = ownedPin (f.worker.pin slot (f.slots slot).pin) :=
    custody_pin full
  obtain same | ⟨_, _, same⟩ := stepCreate_cases f slot ready
  · rw [same]
    exact quiet_moves (custody_frame rfl rfl rfl rfl rfl) (by simp) (by simp)
  · rw [same]
    have shown : ({ f.setState slot .published with
        images := f.images ++ [slot], ui := .idle } : Frames).custody =
        { f.custody with shown := Function.update f.custody.shown slot true } := by
      ext1 <;> try rfl
      all_goals
        funext index
        by_cases changed : index = slot
        · subst changed
          simp [custody, setState, state]
        · simp [custody, setState, setSlot, changed]
    rw [shown]
    exact .one (.show slot _ _ occupied settled kept)

theorem stepCreate_control {slot : LeaseIndex} {ready : Bool} (control : Control f)
    (pc : f.ui = .creating slot) : Control (f.stepCreate slot ready).1 := by
  obtain ⟨session, builds, returns, publishes, images, nodup, quarantined, rejected, stored⟩ :=
    control
  obtain same | ⟨_, _, same⟩ := stepCreate_cases f slot ready
  · rw [same]
    constructor <;> grind [UiPc.publishes]
  · rw [same]
    constructor <;> simp only [setState, setSlot, Function.update_apply] <;>
      grind [UiPc.publishes]

theorem stepFail_custody {slot : LeaseIndex} (control : Control f) (pc : f.ui = .failing slot) :
    Custody.Moves f.custody (f.stepFail slot).2 (f.stepFail slot).1.custody := by
  have state : (f.slots slot).state = .publishing :=
    (control.publishes slot).mp (by rw [pc]; rfl)
  refine quiet_moves (restate_custody (by simp [state]) ?_) (by simp [stepFail, FrameEvent.neutral])
    (by simp [stepFail, Custody.Permits])
  split <;> simp

theorem stepFail_control {slot : LeaseIndex} (control : Control f) (pc : f.ui = .failing slot) :
    Control (f.stepFail slot).1 := by
  obtain ⟨session, builds, returns, publishes, images, nodup, quarantined, rejected, stored⟩ :=
    control
  unfold stepFail
  constructor <;> simp only [setState, setSlot, Function.update_apply] <;>
    grind [UiPc.publishes]

theorem releaseImage_custody {slot : LeaseIndex} (control : Control f)
    (moved : f.releaseImage slot = some (next, events)) :
    Custody.Moves f.custody events next.custody := by
  unfold releaseImage at moved
  split at moved
  · rename_i member
    obtain ⟨rfl, rfl⟩ := Prod.ext_iff.mp (Option.some.inj moved)
    have state := (control.images slot).mp member
    have full : (f.slots slot).state ≠ .empty := by simp [state]
    have hidden : ({ f.setState slot .returning with
        images := f.images.erase slot } : Frames).custody =
        { f.custody with shown := Function.update f.custody.shown slot false } := by
      ext1 <;> try rfl
      all_goals
        funext index
        by_cases changed : index = slot
        · subst changed
          simp [custody, setState, state]
        · simp [custody, setState, setSlot, changed]
    dsimp only
    rw [hidden]
    exact .one (.hide slot _ (custody_occupant.mpr ⟨full, rfl⟩) (by simp [custody_shown, state]))
  · cases moved

theorem releaseImage_control {slot : LeaseIndex} (control : Control f)
    (moved : f.releaseImage slot = some (next, events)) : Control next := by
  unfold releaseImage at moved
  split at moved
  · rename_i member
    obtain ⟨rfl, -⟩ := Prod.ext_iff.mp (Option.some.inj moved)
    obtain ⟨session, builds, returns, publishes, images, nodup, quarantined, rejected, stored⟩ :=
      control
    constructor <;> simp only [setState, setSlot, Function.update_apply] <;>
      grind [List.Nodup.mem_erase_iff, List.Nodup.erase]
  · cases moved

end Frames

/-! ## The machine -/

/-- The worker hands back only leases that no `submit` has taken. -/
def FrameContract (trace : List FrameEvent) (_ : Frames) : FrameAction → Prop
  | .worker (.session (.release lease)) _ => .submitted lease .ok ∉ trace
  | _ => True

def frameContract (trace : List FrameEvent) (_ : Frames) : FrameAction → Bool
  | .worker (.session (.release lease)) _ => .submitted lease .ok ∉ trace
  | _ => true

theorem frameContract_sound {trace : List FrameEvent} {f : Frames} {action : FrameAction}
    (checked : frameContract trace f action = true) : FrameContract trace f action := by
  unfold FrameContract
  split
  · simpa [frameContract] using checked
  · trivial

section
variable {trace events : List FrameEvent} {f next : Frames}

theorem stepWorker_control {call : WorkerCall} {answers : FrameAnswers} (control : f.Control)
    (moved : f.stepWorker call answers = some (next, events)) : next.Control := by
  unfold Frames.stepWorker at moved
  split at moved
  case h_15 => cases moved
  all_goals
    rename_i pc
    obtain ⟨rfl, -⟩ := Prod.ext_iff.mp (Option.some.inj moved)
  case h_1 => exact Frames.callSession_control control
  case h_2 => exact Frames.submit_control control pc
  case h_3 => exact Frames.drain_control control pc
  case h_4 => exact Frames.close_control control
  case h_5 => exact Frames.reopen_control control
  case h_6 => exact control
  case h_7 => exact Frames.stepPin_control control pc
  case h_8 => exact Frames.stepReject_control control pc
  case h_9 => exact Frames.stepPublish_control control pc
  case h_10 => exact Frames.stepPromote_control control pc
  case h_11 => exact Frames.stepDrainSlot_control control pc
  case h_12 => exact Frames.stepDrainPin_control control pc
  case h_13 => exact Frames.stepDrainFault_control control
  case h_14 => exact Frames.stepDrainStore_control control pc

theorem stepWorker_custody {call : WorkerCall} {answers : FrameAnswers} (control : f.Control)
    (sound : Custody.Sound trace f.custody) (allowed : FrameContract trace f (.worker call answers))
    (moved : f.stepWorker call answers = some (next, events)) :
    Custody.Moves f.custody events next.custody := by
  unfold Frames.stepWorker at moved
  split at moved
  case h_15 => cases moved
  all_goals
    rename_i pc
    obtain ⟨rfl, rfl⟩ := Prod.ext_iff.mp (Option.some.inj moved)
  case h_1 =>
    refine Frames.callSession_custody control ?_
    rintro lease rfl index occupied
    rcases sound.leases.settled index lease occupied with builds | submitted
    · rw [Frames.custody_building, (Frames.idle_rests pc).1] at builds
      cases builds
    · exact allowed submitted
  case h_2 => exact Frames.submit_custody pc
  case h_3 => exact Frames.drain_custody pc
  case h_4 => exact Frames.close_custody
  case h_5 => exact Frames.reopen_custody
  case h_6 =>
    refine Frames.quiet_moves rfl (by simp [FrameEvent.neutral]) ?_
    simpa using (Frames.idle_custody id).1
  case h_7 => exact Frames.stepPin_custody control pc
  case h_8 => exact Frames.stepReject_custody control pc
  case h_9 => exact Frames.stepPublish_custody control pc
  case h_10 => exact Frames.stepPromote_custody pc
  case h_11 => exact Frames.stepDrainSlot_custody pc
  case h_12 => exact Frames.stepDrainPin_custody control pc
  case h_13 => exact Frames.stepDrainFault_custody pc
  case h_14 => exact Frames.stepDrainStore_custody control pc

/-- UI sections that only touch `preserve` or `freed`. -/
theorem unchanged_control {preserve freed : Bool} (control : f.Control) :
    ({ f with preserve, freed } : Frames).Control := by
  obtain ⟨session, builds, returns, publishes, images, nodup, quarantined, rejected, stored⟩ :=
    control
  exact ⟨session, builds, returns, publishes, images, nodup, quarantined, rejected, stored⟩

theorem stepUi_control {call : UiCall} (control : f.Control)
    (moved : f.stepUi call = some (next, events)) : next.Control := by
  unfold Frames.stepUi at moved
  split at moved
  case h_7 => exact Frames.releaseImage_control control moved
  case h_10 => cases moved
  all_goals
    rename_i pc
    obtain ⟨rfl, -⟩ := Prod.ext_iff.mp (Option.some.inj moved)
  case h_1 => exact Frames.poll_control control pc
  case h_2 => exact unchanged_control control
  case h_3 => exact Frames.close_control control
  case h_4 => exact Frames.reopen_control control
  case h_5 => exact control
  case h_6 => exact unchanged_control control
  case h_8 => exact Frames.stepCreate_control control pc
  case h_9 => exact Frames.stepFail_control control pc

theorem stepUi_custody {call : UiCall} (control : f.Control)
    (moved : f.stepUi call = some (next, events)) :
    Custody.Moves f.custody events next.custody := by
  unfold Frames.stepUi at moved
  split at moved
  case h_7 => exact Frames.releaseImage_custody control moved
  case h_10 => cases moved
  all_goals
    rename_i pc
    obtain ⟨rfl, rfl⟩ := Prod.ext_iff.mp (Option.some.inj moved)
  case h_1 => exact Frames.poll_custody
  case h_2 =>
    exact Frames.quiet_moves (Frames.custody_frame rfl rfl rfl rfl rfl) (by simp) (by simp)
  case h_3 => exact Frames.close_custody
  case h_4 => exact Frames.reopen_custody
  case h_5 =>
    refine Frames.quiet_moves rfl (by simp [FrameEvent.neutral]) ?_
    simpa using (Frames.idle_custody id).1
  case h_6 =>
    refine Frames.quiet_moves (Frames.custody_frame rfl rfl rfl rfl rfl)
      (by simp [FrameEvent.neutral]) ?_
    simpa using (Frames.idle_custody fun destroyed => (Bool.and_eq_true_iff.mp destroyed).2).2
  case h_8 => exact Frames.stepCreate_custody control pc
  case h_9 => exact Frames.stepFail_custody control pc

theorem framesMachine_step {action : FrameAction}
    (moved : framesMachine.step f action = some (next, events)) : f.freed = false ∧
      match action with
      | .worker call answers => f.stepWorker call answers = some (next, events)
      | .ui call => f.stepUi call = some (next, events) := by
  unfold framesMachine at moved
  dsimp only at moved
  split at moved
  · cases moved
  · rename_i live
    exact ⟨Bool.eq_false_iff.mpr live, by cases action <;> exact moved⟩

theorem framesMachine_control {action : FrameAction} (control : f.Control)
    (moved : framesMachine.step f action = some (next, events)) : next.Control := by
  cases action with
  | worker call answers => exact stepWorker_control control (framesMachine_step moved).2
  | ui call => exact stepUi_control control (framesMachine_step moved).2

/-- Every step of the mailbox is a sequence of custody moves. -/
theorem framesMachine_custody {action : FrameAction} (control : f.Control)
    (sound : Custody.Sound trace f.custody) (allowed : FrameContract trace f action)
    (moved : framesMachine.step f action = some (next, events)) :
    Custody.Moves f.custody events next.custody := by
  cases action with
  | worker call answers =>
      exact stepWorker_custody control sound allowed (framesMachine_step moved).2
  | ui call => exact stepUi_custody control (framesMachine_step moved).2

theorem created_sound : Custody.Sound [] Frames.created.custody where
  guarded := .nil
  leases := by
    constructor <;>
      simp [Frames.custody, Frames.created, WorkerPc.builds, WorkerPc.stores, Session.Holds,
        Session.zero]
  pins := by constructor <;> simp [Frames.custody, Frames.created]
  screen := by constructor <;> simp [Frames.custody, Frames.created, onScreen]
  marked := by simp [Frames.created]
  sealing := by simp [Frames.created]

/-- The mailbox keeps its control and the custody agrees with the trace. -/
theorem framesMachine_sound (reached : framesMachine.Reaches FrameContract trace f) :
    f.Control ∧ Custody.Sound trace f.custody := by
  refine reached.invariant (fun trace f => f.Control ∧ Custody.Sound trace f.custody) ?_ ?_
  · rintro f rfl
    exact ⟨Frames.created_control, created_sound⟩
  · rintro trace before action after events ⟨control, sound⟩ allowed moved
    exact ⟨framesMachine_control control moved,
      sound.moves (framesMachine_custody control sound allowed moved)⟩

end

end LvglAic.Player
