import LvglAic.Spi.Pipeline

namespace LvglAic.Spi

/-! # The ledger of accepted frames

The abstract view of the pipeline numbers the accepted frames and keeps the
slot contents of each, past ones included.  Four counters replace the four
ring indices, and the ring holds the frames between the last taken and the
last accepted one. -/

structure Ledger where
  frames : Nat → PipeSlot
  accepted : Nat
  begun : Nat
  released : Nat
  taken : Nat
  /-- The submitted frame whose transfer is not verified. -/
  active : Option Nat

def slotOf (ticket : Nat) : Fin 2 := ⟨ticket % 2, Nat.mod_lt _ (by decide)⟩

@[simp] theorem slotOf_succ (ticket : Nat) : slotOf (ticket + 1) = slotOf ticket + 1 := by
  apply Fin.ext
  simp only [slotOf, Fin.val_add]
  omega

@[simp] theorem slotOf_zero : slotOf 0 = 0 := rfl

theorem slotOf_inj (base : Nat) {left right : Nat} (leftLow : base ≤ left) (leftHigh : left < base + 2)
    (rightLow : base ≤ right) (rightHigh : right < base + 2) (same : slotOf left = slotOf right) :
    left = right := by
  have remainder := congrArg Fin.val same
  simp only [slotOf] at remainder
  omega

def Ledger.edit (q : Ledger) (ticket : Nat) (slot : PipeSlot) : Ledger :=
  { q with frames := Function.update q.frames ticket slot }

section
variable (q : Ledger) (n : Nat) (slot : PipeSlot)

@[simp, grind =] theorem Ledger.edit_accepted : (q.edit n slot).accepted = q.accepted := rfl
@[simp, grind =] theorem Ledger.edit_begun : (q.edit n slot).begun = q.begun := rfl
@[simp, grind =] theorem Ledger.edit_released : (q.edit n slot).released = q.released := rfl
@[simp, grind =] theorem Ledger.edit_taken : (q.edit n slot).taken = q.taken := rfl
@[simp, grind =] theorem Ledger.edit_active : (q.edit n slot).active = q.active := rfl

@[simp, grind =] theorem Ledger.edit_same : (q.edit n slot).frames n = slot := by simp [Ledger.edit]

theorem Ledger.edit_other {m : Nat} (different : m ≠ n) :
    (q.edit n slot).frames m = q.frames m := by
  simp [Ledger.edit, different]

end

/-- The two slots hold exactly the frames in flight. -/
structure Ring (p : Pipeline) (q : Ledger) : Prop where
  takenReleased : q.taken ≤ q.released
  releasedBegun : q.released ≤ q.begun
  begunAccepted : q.begun ≤ q.accepted
  acceptedRoom : q.accepted ≤ q.taken + 2
  count : p.accepted = q.accepted
  begun : p.begun = q.begun
  put : p.put = slotOf q.accepted
  release : p.release = slotOf q.released
  take : p.take = slotOf q.taken
  run : p.run = slotOf q.begun
  held : ∀ n, q.taken ≤ n → n < q.accepted → p.slots (slotOf n) = q.frames n
  vacant : ∀ n, q.accepted ≤ n → n < q.taken + 2 → (p.slots (slotOf n)).state = .empty
  ticket : ∀ n, n < q.accepted → (q.frames n).ticket = n
  flag : ∀ n, n < q.accepted → ((q.frames n).released = true ↔ n < q.released)

/-- Whether the worker is between the RUNNING store and the publication of its
current frame. -/
def WorkerPc.running : WorkerPc → Bool
  | .faultLoad _ _ | .submit _ _ | .receipt _ _ _ _ | .check _ _ _ | .quarantine _ _
  | .publish _ _ _ => true
  | _ => false

/-- The frame the worker is processing is the last begun one. -/
def Current (p : Pipeline) (q : Ledger) (n : Nat) : Prop :=
  p.worker.running = true ∧ q.begun = n + 1

/-- The slot state a frame's history implies. -/
def frameState (running : Bool) (begun : Nat) (active : Option Nat) (n : Nat) : SlotState :=
  if begun ≤ n then .queued
  else if running = true ∧ begun = n + 1 then .running
  else if active = some n then .submitted
  else .done

/-- `active`, or the index `drain` took from it, is the ledger's active frame. -/
def ActiveIndex (p : Pipeline) (q : Ledger) : Prop :=
  match p.worker with
  | .drain _ index | .drainFault _ index | .drainStore _ index _ =>
      p.active = none ∧ q.active.map slotOf = some index
  | _ => p.active = q.active.map slotOf

/-- The local index of `run_next` is the slot of the last begun frame. -/
def CurrentIndex (p : Pipeline) (q : Ledger) : Prop :=
  match p.worker with
  | .faultLoad _ index | .submit _ index | .receipt _ index _ _ | .check _ index _
  | .quarantine _ index | .publish _ index _ =>
      ∃ n, q.begun = n + 1 ∧ q.taken ≤ n ∧ index = slotOf n
  | .mark _ => q.begun < q.accepted
  | _ => True

/-- Every frame is in the state its history implies. -/
structure Phases (p : Pipeline) (q : Ledger) : Prop where
  state : ∀ n, n < q.accepted →
    (q.frames n).state = frameState p.worker.running q.begun q.active n
  activeTaken : ∀ n, q.active = some n → q.taken ≤ n
  activeBegun : ∀ n, q.active = some n → n < q.begun
  activeSettled : ∀ n, q.active = some n → ¬Current p q n

/-- The producer's program counter agrees with the ledger. -/
def Producer (p : Pipeline) (q : Ledger) : Prop :=
  match p.producer with
  | .submitStore _ _ _ => q.accepted < q.taken + 2
  | .takeStore report =>
      q.taken < q.released ∧ (q.frames q.taken).state = .done ∧
        report = (q.frames q.taken).completionReport
  | .closeSlot index => p.exited = true ∧ (index = 1 → (p.slots 0).state = .empty)
  | _ => True

structure Tracks (p : Pipeline) (q : Ledger) : Prop where
  ring : Ring p q
  phases : Phases p q
  activeIndex : ActiveIndex p q
  currentIndex : CurrentIndex p q
  exited : p.exited = true → p.worker = .exited
  producer : Producer p q

/-- A step that touches neither slots nor ring indices. -/
structure SameRing (p next : Pipeline) : Prop where
  slots : next.slots = p.slots
  count : next.accepted = p.accepted
  begun : next.begun = p.begun
  put : next.put = p.put
  release : next.release = p.release
  take : next.take = p.take
  run : next.run = p.run

theorem SameRing.refl (p : Pipeline) : SameRing p p := ⟨rfl, rfl, rfl, rfl, rfl, rfl, rfl⟩

variable {p next : Pipeline} {q : Ledger}

theorem Ring.congr (ring : Ring p q) (same : SameRing p next) : Ring next q where
  takenReleased := ring.takenReleased
  releasedBegun := ring.releasedBegun
  begunAccepted := ring.begunAccepted
  acceptedRoom := ring.acceptedRoom
  count := same.count.trans ring.count
  begun := same.begun.trans ring.begun
  put := same.put.trans ring.put
  release := same.release.trans ring.release
  take := same.take.trans ring.take
  run := same.run.trans ring.run
  held := by rw [same.slots]; exact ring.held
  vacant := by rw [same.slots]; exact ring.vacant
  ticket := ring.ticket
  flag := ring.flag

/-- Rewriting a frame in flight, keeping its identity, keeps the ring. -/
theorem Ring.edit {n : Nat} (slot : PipeSlot) (ring : Ring p q) (low : q.taken ≤ n)
    (high : n < q.accepted) (ticket : slot.ticket = (q.frames n).ticket)
    (flag : slot.released = (q.frames n).released) :
    Ring (p.setSlot (slotOf n) slot) (q.edit n slot) where
  takenReleased := ring.takenReleased
  releasedBegun := ring.releasedBegun
  begunAccepted := ring.begunAccepted
  acceptedRoom := ring.acceptedRoom
  count := ring.count
  begun := ring.begun
  put := ring.put
  release := ring.release
  take := ring.take
  run := ring.run
  held := by
    intro m mLow mHigh
    by_cases same : m = n
    · subst same
      simp [Pipeline.setSlot, Ledger.edit]
    · have apart : slotOf m ≠ slotOf n := fun equal => same
        (slotOf_inj _ mLow (Nat.lt_of_lt_of_le mHigh ring.acceptedRoom) low
          (Nat.lt_of_lt_of_le high ring.acceptedRoom) equal)
      simpa [Pipeline.setSlot, Ledger.edit, same, apart] using ring.held m mLow mHigh
  vacant := by
    intro m mLow mHigh
    have apart : slotOf m ≠ slotOf n := fun equal => absurd
      (slotOf_inj _ (Nat.le_trans low (Nat.le_trans (Nat.le_of_lt high) mLow)) mHigh low
        (Nat.lt_of_lt_of_le high ring.acceptedRoom) equal) (by
          change q.accepted ≤ m at mLow
          omega)
    simpa [Pipeline.setSlot, apart] using ring.vacant m mLow mHigh
  ticket := by
    intro m bound
    by_cases same : m = n
    · subst same
      simpa [Ledger.edit, ticket] using ring.ticket m bound
    · simpa [Ledger.edit, same] using ring.ticket m bound
  flag := by
    intro m bound
    by_cases same : m = n
    · subst same
      simpa [Ledger.edit, flag] using ring.flag m bound
    · simpa [Ledger.edit, same] using ring.flag m bound

theorem Current.congr (same : next.worker.running = p.worker.running) {n : Nat} :
    Current next q n ↔ Current p q n := by
  simp only [Current, same]

theorem Phases.congr (phases : Phases p q) (same : next.worker.running = p.worker.running) :
    Phases next q where
  state := fun n bound => by rw [same]; exact phases.state n bound
  activeTaken := phases.activeTaken
  activeBegun := phases.activeBegun
  activeSettled := fun n active => by rw [Current.congr same]; exact phases.activeSettled n active

theorem Phases.edit {n : Nat} (next : Pipeline) (slot : PipeSlot) (phases : Phases p q)
    (same : next.worker.running = p.worker.running) (state : slot.state = (q.frames n).state) :
    Phases next (q.edit n slot) where
  state := by
    intro m bound
    have before := (phases.congr same).state m bound
    by_cases equal : m = n
    · subst equal
      rw [Ledger.edit_same, state]
      exact before
    · rw [Ledger.edit_other q n slot equal]
      exact before
  activeTaken := phases.activeTaken
  activeBegun := phases.activeBegun
  activeSettled := (phases.congr same).activeSettled

/-- The active frame becomes DONE. -/
theorem Phases.completeActive {n : Nat} {slot : PipeSlot} (phases : Phases p q)
    (same : next.worker.running = p.worker.running) (active : q.active = some n)
    (state : slot.state = .done) :
    Phases next { q.edit n slot with active := none } where
  state := by
    intro m bound
    have before := (phases.congr same).state m bound
    have settled := (phases.congr same).activeSettled n active
    have begun := phases.activeBegun n active
    by_cases equal : m = n
    · subst equal
      rw [Ledger.edit_same, state]
      grind [frameState, Current]
    · rw [Ledger.edit_other q n slot equal, before]
      grind [frameState]
  activeTaken := by simp
  activeBegun := by simp
  activeSettled := by simp

/-- The next queued frame becomes RUNNING. -/
theorem Phases.begin {slot : PipeSlot} (phases : Phases p q)
    (idle : p.worker.running = false) (busy : next.worker.running = true)
    (state : slot.state = .running) :
    Phases next { q.edit q.begun slot with begun := q.begun + 1 } where
  state := by
    intro m bound
    have before := phases.state m bound
    by_cases equal : m = q.begun
    · subst equal
      rw [Ledger.edit_same, state]
      grind [frameState]
    · rw [Ledger.edit_other q _ slot equal, before]
      grind [frameState]
  activeTaken := phases.activeTaken
  activeBegun := fun n active => Nat.lt_succ_of_lt (phases.activeBegun n active)
  activeSettled := by
    intro n active current
    have begun := phases.activeBegun n active
    have last : q.begun + 1 = n + 1 := current.2
    omega

/-- The current frame becomes SUBMITTED and active. -/
theorem Phases.submit {n : Nat} {slot : PipeSlot} (phases : Phases p q)
    (current : Current p q n) (idle : next.worker.running = false) (taken : q.taken ≤ n)
    (inactive : q.active = none) (state : slot.state = .submitted) :
    Phases next { q.edit n slot with active := some n } where
  state := by
    intro m bound
    have before := phases.state m bound
    obtain ⟨running, begun⟩ := current
    by_cases equal : m = n
    · subst equal
      rw [Ledger.edit_same, state]
      grind [frameState]
    · rw [Ledger.edit_other q n slot equal, before]
      grind [frameState]
  activeTaken := by
    intro m active
    cases active
    exact taken
  activeBegun := by
    intro m active
    cases active
    have begun : q.begun = n + 1 := current.2
    change n < q.begun
    omega
  activeSettled := fun m _ now => by simp [Current, idle] at now

/-- The current frame becomes DONE without having started a transfer. -/
theorem Phases.reject {n : Nat} {slot : PipeSlot} (phases : Phases p q)
    (current : Current p q n) (idle : next.worker.running = false)
    (state : slot.state = .done) : Phases next (q.edit n slot) where
  state := by
    intro m bound
    have before := phases.state m bound
    obtain ⟨running, begun⟩ := current
    by_cases equal : m = n
    · subst equal
      have inactive : q.active ≠ some m := fun active =>
        phases.activeSettled m active ⟨running, begun⟩
      rw [Ledger.edit_same, state]
      grind [frameState]
    · rw [Ledger.edit_other q n slot equal, before]
      grind [frameState]
  activeTaken := phases.activeTaken
  activeBegun := phases.activeBegun
  activeSettled := fun m _ now => by simp [Current, idle] at now

theorem Producer.congr (producer : Producer p q) (same : next.producer = p.producer)
    (slots : next.slots = p.slots) (exited : next.exited = p.exited) : Producer next q := by
  unfold Producer at *
  rw [same, slots, exited]
  exact producer

/-- While the worker lives, it rewrites no frame the producer has read as DONE. -/
theorem Producer.edit {n : Nat} {slot : PipeSlot} {active : Option Nat} {begun : Nat}
    (producer : Producer p q) (same : next.producer = p.producer) (alive : p.exited = false)
    (pending : (q.frames n).state ≠ .done) :
    Producer next { q.edit n slot with active, begun } := by
  unfold Producer at *
  rw [same]
  split
  · rename_i pc
    simpa [pc] using producer
  · rename_i report pc
    simp only [pc] at producer
    obtain ⟨released, done, read⟩ := producer
    have apart : q.taken ≠ n := fun equal => pending (equal ▸ done)
    simpa [Ledger.edit_other q n slot apart] using ⟨released, done, read⟩
  · rename_i index pc
    simp [pc, alive] at producer
  · trivial

end LvglAic.Spi
