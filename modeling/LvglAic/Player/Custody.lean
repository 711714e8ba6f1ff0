import LvglAic.Player.Frames

/-! # Custody of leases and pins

The abstract view of the mailbox: which lease and which allocator pin each slot
is responsible for, which slots an image shows, and what the session holds.
Its moves are the transfers of responsibility; everything else the mailbox
does is invisible here.
-/

namespace LvglAic.Player

@[ext] structure Custody where
  occupant : LeaseIndex → Option Nat
  pin : LeaseIndex → Option Nat
  shown : LeaseIndex → Bool
  /-- The slot whose submit has not returned. -/
  building : Option LeaseIndex
  /-- The slot whose lease the session took back and that is not EMPTY yet. -/
  storing : Option LeaseIndex
  holds : Nat → Prop
  issued : Nat
  pins : Nat
  quarantined : Bool
  /-- A pin release failed. -/
  sealed : Bool

/-- An image of the lease is on screen. -/
def observeScreen (lease : Nat) (onScreen : Bool) : FrameEvent → Bool
  | .polled shown _ => if shown = lease then true else onScreen
  | .imageReleased shown => if shown = lease then false else onScreen
  | _ => onScreen

def onScreen (trace : List FrameEvent) (lease : Nat) : Bool :=
  trace.foldl (observeScreen lease) false

/-- All pins taken for the lease were released. -/
def Unpinned (trace : List FrameEvent) (lease : Nat) : Prop :=
  ∀ pin, .pinned lease pin ∈ trace → .unpinned lease pin true ∈ trace

/-- The session has not taken the lease back. -/
def Unreturned (trace : List FrameEvent) (lease : Nat) : Prop :=
  .put lease true ∉ trace ∧ .handedBack lease true ∉ trace

/-- What each event requires of the events before it. -/
def CustodySafe (before : List FrameEvent) : FrameEvent → Prop
  | .unpinned lease pin _ =>
      .pinned lease pin ∈ before ∧ ∀ other result, .unpinned other pin result ∉ before
  | .put lease _ => .quarantined ∉ before ∧ Unreturned before lease ∧
      onScreen before lease = false ∧ Unpinned before lease
  | .emptied lease => Unpinned before lease
  | .handedBack lease true => Unreturned before lease ∧ onScreen before lease = false
  | .idle true | .reopened true | .destroyed true => .quarantined ∉ before
  | .sessionClosed true => ∀ lease, .acquired lease ∈ before →
      .put lease true ∈ before ∨ .handedBack lease true ∈ before
  | _ => True

/-- Events that move no lease, pin or image. -/
def FrameEvent.neutral : FrameEvent → Bool
  | .opened _ | .sessionClosed _ | .handedBack _ false | .submitted _ _ | .drained _ | .pollFailed
  | .closed | .reopened _ | .idle _ | .destroyed _ => true
  | _ => false

/-- Events that say where a lease is. -/
def FrameEvent.movesLease : FrameEvent → Bool
  | .submitted _ .ok | .put _ true | .handedBack _ true | .acquired _ => true
  | _ => false

def FrameEvent.movesPin : FrameEvent → Bool
  | .pinned _ _ | .unpinned _ _ _ => true
  | _ => false

def FrameEvent.movesImage : FrameEvent → Bool
  | .polled _ _ | .imageReleased _ => true
  | _ => false

/-- What a neutral event says about the custody it leaves alone. -/
def Custody.Permits (c : Custody) : FrameEvent → Prop
  | .submitted lease .ok => ∃ index, c.occupant index = some lease ∧ c.building ≠ some index
  | .idle true | .reopened true | .destroyed true => c.quarantined = false
  | .sessionClosed true => ∀ lease, ¬c.holds lease
  | _ => True

namespace Custody

/-- One transfer of responsibility. -/
inductive Move (c : Custody) : List FrameEvent → Custody → Prop where
  | quiet (events : List FrameEvent) (neutral : ∀ event ∈ events, event.neutral = true)
      (permitted : ∀ event ∈ events, c.Permits event) : Move c events c
  | acquire : Move c [.acquired (c.issued + 1)]
      { c with issued := c.issued + 1, holds := fun lease => c.holds lease ∨ lease = c.issued + 1 }
  | handBack (lease : Nat) (held : c.holds lease) (free : ∀ index, c.occupant index ≠ some lease) :
      Move c [.handedBack lease true]
        { c with holds := fun other => c.holds other ∧ other ≠ lease }
  | claim (index : LeaseIndex) (lease : Nat) (held : c.holds lease)
      (free : ∀ index, c.occupant index ≠ some lease) (empty : c.occupant index = none)
      (unpinned : c.pin index = none) (hidden : c.shown index = false)
      (idle : c.building = none) (stored : c.storing = none) :
      Move c [] { c with occupant := Function.update c.occupant index (some lease)
                         building := some index }
  | pin (index : LeaseIndex) (lease : Nat) (builds : c.building = some index)
      (occupied : c.occupant index = some lease) (unpinned : c.pin index = none) :
      Move c [.pinned lease (c.pins + 1)]
        { c with pins := c.pins + 1, pin := Function.update c.pin index (some (c.pins + 1)) }
  | unpin (index : LeaseIndex) (lease pin : Nat) (result : Bool)
      (occupied : c.occupant index = some lease) (pinned : c.pin index = some pin)
      (opened : c.sealed = false) :
      Move c [.unpinned lease pin result]
        { c with pin := if result then Function.update c.pin index none else c.pin
                 sealed := !result }
  | publish (index : LeaseIndex) (lease : Nat) (builds : c.building = some index)
      (occupied : c.occupant index = some lease) :
      Move c [.submitted lease .ok] { c with building := none }
  | reject (index : LeaseIndex) (lease : Nat) (builds : c.building = some index)
      (occupied : c.occupant index = some lease) (unpinned : c.pin index = none) :
      Move c [.emptied lease, .submitted lease .failed]
        { c with building := none, occupant := Function.update c.occupant index none }
  | quarantine (sealed : c.sealed = true) : Move c [.quarantined] { c with quarantined := true }
  | «show» (index : LeaseIndex) (lease : Nat) (pts : Int) (occupied : c.occupant index = some lease)
      (settled : c.building ≠ some index) (kept : c.storing ≠ some index) :
      Move c [.polled lease pts] { c with shown := Function.update c.shown index true }
  | hide (index : LeaseIndex) (lease : Nat) (occupied : c.occupant index = some lease)
      (shown : c.shown index = true) :
      Move c [.imageReleased lease] { c with shown := Function.update c.shown index false }
  | put (index : LeaseIndex) (lease : Nat) (occupied : c.occupant index = some lease)
      (idle : c.building = none) (stored : c.storing = none)
      (unpinned : c.pin index = none) (hidden : c.shown index = false)
      (opened : c.quarantined = false) :
      Move c [.put lease true]
        { c with storing := some index, holds := fun other => c.holds other ∧ other ≠ lease }
  | putFailed (index : LeaseIndex) (lease : Nat) (occupied : c.occupant index = some lease)
      (stored : c.storing = none) (unpinned : c.pin index = none) (hidden : c.shown index = false)
      (opened : c.quarantined = false) :
      Move c [.put lease false] c
  | store (index : LeaseIndex) (lease : Nat) (stores : c.storing = some index)
      (occupied : c.occupant index = some lease) (unpinned : c.pin index = none) :
      Move c [.emptied lease]
        { c with storing := none, occupant := Function.update c.occupant index none }

/-- Several transfers in a row. -/
inductive Moves : Custody → List FrameEvent → Custody → Prop where
  | none (c : Custody) : Moves c [] c
  | more {c middle last : Custody} {first rest : List FrameEvent} (move : Move c first middle)
      (moves : Moves middle rest last) : Moves c (first ++ rest) last

theorem Moves.one {c next : Custody} {events : List FrameEvent} (move : Move c events next) :
    Moves c events next := by
  simpa using Moves.more move (.none next)

theorem Moves.append {c middle last : Custody} {first rest : List FrameEvent}
    (moves : Moves c first middle) (more : Moves middle rest last) :
    Moves c (first ++ rest) last := by
  induction moves with
  | none => exact more
  | more move _ ih => simpa only [List.append_assoc] using .more move (ih more)

/-- Leases: each occupant is held, and each submitted lease is accounted for. -/
structure Leases (trace : List FrameEvent) (c : Custody) : Prop where
  distinct : ∀ i j lease, c.occupant i = some lease → c.occupant j = some lease → i = j
  issued : ∀ lease, c.holds lease → 0 < lease ∧ lease ≤ c.issued
  occupied : ∀ i lease, c.occupant i = some lease → c.holds lease ∨ c.storing = some i
  stored : ∀ i, c.storing = some i → ∃ lease, c.occupant i = some lease ∧ .put lease true ∈ trace
  settled : ∀ i lease, c.occupant i = some lease →
    c.building = some i ∨ .submitted lease .ok ∈ trace
  fresh : ∀ i lease, c.building = some i → c.occupant i = some lease →
    .submitted lease .ok ∉ trace
  builds : ∀ i, c.building = some i → ∃ lease, c.occupant i = some lease
  exclusive : c.building = none ∨ c.storing = none
  submitted : ∀ lease, .submitted lease .ok ∈ trace →
    (∃ i, c.occupant i = some lease) ∨ .put lease true ∈ trace
  gone : ∀ lease, .put lease true ∈ trace ∨ .handedBack lease true ∈ trace →
    ¬c.holds lease ∧ lease ≤ c.issued
  acquired : ∀ lease, .acquired lease ∈ trace →
    c.holds lease ∨ .put lease true ∈ trace ∨ .handedBack lease true ∈ trace

/-- Pins: each is released at most once, and none is forgotten. -/
structure Pins (trace : List FrameEvent) (c : Custody) : Prop where
  bound : ∀ lease pin, .pinned lease pin ∈ trace → pin ≤ c.pins
  unpinBound : ∀ lease pin result, .unpinned lease pin result ∈ trace → pin ≤ c.pins
  owned : ∀ i pin, c.pin i = some pin →
    ∃ lease, c.occupant i = some lease ∧ .pinned lease pin ∈ trace
  fresh : ∀ i pin, c.pin i = some pin → c.sealed = false →
    ∀ lease result, .unpinned lease pin result ∉ trace
  distinct : ∀ i j pin, c.pin i = some pin → c.pin j = some pin → i = j
  accounted : ∀ lease pin, .pinned lease pin ∈ trace →
    .unpinned lease pin true ∈ trace ∨ ∃ i, c.pin i = some pin ∧ c.occupant i = some lease

/-- Images: exactly the shown slots' leases are on screen. -/
structure Screen (trace : List FrameEvent) (c : Custody) : Prop where
  agrees : ∀ lease, onScreen trace lease = true ↔
    ∃ i, c.shown i = true ∧ c.occupant i = some lease
  occupied : ∀ i, c.shown i = true → ∃ lease, c.occupant i = some lease
  settled : ∀ i, c.shown i = true → c.building ≠ some i ∧ c.storing ≠ some i

/-- The custody agrees with its history. -/
structure Sound (trace : List FrameEvent) (c : Custody) : Prop where
  guarded : Guarded CustodySafe trace
  leases : Leases trace c
  pins : Pins trace c
  screen : Screen trace c
  marked : .quarantined ∈ trace ↔ c.quarantined = true
  sealing : c.quarantined = true → c.sealed = true

section
variable {trace events : List FrameEvent} {c next : Custody} {lease : Nat} {index : LeaseIndex}

@[simp] theorem onScreen_append : onScreen (trace ++ events) lease =
    events.foldl (observeScreen lease) (onScreen trace lease) := List.foldl_append

/-- A trace grown by other kinds of events has the same events of this kind. -/
theorem mem_append_still {kind : FrameEvent → Bool} {event : FrameEvent}
    (still : ∀ event ∈ events, kind event = false) (moves : kind event = true) :
    event ∈ trace ++ events ↔ event ∈ trace := by
  rw [List.mem_append, or_iff_left]
  intro member
  rw [still event member] at moves
  cases moves

theorem Leases.append (events : List FrameEvent) (leases : Leases trace c)
    (still : ∀ event ∈ events, event.movesLease = false) : Leases (trace ++ events) c where
  distinct := leases.distinct
  issued := leases.issued
  occupied := leases.occupied
  stored := fun i stores => by
    obtain ⟨lease, occupied, put⟩ := leases.stored i stores
    exact ⟨lease, occupied, List.mem_append_left _ put⟩
  settled := fun i lease occupied => by
    rw [mem_append_still still rfl]
    exact leases.settled i lease occupied
  fresh := fun i lease builds occupied => by
    rw [mem_append_still still rfl]
    exact leases.fresh i lease builds occupied
  builds := leases.builds
  exclusive := leases.exclusive
  submitted := fun lease => by
    rw [mem_append_still still rfl, mem_append_still still rfl]
    exact leases.submitted lease
  gone := fun lease => by
    rw [mem_append_still still rfl, mem_append_still still rfl]
    exact leases.gone lease
  acquired := fun lease => by
    rw [mem_append_still still rfl, mem_append_still still rfl, mem_append_still still rfl]
    exact leases.acquired lease

/-- A lease the mailbox already owns may be reported as submitted again. -/
theorem Leases.resubmit (leases : Leases trace c) (occupied : c.occupant index = some lease)
    (settled : c.building ≠ some index) : Leases (trace ++ [.submitted lease .ok]) c where
  distinct := leases.distinct
  issued := leases.issued
  occupied := leases.occupied
  stored := fun i stores => by
    obtain ⟨other, found, put⟩ := leases.stored i stores
    exact ⟨other, found, List.mem_append_left _ put⟩
  settled := fun i other found => (leases.settled i other found).imp_right
    (List.mem_append_left _)
  fresh := by
    intro i other builds found member
    simp only [List.mem_append, List.mem_singleton, FrameEvent.submitted.injEq, and_true] at member
    rcases member with earlier | rfl
    · exact leases.fresh i other builds found earlier
    · exact settled (leases.distinct i index other found occupied ▸ builds)
  builds := leases.builds
  exclusive := leases.exclusive
  submitted := by
    intro other member
    simp only [List.mem_append, List.mem_singleton, FrameEvent.submitted.injEq, and_true] at member
    rcases member with earlier | rfl
    · exact (leases.submitted other earlier).imp_right (List.mem_append_left _)
    · exact .inl ⟨index, occupied⟩
  gone := fun other => by simpa using leases.gone other
  acquired := fun other => by simpa using leases.acquired other

theorem Pins.append (events : List FrameEvent) (pins : Pins trace c)
    (still : ∀ event ∈ events, event.movesPin = false) :
    Pins (trace ++ events) c where
  bound := fun lease pin => by
    rw [mem_append_still still rfl]
    exact pins.bound lease pin
  unpinBound := fun lease pin result => by
    rw [mem_append_still still rfl]
    exact pins.unpinBound lease pin result
  owned := fun i pin owns => by
    obtain ⟨lease, occupied, pinned⟩ := pins.owned i pin owns
    exact ⟨lease, occupied, List.mem_append_left _ pinned⟩
  fresh := fun i pin owns opened lease result => by
    rw [mem_append_still still rfl]
    exact pins.fresh i pin owns opened lease result
  distinct := pins.distinct
  accounted := fun lease pin => by
    rw [mem_append_still still rfl, mem_append_still still rfl]
    exact pins.accounted lease pin

theorem observeScreen_still (still : ∀ event ∈ events, event.movesImage = false) (shown : Bool) :
    events.foldl (observeScreen lease) shown = shown := by
  induction events with
  | nil => rfl
  | cons event rest ih =>
      have quiet : observeScreen lease shown event = shown := by
        have kind := still event (by simp)
        cases event <;> first | rfl | cases kind
      rw [List.foldl_cons, quiet]
      exact ih fun event member => still event (by simp [member])

theorem Screen.append (events : List FrameEvent) (screen : Screen trace c)
    (still : ∀ event ∈ events, event.movesImage = false) : Screen (trace ++ events) c where
  agrees := fun lease => by
    rw [onScreen_append, observeScreen_still still]
    exact screen.agrees lease
  occupied := screen.occupied
  settled := screen.settled

/-- Nothing of the lease remains pinned once its slot owns no pin. -/
theorem Sound.unpinned (sound : Sound trace c) (occupied : c.occupant index = some lease)
    (free : c.pin index = none) : Unpinned trace lease := by
  intro pin pinned
  refine (sound.pins.accounted lease pin pinned).resolve_right ?_
  rintro ⟨other, owns, same⟩
  obtain rfl := sound.leases.distinct other index lease same occupied
  rw [free] at owns
  cases owns

theorem Sound.hidden (sound : Sound trace c)
    (hidden : ∀ i, c.occupant i = some lease → c.shown i = false) :
    onScreen trace lease = false := by
  rw [Bool.eq_false_iff, ne_eq, sound.screen.agrees]
  rintro ⟨i, shown, occupied⟩
  rw [hidden i occupied] at shown
  cases shown

theorem Sound.unmarked (sound : Sound trace c) (opened : c.quarantined = false) :
    .quarantined ∉ trace := by
  rw [sound.marked, opened]
  simp

theorem Sound.unreturned (sound : Sound trace c) (held : c.holds lease) :
    Unreturned trace lease :=
  ⟨fun put => (sound.leases.gone lease (.inl put)).1 held,
    fun back => (sound.leases.gone lease (.inr back)).1 held⟩

/-- A slot whose lease is not being stored keeps it in the session. -/
theorem Sound.held (sound : Sound trace c) (occupied : c.occupant index = some lease)
    (stored : c.storing = none) : c.holds lease :=
  (sound.leases.occupied index lease occupied).resolve_right (by simp [stored])

/-- A submitted lease was issued. -/
theorem Sound.submitted_issued (sound : Sound trace c) (submitted : .submitted lease .ok ∈ trace) :
    lease ≤ c.issued := by
  rcases sound.leases.submitted lease submitted with ⟨index, occupied⟩ | put
  · rcases sound.leases.occupied index lease occupied with held | stored
    · exact (sound.leases.issued lease held).2
    · obtain ⟨other, same, put⟩ := sound.leases.stored index stored
      obtain rfl := Option.some.inj (same.symm.trans occupied)
      exact (sound.leases.gone other (.inl put)).2
  · exact (sound.leases.gone lease (.inl put)).2

/-- An acquired lease was issued. -/
theorem Sound.acquired_issued (sound : Sound trace c) (acquired : .acquired lease ∈ trace) :
    lease ≤ c.issued := by
  rcases sound.leases.acquired lease acquired with held | gone
  · exact (sound.leases.issued lease held).2
  · exact (sound.leases.gone lease gone).2

/-! ## Each move keeps the agreement -/

/-- Filling an empty entry keeps the others. -/
theorem update_filled {entry : LeaseIndex → Option Nat} {value : Option Nat} {i : LeaseIndex}
    {found : Nat} (empty : entry index = none) (kept : entry i = some found) :
    Function.update entry index value i = some found := by
  rw [Function.update_of_ne]
  · exact kept
  · rintro rfl
    rw [empty] at kept
    cases kept

theorem update_cleared {entry : LeaseIndex → Option Nat} {i : LeaseIndex} {found : Nat} :
    Function.update entry index none i = some found ↔ i ≠ index ∧ entry i = some found := by
  by_cases same : i = index
  · subst same
    simp
  · simp [same]

theorem Sound.quiet (sound : Sound trace c)
    (neutral : ∀ event ∈ events, event.neutral = true)
    (permitted : ∀ event ∈ events, c.Permits event) : Sound (trace ++ events) c := by
  induction events generalizing trace with
  | nil => simpa using sound
  | cons event rest ih =>
      have kind := neutral event (by simp)
      have permits := permitted event (by simp)
      have stillPin : ∀ other ∈ [event], other.movesPin = false := by
        simp only [List.mem_singleton, forall_eq]
        cases event <;> first | rfl | cases kind
      have stillImage : ∀ other ∈ [event], other.movesImage = false := by
        simp only [List.mem_singleton, forall_eq]
        cases event <;> first | rfl | cases kind
      have apart : .quarantined ≠ event := by
        rintro rfl
        cases kind
      have guard : CustodySafe trace event := by
        cases event with
        | idle result | reopened result | destroyed result =>
            cases result with
            | true => exact sound.unmarked permits
            | false => trivial
        | sessionClosed result =>
            cases result with
            | true => exact fun lease member =>
                (sound.leases.acquired lease member).resolve_left (permits lease)
            | false => trivial
        | handedBack lease result =>
            cases result with
            | true => cases kind
            | false => trivial
        | _ => trivial
      have leases : Leases (trace ++ [event]) c := by
        cases moves : event.movesLease with
        | false => exact sound.leases.append _ (by simpa using moves)
        | true =>
            cases event with
            | submitted lease result =>
                cases result with
                | ok =>
                    obtain ⟨index, occupied, settled⟩ := permits
                    exact sound.leases.resubmit occupied settled
                | failed | wait => simp [FrameEvent.movesLease] at moves
            | put lease result => simp [FrameEvent.neutral] at kind
            | acquired lease => simp [FrameEvent.neutral] at kind
            | handedBack lease result =>
                cases result with
                | true => simp [FrameEvent.neutral] at kind
                | false => simp [FrameEvent.movesLease] at moves
            | _ => simp [FrameEvent.movesLease] at moves
      have one : Sound (trace ++ [event]) c := {
        guarded := sound.guarded.snoc guard
        leases := leases
        pins := sound.pins.append _ stillPin
        screen := sound.screen.append _ stillImage
        marked := by
          rw [List.mem_append, List.mem_singleton, or_iff_left apart]
          exact sound.marked
        sealing := sound.sealing }
      simpa only [List.append_assoc, List.singleton_append] using
        ih one (fun other member => neutral other (by simp [member]))
          (fun other member => permitted other (by simp [member]))

theorem Sound.acquire (sound : Sound trace c) :
    Sound (trace ++ [.acquired (c.issued + 1)])
      { c with issued := c.issued + 1
               holds := fun lease => c.holds lease ∨ lease = c.issued + 1 } where
  guarded := sound.guarded.snoc trivial
  leases := {
    distinct := sound.leases.distinct
    issued := by
      rintro lease (held | rfl)
      · have bound := sound.leases.issued lease held
        exact ⟨bound.1, Nat.le_succ_of_le bound.2⟩
      · exact ⟨Nat.succ_pos _, Nat.le_refl _⟩
    occupied := fun i lease occupied => (sound.leases.occupied i lease occupied).imp_left .inl
    stored := fun i stores => by
      obtain ⟨lease, occupied, put⟩ := sound.leases.stored i stores
      exact ⟨lease, occupied, List.mem_append_left _ put⟩
    settled := fun i lease occupied => by simpa using sound.leases.settled i lease occupied
    fresh := fun i lease builds occupied => by simpa using sound.leases.fresh i lease builds occupied
    builds := sound.leases.builds
    exclusive := sound.leases.exclusive
    submitted := fun lease => by simpa using sound.leases.submitted lease
    gone := by
      intro lease left
      obtain ⟨absent, bound⟩ := sound.leases.gone lease (by simpa using left)
      refine ⟨?_, Nat.le_succ_of_le bound⟩
      rintro (held | rfl)
      · exact absent held
      · omega
    acquired := by
      intro lease member
      simp only [List.mem_append, List.mem_singleton, FrameEvent.acquired.injEq] at member
      rcases member with earlier | rfl
      · simpa [or_assoc] using (sound.leases.acquired lease earlier).imp_left Or.inl
      · exact .inl (.inr rfl) }
  pins := { sound.pins.append [.acquired (c.issued + 1)] (by simp [FrameEvent.movesPin])
    with }
  screen := { sound.screen.append [.acquired (c.issued + 1)]
    (by simp [FrameEvent.movesImage]) with }
  marked := by simpa using sound.marked
  sealing := sound.sealing

/-- The worker returns a lease that no slot is responsible for. -/
theorem Sound.handBack (sound : Sound trace c) (held : c.holds lease)
    (free : ∀ index, c.occupant index ≠ some lease) :
    Sound (trace ++ [.handedBack lease true])
      { c with holds := fun other => c.holds other ∧ other ≠ lease } where
  guarded := sound.guarded.snoc ⟨sound.unreturned held,
    sound.hidden fun i occupied => absurd occupied (free i)⟩
  leases := {
    distinct := sound.leases.distinct
    issued := fun other held => sound.leases.issued other held.1
    occupied := fun i other occupied => (sound.leases.occupied i other occupied).imp_left
      fun held => ⟨held, fun same => free i (same ▸ occupied)⟩
    stored := fun i stores => by
      obtain ⟨other, occupied, put⟩ := sound.leases.stored i stores
      exact ⟨other, occupied, List.mem_append_left _ put⟩
    settled := fun i other occupied => by simpa using sound.leases.settled i other occupied
    fresh := fun i other builds occupied => by simpa using sound.leases.fresh i other builds occupied
    builds := sound.leases.builds
    exclusive := sound.leases.exclusive
    submitted := fun other => by simpa using sound.leases.submitted other
    gone := by
      intro other left
      simp only [List.mem_append, List.mem_singleton, FrameEvent.handedBack.injEq, reduceCtorEq,
        or_false, and_true] at left
      rcases left with put | earlier | rfl
      · obtain ⟨absent, bound⟩ := sound.leases.gone other (.inl put)
        exact ⟨fun held => absent held.1, bound⟩
      · obtain ⟨absent, bound⟩ := sound.leases.gone other (.inr earlier)
        exact ⟨fun held => absent held.1, bound⟩
      · exact ⟨fun held => held.2 rfl, (sound.leases.issued _ held).2⟩
    acquired := by
      intro other member
      simp only [List.mem_append, List.mem_singleton, FrameEvent.handedBack.injEq, reduceCtorEq,
        or_false, and_true] at member ⊢
      by_cases same : other = lease
      · exact .inr (.inr (.inr same))
      · rcases sound.leases.acquired other member with kept | put | returned
        · exact .inl ⟨kept, same⟩
        · exact .inr (.inl put)
        · exact .inr (.inr (.inl returned)) }
  pins := { sound.pins.append [.handedBack lease true] (by simp [FrameEvent.movesPin])
    with }
  screen := { sound.screen.append [.handedBack lease true]
    (by simp [FrameEvent.movesImage]) with }
  marked := by simpa using sound.marked
  sealing := sound.sealing

/-- `submit` takes an EMPTY slot for a held lease. -/
theorem Sound.claim (sound : Sound trace c) (held : c.holds lease)
    (free : ∀ index, c.occupant index ≠ some lease) (empty : c.occupant index = none)
    (unpinned : c.pin index = none) (hidden : c.shown index = false)
    (idle : c.building = none) (stored : c.storing = none) :
    Sound trace { c with occupant := Function.update c.occupant index (some lease)
                         building := some index } where
  guarded := sound.guarded
  leases := {
    distinct := by
      intro i j other left right
      have distinct := sound.leases.distinct i j other
      simp only [Function.update_apply] at left right
      grind
    issued := sound.leases.issued
    occupied := by
      intro i other occupied
      have known := sound.leases.occupied i other
      simp only [Function.update_apply] at occupied
      grind
    stored := fun i stores => by simp [stored] at stores
    settled := by
      intro i other occupied
      have known := sound.leases.settled i other
      simp only [Function.update_apply] at occupied
      grind
    fresh := by
      rintro i other ⟨⟩ occupied member
      obtain rfl : lease = other := by simpa using occupied
      rcases sound.leases.submitted lease member with ⟨j, occupies⟩ | put
      · exact free j occupies
      · exact (sound.leases.gone lease (.inl put)).1 held
    builds := by
      rintro i ⟨⟩
      exact ⟨lease, Function.update_self _ _ _⟩
    exclusive := .inr stored
    submitted := fun other member => (sound.leases.submitted other member).imp_left
      fun ⟨i, occupied⟩ => ⟨i, update_filled empty occupied⟩
    gone := sound.leases.gone
    acquired := sound.leases.acquired }
  pins := {
    bound := sound.pins.bound
    unpinBound := sound.pins.unpinBound
    owned := fun i pin owns => by
      obtain ⟨other, occupied, pinned⟩ := sound.pins.owned i pin owns
      exact ⟨other, update_filled empty occupied, pinned⟩
    fresh := sound.pins.fresh
    distinct := sound.pins.distinct
    accounted := fun other pin pinned => (sound.pins.accounted other pin pinned).imp_right
      fun ⟨i, owns, occupied⟩ => ⟨i, owns, update_filled empty occupied⟩ }
  screen := {
    agrees := by
      intro other
      rw [sound.screen.agrees]
      refine exists_congr fun i => and_congr_right fun shown => ?_
      dsimp only
      rw [Function.update_of_ne]
      rintro rfl
      rw [hidden] at shown
      cases shown
    occupied := fun i shown => by
      obtain ⟨other, occupied⟩ := sound.screen.occupied i shown
      exact ⟨other, update_filled empty occupied⟩
    settled := by
      intro i shown
      refine ⟨?_, (sound.screen.settled i shown).2⟩
      rintro ⟨⟩
      rw [hidden] at shown
      cases shown }
  marked := sound.marked
  sealing := sound.sealing

theorem Sound.pin (sound : Sound trace c) (occupied : c.occupant index = some lease)
    (unpinned : c.pin index = none) :
    Sound (trace ++ [.pinned lease (c.pins + 1)])
      { c with pins := c.pins + 1, pin := Function.update c.pin index (some (c.pins + 1)) } where
  guarded := sound.guarded.snoc trivial
  leases := { sound.leases.append [.pinned lease (c.pins + 1)]
    (by simp [FrameEvent.movesLease]) with }
  pins := {
    bound := by
      intro other pin member
      simp only [List.mem_append, List.mem_singleton, FrameEvent.pinned.injEq] at member
      rcases member with earlier | ⟨-, rfl⟩
      · exact Nat.le_succ_of_le (sound.pins.bound other pin earlier)
      · exact Nat.le_refl _
    unpinBound := by
      intro other pin result member
      exact Nat.le_succ_of_le (sound.pins.unpinBound other pin result (by simpa using member))
    owned := by
      intro i pin owns
      by_cases same : i = index
      · subst same
        obtain rfl : c.pins + 1 = pin := by simpa using owns
        exact ⟨lease, occupied, by simp⟩
      · obtain ⟨other, found, pinned⟩ := sound.pins.owned i pin (by simpa [same] using owns)
        exact ⟨other, found, List.mem_append_left _ pinned⟩
    fresh := by
      intro i pin owns opened other result member
      have earlier : .unpinned other pin result ∈ trace := by simpa using member
      by_cases same : i = index
      · subst same
        obtain rfl : c.pins + 1 = pin := by simpa using owns
        have bound := sound.pins.unpinBound _ _ _ earlier
        omega
      · exact sound.pins.fresh i pin (by simpa [same] using owns) opened _ _ earlier
    distinct := by
      intro i j pin left right
      have below : ∀ k, c.pin k ≠ some (c.pins + 1) := fun k owns => by
        obtain ⟨_, _, pinned⟩ := sound.pins.owned k _ owns
        have bound := sound.pins.bound _ _ pinned
        omega
      have distinct := sound.pins.distinct i j pin
      simp only [Function.update_apply] at left right
      grind
    accounted := by
      intro other pin member
      simp only [List.mem_append, List.mem_singleton, FrameEvent.pinned.injEq, reduceCtorEq,
        or_false] at member ⊢
      rcases member with earlier | ⟨rfl, rfl⟩
      · refine (sound.pins.accounted other pin earlier).imp_right ?_
        rintro ⟨i, owns, found⟩
        exact ⟨i, update_filled unpinned owns, found⟩
      · exact .inr ⟨index, Function.update_self _ _ _, occupied⟩ }
  screen := { sound.screen.append [.pinned lease (c.pins + 1)]
    (by simp [FrameEvent.movesImage]) with }
  marked := by simpa using sound.marked
  sealing := sound.sealing

/-- The allocator is asked to release a pin; a failure seals the mailbox. -/
theorem Sound.unpin {pin : Nat} {result : Bool} (sound : Sound trace c)
    (occupied : c.occupant index = some lease) (pinned : c.pin index = some pin)
    (opened : c.sealed = false) :
    Sound (trace ++ [.unpinned lease pin result])
      { c with pin := if result then Function.update c.pin index none else c.pin
               sealed := !result } where
  guarded := by
    refine sound.guarded.snoc ⟨?_, sound.pins.fresh index pin pinned opened⟩
    obtain ⟨other, found, member⟩ := sound.pins.owned index pin pinned
    obtain rfl : lease = other := by simpa [occupied] using found
    exact member
  leases := { sound.leases.append [.unpinned lease pin result]
    (by simp [FrameEvent.movesLease]) with }
  pins := {
    bound := fun other held member => sound.pins.bound other held (by simpa using member)
    unpinBound := by
      intro other held outcome member
      simp only [List.mem_append, List.mem_singleton, FrameEvent.unpinned.injEq] at member
      rcases member with earlier | ⟨-, rfl, -⟩
      · exact sound.pins.unpinBound other held outcome earlier
      · obtain ⟨_, _, taken⟩ := sound.pins.owned index held pinned
        exact sound.pins.bound _ _ taken
    owned := by
      intro i held owns
      have before : c.pin i = some held := by
        cases result with
        | true => exact (update_cleared.mp owns).2
        | false => exact owns
      obtain ⟨other, found, member⟩ := sound.pins.owned i held before
      exact ⟨other, found, List.mem_append_left _ member⟩
    fresh := by
      intro i held owns unsealed other outcome member
      obtain rfl : result = true := by simpa using unsealed
      obtain ⟨apart, before⟩ := update_cleared.mp owns
      simp only [List.mem_append, List.mem_singleton, FrameEvent.unpinned.injEq] at member
      rcases member with earlier | ⟨-, rfl, -⟩
      · exact sound.pins.fresh i held before opened other outcome earlier
      · exact apart (sound.pins.distinct i index held before pinned)
    distinct := by
      intro i j held left right
      cases result with
      | true =>
          exact sound.pins.distinct i j held (update_cleared.mp left).2 (update_cleared.mp right).2
      | false => exact sound.pins.distinct i j held left right
    accounted := by
      intro other held member
      have earlier : .pinned other held ∈ trace := by simpa using member
      rcases sound.pins.accounted other held earlier with released | ⟨i, owns, found⟩
      · exact .inl (List.mem_append_left _ released)
      · cases result with
        | false => exact .inr ⟨i, owns, found⟩
        | true =>
            by_cases same : i = index
            · subst same
              obtain rfl : lease = other := by simpa [occupied] using found
              obtain rfl : pin = held := by simpa [pinned] using owns
              exact .inl (by simp)
            · exact .inr ⟨i, update_cleared.mpr ⟨same, owns⟩, found⟩ }
  screen := { sound.screen.append [.unpinned lease pin result]
    (by simp [FrameEvent.movesImage]) with }
  marked := by simpa using sound.marked
  sealing := fun quarantined => by
    rw [sound.sealing quarantined] at opened
    cases opened

/-- `submit` returns true. -/
theorem Sound.publish (sound : Sound trace c) (builds : c.building = some index)
    (occupied : c.occupant index = some lease) :
    Sound (trace ++ [.submitted lease .ok]) { c with building := none } where
  guarded := sound.guarded.snoc trivial
  leases := {
    distinct := sound.leases.distinct
    issued := sound.leases.issued
    occupied := sound.leases.occupied
    stored := fun i stores => by
      obtain ⟨other, found, put⟩ := sound.leases.stored i stores
      exact ⟨other, found, List.mem_append_left _ put⟩
    settled := by
      intro i other found
      rcases sound.leases.settled i other found with building | earlier
      · obtain rfl : index = i := by simpa [builds] using building
        obtain rfl : lease = other := by simpa [occupied] using found
        exact .inr (by simp)
      · exact .inr (List.mem_append_left _ earlier)
    fresh := by simp
    builds := by simp
    exclusive := .inl rfl
    submitted := by
      intro other member
      simp only [List.mem_append, List.mem_singleton, FrameEvent.submitted.injEq, and_true] at member
      rcases member with earlier | rfl
      · exact (sound.leases.submitted other earlier).imp_right (List.mem_append_left _)
      · exact .inl ⟨index, occupied⟩
    gone := fun other => by simpa using sound.leases.gone other
    acquired := fun other => by simpa using sound.leases.acquired other }
  pins := { sound.pins.append [.submitted lease .ok] (by simp [FrameEvent.movesPin])
    with }
  screen := by
    have screen := sound.screen.append [.submitted lease .ok]
      (by simp [FrameEvent.movesImage])
    exact ⟨screen.agrees, screen.occupied, fun i shown => ⟨by simp, (screen.settled i shown).2⟩⟩
  marked := by simpa using sound.marked
  sealing := sound.sealing

/-- A slot becomes EMPTY: its lease left it, its pin was released, and no image
shows it. -/
theorem Screen.vacate {building storing : Option LeaseIndex} (screen : Screen trace c)
    (settled : c.building = some index ∨ c.storing = some index)
    (fewerBuild : ∀ i, building = some i → c.building = some i)
    (fewerStore : ∀ i, storing = some i → c.storing = some i) :
    Screen trace { c with building, storing, occupant := Function.update c.occupant index none } where
  agrees := by
    intro other
    rw [screen.agrees]
    refine exists_congr fun i => and_congr_right fun shown => ?_
    rw [update_cleared]
    refine ⟨fun occupied => ⟨?_, occupied⟩, And.right⟩
    rintro rfl
    exact settled.elim (screen.settled i shown).1 (screen.settled i shown).2
  occupied := by
    intro i shown
    obtain ⟨other, occupied⟩ := screen.occupied i shown
    refine ⟨other, update_cleared.mpr ⟨?_, occupied⟩⟩
    rintro rfl
    exact settled.elim (screen.settled i shown).1 (screen.settled i shown).2
  settled := fun i shown => ⟨fun build => (screen.settled i shown).1 (fewerBuild i build),
    fun store => (screen.settled i shown).2 (fewerStore i store)⟩

theorem Pins.vacate (pins : Pins trace c) (free : c.pin index = none) :
    Pins trace { c with occupant := Function.update c.occupant index none } where
  bound := pins.bound
  unpinBound := pins.unpinBound
  owned := fun i pin owns => by
    obtain ⟨other, occupied, pinned⟩ := pins.owned i pin owns
    refine ⟨other, update_cleared.mpr ⟨?_, occupied⟩, pinned⟩
    rintro rfl
    rw [free] at owns
    cases owns
  fresh := pins.fresh
  distinct := pins.distinct
  accounted := fun other pin pinned => (pins.accounted other pin pinned).imp_right
    fun ⟨i, owns, occupied⟩ => by
      refine ⟨i, owns, update_cleared.mpr ⟨?_, occupied⟩⟩
      rintro rfl
      rw [free] at owns
      cases owns

theorem Sound.reject (sound : Sound trace c) (builds : c.building = some index)
    (occupied : c.occupant index = some lease) (free : c.pin index = none) :
    Sound (trace ++ [.emptied lease, .submitted lease .failed])
      { c with building := none, occupant := Function.update c.occupant index none } where
  guarded := sound.guarded.append ⟨sound.unpinned occupied free, trivial, trivial⟩
  leases := {
    distinct := fun i j other left right => sound.leases.distinct i j other
      (update_cleared.mp left).2 (update_cleared.mp right).2
    issued := sound.leases.issued
    occupied := fun i other found => sound.leases.occupied i other (update_cleared.mp found).2
    stored := fun i stores => by
      rcases sound.leases.exclusive with idle | empty
      · rw [builds] at idle
        cases idle
      · exact absurd (empty.symm.trans stores) (by simp)
    settled := by
      intro i other found
      obtain ⟨apart, before⟩ := update_cleared.mp found
      rcases sound.leases.settled i other before with building | earlier
      · exact absurd (Option.some.inj (builds.symm.trans building)).symm apart
      · exact .inr (List.mem_append_left _ earlier)
    fresh := by simp
    builds := by simp
    exclusive := .inl rfl
    submitted := by
      intro other member
      have earlier : .submitted other .ok ∈ trace := by simpa using member
      rcases sound.leases.submitted other earlier with ⟨i, found⟩ | put
      · refine .inl ⟨i, update_cleared.mpr ⟨?_, found⟩⟩
        rintro rfl
        exact sound.leases.fresh i other builds found earlier
      · exact .inr (List.mem_append_left _ put)
    gone := fun other => by simpa using sound.leases.gone other
    acquired := fun other => by simpa using sound.leases.acquired other }
  pins := by
    have pins := (sound.pins.append [.emptied lease, .submitted lease .failed]
      (by simp [FrameEvent.movesPin])).vacate free
    exact { pins with }
  screen := (sound.screen.append [.emptied lease, .submitted lease .failed]
    (by simp [FrameEvent.movesImage])).vacate (.inl builds) (by simp) (fun _ stores => stores)
  marked := by simpa using sound.marked
  sealing := sound.sealing

/-- The slot whose lease went back becomes EMPTY. -/
theorem Sound.store (sound : Sound trace c) (stores : c.storing = some index)
    (occupied : c.occupant index = some lease) (free : c.pin index = none) :
    Sound (trace ++ [.emptied lease])
      { c with storing := none, occupant := Function.update c.occupant index none } where
  guarded := sound.guarded.snoc (sound.unpinned occupied free)
  leases := {
    distinct := fun i j other left right => sound.leases.distinct i j other
      (update_cleared.mp left).2 (update_cleared.mp right).2
    issued := sound.leases.issued
    occupied := by
      intro i other found
      obtain ⟨apart, before⟩ := update_cleared.mp found
      refine .inl ((sound.leases.occupied i other before).resolve_right fun other => ?_)
      exact apart (Option.some.inj (other.symm.trans stores))
    stored := by simp
    settled := fun i other found => by
      simpa using sound.leases.settled i other (update_cleared.mp found).2
    fresh := fun i other builds found => by
      simpa using sound.leases.fresh i other builds (update_cleared.mp found).2
    builds := by
      intro i builds
      rcases sound.leases.exclusive with idle | empty
      · exact absurd (idle.symm.trans builds) (by simp)
      · exact absurd (empty.symm.trans stores) (by simp)
    exclusive := .inr rfl
    submitted := by
      intro other member
      simp only [List.mem_append, List.mem_singleton, reduceCtorEq, or_false] at member ⊢
      rcases sound.leases.submitted other member with ⟨i, found⟩ | put
      · by_cases same : i = index
        · subst same
          obtain ⟨gone, found', put⟩ := sound.leases.stored i stores
          obtain rfl : gone = other := Option.some.inj (found'.symm.trans found)
          exact .inr put
        · exact .inl ⟨i, update_cleared.mpr ⟨same, found⟩⟩
      · exact .inr put
    gone := fun other => by simpa using sound.leases.gone other
    acquired := fun other => by simpa using sound.leases.acquired other }
  pins := by
    have pins := (sound.pins.append [.emptied lease]
      (by simp [FrameEvent.movesPin])).vacate free
    exact { pins with }
  screen := (sound.screen.append [.emptied lease]
    (by simp [FrameEvent.movesImage])).vacate (.inr stores) (fun _ builds => builds) (by simp)
  marked := by simpa using sound.marked
  sealing := sound.sealing

/-- The session takes a lease back. -/
theorem Sound.put (sound : Sound trace c) (occupied : c.occupant index = some lease)
    (idle : c.building = none) (stored : c.storing = none) (free : c.pin index = none)
    (hidden : c.shown index = false) (opened : c.quarantined = false) :
    Sound (trace ++ [.put lease true])
      { c with storing := some index, holds := fun other => c.holds other ∧ other ≠ lease } where
  guarded := sound.guarded.snoc ⟨sound.unmarked opened,
    sound.unreturned (sound.held occupied stored), sound.hidden fun i found => by
      obtain rfl := sound.leases.distinct i index lease found occupied
      exact hidden, sound.unpinned occupied free⟩
  leases := {
    distinct := sound.leases.distinct
    issued := fun other held => sound.leases.issued other held.1
    occupied := by
      intro i other found
      by_cases same : other = lease
      · subst same
        exact .inr (congrArg some (sound.leases.distinct index i other occupied found))
      · exact .inl ⟨(sound.leases.occupied i other found).resolve_right (by simp [stored]), same⟩
    stored := by
      rintro i ⟨⟩
      exact ⟨lease, occupied, by simp⟩
    settled := fun i other found => by simpa using sound.leases.settled i other found
    fresh := fun i other builds found => by simpa using sound.leases.fresh i other builds found
    builds := sound.leases.builds
    exclusive := .inl idle
    submitted := by
      intro other member
      have earlier : .submitted other .ok ∈ trace := by simpa using member
      exact (sound.leases.submitted other earlier).imp_right (List.mem_append_left _)
    gone := by
      intro other left
      simp only [List.mem_append, List.mem_singleton, FrameEvent.put.injEq, reduceCtorEq, or_false,
        and_true] at left
      rcases left with (put | rfl) | returned
      · obtain ⟨absent, bound⟩ := sound.leases.gone other (.inl put)
        exact ⟨fun held => absent held.1, bound⟩
      · refine ⟨fun held => held.2 rfl, (sound.leases.issued _ ?_).2⟩
        exact sound.held occupied stored
      · obtain ⟨absent, bound⟩ := sound.leases.gone other (.inr returned)
        exact ⟨fun held => absent held.1, bound⟩
    acquired := by
      intro other member
      have earlier : .acquired other ∈ trace := by simpa using member
      by_cases same : other = lease
      · subst same
        exact .inr (.inl (by simp))
      · rcases sound.leases.acquired other earlier with kept | put | returned
        · exact .inl ⟨kept, same⟩
        · exact .inr (.inl (List.mem_append_left _ put))
        · exact .inr (.inr (List.mem_append_left _ returned)) }
  pins := { sound.pins.append [.put lease true] (by simp [FrameEvent.movesPin]) with }
  screen := by
    have screen := sound.screen.append [.put lease true] (by simp [FrameEvent.movesImage])
    refine ⟨screen.agrees, screen.occupied, fun i shown => ⟨(screen.settled i shown).1, ?_⟩⟩
    rintro ⟨⟩
    rw [hidden] at shown
    cases shown
  marked := by simpa using sound.marked
  sealing := sound.sealing

theorem Sound.putFailed (sound : Sound trace c) (occupied : c.occupant index = some lease)
    (stored : c.storing = none) (free : c.pin index = none) (hidden : c.shown index = false)
    (opened : c.quarantined = false) : Sound (trace ++ [.put lease false]) c where
  guarded := sound.guarded.snoc ⟨sound.unmarked opened,
    sound.unreturned (sound.held occupied stored), sound.hidden fun i found => by
      obtain rfl := sound.leases.distinct i index lease found occupied
      exact hidden, sound.unpinned occupied free⟩
  leases := sound.leases.append _ (by simp [FrameEvent.movesLease])
  pins := sound.pins.append _ (by simp [FrameEvent.movesPin])
  screen := sound.screen.append _ (by simp [FrameEvent.movesImage])
  marked := by simpa using sound.marked
  sealing := sound.sealing

/-- An image of the lease was created. -/
theorem Sound.show {pts : Int} (sound : Sound trace c) (occupied : c.occupant index = some lease)
    (settled : c.building ≠ some index) (kept : c.storing ≠ some index) :
    Sound (trace ++ [.polled lease pts])
      { c with shown := Function.update c.shown index true } where
  guarded := sound.guarded.snoc trivial
  leases := { sound.leases.append [.polled lease pts] (by simp [FrameEvent.movesLease])
    with }
  pins := { sound.pins.append [.polled lease pts] (by simp [FrameEvent.movesPin]) with }
  screen := {
    agrees := by
      intro other
      rw [onScreen_append]
      simp only [List.foldl_cons, List.foldl_nil, observeScreen]
      split
      · rename_i same
        subst same
        exact ⟨fun _ => ⟨index, by simp, occupied⟩, fun _ => rfl⟩
      · rename_i different
        rw [sound.screen.agrees]
        refine exists_congr fun i => and_congr_left fun found => ?_
        rw [Function.update_of_ne]
        rintro rfl
        exact different (Option.some.inj (occupied.symm.trans found))
    occupied := by
      intro i shown
      by_cases same : i = index
      · subst same
        exact ⟨lease, occupied⟩
      · exact sound.screen.occupied i (by simpa [same] using shown)
    settled := by
      intro i shown
      by_cases same : i = index
      · subst same
        exact ⟨settled, kept⟩
      · exact sound.screen.settled i (by simpa [same] using shown) }
  marked := by simpa using sound.marked
  sealing := sound.sealing

/-- The last reader of an image is gone. -/
theorem Sound.hide (sound : Sound trace c) (occupied : c.occupant index = some lease) :
    Sound (trace ++ [.imageReleased lease])
      { c with shown := Function.update c.shown index false } where
  guarded := sound.guarded.snoc trivial
  leases := { sound.leases.append [.imageReleased lease]
    (by simp [FrameEvent.movesLease]) with }
  pins := { sound.pins.append [.imageReleased lease] (by simp [FrameEvent.movesPin])
    with }
  screen := {
    agrees := by
      intro other
      rw [onScreen_append]
      simp only [List.foldl_cons, List.foldl_nil, observeScreen]
      split
      · rename_i same
        subst same
        simp only [Bool.false_eq_true, false_iff, not_exists, not_and]
        intro i shown found
        obtain rfl := sound.leases.distinct i index lease found occupied
        simp at shown
      · rename_i different
        rw [sound.screen.agrees]
        refine exists_congr fun i => and_congr_left fun found => ?_
        rw [Function.update_of_ne]
        rintro rfl
        exact different (Option.some.inj (occupied.symm.trans found))
    occupied := by
      intro i shown
      by_cases same : i = index
      · subst same
        simp at shown
      · exact sound.screen.occupied i (by simpa [same] using shown)
    settled := by
      intro i shown
      by_cases same : i = index
      · subst same
        simp at shown
      · exact sound.screen.settled i (by simpa [same] using shown) }
  marked := by simpa using sound.marked
  sealing := sound.sealing

theorem Sound.quarantine (sound : Sound trace c) (sealed : c.sealed = true) :
    Sound (trace ++ [.quarantined]) { c with quarantined := true } where
  guarded := sound.guarded.snoc trivial
  leases := { sound.leases.append [.quarantined] (by simp [FrameEvent.movesLease]) with }
  pins := { sound.pins.append [.quarantined] (by simp [FrameEvent.movesPin]) with }
  screen := { sound.screen.append [.quarantined] (by simp [FrameEvent.movesImage]) with }
  marked := by simp
  sealing := fun _ => sealed

theorem Sound.move (sound : Sound trace c) (move : Move c events next) :
    Sound (trace ++ events) next := by
  cases move with
  | quiet _ neutral permitted => exact sound.quiet neutral permitted
  | acquire => exact sound.acquire
  | handBack lease held free => exact sound.handBack held free
  | claim index lease held free empty unpinned hidden idle stored =>
      rw [List.append_nil]
      exact sound.claim held free empty unpinned hidden idle stored
  | pin index lease builds occupied unpinned => exact sound.pin occupied unpinned
  | unpin index lease pin result occupied pinned opened => exact sound.unpin occupied pinned opened
  | publish index lease builds occupied => exact sound.publish builds occupied
  | reject index lease builds occupied unpinned => exact sound.reject builds occupied unpinned
  | quarantine sealed => exact sound.quarantine sealed
  | «show» index lease pts occupied settled kept => exact sound.show occupied settled kept
  | hide index lease occupied shown => exact sound.hide occupied
  | put index lease occupied idle stored unpinned hidden opened =>
      exact sound.put occupied idle stored unpinned hidden opened
  | putFailed index lease occupied stored unpinned hidden opened =>
      exact sound.putFailed occupied stored unpinned hidden opened
  | store index lease stores occupied unpinned => exact sound.store stores occupied unpinned

theorem Sound.moves (sound : Sound trace c) (moves : Moves c events next) :
    Sound (trace ++ events) next := by
  induction moves generalizing trace with
  | none => simpa using sound
  | more move _ ih => simpa only [List.append_assoc] using ih (sound.move move)

end

end Custody

end LvglAic.Player
