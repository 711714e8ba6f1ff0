import LvglAic.Camera.Capture

/-! # Who has the buffers of the camera -/

namespace LvglAic.Camera

/-- The buffer that the worker dequeued and did not publish or give back. -/
def WorkerPc.inHand : WorkerPc → Option Nat
  | .viewing i | .refusing i | .scanning i | .decoding i _ | .decoded i _ _ | .publishing i => some i
  | _ => none

/-- The buffer that the worker is about to give back. -/
def WorkerPc.giving : WorkerPc → Option Nat
  | .give i _ => some i
  | _ => none

/-- The buffer that VIN took back while its slot is not empty yet. -/
def WorkerPc.givenBack : WorkerPc → Option Nat
  | .given i _ => some i
  | _ => none

/-- The slot of a poll that goes on. -/
def UiPc.slot : UiPc → Option Nat
  | .idle => none
  | .creating i | .refused i => some i

/-! ## The VIN session -/

/-- While it streams, VIN has the buffers that the session does not hold. -/
structure VinSafe (v : VinSession) (slots : Nat) : Prop where
  few : v.numBuffers ≤ 3
  fits : v.numBuffers ≤ slots
  held : ∀ i, v.held i = true → i < v.numBuffers ∧ v.streaming = true
  split : v.streaming = true → ∀ i < v.numBuffers, v.queued i = !v.held i

namespace VinSafe

variable {v : VinSession} {slots i : Nat} {ok : Bool}

theorem zero {delivered : Nat} : VinSafe (.zero delivered) slots :=
  ⟨Nat.zero_le _, Nat.zero_le _, nofun, nofun⟩

theorem released (safe : VinSafe v slots) (free : v.holding = false) : v.held i = false := by
  by_contra held
  have held : v.held i = true := by simpa using held
  have below := (safe.held i held).1
  have few := safe.few
  have any : v.holding = true := by
    refine List.any_eq_true.mpr ⟨i, List.mem_range.mpr ?_, held⟩
    omega
  rw [any] at free
  cases free

theorem unheld (safe : VinSafe v slots) (off : v.streaming = false) : v.held i = false := by
  by_contra held
  have streaming := (safe.held i (by simpa using held)).2
  rw [off] at streaming
  cases streaming

theorem vinStop (safe : VinSafe v slots) : VinSafe (vinStop v ok).2 slots := by
  unfold Camera.vinStop
  split
  · exact safe
  rename_i free
  split
  · exact safe
  split
  · exact ⟨safe.few, safe.fits, safe.held, safe.split⟩
  · refine ⟨safe.few, safe.fits, fun i held => ?_, nofun⟩
    have free : v.holding = false := by simpa using free
    have unheld : v.held i = false := safe.released free
    exact absurd (unheld.symm.trans held) (by simp)

theorem vinStop_held : (Camera.vinStop v ok).2.held = v.held := by
  unfold Camera.vinStop
  split
  · rfl
  split
  · rfl
  split <;> rfl

/-- A session that stops holds no buffer. -/
theorem vinStop_free (stopped : (Camera.vinStop v ok).1 = true) : v.holding = false := by
  unfold Camera.vinStop at stopped
  split at stopped
  · cases stopped
  · rename_i free
    simpa using free

theorem vinClose (safe : VinSafe v slots) : VinSafe (vinClose v ok).2 slots := by
  unfold Camera.vinClose
  dsimp only
  split
  · exact safe.vinStop
  · exact .zero

theorem vinClose_held (safe : VinSafe v slots) : (Camera.vinClose v ok).2.held = v.held := by
  unfold Camera.vinClose
  dsimp only
  split
  · exact vinStop_held
  · rename_i stopped
    funext i
    exact (safe.released (vinStop_free (by simpa using stopped))).symm

theorem vinClose_closed (closed : (Camera.vinClose v ok).1 = true) :
    (Camera.vinClose v ok).2 = .zero v.delivered := by
  unfold Camera.vinClose at closed ⊢
  dsimp only at closed ⊢
  split
  · rename_i refused
    rw [if_pos refused] at closed
    cases closed
  · rfl

theorem vinOpen {buffers : Nat} (safe : VinSafe v slots) :
    VinSafe (vinOpen v slots ok buffers).2 slots := by
  unfold Camera.vinOpen
  split
  · exact safe
  rename_i many
  split
  · exact .zero
  · rename_i bounds
    simp only [Bool.or_eq_true, decide_eq_true_eq, not_or, Nat.not_lt] at many bounds
    exact ⟨bounds.2, Nat.le_trans bounds.2 many.2, nofun, nofun⟩

theorem vinOpen_held {buffers : Nat} (safe : VinSafe v slots) (off : v.streaming = false) :
    (Camera.vinOpen v slots ok buffers).2.held = v.held := by
  have free : v.held = fun _ => false := by
    funext i
    exact safe.unheld off
  unfold Camera.vinOpen
  split
  · rfl
  split
  · exact free.symm
  · exact free.symm

theorem vinStart {taken : Nat} (safe : VinSafe v slots) : VinSafe (vinStart v taken ok).2 slots := by
  unfold Camera.vinStart
  split
  · exact safe
  rename_i fresh
  simp only [Bool.or_eq_true, Bool.not_eq_true', not_or, Bool.not_eq_true] at fresh
  have none : ∀ i, v.held i = false := fun i => safe.released fresh.1.1.2
  dsimp only
  split
  · exact ⟨safe.few, safe.fits, safe.held, fun streaming =>
      absurd (fresh.2.symm.trans streaming) (by simp)⟩
  rename_i all
  have split : ∀ i < v.numBuffers,
      (v.queued i || (decide (i < taken) && decide (i < v.numBuffers))) = !v.held i := by
    intro i below
    have taken : i < taken := by omega
    simp [none, below, taken]
  split
  · exact ⟨safe.few, safe.fits, fun i held => ⟨(safe.held i held).1, rfl⟩, fun _ => split⟩
  · exact ⟨safe.few, safe.fits, fun i held => ⟨(safe.held i held).1, rfl⟩, fun _ => split⟩

theorem vinStart_held {taken : Nat} : (Camera.vinStart v taken ok).2.held = v.held := by
  unfold Camera.vinStart
  split
  · rfl
  dsimp only
  split
  · rfl
  split <;> rfl

theorem vinPause (safe : VinSafe v slots) : VinSafe (vinPause v ok).2 slots := by
  unfold Camera.vinPause
  split
  · exact safe
  split <;> exact ⟨safe.few, safe.fits, safe.held, safe.split⟩

theorem vinPause_held : (Camera.vinPause v ok).2.held = v.held := by
  unfold Camera.vinPause
  split
  · rfl
  split <;> rfl

theorem vinResume (safe : VinSafe v slots) : VinSafe (vinResume v ok).2 slots := by
  unfold Camera.vinResume
  split
  · exact safe
  split <;> exact ⟨safe.few, safe.fits, safe.held, safe.split⟩

theorem vinResume_held : (Camera.vinResume v ok).2.held = v.held := by
  unfold Camera.vinResume
  split
  · rfl
  split <;> rfl

/-- A buffer that is dequeued was with VIN and is held. -/
theorem vinAcquire_cases (next : Option Nat) :
    ((vinAcquire v next).1 = none ∧ ((vinAcquire v next).2 = v ∨
        (vinAcquire v next).2 = { v with faulted := true })) ∨
      ∃ i, (vinAcquire v next).1 = some i ∧ v.streaming = true ∧ i < v.numBuffers ∧
        v.held i = false ∧ (vinAcquire v next).2 = { v with
          held := Function.update v.held i true
          queued := Function.update v.queued i false
          delivered := v.delivered + 1 } := by
  unfold vinAcquire
  split
  · exact .inl ⟨rfl, .inl rfl⟩
  rename_i runs
  simp only [Bool.or_eq_true, Bool.not_eq_true', not_or, Bool.not_eq_false] at runs
  cases next with
  | none => exact .inl ⟨rfl, .inl rfl⟩
  | some i =>
      dsimp only
      split
      · exact .inl ⟨rfl, .inr rfl⟩
      · rename_i fits
        simp only [Bool.or_eq_true, decide_eq_true_eq, not_or, Nat.not_le, Bool.not_eq_true] at fits
        exact .inr ⟨i, rfl, runs.1.1, fits.1, fits.2, rfl⟩

theorem vinAcquire (safe : VinSafe v slots) {next : Option Nat} :
    VinSafe (vinAcquire v next).2 slots := by
  rcases vinAcquire_cases (v := v) next with ⟨_, same | same⟩ | ⟨i, _, runs, below, _, taken⟩
  · rw [same]
    exact safe
  · rw [same]
    exact ⟨safe.few, safe.fits, safe.held, safe.split⟩
  · rw [taken]
    refine ⟨safe.few, safe.fits, fun j held => ?_, fun streaming j inside => ?_⟩
    · by_cases same : j = i
      · subst same
        exact ⟨below, runs⟩
      · refine safe.held j ?_
        simpa only [Function.update_of_ne same] using held
    · by_cases same : j = i
      · subst same
        simp
      · simpa only [Function.update_of_ne same] using safe.split streaming j inside

/-- A held buffer is given back unless the command fails. -/
theorem vinRelease_cases (safe : VinSafe v slots) (held : v.held i = true) (ok : Bool) :
    Camera.vinRelease v i ok = (ok, if ok then { v with
        held := Function.update v.held i false
        queued := Function.update v.queued i true } else { v with faulted := true }) := by
  have below := (safe.held i held).1
  unfold Camera.vinRelease
  rw [if_neg (by simp [held, below])]
  cases ok <;> rfl

theorem vinRelease (safe : VinSafe v slots) (held : v.held i = true) :
    VinSafe (vinRelease v i ok).2 slots := by
  rw [safe.vinRelease_cases held ok]
  cases ok with
  | false => exact ⟨safe.few, safe.fits, safe.held, safe.split⟩
  | true =>
      refine ⟨safe.few, safe.fits, fun j kept => ?_, fun streaming j inside => ?_⟩
      · by_cases same : j = i
        · subst same
          simp at kept
        · refine safe.held j ?_
          simpa [Function.update_of_ne same] using kept
      · by_cases same : j = i
        · subst same
          simp
        · simpa [Function.update_of_ne same] using safe.split streaming j inside

end VinSafe

/-! ## The slots -/

/-- A published slot has an image, a slot that a poll works on is PUBLISHING, and one slot
at most is READY. -/
structure SlotsSafe (slot : Nat → Slot) (ui : UiPc) : Prop where
  images : ∀ i, (slot i).image.isSome = true ↔ (slot i).state = .published
  polling : ∀ i, (slot i).state = .publishing ↔ ui.slot = some i
  oneReady : ∀ i j, (slot i).state = .ready → (slot j).state = .ready → i = j

/-- The slots against the buffers that the session holds and the place of the worker. -/
structure Joined (slot : Nat → Slot) (held : Nat → Bool) (worker : WorkerPc) : Prop where
  slotHeld : ∀ i, (slot i).state ≠ .empty → held i = true ∨ worker.givenBack = some i
  heldSlot : ∀ i, held i = true → (slot i).state ≠ .empty ∨ worker.inHand = some i
  inHand : ∀ i, worker.inHand = some i → held i = true ∧ (slot i).state = .empty
  giving : ∀ i, worker.giving = some i → held i = true ∧ (slot i).state = .toReturn
  given : ∀ i, worker.givenBack = some i → held i = false ∧ (slot i).state = .toReturn

/-- Slots change hands outside the worker: none becomes empty or full, and one that goes
back stays so. -/
structure Moves (slot after : Nat → Slot) : Prop where
  empty : ∀ i, (after i).state = .empty ↔ (slot i).state = .empty
  back : ∀ i, (slot i).state = .toReturn → (after i).state = .toReturn

namespace Joined

variable {slot after : Nat → Slot} {held : Nat → Bool} {worker next : WorkerPc}

theorem moves (joined : Joined slot held worker) (moves : Moves slot after) :
    Joined after held worker := by
  refine ⟨fun i full => joined.slotHeld i ?_, fun i kept => ?_, fun i hand => ?_, fun i give => ?_,
    fun i given => ?_⟩
  · exact fun empty => full ((moves.empty i).mpr empty)
  · rcases joined.heldSlot i kept with full | hand
    · exact .inl fun empty => full ((moves.empty i).mp empty)
    · exact .inr hand
  · obtain ⟨kept, empty⟩ := joined.inHand i hand
    exact ⟨kept, (moves.empty i).mpr empty⟩
  · obtain ⟨kept, back⟩ := joined.giving i give
    exact ⟨kept, moves.back i back⟩
  · obtain ⟨free, back⟩ := joined.given i given
    exact ⟨free, moves.back i back⟩

/-- The worker goes on with the same buffer, or with none. -/
theorem goTo (joined : Joined slot held worker) (hand : next.inHand = worker.inHand)
    (given : next.givenBack = worker.givenBack) (giving : next.giving = none) :
    Joined slot held next := by
  refine ⟨?_, ?_, ?_, fun i give => ?_, ?_⟩
  · rw [given]
    exact joined.slotHeld
  · rw [hand]
    exact joined.heldSlot
  · rw [hand]
    exact joined.inHand
  · rw [giving] at give
    cases give
  · rw [given]
    exact joined.given

end Joined

/-- The buffers of the camera are all accounted for. -/
structure Custody (c : Capture) : Prop where
  vin : VinSafe c.vin c.slots
  slots : SlotsSafe c.slot c.ui
  joined : Joined c.slot c.vin.held c.worker
  opening : c.worker = .opening → c.vin.streaming = false
  ended : c.worker = .closed ∨ c.worker = .stopped →
    c.vin.opened = false ∧ c.vin.streaming = false
  finished : c.finished = true → c.worker = .stopped

namespace Capture

variable {c t : Capture} {i j : Nat} {st : SlotState}

/-! ## What the parts of a step do to the slots -/

theorem setSlot_state : ((c.setSlot i st).slot j).state = if j = i then st else (c.slot j).state := by
  change (Function.update c.slot i _ j).state = _
  rw [Function.update_apply]
  split <;> rfl

theorem setSlot_image : ((c.setSlot i st).slot j).image = (c.slot j).image := by
  change (Function.update c.slot i _ j).image = _
  rw [Function.update_apply]
  split
  · rename_i same
    rw [same]
  · rfl

theorem returnReady_state : ((c.returnReady).slot j).state =
    if j < c.slots ∧ (c.slot j).state = .ready then .toReturn else (c.slot j).state := by
  simp only [returnReady, Bool.and_eq_true, decide_eq_true_eq]
  split <;> rfl

theorem returnReady_image : ((c.returnReady).slot j).image = (c.slot j).image := by
  simp only [returnReady]
  split <;> rfl

theorem returnReady_moves : Moves c.slot c.returnReady.slot := by
  refine ⟨fun i => ?_, fun i back => ?_⟩
  · rw [returnReady_state]
    split
    · rename_i ready
      simp [ready.2]
    · exact Iff.rfl
  · rw [returnReady_state]
    split
    · rfl
    · exact back

theorem returnReady_safe (safe : SlotsSafe c.slot c.ui) : SlotsSafe c.returnReady.slot c.ui := by
  refine ⟨fun i => ?_, fun i => ?_, fun i j first second => ?_⟩
  · rw [returnReady_image, returnReady_state, safe.images]
    split
    · rename_i ready
      simp [ready.2]
    · exact Iff.rfl
  · rw [returnReady_state, ← safe.polling]
    split
    · rename_i ready
      simp [ready.2]
    · exact Iff.rfl
  · rw [returnReady_state] at first second
    split at first
    · cases first
    split at second
    · cases second
    exact safe.oneReady i j first second

/-- A slot that neither a reader nor a poll has goes where neither gets it. -/
theorem setSlot_safe (safe : SlotsSafe c.slot c.ui) (free : (c.slot i).state ≠ .published)
    (quiet : (c.slot i).state ≠ .publishing)
    (next : st = .empty ∨ st = .toReturn ∨ st = .ready ∧ ∀ j, (c.slot j).state ≠ .ready) :
    SlotsSafe (c.setSlot i st).slot c.ui := by
  have unpublished : st ≠ .published ∧ st ≠ .publishing := by
    rcases next with rfl | rfl | ⟨rfl, _⟩ <;> exact ⟨nofun, nofun⟩
  refine ⟨fun j => ?_, fun j => ?_, fun j k first second => ?_⟩
  · rw [setSlot_image, setSlot_state, safe.images]
    split
    · rename_i same
      rw [same]
      exact iff_of_false free unpublished.1
    · exact Iff.rfl
  · rw [setSlot_state, ← safe.polling]
    split
    · rename_i same
      rw [same]
      exact iff_of_false unpublished.2 quiet
    · exact Iff.rfl
  · rw [setSlot_state] at first second
    split at first
    · rename_i own
      split at second
      · rename_i also
        exact own.trans also.symm
      · rcases next with rfl | rfl | ⟨_, none⟩
        · cases first
        · cases first
        · exact absurd second (none k)
    · split at second
      · rcases next with rfl | rfl | ⟨_, none⟩
        · cases second
        · cases second
        · exact absurd first (none j)
      · exact safe.oneReady j k first second

end Capture

namespace Joined

variable {slot after : Nat → Slot} {held : Nat → Bool} {worker next : WorkerPc} {i : Nat}

/-- The worker lets go of the buffer in its hand. -/
theorem place (joined : Joined slot held worker) (hand : worker.inHand = some i)
    (own : (after i).state ≠ .empty) (others : ∀ j, j ≠ i → after j = slot j)
    (none : worker.givenBack = none) (free : next.inHand = Option.none)
    (given : next.givenBack = Option.none) (giving : next.giving = Option.none) :
    Joined after held next := by
  refine ⟨fun j full => ?_, fun j kept => ?_, ?_, ?_, ?_⟩
  · by_cases same : j = i
    · rw [same]
      exact .inl (joined.inHand i hand).1
    · rw [others j same] at full
      rcases joined.slotHeld j full with kept | back
      · exact .inl kept
      · rw [none] at back
        cases back
  · by_cases same : j = i
    · rw [same]
      exact .inl own
    · rw [others j same]
      rcases joined.heldSlot j kept with full | other
      · exact .inl full
      · rw [hand] at other
        exact absurd (Option.some.inj other).symm same
  · rw [free]
    nofun
  · rw [giving]
    nofun
  · rw [given]
    nofun

/-- A dequeued buffer has an empty slot. -/
theorem take (joined : Joined slot held worker) (free : held i = false)
    (idle : worker.inHand = none) (none : worker.givenBack = none) :
    Joined slot (Function.update held i true) (.viewing i) := by
  have empty : (slot i).state = .empty := by
    by_contra full
    rcases joined.slotHeld i full with kept | back
    · rw [free] at kept
      cases kept
    · rw [none] at back
      cases back
  refine ⟨fun j full => ?_, fun j kept => ?_, ?_, nofun, nofun⟩
  · by_cases same : j = i
    · subst same
      exact absurd empty full
    · rcases joined.slotHeld j full with kept | back
      · exact .inl (by rw [Function.update_of_ne same]; exact kept)
      · rw [none] at back
        cases back
  · by_cases same : j = i
    · subst same
      exact .inr rfl
    · rw [Function.update_of_ne same] at kept
      rcases joined.heldSlot j kept with full | hand
      · exact .inl full
      · rw [idle] at hand
        cases hand
  · rintro j hand
    cases hand
    exact ⟨Function.update_self .., empty⟩

/-- VIN takes a buffer back. -/
theorem give {r : Round} (joined : Joined slot held (.give i r)) :
    Joined slot (Function.update held i false) (.given i r) := by
  obtain ⟨_, back⟩ := joined.giving i rfl
  refine ⟨fun j full => ?_, fun j kept => ?_, nofun, nofun, ?_⟩
  · by_cases same : j = i
    · subst same
      exact .inr rfl
    · rcases joined.slotHeld j full with kept | given
      · exact .inl (by rw [Function.update_of_ne same]; exact kept)
      · cases given
  · by_cases same : j = i
    · subst same
      rw [Function.update_self] at kept
      cases kept
    · rw [Function.update_of_ne same] at kept
      rcases joined.heldSlot j kept with full | hand
      · exact .inl full
      · cases hand
  · rintro j given
    cases given
    exact ⟨Function.update_self .., back⟩

/-- The slot of a buffer that went back becomes empty. -/
theorem clear {r : Round} (joined : Joined slot held (.given i r))
    (own : (after i).state = .empty) (others : ∀ j, j ≠ i → after j = slot j)
    (free : next.inHand = none) (given : next.givenBack = none) (giving : next.giving = none) :
    Joined after held next := by
  obtain ⟨unheld, _⟩ := joined.given i rfl
  refine ⟨fun j full => ?_, fun j kept => ?_, ?_, ?_, ?_⟩
  · by_cases same : j = i
    · subst same
      exact absurd own full
    · rw [others j same] at full
      rcases joined.slotHeld j full with kept | back
      · exact .inl kept
      · exact absurd (Option.some.inj back).symm same
  · by_cases same : j = i
    · subst same
      rw [unheld] at kept
      cases kept
    · rw [others j same]
      rcases joined.heldSlot j kept with full | hand
      · exact .inl full
      · cases hand
  · rw [free]
    nofun
  · rw [giving]
    nofun
  · rw [given]
    nofun

end Joined

/-! ## The steps -/

/-- What the custody of buffers reads. -/
def Capture.core (c : Capture) : Nat × VinSession × (Nat → Slot) × WorkerPc × UiPc × Bool :=
  (c.slots, c.vin, c.slot, c.worker, c.ui, c.finished)

namespace Custody

variable {c t : Capture} {i : Nat} {a : Answer} {r : Round}

theorem congr (custody : Custody c) (same : t.core = c.core) : Custody t := by
  simp only [Capture.core, Prod.mk.injEq] at same
  obtain ⟨slots, vin, slot, worker, ui, finished⟩ := same
  obtain ⟨safe, sound, joined, opening, ended, done⟩ := custody
  refine ⟨?_, ?_, ?_, ?_, ?_, ?_⟩
  · rw [vin, slots]
    exact safe
  · rw [slot, ui]
    exact sound
  · rw [slot, vin, worker]
    exact joined
  · rw [worker, vin]
    exact opening
  · rw [worker, vin]
    exact ended
  · rw [finished, worker]
    exact done

/-- The worker goes on, and the slots stay. -/
theorem onward (custody : Custody c) (running : c.finished = false) (slots : t.slots = c.slots)
    (slot : t.slot = c.slot) (ui : t.ui = c.ui) (finished : t.finished = c.finished)
    (vin : VinSafe t.vin c.slots) (joined : Joined c.slot t.vin.held t.worker)
    (opening : t.worker ≠ .opening)
    (ended : t.worker = .closed ∨ t.worker = .stopped →
      t.vin.opened = false ∧ t.vin.streaming = false) : Custody t := by
  refine ⟨?_, ?_, ?_, fun opens => absurd opens opening, ended, fun done => ?_⟩
  · rw [slots]
    exact vin
  · rw [slot, ui]
    exact custody.slots
  · rw [slot]
    exact joined
  · rw [finished, running] at done
    cases done

/-- The worker goes on with the VIN session as it was. -/
theorem goTo (custody : Custody c) (running : c.finished = false) {next : WorkerPc}
    (hand : next.inHand = c.worker.inHand) (given : next.givenBack = c.worker.givenBack)
    (giving : next.giving = none) (opening : next ≠ .opening)
    (ended : ¬(next = .closed ∨ next = .stopped)) : Custody (c.goTo next) :=
  custody.onward running rfl rfl rfl rfl custody.vin (custody.joined.goTo hand given giving)
    opening fun last => absurd last ended

/-- The slots change hands outside the worker. -/
theorem outside (custody : Custody c) (slots : t.slots = c.slots) (vin : t.vin = c.vin)
    (worker : t.worker = c.worker) (finished : t.finished = c.finished)
    (moves : Moves c.slot t.slot) (safe : SlotsSafe t.slot t.ui) : Custody t := by
  refine ⟨?_, safe, ?_, ?_, ?_, ?_⟩
  · rw [vin, slots]
    exact custody.vin
  · rw [vin, worker]
    exact custody.joined.moves moves
  · rw [worker, vin]
    exact custody.opening
  · rw [worker, vin]
    exact custody.ended
  · rw [finished, worker]
    exact custody.finished

theorem returnReady (custody : Custody c) : Custody c.returnReady :=
  custody.outside rfl rfl rfl rfl Capture.returnReady_moves (Capture.returnReady_safe custody.slots)

/-- A slot that is READY has a number that the loops reach. -/
theorem ready_below (custody : Custody c) (ready : (c.slot i).state = .ready) : i < c.slots := by
  have full : (c.slot i).state ≠ .empty := by
    rw [ready]
    nofun
  rcases custody.joined.slotHeld i full with held | given
  · exact Nat.lt_of_lt_of_le (custody.vin.held i held).1 custody.vin.fits
  · rw [(custody.joined.given i given).2] at ready
    cases ready

theorem returnReady_none (custody : Custody c) (i : Nat) :
    (c.returnReady.slot i).state ≠ .ready := by
  rw [Capture.returnReady_state]
  split
  · nofun
  · rename_i other
    exact fun ready => other ⟨custody.ready_below ready, ready⟩

/-! ### The worker -/

theorem running (custody : Custody c) (going : c.worker ≠ .stopped) : c.finished = false := by
  by_contra done
  exact going (custody.finished (by simpa using done))

theorem cancelPending_core : c.cancelPending.core = c.core := by
  unfold Capture.cancelPending
  split <;> rfl

theorem fault (custody : Custody c) : Custody c.fault :=
  custody.congr cancelPending_core

theorem fault_worker : c.fault.worker = c.worker := by
  unfold Capture.fault Capture.cancelPending
  split <;> rfl

theorem workTop (custody : Custody c) (pc : c.worker = .top) : Custody c.workTop := by
  have shown : Custody (if c.closing then c.returnReady else c) := by
    split
    · exact custody.returnReady
    · exact custody
  have worker : (if c.closing then c.returnReady else c).worker = .top := by
    split <;> exact pc
  refine shown.goTo (shown.running (by rw [worker]; nofun)) ?_ ?_ rfl nofun (by simp)
  · rw [worker]
    rfl
  · rw [worker]
    rfl

theorem workReturning (custody : Custody c) (pc : c.worker = .returning i r) :
    Custody (c.workReturning i r) := by
  have going : c.finished = false := custody.running (by rw [pc]; nofun)
  unfold Capture.workReturning
  split
  · split
    · rename_i back
      have held : c.vin.held i = true := by
        rcases custody.joined.slotHeld i (by rw [back]; nofun) with held | given
        · exact held
        · rw [pc] at given
          cases given
      refine custody.onward going rfl rfl rfl rfl custody.vin ?_ nofun (by simp [Capture.goTo])
      refine ⟨fun j full => ?_, fun j kept => ?_, nofun, ?_, nofun⟩
      · rcases custody.joined.slotHeld j full with held | given
        · exact .inl held
        · rw [pc] at given
          cases given
      · rcases custody.joined.heldSlot j kept with full | hand
        · exact .inl full
        · rw [pc] at hand
          cases hand
      · rintro j giving
        cases giving
        exact ⟨held, back⟩
    · exact custody.goTo going (by rw [pc]; rfl) (by rw [pc]; rfl) rfl nofun (by simp)
  split
  · exact custody.goTo going (by rw [pc]; rfl) (by rw [pc]; rfl) rfl nofun (by simp)
  · exact custody.goTo going (by rw [pc]; rfl) (by rw [pc]; rfl) rfl nofun (by simp)

theorem workGive (custody : Custody c) (pc : c.worker = .give i r) :
    Custody (c.workGive i r a) := by
  have going : c.finished = false := custody.running (by rw [pc]; nofun)
  have joined := custody.joined
  rw [pc] at joined
  obtain ⟨held, _⟩ := joined.giving i rfl
  unfold Capture.workGive
  generalize a.ok = ok
  have safe : VinSafe (vinRelease c.vin i ok).2 c.slots := custody.vin.vinRelease held
  have answer := custody.vin.vinRelease_cases held ok
  rw [answer] at safe ⊢
  cases ok with
  | false =>
      exact custody.onward going rfl rfl rfl rfl safe (joined.goTo rfl rfl rfl) nofun
        (by simp [Capture.goTo])
  | true =>
      exact custody.onward going rfl rfl rfl rfl safe joined.give nofun (by simp [Capture.goTo])

theorem workGiven (custody : Custody c) (pc : c.worker = .given i r) :
    Custody ((c.setSlot i .empty).goTo (.returning (i + 1) r)) := by
  have going : c.finished = false := custody.running (by rw [pc]; nofun)
  have joined := custody.joined
  rw [pc] at joined
  obtain ⟨_, back⟩ := joined.given i rfl
  have safe : SlotsSafe (c.setSlot i .empty).slot c.ui :=
    Capture.setSlot_safe custody.slots (by rw [back]; nofun) (by rw [back]; nofun) (.inl rfl)
  have cleared : ((c.setSlot i .empty).slot i).state = .empty := by
    rw [Capture.setSlot_state, if_pos rfl]
  refine ⟨custody.vin, safe, ?_, nofun, by simp [Capture.goTo], fun done => ?_⟩
  · exact joined.clear cleared (fun j other => Function.update_of_ne other ..) rfl rfl rfl
  · have done : c.finished = true := done
    rw [going] at done
    cases done

theorem workClose (custody : Custody c) (pc : c.worker = .close) : Custody (c.workClose a) := by
  have going : c.finished = false := custody.running (by rw [pc]; nofun)
  have held : (vinClose c.vin a.ok).2.held = c.vin.held := custody.vin.vinClose_held
  have joined := custody.joined
  rw [pc] at joined
  refine custody.onward going rfl rfl rfl rfl custody.vin.vinClose ?_ ?_ ?_
  · change Joined c.slot (vinClose c.vin a.ok).2.held (if (vinClose c.vin a.ok).1 then _ else _)
    rw [held]
    split
    · exact joined.goTo rfl rfl rfl
    · exact joined.goTo rfl rfl rfl
  · change (if (vinClose c.vin a.ok).1 then WorkerPc.closed else .top) ≠ .opening
    split <;> nofun
  · intro last
    by_cases closed : (vinClose c.vin a.ok).1 = true
    · have zero := VinSafe.vinClose_closed closed
      change (vinClose c.vin a.ok).2.opened = false ∧ (vinClose c.vin a.ok).2.streaming = false
      rw [zero]
      exact ⟨rfl, rfl⟩
    · change (if (vinClose c.vin a.ok).1 then WorkerPc.closed else .top) = _ ∨
        (if (vinClose c.vin a.ok).1 then WorkerPc.closed else .top) = _ at last
      rw [if_neg closed] at last
      rcases last with last | last <;> cases last

theorem workClosed (custody : Custody c) (pc : c.worker = .closed) : Custody c.workClosed := by
  have joined := custody.joined
  rw [pc] at joined
  exact ⟨custody.vin, custody.slots, joined.goTo rfl rfl rfl, nofun,
    fun _ => custody.ended (.inl pc), fun _ => rfl⟩

theorem workStarting (custody : Custody c) (pc : c.worker = .starting r) :
    Custody (c.workStarting r a) := by
  have going : c.finished = false := custody.running (by rw [pc]; nofun)
  have joined := custody.joined
  rw [pc] at joined
  unfold Capture.workStarting
  split
  · exact custody.goTo going (by rw [pc]; rfl) (by rw [pc]; rfl) rfl nofun (by simp)
  split
  · exact custody.onward going rfl rfl rfl rfl custody.vin (joined.goTo rfl rfl rfl) nofun
      (by simp [Capture.goTo])
  · dsimp only
    refine custody.onward going rfl rfl rfl rfl custody.vin.vinStart ?_ ?_ ?_
    · change Joined c.slot (vinStart c.vin a.value a.ok).2.held _
      rw [VinSafe.vinStart_held]
      change Joined c.slot c.vin.held (if (vinStart c.vin a.value a.ok).1 then _ else _)
      split
      · exact joined.goTo rfl rfl rfl
      · exact joined.goTo rfl rfl rfl
    · change (if (vinStart c.vin a.value a.ok).1 then WorkerPc.pausing r else .fault) ≠ _
      split <;> nofun
    · intro last
      change (if (vinStart c.vin a.value a.ok).1 then WorkerPc.pausing r else .fault) = _ ∨
        (if (vinStart c.vin a.value a.ok).1 then WorkerPc.pausing r else .fault) = _ at last
      split at last <;> rcases last with last | last <;> cases last

/-- A call of the session that leaves the held buffers, with two places to go on. -/
theorem branch (custody : Custody c) (going : c.finished = false) {vin : VinSession} {ok : Bool}
    {first second : WorkerPc} (safe : VinSafe vin c.slots) (held : vin.held = c.vin.held)
    (hand : c.worker.inHand = none) (given : c.worker.givenBack = none)
    (firstPlain : first.inHand = none ∧ first.givenBack = none ∧ first.giving = none ∧
      first ≠ .opening ∧ first ≠ .closed ∧ first ≠ .stopped)
    (secondPlain : second.inHand = none ∧ second.givenBack = none ∧ second.giving = none ∧
      second ≠ .opening ∧ second ≠ .closed ∧ second ≠ .stopped) :
    Custody ((c.withVin vin).goTo (if ok then first else second)) := by
  have plain : ∀ next : WorkerPc, (next.inHand = none ∧ next.givenBack = none ∧
      next.giving = none ∧ next ≠ .opening ∧ next ≠ .closed ∧ next ≠ .stopped) →
      Custody ((c.withVin vin).goTo next) := by
    rintro next ⟨free, empty, quiet, opening, closed, stopped⟩
    refine custody.onward going rfl rfl rfl rfl safe ?_ opening fun last => ?_
    · change Joined c.slot vin.held next
      rw [held]
      exact custody.joined.goTo (free.trans hand.symm) (empty.trans given.symm) quiet
    · rcases last with last | last
      · exact absurd last closed
      · exact absurd last stopped
  split
  · exact plain first firstPlain
  · exact plain second secondPlain

theorem workOpening (custody : Custody c) (pc : c.worker = .opening) :
    Custody ((c.withVin (vinOpen c.vin c.slots a.ok a.value).2).goTo
      (if (vinOpen c.vin c.slots a.ok a.value).1 then .top else .fault)) := by
  have going : c.finished = false := custody.running (by rw [pc]; nofun)
  refine custody.branch going custody.vin.vinOpen
    (custody.vin.vinOpen_held (custody.opening pc)) (by rw [pc]; rfl) (by rw [pc]; rfl) ?_ ?_
  · exact ⟨rfl, rfl, rfl, nofun, nofun, nofun⟩
  · exact ⟨rfl, rfl, rfl, nofun, nofun, nofun⟩

theorem workPausing (custody : Custody c) (pc : c.worker = .pausing r) :
    Custody (c.workPausing r a) := by
  have going : c.finished = false := custody.running (by rw [pc]; nofun)
  unfold Capture.workPausing
  split
  · exact custody.goTo going (by rw [pc]; rfl) (by rw [pc]; rfl) rfl nofun (by simp)
  dsimp only
  refine custody.branch going ?_ ?_ (by rw [pc]; rfl) (by rw [pc]; rfl) ?_ ?_
  · split
    · exact custody.vin.vinPause
    · exact custody.vin.vinResume
  · split
    · exact VinSafe.vinPause_held
    · exact VinSafe.vinResume_held
  · exact ⟨rfl, rfl, rfl, nofun, nofun, nofun⟩
  · exact ⟨rfl, rfl, rfl, nofun, nofun, nofun⟩

theorem workRunning (custody : Custody c) (pc : c.worker = .running r) :
    Custody (c.workRunning r) := by
  have going : c.finished = false := custody.running (by rw [pc]; nofun)
  have moved : Custody ((c.withVin c.vin).goTo
      (if r.paused || c.vin.numBuffers ≤ c.heldCount + 1 then .top else .acquiring)) :=
    custody.branch going custody.vin rfl (by rw [pc]; rfl) (by rw [pc]; rfl)
      ⟨rfl, rfl, rfl, nofun, nofun, nofun⟩ ⟨rfl, rfl, rfl, nofun, nofun, nofun⟩
  exact moved.congr rfl

theorem workAcquiring (custody : Custody c) (pc : c.worker = .acquiring) :
    Custody (c.workAcquiring a) := by
  have going : c.finished = false := custody.running (by rw [pc]; nofun)
  have joined := custody.joined
  rw [pc] at joined
  unfold Capture.workAcquiring
  generalize (if a.ok then some a.value else none) = next
  have safe : VinSafe (vinAcquire c.vin next).2 c.slots := custody.vin.vinAcquire
  rcases VinSafe.vinAcquire_cases (v := c.vin) next with
    ⟨nothing, same | same⟩ | ⟨i, dequeued, _, _, free, taken⟩
  · dsimp only
    rw [nothing, same]
    refine custody.branch going custody.vin rfl (by rw [pc]; rfl) (by rw [pc]; rfl) ?_ ?_
    · exact ⟨rfl, rfl, rfl, nofun, nofun, nofun⟩
    · exact ⟨rfl, rfl, rfl, nofun, nofun, nofun⟩
  · dsimp only
    rw [same] at safe
    rw [nothing, same]
    refine custody.branch going safe rfl (by rw [pc]; rfl) (by rw [pc]; rfl) ?_ ?_
    · exact ⟨rfl, rfl, rfl, nofun, nofun, nofun⟩
    · exact ⟨rfl, rfl, rfl, nofun, nofun, nofun⟩
  · dsimp only
    rw [taken] at safe
    rw [dequeued, taken]
    exact custody.onward going rfl rfl rfl rfl safe (joined.take free rfl rfl) nofun
      (by simp [Capture.goTo])

theorem workViewing (custody : Custody c) (pc : c.worker = .viewing i) :
    Custody (c.workViewing i a) := by
  have going : c.finished = false := custody.running (by rw [pc]; nofun)
  have same : ∀ j, ((c.workViewing i a).slot j).state = (c.slot j).state ∧
      ((c.workViewing i a).slot j).image = (c.slot j).image := by
    intro j
    by_cases own : j = i
    · subst own
      simp only [Capture.workViewing, Capture.viewFrame, Capture.goTo, Function.update_self, and_self]
    · simp only [Capture.workViewing, Capture.viewFrame, Capture.goTo, Function.update_of_ne own,
        and_self]
  have moves : Moves c.slot (c.workViewing i a).slot :=
    ⟨fun j => by rw [(same j).1], fun j back => (same j).1.trans back⟩
  have safe : SlotsSafe (c.workViewing i a).slot c.ui := by
    refine ⟨fun j => ?_, fun j => ?_, fun j k first second => ?_⟩
    · rw [(same j).1, (same j).2]
      exact custody.slots.images j
    · rw [(same j).1]
      exact custody.slots.polling j
    · exact custody.slots.oneReady j k ((same j).1.symm.trans first) ((same k).1.symm.trans second)
  have joined := custody.joined.moves moves
  rw [pc] at joined
  refine ⟨custody.vin, safe, ?_, ?_, ?_, fun done => ?_⟩
  · change Joined _ c.vin.held (if a.ok then WorkerPc.scanning i else .refusing i)
    split
    · exact joined.goTo rfl rfl rfl
    · exact joined.goTo rfl rfl rfl
  · intro opens
    change (if a.ok then WorkerPc.scanning i else .refusing i) = _ at opens
    split at opens <;> cases opens
  · intro last
    change (if a.ok then WorkerPc.scanning i else .refusing i) = _ ∨
      (if a.ok then WorkerPc.scanning i else .refusing i) = _ at last
    split at last <;> rcases last with last | last <;> cases last
  · have done : c.finished = true := done
    rw [going] at done
    cases done

/-- The worker puts the buffer in its hand into its slot. -/
theorem place (custody : Custody c) (going : c.finished = false) {next : WorkerPc} {st : SlotState}
    (hand : c.worker.inHand = some i) (none : c.worker.givenBack = none)
    (settled : st = .toReturn ∨ st = .ready ∧ ∀ j, (c.slot j).state ≠ .ready)
    (free : next.inHand = Option.none) (given : next.givenBack = Option.none)
    (giving : next.giving = Option.none) (opening : next ≠ .opening)
    (ended : ¬(next = .closed ∨ next = .stopped)) : Custody ((c.setSlot i st).goTo next) := by
  obtain ⟨_, empty⟩ := custody.joined.inHand i hand
  have full : ((c.setSlot i st).slot i).state ≠ .empty := by
    rw [Capture.setSlot_state, if_pos rfl]
    rcases settled with rfl | ⟨rfl, _⟩ <;> nofun
  have safe : SlotsSafe (c.setSlot i st).slot c.ui :=
    Capture.setSlot_safe custody.slots (by rw [empty]; nofun) (by rw [empty]; nofun) (.inr settled)
  refine ⟨custody.vin, safe, ?_, fun opens => absurd opens opening, fun last => absurd last ended,
    fun done => ?_⟩
  · exact custody.joined.place hand full (fun j other => Function.update_of_ne other ..) none free
      given giving
  · have done : c.finished = true := done
    rw [going] at done
    cases done

theorem workPublishing (custody : Custody c) (pc : c.worker = .publishing i) :
    Custody (c.workPublishing i) := by
  have going : c.finished = false := custody.running (by rw [pc]; nofun)
  have hand : c.returnReady.worker.inHand = some i := by
    change c.worker.inHand = some i
    rw [pc]
    rfl
  have given : c.returnReady.worker.givenBack = none := by
    change c.worker.givenBack = none
    rw [pc]
    rfl
  unfold Capture.workPublishing
  dsimp only
  refine custody.returnReady.place going hand given ?_ rfl rfl rfl nofun (by simp)
  split
  · exact .inl rfl
  · exact .inr ⟨rfl, custody.returnReady_none⟩

theorem workScanning (custody : Custody c) (pc : c.worker = .scanning i) :
    Custody (c.workScanning i) := by
  have going : c.finished = false := custody.running (by rw [pc]; nofun)
  unfold Capture.workScanning
  split
  · have decoding : Custody (c.goTo (.decoding i c.barcode.generation)) :=
      custody.goTo going (by rw [pc]; rfl) (by rw [pc]; rfl) rfl nofun (by simp)
    exact decoding.congr rfl
  · exact custody.goTo going (by rw [pc]; rfl) (by rw [pc]; rfl) rfl nofun (by simp)

theorem workDecoding {generation : Nat} (custody : Custody c)
    (pc : c.worker = .decoding i generation) : Custody (c.workDecoding i generation a) := by
  have going : c.finished = false := custody.running (by rw [pc]; nofun)
  have decoded : Custody (c.goTo (.decoded i generation a.value)) :=
    custody.goTo going (by rw [pc]; rfl) (by rw [pc]; rfl) rfl nofun (by simp)
  exact decoded.congr rfl

theorem workDecoded {generation length : Nat} (custody : Custody c)
    (pc : c.worker = .decoded i generation length) :
    Custody (c.workDecoded i generation length) := by
  have going : c.finished = false := custody.running (by rw [pc]; nofun)
  have published : Custody (c.goTo (.publishing i)) :=
    custody.goTo going (by rw [pc]; rfl) (by rw [pc]; rfl) rfl nofun (by simp)
  unfold Capture.workDecoded
  split
  · exact published.congr rfl
  · exact published

theorem workSelecting (custody : Custody c) (pc : c.worker = .selecting r) :
    Custody (c.workSelecting r) := by
  have going : c.finished = false := custody.running (by rw [pc]; nofun)
  unfold Capture.workSelecting
  split
  · have driving : Custody (c.goTo (.driving c.input.requested r)) :=
      custody.goTo going (by rw [pc]; rfl) (by rw [pc]; rfl) rfl nofun (by simp)
    exact driving.congr rfl
  · exact custody.goTo going (by rw [pc]; rfl) (by rw [pc]; rfl) rfl nofun (by simp)

theorem workDriven {ok : Bool} {input : Nat} (custody : Custody c)
    (pc : c.worker = .driven ok input r) : Custody (c.workDriven ok input r) := by
  have going : c.finished = false := custody.running (by rw [pc]; nofun)
  have applied : Custody ((c.withVin c.vin).goTo (if c.closing then .top else .starting r)) :=
    custody.branch going custody.vin rfl (by rw [pc]; rfl) (by rw [pc]; rfl)
      ⟨rfl, rfl, rfl, nofun, nofun, nofun⟩ ⟨rfl, rfl, rfl, nofun, nofun, nofun⟩
  have failed : Custody (c.goTo .top) :=
    custody.goTo going (by rw [pc]; rfl) (by rw [pc]; rfl) rfl nofun (by simp)
  cases ok with
  | true => exact applied.congr rfl
  | false => exact failed.congr rfl

theorem faultTo (custody : Custody c) {next : WorkerPc} (going : c.finished = false)
    (hand : c.worker.inHand = none) (given : c.worker.givenBack = none)
    (plain : next.inHand = none ∧ next.givenBack = none ∧ next.giving = none)
    (opening : next ≠ .opening) (ended : ¬(next = .closed ∨ next = .stopped)) :
    Custody (c.fault.goTo next) := by
  have core : c.fault.core = c.core := cancelPending_core
  simp only [Capture.core, Prod.mk.injEq] at core
  refine custody.fault.goTo ?_ ?_ ?_ plain.2.2 opening ended
  · rw [core.2.2.2.2.2]
    exact going
  · rw [core.2.2.2.1, hand]
    exact plain.1
  · rw [core.2.2.2.1, given]
    exact plain.2.1

/-- Every step of the worker keeps the custody. -/
theorem work (custody : Custody c) (worked : c.work a = some t) : Custody t := by
  cases pc : c.worker with
  | stopped =>
      simp only [Capture.work, pc, reduceCtorEq] at worked
  | opening =>
      simp only [Capture.work, pc, Option.some.injEq] at worked
      exact worked ▸ custody.workOpening pc
  | fault =>
      simp only [Capture.work, pc, Option.some.injEq] at worked
      exact worked ▸ custody.faultTo (custody.running (by rw [pc]; nofun)) (by rw [pc]; rfl)
        (by rw [pc]; rfl) ⟨rfl, rfl, rfl⟩ nofun (by simp)
  | top =>
      simp only [Capture.work, pc, Option.some.injEq] at worked
      exact worked ▸ custody.workTop pc
  | returning i r =>
      simp only [Capture.work, pc, Option.some.injEq] at worked
      exact worked ▸ custody.workReturning pc
  | give i r =>
      simp only [Capture.work, pc, Option.some.injEq] at worked
      exact worked ▸ custody.workGive pc
  | given i r =>
      simp only [Capture.work, pc, Option.some.injEq] at worked
      exact worked ▸ custody.workGiven pc
  | returnFault i r =>
      simp only [Capture.work, pc, Option.some.injEq] at worked
      exact worked ▸ custody.faultTo (custody.running (by rw [pc]; nofun)) (by rw [pc]; rfl)
        (by rw [pc]; rfl) ⟨rfl, rfl, rfl⟩ nofun (by simp)
  | close =>
      simp only [Capture.work, pc, Option.some.injEq] at worked
      exact worked ▸ custody.workClose pc
  | closed =>
      simp only [Capture.work, pc, Option.some.injEq] at worked
      exact worked ▸ custody.workClosed pc
  | selecting r =>
      simp only [Capture.work, pc, Option.some.injEq] at worked
      exact worked ▸ custody.workSelecting pc
  | driving input r =>
      simp only [Capture.work, pc, Option.some.injEq] at worked
      have driven : Custody (c.goTo (.driven a.ok input r)) :=
        custody.goTo (custody.running (by rw [pc]; nofun)) (by rw [pc]; rfl) (by rw [pc]; rfl) rfl
          nofun (by simp)
      exact worked ▸ driven.congr rfl
  | driven ok input r =>
      simp only [Capture.work, pc, Option.some.injEq] at worked
      exact worked ▸ custody.workDriven pc
  | starting r =>
      simp only [Capture.work, pc, Option.some.injEq] at worked
      exact worked ▸ custody.workStarting pc
  | pausing r =>
      simp only [Capture.work, pc, Option.some.injEq] at worked
      exact worked ▸ custody.workPausing pc
  | running r =>
      simp only [Capture.work, pc, Option.some.injEq] at worked
      exact worked ▸ custody.workRunning pc
  | acquiring =>
      simp only [Capture.work, pc, Option.some.injEq] at worked
      exact worked ▸ custody.workAcquiring pc
  | viewing i =>
      simp only [Capture.work, pc, Option.some.injEq] at worked
      exact worked ▸ custody.workViewing pc
  | refusing i =>
      simp only [Capture.work, pc, Option.some.injEq] at worked
      exact worked ▸ custody.place (custody.running (by rw [pc]; nofun)) (by rw [pc]; rfl)
        (by rw [pc]; rfl) (.inl rfl) rfl rfl rfl nofun (by simp)
  | scanning i =>
      simp only [Capture.work, pc, Option.some.injEq] at worked
      exact worked ▸ custody.workScanning pc
  | decoding i generation =>
      simp only [Capture.work, pc, Option.some.injEq] at worked
      exact worked ▸ custody.workDecoding pc
  | decoded i generation length =>
      simp only [Capture.work, pc, Option.some.injEq] at worked
      exact worked ▸ custody.workDecoded pc
  | publishing i =>
      simp only [Capture.work, pc, Option.some.injEq] at worked
      exact worked ▸ custody.workPublishing pc

/-! ### The UI thread and the readers -/

theorem poll (custody : Custody c) (idle : c.ui = .idle) : Custody c.poll := by
  unfold Capture.poll
  split
  · exact custody
  split
  · exact custody
  rename_i i found
  have ready : (c.slot i).state = .ready := by simpa using List.find?_some found
  have state : ∀ j, ({ c.setSlot i .publishing with ui := .creating i }.slot j).state =
      if j = i then .publishing else (c.slot j).state := fun j => Capture.setSlot_state
  have quiet : ∀ j, (c.slot j).state ≠ .publishing := by
    intro j publishing
    have polling := (custody.slots.polling j).mp publishing
    rw [idle] at polling
    cases polling
  refine custody.outside rfl rfl rfl rfl ⟨fun j => ?_, fun j back => ?_⟩
    ⟨fun j => ?_, fun j => ?_, fun j k first second => ?_⟩
  · rw [state]
    split
    · rename_i same
      rw [same, ready]
      exact iff_of_false nofun nofun
    · exact Iff.rfl
  · rw [state]
    split
    · rename_i same
      rw [same, ready] at back
      cases back
    · exact back
  · rw [state]
    have image : ({ c.setSlot i .publishing with ui := .creating i }.slot j).image =
        (c.slot j).image := Capture.setSlot_image
    rw [image, custody.slots.images]
    split
    · rename_i same
      rw [same, ready]
      exact iff_of_false nofun nofun
    · exact Iff.rfl
  · rw [state]
    split
    · rename_i same
      rw [same]
      exact iff_of_true rfl rfl
    · rename_i other
      exact iff_of_false (quiet j) fun same => other (Option.some.inj same).symm
  · rw [state] at first second
    split at first
    · cases first
    split at second
    · cases second
    exact custody.slots.oneReady j k first second

/-- The slot of a poll that ends. -/
theorem settle (custody : Custody c) {st : SlotState} {image : Option Nat}
    (polling : c.ui.slot = some i)
    (ends : st = .toReturn ∧ image = none ∨ st = .published ∧ image.isSome = true)
    (state : ∀ j, (t.slot j).state = if j = i then st else (c.slot j).state)
    (images : ∀ j, (t.slot j).image = if j = i then image else (c.slot j).image)
    (slots : t.slots = c.slots) (vin : t.vin = c.vin) (worker : t.worker = c.worker)
    (finished : t.finished = c.finished) (ui : t.ui = .idle) : Custody t := by
  have publishing := (custody.slots.polling i).mpr polling
  refine custody.outside slots vin worker finished ⟨fun j => ?_, fun j back => ?_⟩
    ⟨fun j => ?_, fun j => ?_, fun j k first second => ?_⟩
  · rw [state]
    split
    · rename_i same
      rw [same, publishing]
      rcases ends with ⟨rfl, _⟩ | ⟨rfl, _⟩ <;> exact iff_of_false nofun nofun
    · exact Iff.rfl
  · rw [state]
    split
    · rename_i same
      rw [same, publishing] at back
      cases back
    · exact back
  · rw [state, images]
    split
    · rcases ends with ⟨rfl, rfl⟩ | ⟨rfl, some⟩
      · exact iff_of_false nofun nofun
      · exact iff_of_true some rfl
    · exact custody.slots.images j
  · rw [state, ui]
    split
    · rcases ends with ⟨rfl, _⟩ | ⟨rfl, _⟩ <;> exact iff_of_false nofun nofun
    · rename_i other
      refine iff_of_false (fun also => other ?_) nofun
      have same := (custody.slots.polling j).mp also
      rw [polling] at same
      exact (Option.some.inj same).symm
  · rw [state] at first second
    split at first
    · rcases ends with ⟨rfl, _⟩ | ⟨rfl, _⟩ <;> cases first
    split at second
    · rcases ends with ⟨rfl, _⟩ | ⟨rfl, _⟩ <;> cases second
    exact custody.slots.oneReady j k first second

theorem retainSlot (custody : Custody c) (creating : c.ui = .creating i) :
    Custody (c.retainSlot i) := by
  have polling : c.ui.slot = some i := by
    rw [creating]
    rfl
  have publishing := (custody.slots.polling i).mpr polling
  unfold Capture.retainSlot
  rw [if_pos publishing]
  have image : ∀ j, (Function.update c.slot i { c.slot i with
      state := .published
      image := some (c.slot i).frame } j).image =
        if j = i then some (c.slot i).frame else (c.slot j).image := by
    intro j
    rw [Function.update_apply]
    split <;> rfl
  refine custody.settle polling (.inr ⟨rfl, rfl⟩) (fun j => ?_) image rfl rfl rfl rfl rfl
  change (Function.update c.slot i _ j).state = _
  rw [Function.update_apply]
  split <;> rfl

theorem refuse (custody : Custody c) (refused : c.ui = .refused i) : Custody (c.refuse i) := by
  have polling : c.ui.slot = some i := by
    rw [refused]
    rfl
  have publishing := (custody.slots.polling i).mpr polling
  have free : (c.slot i).image = none := by
    by_contra has
    have published := (custody.slots.images i).mp (Option.isSome_iff_ne_none.mpr has)
    rw [publishing] at published
    cases published
  refine custody.settle polling (.inl ⟨rfl, free⟩) (fun j => Capture.setSlot_state) ?_ rfl rfl rfl
    rfl rfl
  intro j
  change ((c.setSlot i .toReturn).slot j).image = _
  rw [Capture.setSlot_image]
  split
  · rename_i same
    rw [same]
  · rfl

theorem releaseSlot (custody : Custody c) (has : (c.slot i).image.isSome = true) :
    Custody (c.releaseSlot i) := by
  have published := (custody.slots.images i).mp has
  have state : ∀ j, ((c.releaseSlot i).slot j).state =
      if j = i then .toReturn else (c.slot j).state := by
    intro j
    change (Function.update c.slot i _ j).state = _
    rw [Function.update_apply]
    split <;> rfl
  have image : ∀ j, ((c.releaseSlot i).slot j).image =
      if j = i then none else (c.slot j).image := by
    intro j
    change (Function.update c.slot i _ j).image = _
    rw [Function.update_apply]
    split <;> rfl
  refine custody.outside rfl rfl rfl rfl ⟨fun j => ?_, fun j back => ?_⟩
    ⟨fun j => ?_, fun j => ?_, fun j k first second => ?_⟩
  · rw [state]
    split
    · rename_i same
      rw [same, published]
      exact iff_of_false nofun nofun
    · exact Iff.rfl
  · rw [state]
    split
    · rfl
    · exact back
  · rw [state, image]
    split
    · exact iff_of_false nofun nofun
    · exact custody.slots.images j
  · rw [state]
    change _ ↔ c.ui.slot = some j
    rw [← custody.slots.polling]
    split
    · rename_i same
      rw [same, published]
      exact iff_of_false nofun nofun
    · exact Iff.rfl
  · rw [state] at first second
    split at first
    · cases first
    split at second
    · cases second
    exact custody.slots.oneReady j k first second

theorem barcodeConfigure (custody : Custody c) {enabled only : Bool} :
    Custody (c.barcodeConfigure enabled only) := by
  unfold Capture.barcodeConfigure
  split
  · exact custody
  dsimp only
  split
  · refine Custody.returnReady ?_
    exact custody.congr rfl
  · exact custody.congr rfl

theorem selectInput (custody : Custody c) {input : Nat} : Custody (c.selectInput input) := by
  unfold Capture.selectInput
  split
  · exact custody
  dsimp only
  refine Custody.returnReady ?_
  split
  · exact custody.congr rfl
  · exact custody.congr rfl

theorem barcodePoll (custody : Custody c) {capacity : Option Nat} :
    Custody (c.barcodePoll capacity) := by
  unfold Capture.barcodePoll
  dsimp only
  split
  · exact custody
  · exact custody.congr rfl

theorem start (custody : Custody c) : Custody c.start := by
  unfold Capture.start
  split
  · exact custody
  · exact custody.congr rfl

theorem close (custody : Custody c) : Custody c.close := by
  have cancelled : Custody { c with closing := true }.cancelPending := custody.congr cancelPending_core
  unfold Capture.close
  dsimp only
  split
  · exact cancelled.congr rfl
  · exact cancelled

/-- Every step keeps the custody. -/
theorem perform (custody : Custody c) {action : CameraAction} (acted : c.perform action = some t) :
    Custody t := by
  have call : ∀ next : Capture, (c.ui = .idle → Custody next) → c.called next = some t →
      Custody t := by
    intro next kept called
    simp only [Capture.called, Option.ite_none_right_eq_some, Option.some.injEq] at called
    exact called.2 ▸ kept called.1
  cases action with
  | start => exact call _ (fun _ => custody.start) acted
  | pause paused => exact call (c.pause paused) (fun _ => custody.congr rfl) acted
  | poll => exact call _ custody.poll acted
  | create ok =>
      simp only [Capture.perform] at acted
      split at acted
      · rename_i i creating
        simp only [Option.some.injEq] at acted
        subst acted
        split
        · exact custody.retainSlot creating
        · refine custody.outside rfl rfl rfl rfl ⟨fun _ => Iff.rfl, fun _ back => back⟩ ?_
          refine ⟨custody.slots.images, fun j => ?_, custody.slots.oneReady⟩
          rw [custody.slots.polling, creating]
          rfl
      · cases acted
  | refuse =>
      simp only [Capture.perform] at acted
      split at acted
      · rename_i i refused
        simp only [Option.some.injEq] at acted
        exact acted ▸ custody.refuse refused
      · cases acted
  | release i =>
      simp only [Capture.perform, Option.ite_none_right_eq_some, Option.some.injEq] at acted
      exact acted.2 ▸ custody.releaseSlot acted.1
  | barcodeConfigure enabled only => exact call _ (fun _ => custody.barcodeConfigure) acted
  | barcodePoll capacity => exact call _ (fun _ => custody.barcodePoll) acted
  | selectInput input => exact call _ (fun _ => custody.selectInput) acted
  | close => exact call _ (fun _ => custody.close) acted
  | work a => exact custody.work acted

end Custody

end LvglAic.Camera
