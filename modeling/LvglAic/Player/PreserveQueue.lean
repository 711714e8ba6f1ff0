import LvglAic.Player.FramesCustody

/-! # The preserve policy

With `preserve` on, a frame that waits in the queue may only leave it by a
poll or by closing the mailbox.  One section breaks this, and no other does.
-/

namespace LvglAic.Player

variable {f next : Frames} {index slot : LeaseIndex} {events : List FrameEvent}

namespace FrameAction

def polls : FrameAction → Bool
  | .ui (.poll _) => true
  | _ => false

def closes : FrameAction → Bool
  | .ui .close | .worker .close _ => true
  | _ => false

end FrameAction

namespace Frames

/-- What the preserve policy promises of a step: frames of an open mailbox stay
queued unless a poll takes them or the mailbox is closed. -/
def Preserves (f : Frames) (action : FrameAction) (next : Frames) : Prop :=
  f.preserve = true → f.closing = false → f.quarantined = false → ∀ index,
    unconsumed (f.slots index).state = true → unconsumed (next.slots index).state = true ∨
      (action.polls = true ∧ (next.slots index).state = .publishing) ∨ action.closes = true

instance {action : FrameAction} : Decidable (f.Preserves action next) :=
  inferInstanceAs (Decidable (_ → _ → _ → ∀ index, _ → _ ∨ (_ ∧ _) ∨ _))

/-- The second section of a `submit` finds a DEFERRED frame whose predecessor
was already polled. -/
def discards (f : Frames) : FrameAction → Bool
  | .worker .resume _ =>
      match f.worker with
      | .submitPublish _ => f.preserve && !f.closing && !f.quarantined &&
          !(f.anySlot fun slot => published slot.state) &&
          f.anySlot fun slot => slot.state == .deferred
      | _ => false
  | _ => false

/-- All frames that wait keep waiting. -/
def Keeps (f next : Frames) : Prop :=
  ∀ index, unconsumed (f.slots index).state = true → unconsumed (next.slots index).state = true

theorem Keeps.of_slots (same : next.slots = f.slots) : Keeps f next := by
  intro index waits
  rw [same]
  exact waits

theorem Keeps.of_slot {new : FrameSlot} (changed : next.slots = Function.update f.slots slot new)
    (apart : unconsumed (f.slots slot).state = false ∨ unconsumed new.state = true) :
    Keeps f next := by
  intro index waits
  rw [changed]
  by_cases same : index = slot
  · subst same
    rw [Function.update_self]
    exact apart.resolve_left (by simp [waits])
  · rw [Function.update_of_ne same]
    exact waits

theorem submit_keeps {lease : Nat} : Keeps f (f.submit lease).1 := by
  obtain ⟨same, _⟩ | ⟨_, _, same, _⟩ | ⟨slot, frame, _, empty, _, _, _, _, same⟩ :=
    submit_cases f lease
  · exact .of_slots (by rw [same])
  · exact .of_slots (by rw [same])
  · rw [same]
    exact .of_slot rfl (.inl (by simp [empty, unconsumed]))

/-- On an open mailbox only the publishing section of `submit` can replace. -/
theorem stepWorker_keeps {call : WorkerCall} {answers : FrameAnswers} (control : f.Control)
    (opened : f.closing = false) (moved : f.stepWorker call answers = some (next, events))
    (plain : ∀ slot, f.worker ≠ .submitPublish slot) (closes : call ≠ .close) : Keeps f next := by
  have building : ∀ slot, f.worker.builds = some slot → unconsumed (f.slots slot).state = false :=
    fun slot builds => by simp [((control.builds slot).mp builds).1, unconsumed]
  have releasing : ∀ slot, f.worker.returns = some slot →
      unconsumed (f.slots slot).state = false :=
    fun slot returns => by simp [((control.returns slot).mp returns).1, unconsumed]
  unfold stepWorker at moved
  split at moved
  case h_4 => exact absurd rfl closes
  case h_9 slot pc => exact absurd pc (plain slot)
  case h_15 => cases moved
  all_goals
    rename_i pc
    obtain ⟨rfl, -⟩ := Prod.ext_iff.mp (Option.some.inj moved)
  case h_1 call => cases call <;> exact .of_slots rfl
  case h_2 => exact submit_keeps
  case h_3 =>
    unfold drain
    split <;> exact .of_slots rfl
  case h_5 =>
    unfold reopen
    split <;> exact .of_slots rfl
  case h_6 => exact .of_slots rfl
  case h_7 slot frame =>
    have settled := building slot (by rw [pc]; rfl)
    unfold stepPin
    dsimp only
    split
    · exact .of_slot rfl (.inl settled)
    · split <;> exact .of_slot rfl (.inl settled)
  case h_8 slot pin released =>
    have settled := building slot (by rw [pc]; rfl)
    unfold stepReject
    dsimp only
    split <;> exact .of_slot rfl (.inl settled)
  case h_10 =>
    unfold stepPromote
    obtain same | ⟨slot, _, _, _, same⟩ := promote_cases f
    · exact .of_slots (by rw [same])
    · rw [same, opened]
      exact .of_slot rfl (.inr rfl)
  case h_11 slot success =>
    unfold stepDrainSlot
    split
    · rename_i returning
      exact .of_slot rfl (.inl (by simp [returning, unconsumed]))
    · exact .of_slots nextSlot_slots
  case h_12 slot success =>
    have settled := releasing slot (by rw [pc]; rfl)
    unfold stepDrainPin
    dsimp only
    split
    · exact .of_slots rfl
    · exact .of_slot rfl (.inl settled)
  case h_13 => exact .of_slots rfl
  case h_14 slot success returned =>
    have settled := releasing slot (by rw [pc]; rfl)
    exact .of_slot nextSlot_slots (.inl settled)

theorem stepUi_keeps {call : UiCall} (control : f.Control)
    (moved : f.stepUi call = some (next, events)) (closes : call ≠ .close)
    (polls : ∀ yuvOnly, call ≠ .poll yuvOnly) : Keeps f next := by
  have publishing : ∀ slot, f.ui.publishes = some slot → unconsumed (f.slots slot).state = false :=
    fun slot publishes => by simp [(control.publishes slot).mp publishes, unconsumed]
  unfold stepUi at moved
  split at moved
  case h_1 yuvOnly pc => exact absurd rfl (polls yuvOnly)
  case h_3 => exact absurd rfl closes
  case h_7 slot pc =>
    unfold releaseImage at moved
    split at moved
    · rename_i member
      obtain ⟨rfl, -⟩ := Prod.ext_iff.mp (Option.some.inj moved)
      exact .of_slot rfl (.inl (by simp [(control.images slot).mp member, unconsumed]))
    · cases moved
  case h_10 => cases moved
  all_goals
    rename_i pc
    obtain ⟨rfl, -⟩ := Prod.ext_iff.mp (Option.some.inj moved)
  case h_2 => exact .of_slots rfl
  case h_4 =>
    unfold reopen
    split <;> exact .of_slots rfl
  case h_5 => exact .of_slots rfl
  case h_6 => exact .of_slots rfl
  case h_8 slot ready =>
    have settled := publishing slot (by rw [pc]; rfl)
    obtain same | ⟨_, _, same⟩ := stepCreate_cases f slot ready
    · exact .of_slots (by rw [same])
    · rw [same]
      exact .of_slot rfl (.inl settled)
  case h_9 slot _ =>
    exact .of_slot rfl (.inl (publishing slot (by rw [pc]; rfl)))

theorem poll_preserves (yuvOnly : Bool) (waits : unconsumed (f.slots index).state = true) :
    unconsumed ((f.poll yuvOnly).1.slots index).state = true ∨
      ((f.poll yuvOnly).1.slots index).state = .publishing := by
  obtain same | ⟨slot, _, _, _, same⟩ := poll_cases f yuvOnly
  · rw [same]
    exact .inl waits
  · rw [same]
    by_cases taken : index = slot
    · subst taken
      exact .inr (by simp [setState])
    · exact .inl (by simpa [setState, setSlot, taken] using waits)

/-- Publishing with nothing older in the queue keeps the policy exactly when no
frame is DEFERRED. -/
theorem stepPublish_preserves {answers : FrameAnswers} (control : f.Control)
    (pc : f.worker = .submitPublish slot) :
    f.Preserves (.worker .resume answers) (f.stepPublish slot).1 ↔
      f.discards (.worker .resume answers) = false := by
  have building : unconsumed (f.slots slot).state = false := by
    simp [((control.builds slot).mp (by rw [pc]; rfl)).1, unconsumed]
  have retires : (¬(f.preserve && !f.closing && !f.quarantined &&
      f.anySlot fun slot => published slot.state) = true) →
      ∀ index, unconsumed (f.slots index).state = true →
        ((f.stepPublish slot).1.slots index).state = .returning := by
    intro otherwise index waits
    have apart : index ≠ slot := by
      rintro rfl
      rw [building] at waits
      cases waits
    simp [stepPublish, otherwise, setState, setSlot, apart, retire, waits]
  by_cases opened : f.preserve = true ∧ f.closing = false ∧ f.quarantined = false
  swap
  · simp only [Preserves, discards, pc]
    constructor
    · intro _
      by_contra discarded
      simp only [Bool.not_eq_false, Bool.and_eq_true, Bool.not_eq_true'] at discarded
      exact opened ⟨discarded.1.1.1.1, discarded.1.1.1.2, discarded.1.1.2⟩
    · exact fun _ preserve opening clean => absurd ⟨preserve, opening, clean⟩ opened
  · obtain ⟨preserve, opening, clean⟩ := opened
    cases queued : f.anySlot fun slot => published slot.state with
    | true =>
        have kept : Keeps f (f.stepPublish slot).1 := by
          simp only [stepPublish, preserve, opening, clean, queued, Bool.not_false, Bool.and_self,
            ↓reduceIte]
          exact .of_slot rfl (.inl building)
        simp only [discards, pc, queued, Bool.not_true, Bool.and_false, Bool.false_and, iff_true]
        exact fun _ _ _ index waits => .inl (kept index waits)
    | false =>
        have gone := retires (by simp [queued])
        simp only [discards, pc, preserve, opening, clean, queued, Bool.not_false, Bool.and_self,
          Bool.true_and]
        rw [anySlot_false]
        constructor
        · intro preserves index
          by_contra deferred
          have waits : unconsumed (f.slots index).state = true := by
            simp only [beq_eq_false_iff_ne, ne_eq, not_not] at deferred
            simp [deferred, unconsumed]
          rcases preserves preserve opening clean index waits with stays | ⟨polls, _⟩ | closes
          · rw [gone index waits] at stays
            cases stays
          · cases polls
          · cases closes
        · intro settled _ _ _ index waits
          have unpublished := anySlot_false.mp queued index
          have undeferred := settled index
          rcases unconsumed_true.mp waits with ready | deferred
          · simp [ready, published] at unpublished
          · simp [deferred] at undeferred

/-- A step obeys the preserve policy exactly when it does not discard. -/
theorem step_preserves {action : FrameAction} (control : f.Control)
    (moved : framesMachine.step f action = some (next, events)) :
    f.Preserves action next ↔ f.discards action = false := by
  obtain ⟨_, moved⟩ := framesMachine_step moved
  have keeping : Keeps f next → f.Preserves action next :=
    fun kept _ _ _ index waits => .inl (kept index waits)
  cases action with
  | ui call =>
      simp only [discards, iff_true]
      by_cases closes : call = .close
      · exact fun _ _ _ _ _ => .inr (.inr (by rw [closes]; rfl))
      · by_cases polls : ∃ yuvOnly, call = .poll yuvOnly
        · obtain ⟨yuvOnly, rfl⟩ := polls
          have started : f.poll yuvOnly = (next, events) := by
            cases ui : f.ui <;> simp only [stepUi, ui, Option.some.injEq, reduceCtorEq] at moved
            exact moved
          intro _ _ _ index waits
          have taken := poll_preserves yuvOnly waits
          rw [started] at taken
          exact taken.imp_right fun publishing => .inl ⟨rfl, publishing⟩
        · exact keeping (stepUi_keeps control moved closes fun yuvOnly same => polls ⟨yuvOnly, same⟩)
  | worker call answers =>
      by_cases closes : call = .close
      · subst closes
        exact iff_of_true (fun _ _ _ _ _ => .inr (.inr rfl)) rfl
      · by_cases publishes : ∃ slot, f.worker = .submitPublish slot
        · obtain ⟨slot, pc⟩ := publishes
          simp only [stepWorker, pc] at moved
          cases call <;> simp only [reduceCtorEq] at moved
          obtain ⟨rfl, -⟩ := Prod.ext_iff.mp (Option.some.inj moved)
          exact stepPublish_preserves control pc
        · have plain : f.discards (.worker call answers) = false := by
            unfold discards
            split
            · split
              · rename_i slot pc
                exact absurd ⟨slot, pc⟩ publishes
              · rfl
            · rfl
          refine iff_of_true (fun preserve opened clean => ?_) plain
          exact keeping (stepWorker_keeps control opened moved
            (fun slot pc => publishes ⟨slot, pc⟩) closes) preserve opened clean

end Frames

/-- In every run, the preserve policy holds at every step exactly when no
section of the run discards. -/
theorem preserve_keeps_queue (actions : List FrameAction) :
    framesMachine.everyStep Frames.Preserves Frames.created actions ↔
      framesMachine.everyStep (fun f action _ => f.discards action = false) Frames.created
        actions :=
  Machine.everyStep_congr Frames.Control Frames.created_control
    (fun _ _ _ _ control moved => framesMachine_control control moved)
    fun _ _ _ _ control moved => Frames.step_preserves control moved

/-- Frame 2 is deferred behind frame 1; frame 1 is shown; the policy is off
while frame 3 enters `submit` and on again when it is published. -/
def overtakenActions : List FrameAction :=
  let worker (id : Nat) (call : WorkerCall) : FrameAction := .worker call (generousAnswers id)
  [worker 0 (.session (.open [47])), worker 0 (.session .start),
    worker 1 (.session .acquire), worker 1 (.submit 1), worker 1 .resume, worker 1 .resume,
    worker 2 (.session .acquire), worker 2 (.submit 2), worker 2 .resume, .ui (.preserve true),
    worker 2 .resume, .ui (.poll false), .ui (.resume true), .ui (.preserve false),
    worker 3 (.session .acquire), worker 3 (.submit 3), worker 3 .resume, .ui (.preserve true),
    worker 3 .resume]

/-- The second section of `submit` drops the deferred frame 2 under `preserve`. -/
theorem preserve_drops_deferred :
    (framesMachine.execute Frames.created overtakenActions).isSome = true ∧
      ¬framesMachine.everyStep Frames.Preserves Frames.created overtakenActions := by
  decide

end LvglAic.Player
