import LvglAic.Player.FramesCustody

/-! # Lease conservation

What the custody of the mailbox means for its slots: a submitted lease is in
exactly one of them until the session takes it back.
-/

namespace LvglAic.Player

variable {trace events : List FrameEvent} {f next : Frames} {lease : Nat}

/-- Only `emptied` takes a lease out of its slot. -/
theorem Custody.vacated {c next : Custody} {index : LeaseIndex}
    (moves : Custody.Moves c events next) (occupied : c.occupant index = some lease)
    (vacant : next.occupant index = none) : .emptied lease ∈ events := by
  induction moves with
  | none c =>
      rw [occupied] at vacant
      cases vacant
  | @more c middle last first rest move moves ih =>
      by_cases kept : middle.occupant index = some lease
      · exact List.mem_append_right _ (ih kept vacant)
      · refine List.mem_append_left _ ?_
        cases move with
        | claim other taken held free empty =>
            exact absurd (Custody.update_filled empty occupied) kept
        | reject other given builds full =>
            by_cases same : index = other
            · subst same
              obtain rfl := Option.some.inj (occupied.symm.trans full)
              simp
            · exact absurd (by simpa [same] using occupied) kept
        | store other given stores full =>
            by_cases same : index = other
            · subst same
              obtain rfl := Option.some.inj (occupied.symm.trans full)
              simp
            · exact absurd (by simpa [same] using occupied) kept
        | _ => exact absurd occupied kept

theorem nextSlot_events {slot : LeaseIndex} {success : Bool} {event : FrameEvent}
    (member : event ∈ (f.nextSlot slot success).2) : event = .drained success := by
  unfold Frames.nextSlot at member
  split at member
  · cases member
  · exact List.mem_singleton.mp member

/-- A refused submit is either decided by the first section of `submit` or
ends the cleanup of its slot. -/
theorem stepWorker_refused {call : WorkerCall} {answers : FrameAnswers} {result : SubmitResult}
    (moved : f.stepWorker call answers = some (next, events))
    (member : .submitted lease result ∈ events) (refused : result ≠ .ok) :
    (f.worker = .idle ∧ ∃ asked, f.submit asked = (next, events)) ∨
      ∃ slot pin, f.worker = .submitReject slot pin true ∧
        f.stepReject slot pin true = (next, events) := by
  unfold Frames.stepWorker at moved
  split at moved
  case h_1 call pc =>
    obtain ⟨-, rfl⟩ := Prod.ext_iff.mp (Option.some.inj moved)
    cases call <;> simp [Frames.callSession] at member
    split at member <;> simp at member
  case h_2 asked pc => exact .inl ⟨pc, asked, Option.some.inj moved⟩
  case h_3 pc =>
    obtain ⟨-, rfl⟩ := Prod.ext_iff.mp (Option.some.inj moved)
    unfold Frames.drain at member
    split at member <;> simp at member
  case h_7 slot frame pc =>
    obtain ⟨-, rfl⟩ := Prod.ext_iff.mp (Option.some.inj moved)
    unfold Frames.stepPin at member
    dsimp only at member
    split at member
    · simp at member
    · split at member <;> simp at member
  case h_8 slot pin released pc =>
    cases released with
    | true => exact .inr ⟨slot, pin, pc, Option.some.inj moved⟩
    | false =>
        obtain ⟨-, rfl⟩ := Prod.ext_iff.mp (Option.some.inj moved)
        simp [Frames.stepReject, refused] at member
  case h_9 slot pc =>
    obtain ⟨-, rfl⟩ := Prod.ext_iff.mp (Option.some.inj moved)
    unfold Frames.stepPublish at member
    dsimp only at member
    split at member <;> simp [refused] at member
  case h_11 slot success pc =>
    obtain ⟨-, rfl⟩ := Prod.ext_iff.mp (Option.some.inj moved)
    unfold Frames.stepDrainSlot at member
    split at member
    · cases member
    · cases nextSlot_events member
  case h_12 slot success pc =>
    obtain ⟨-, rfl⟩ := Prod.ext_iff.mp (Option.some.inj moved)
    unfold Frames.stepDrainPin at member
    dsimp only at member
    split at member
    · simp at member
    · split at member <;> simp at member
  case h_14 slot success returned pc =>
    obtain ⟨-, rfl⟩ := Prod.ext_iff.mp (Option.some.inj moved)
    rcases List.mem_append.mp member with emptied | rest
    · cases returned <;> simp at emptied
    · cases nextSlot_events rest
  case h_15 => cases moved
  all_goals
    obtain ⟨-, rfl⟩ := Prod.ext_iff.mp (Option.some.inj moved)
    simp [Frames.stepDrainFault] at member

theorem stepUi_submits {call : UiCall} {result : SubmitResult}
    (moved : f.stepUi call = some (next, events)) : .submitted lease result ∉ events := by
  intro member
  unfold Frames.stepUi at moved
  split at moved
  case h_1 yuvOnly pc =>
    obtain ⟨-, rfl⟩ := Prod.ext_iff.mp (Option.some.inj moved)
    obtain same | ⟨_, _, _, _, same⟩ := Frames.poll_cases f yuvOnly <;> simp [same] at member
  case h_7 slot pc =>
    unfold Frames.releaseImage at moved
    split at moved
    · obtain ⟨-, rfl⟩ := Prod.ext_iff.mp (Option.some.inj moved)
      simp at member
    · cases moved
  case h_8 slot ready pc =>
    obtain ⟨-, rfl⟩ := Prod.ext_iff.mp (Option.some.inj moved)
    obtain same | ⟨_, _, same⟩ := Frames.stepCreate_cases f slot ready <;> simp [same] at member
  case h_10 => cases moved
  all_goals
    obtain ⟨-, rfl⟩ := Prod.ext_iff.mp (Option.some.inj moved)
    simp [Frames.stepFail] at member

/-- After a refused submit no slot has the lease. -/
theorem framesMachine_refused {action : FrameAction} {result : SubmitResult} (control : f.Control)
    (sound : Custody.Sound trace f.custody)
    (moved : framesMachine.step f action = some (next, events))
    (member : .submitted lease result ∈ events) (refused : result ≠ .ok) (index : LeaseIndex)
    (full : (next.slots index).state ≠ .empty) : (next.slots index).lease ≠ lease := by
  rintro rfl
  obtain ⟨_, moved⟩ := framesMachine_step moved
  cases action with
  | ui call => exact stepUi_submits moved member
  | worker call answers =>
      obtain ⟨idle, asked, same⟩ | ⟨slot, pin, pc, same⟩ :=
        stepWorker_refused moved member refused
      · obtain ⟨known, _⟩ | ⟨_, _, rejected, free⟩ | ⟨_, _, _, _, _, _, _, _, claimed⟩ :=
          Frames.submit_cases f asked
        · rw [known, Prod.mk.injEq] at same
          obtain ⟨rfl, rfl⟩ := same
          simp [refused] at member
        · rw [rejected, Prod.mk.injEq] at same
          obtain ⟨rfl, rfl⟩ := same
          simp only [List.mem_singleton, FrameEvent.submitted.injEq] at member
          obtain ⟨rfl, rfl⟩ := member
          have occupied := Frames.custody_occupant.mpr ⟨full, rfl⟩
          have held := sound.held occupied (by simp [Frames.idle_rests idle])
          exact free held (sound.leases.issued _ held).1 index full rfl
        · rw [claimed, Prod.mk.injEq] at same
          obtain ⟨rfl, rfl⟩ := same
          cases member
      · have builds : f.worker.builds = some slot := by rw [pc]; rfl
        have state := (control.builds slot).mp builds
        simp only [Frames.stepReject, ↓reduceIte, Prod.mk.injEq] at same
        obtain ⟨rfl, rfl⟩ := same
        simp only [List.mem_cons, reduceCtorEq, FrameEvent.submitted.injEq, List.not_mem_nil,
          or_false, false_or] at member
        by_cases same : index = slot
        · subst same
          simp [Frames.setState] at full
        · simp only [Frames.setState, Frames.setSlot, ne_eq, same, not_false_eq_true,
            Function.update_of_ne] at full member
          exact same (sound.leases.distinct index slot _
            (Frames.custody_occupant.mpr ⟨full, rfl⟩)
            (Frames.custody_occupant.mpr ⟨by simp [state.1], member.1.symm⟩))

/-- Submitted leases are in exactly one slot until the session has them back,
whatever the interleaving and whichever calls fail. -/
theorem frames_conserve_leases (reached : framesMachine.Reaches FrameContract trace f) :
    Guarded CustodySafe trace ∧
    (∀ lease, .submitted lease .ok ∈ trace → .put lease true ∉ trace →
      ∃! index, (f.slots index).state ≠ .empty ∧ (f.slots index).lease = lease) ∧
    ∀ action next events, FrameContract trace f action →
      framesMachine.step f action = some (next, events) →
      (∀ index, (f.slots index).state ≠ .empty → (next.slots index).state = .empty →
        .emptied (f.slots index).lease ∈ events) ∧
      ∀ lease result, .submitted lease result ∈ events → result ≠ .ok →
        ∀ index, (next.slots index).state ≠ .empty → (next.slots index).lease ≠ lease := by
  obtain ⟨control, sound⟩ := framesMachine_sound reached
  refine ⟨sound.guarded, fun lease submitted kept => ?_, fun action next events allowed moved =>
    ⟨fun index full vacant => ?_, fun lease result member refused index full =>
      framesMachine_refused control sound moved member refused index full⟩⟩
  · obtain ⟨index, occupied⟩ := (sound.leases.submitted lease submitted).resolve_right kept
    refine ⟨index, Frames.custody_occupant.mp occupied, fun other found => ?_⟩
    exact sound.leases.distinct other index lease (Frames.custody_occupant.mpr found) occupied
  · exact Custody.vacated (framesMachine_custody control sound allowed moved)
      (Frames.custody_occupant.mpr ⟨full, rfl⟩) (Frames.custody_vacant vacant).1

/-- One frame is shown, its first put fails, and the retry succeeds. -/
def retryActions : List FrameAction :=
  let worker (call : WorkerCall) : FrameAction := .worker call (generousAnswers 7)
  let failing : FrameAnswers :=
    { generousAnswers 7 with sdk := { (generousAnswers 7).sdk with putFrame := false } }
  [worker (.session (.open [47])), worker (.session .start), worker (.session .acquire),
    worker (.submit 1), worker .resume, worker .resume, .ui (.poll false), .ui (.resume true),
    worker .drain] ++ List.replicate 9 (worker .resume) ++ [.ui (.releaseImage 0), worker .drain,
    worker .resume, worker .resume, .worker .resume failing] ++ List.replicate 8 (worker .resume) ++
    [worker .drain] ++ List.replicate 11 (worker .resume) ++ [worker .isIdle]

theorem frames_conserve_leases_retry :
    ∃ f trace, framesMachine.execute Frames.created retryActions = some (f, trace) ∧
      trace = [.opened true, .acquired 1, .pinned 1 1, .submitted 1 .ok, .polled 1 40,
        .drained true, .imageReleased 1, .unpinned 1 1 true, .put 1 false, .drained false,
        .put 1 true, .emptied 1, .drained true, .idle true] ∧
      Guarded CustodySafe trace := by
  obtain ⟨⟨f, trace⟩, executed⟩ : ∃ last, framesMachine.execute Frames.created retryActions =
      some last := Option.isSome_iff_exists.mp (by decide)
  have events : (framesMachine.execute Frames.created retryActions).map Prod.snd =
      some [.opened true, .acquired 1, .pinned 1 1, .submitted 1 .ok, .polled 1 40, .drained true,
        .imageReleased 1, .unpinned 1 1 true, .put 1 false, .drained false, .put 1 true,
        .emptied 1, .drained true, .idle true] := by decide
  have conforming : framesMachine.conforms frameContract [] Frames.created retryActions = true := by
    decide
  have reached := (Machine.Reaches.start rfl).conform (fun _ _ _ => frameContract_sound) conforming
    executed
  rw [executed] at events
  exact ⟨f, trace, executed, Option.some.inj events, (frames_conserve_leases reached).1⟩

end LvglAic.Player
