import LvglAic.Player.FramesCustody
import LvglAic.Player.Playback

/-! # The playback drives its mailbox as the contract asks

Every step of the playback is a step of its mailbox or leaves the mailbox
alone, so the custody of leases carries over.  The worker hands back only its
pending lease, and `submit` never took that one.
-/

namespace LvglAic.Player

/-- What a playback trace shows of the mailbox. -/
def framesTrace (trace : List PlaybackEvent) : List FrameEvent :=
  trace.filterMap fun
    | .frame event => some event
    | _ => none

section
variable {trace more : List PlaybackEvent} {events : List FrameEvent} {event : FrameEvent}

@[simp] theorem framesTrace_nil : framesTrace [] = [] := rfl

@[simp] theorem framesTrace_frame :
    framesTrace (.frame event :: trace) = event :: framesTrace trace := rfl

@[simp] theorem framesTrace_append :
    framesTrace (trace ++ more) = framesTrace trace ++ framesTrace more :=
  List.filterMap_append

@[simp] theorem framesTrace_map : framesTrace (events.map .frame) = events := by
  simp [framesTrace, List.filterMap_map]

theorem mem_framesTrace : event ∈ framesTrace trace ↔ .frame event ∈ trace := by
  simp only [framesTrace, List.mem_filterMap]
  constructor
  · rintro ⟨found, member, same⟩
    cases found <;> cases same
    exact member
  · exact fun member => ⟨_, member, rfl⟩

end

/-! ## What the calls leave alone -/

namespace Frames

variable {f next : Frames} {events : List FrameEvent} {lease : Nat}

section
variable {call : SessionCall} {sdk : Sdk}

/-- A session call changes only the session. -/
theorem callSession_frame :
    (f.callSession call sdk).1 = { f with session := (f.callSession call sdk).1.session } := by
  cases call <;> rfl

@[simp, grind =] theorem callSession_worker : (f.callSession call sdk).1.worker = f.worker := by
  rw [callSession_frame]

@[simp, grind =] theorem callSession_ui : (f.callSession call sdk).1.ui = f.ui := by
  rw [callSession_frame]

@[simp, grind =] theorem callSession_slots : (f.callSession call sdk).1.slots = f.slots := by
  rw [callSession_frame]

@[simp, grind =] theorem callSession_closing : (f.callSession call sdk).1.closing = f.closing := by
  rw [callSession_frame]

@[simp, grind =] theorem callSession_quarantined :
    (f.callSession call sdk).1.quarantined = f.quarantined := by
  rw [callSession_frame]

@[simp, grind =] theorem callSession_isIdle : (f.callSession call sdk).1.isIdle = f.isIdle := by
  rw [callSession_frame]
  rfl

end

@[simp, grind =] theorem close_worker : f.close.worker = f.worker := rfl
@[simp, grind =] theorem close_ui : f.close.ui = f.ui := rfl
@[simp, grind =] theorem close_session : f.close.session = f.session := rfl
@[simp, grind =] theorem close_closing : f.close.closing = true := rfl
@[simp, grind =] theorem close_quarantined : f.close.quarantined = f.quarantined := rfl

/-- Reopening the mailbox changes only `closing`. -/
theorem reopen_frame : f.reopen.2 = { f with closing := f.closing && !f.reopen.1 } := by
  unfold reopen
  split <;> simp

@[simp, grind =] theorem reopen_worker : f.reopen.2.worker = f.worker := by rw [reopen_frame]
@[simp, grind =] theorem reopen_ui : f.reopen.2.ui = f.ui := by rw [reopen_frame]
@[simp, grind =] theorem reopen_session : f.reopen.2.session = f.session := by rw [reopen_frame]
@[simp, grind =] theorem reopen_slots : f.reopen.2.slots = f.slots := by rw [reopen_frame]

/-- No submit returned. -/
def Unsubmitted (events : List FrameEvent) : Prop :=
  ∀ lease result, .submitted lease result ∉ events


theorem callSession_unsubmitted {call : SessionCall} {sdk : Sdk} :
    Unsubmitted (f.callSession call sdk).2 := by
  intro lease result member
  cases call
  case acquire =>
    simp only [callSession] at member
    split at member <;> simp at member
  all_goals simp [callSession] at member

/-- The UI thread moves neither the worker nor the session nor the lease of a slot. -/
theorem stepUi_frame {call : UiCall} (moved : f.stepUi call = some (next, events)) :
    next.worker = f.worker ∧ next.session = f.session ∧
      (∀ index, (next.slots index).lease = (f.slots index).lease) ∧ Unsubmitted events := by
  have kept : ∀ slot state index, ((f.setState slot state).slots index).lease =
      (f.slots index).lease := by
    intro slot state index
    by_cases same : index = slot <;> simp [setState, setSlot, same]
  have retired : ∀ index, ((f.retire unconsumed).slots index).lease = (f.slots index).lease := by
    intro index
    simp only [retire]
    split <;> rfl
  unfold stepUi at moved
  split at moved
  case h_7 =>
    unfold releaseImage at moved
    split at moved
    · obtain ⟨rfl, rfl⟩ := Prod.ext_iff.mp (Option.some.inj moved)
      exact ⟨rfl, rfl, kept _ _, by simp [Unsubmitted]⟩
    · cases moved
  case h_10 => cases moved
  all_goals obtain ⟨rfl, rfl⟩ := Prod.ext_iff.mp (Option.some.inj moved)
  case h_1 =>
    rcases poll_cases f ‹Bool› with failed | ⟨slot, _, _, _, polled⟩
    · rw [failed]
      exact ⟨rfl, rfl, fun _ => rfl, by simp [Unsubmitted]⟩
    · rw [polled]
      exact ⟨rfl, rfl, kept _ _, by simp [Unsubmitted]⟩
  case h_3 => exact ⟨rfl, rfl, retired, by simp [Unsubmitted]⟩
  case h_4 =>
    unfold reopen
    split <;> exact ⟨rfl, rfl, fun _ => rfl, by simp [Unsubmitted]⟩
  case h_8 =>
    rcases stepCreate_cases f ‹LeaseIndex› ‹Bool› with failed | ⟨_, _, shown⟩
    · rw [failed]
      exact ⟨rfl, rfl, fun _ => rfl, by simp [Unsubmitted]⟩
    · rw [shown]
      exact ⟨rfl, rfl, kept _ _, by simp [Unsubmitted]⟩
  case h_9 => exact ⟨rfl, rfl, kept _ _, by simp [stepFail, Unsubmitted]⟩
  all_goals exact ⟨rfl, rfl, fun _ => rfl, by simp [Unsubmitted]⟩

theorem releaseImage_ui {slot : LeaseIndex} {released : Frames × List FrameEvent}
    (gone : f.releaseImage slot = some released) : released.1.ui = f.ui := by
  unfold releaseImage at gone
  split at gone
  · rw [← Option.some.inj gone]
    rfl
  · cases gone

/-- The worker leaves a poll in progress alone. -/
theorem stepWorker_ui {call : WorkerCall} {answers : FrameAnswers}
    (moved : f.stepWorker call answers = some (next, events)) : next.ui = f.ui := by
  unfold stepWorker at moved
  split at moved
  case h_15 => cases moved
  all_goals obtain ⟨rfl, rfl⟩ := Prod.ext_iff.mp (Option.some.inj moved)
  case h_1 => exact callSession_ui
  case h_2 =>
    rcases submit_cases f ‹Nat› with ⟨same, _⟩ | ⟨_, _, same, _⟩ | ⟨_, _, _, _, _, _, _, _, same⟩ <;>
      rw [same] <;> rfl
  case h_3 =>
    unfold drain
    split <;> rfl
  case h_5 => exact reopen_ui
  case h_7 =>
    unfold stepPin
    dsimp only
    split
    · rfl
    · split <;> rfl
  case h_8 =>
    unfold stepReject
    dsimp only
    split <;> rfl
  case h_9 =>
    unfold stepPublish
    dsimp only
    split <;> rfl
  case h_10 =>
    unfold stepPromote
    rcases promote_cases f with same | ⟨_, _, _, _, same⟩ <;> rw [same] <;> rfl
  case h_11 =>
    unfold stepDrainSlot nextSlot
    split
    · rfl
    · split <;> rfl
  case h_12 =>
    unfold stepDrainPin
    dsimp only
    split <;> rfl
  case h_14 =>
    unfold stepDrainStore nextSlot
    dsimp only
    split <;> rfl
  all_goals rfl

/-- A drain in progress submits nothing. -/
theorem resume_drains {answers : FrameAnswers} (drains : f.worker.builds = none)
    (moved : f.stepWorker .resume answers = some (next, events)) :
    next.worker.builds = none ∧ Unsubmitted events := by
  have continued : ∀ (f : Frames) slot success, (f.nextSlot slot success).1.worker.builds = none ∧
      Unsubmitted (f.nextSlot slot success).2 := by
    intro f slot success
    unfold nextSlot
    split <;> exact ⟨rfl, by simp [Unsubmitted]⟩
  unfold stepWorker at moved
  split at moved
  case h_15 => cases moved
  all_goals try contradiction
  all_goals
    rename_i pc _
    rw [pc] at drains
    obtain ⟨rfl, rfl⟩ := Prod.ext_iff.mp (Option.some.inj moved)
  case h_7 | h_8 | h_9 => cases drains
  case h_10 => exact ⟨rfl, by simp [Unsubmitted]⟩
  case h_11 =>
    unfold stepDrainSlot
    split
    · exact ⟨rfl, by simp [Unsubmitted]⟩
    · exact continued _ _ _
  case h_12 =>
    unfold stepDrainPin
    dsimp only
    split
    · exact ⟨rfl, by simp [Unsubmitted]⟩
    · refine ⟨rfl, ?_⟩
      split <;> simp [Unsubmitted]
  case h_13 => exact ⟨rfl, by simp [stepDrainFault, Unsubmitted]⟩
  case h_14 =>
    rename_i returned
    refine ⟨(continued _ _ _).1, ?_⟩
    intro lease result member
    rcases List.mem_append.mp member with emptied | later
    · split at emptied <;> simp at emptied
    · exact (continued _ _ _).2 lease result later

/-- A submit in progress keeps its slot until it returns. -/
theorem resume_submits {answers : FrameAnswers} {slot : LeaseIndex}
    (builds : f.worker.builds = some slot)
    (moved : f.stepWorker .resume answers = some (next, events)) :
    (next.worker.builds = some slot ∧ (next.slots slot).lease = (f.slots slot).lease ∧
      Unsubmitted events) ∨
    (next.worker = .idle ∧ ∃ first result, result ≠ .wait ∧ Unsubmitted first ∧
      events = first ++ [.submitted (f.slots slot).lease result]) := by
  unfold stepWorker at moved
  split at moved
  case h_15 => cases moved
  all_goals try contradiction
  all_goals
    rename_i pc _
    rw [pc] at builds
    obtain ⟨rfl, rfl⟩ := Prod.ext_iff.mp (Option.some.inj moved)
  case h_7 =>
    obtain rfl := Option.some.inj builds
    unfold stepPin
    dsimp only
    split
    · exact .inl ⟨rfl, by simp, by simp [Unsubmitted]⟩
    · split <;> exact .inl ⟨rfl, by simp, by simp [Unsubmitted]⟩
  case h_8 =>
    obtain rfl := Option.some.inj builds
    unfold stepReject
    dsimp only
    split
    · exact .inr ⟨rfl, [.emptied _], .failed, by simp, by simp [Unsubmitted], rfl⟩
    · exact .inr ⟨rfl, [.quarantined], .ok, by simp, by simp [Unsubmitted], rfl⟩
  case h_9 =>
    obtain rfl := Option.some.inj builds
    unfold stepPublish
    dsimp only
    split <;> exact .inr ⟨rfl, [], .ok, by simp, by simp [Unsubmitted], rfl⟩
  all_goals cases builds

/-- A call of `submit` returns at once or begins its work on a slot. -/
theorem submit_begins (f : Frames) (lease : Nat) :
    (∃ result, f.submit lease = (f, [.submitted lease result])) ∨
    ∃ slot, (f.submit lease).1.worker.builds = some slot ∧
      ((f.submit lease).1.slots slot).lease = lease ∧ (f.submit lease).2 = [] := by
  rcases submit_cases f lease with ⟨same, _⟩ | ⟨result, _, same, _⟩ |
    ⟨slot, frame, _, _, _, _, _, _, same⟩
  · exact .inl ⟨.ok, same⟩
  · exact .inl ⟨result, same⟩
  · refine .inr ⟨slot, ?_⟩
    rw [same]
    exact ⟨rfl, by simp, rfl⟩

end Frames

/-! ## Every step is a step of the mailbox -/

/-- The mailbox rests or takes one step that its contract allows. -/
def MailboxStep (trace : List FrameEvent) (f next : Frames) (events : List FrameEvent) : Prop :=
  (next = f ∧ events = []) ∨ ∃ action, FrameContract trace f action ∧
    framesMachine.step f action = some (next, events)

namespace MailboxStep

variable {trace : List FrameEvent} {f : Frames}

theorem rest : MailboxStep trace f f [] := .inl ⟨rfl, rfl⟩

theorem worker (call : WorkerCall) (answers : FrameAnswers) {next : Frames}
    {events : List FrameEvent} (live : f.freed = false)
    (kept : ∀ lease, call ≠ .session (.release lease))
    (moved : f.stepWorker call answers = some (next, events)) :
    MailboxStep trace f next events := by
  refine .inr ⟨.worker call answers, ?_, by simpa [framesMachine, live] using moved⟩
  unfold FrameContract
  split
  · rename_i same
    cases same
    exact absurd rfl (kept _)
  · trivial

theorem ui (call : UiCall) {next : Frames} {events : List FrameEvent} (live : f.freed = false)
    (moved : f.stepUi call = some (next, events)) : MailboxStep trace f next events :=
  .inr ⟨.ui call, trivial, by simpa [framesMachine, live] using moved⟩

theorem session (call : SessionCall) (answers : FrameAnswers) (live : f.freed = false)
    (idle : f.worker = .idle)
    (allowed : ∀ lease, call = .release lease → .submitted lease .ok ∉ trace) :
    MailboxStep trace f (f.callSession call answers.sdk).1 (f.callSession call answers.sdk).2 := by
  refine .inr ⟨.worker (.session call) answers, ?_, by
    simp [framesMachine, live, Frames.stepWorker, idle]⟩
  unfold FrameContract
  split
  · rename_i same
    cases same
    exact allowed _ rfl
  · trivial

end MailboxStep

/-- How the two programs of the playback and of its mailbox stand to each other. -/
structure Link (trace : List PlaybackEvent) (p : Playback) : Prop where
  idle : p.pc ≠ .draining → p.pc ≠ .submitting → p.frames.worker = .idle
  draining : p.pc = .draining → p.frames.worker.builds = none
  submitting : p.pc = .submitting → ∃ slot, p.frames.worker.builds = some slot ∧
    (p.frames.slots slot).lease = p.locals.pending
  ui : p.ui ≠ .creating → p.frames.ui = .idle
  releasing : p.pc = .closeRelease ∨ p.pc = .seekRelease → p.locals.pending ≠ 0
  fresh : p.locals.pending ≠ 0 → .submitted p.locals.pending .ok ∉ framesTrace trace

namespace Playback

variable {trace events : List PlaybackEvent} {p next : Playback} {answers : PlaybackAnswers}

@[simp, grind =] theorem setPc_frames (pc : PlaybackPc) : (p.setPc pc).frames = p.frames := rfl
@[simp, grind =] theorem setPc_events (pc : PlaybackPc) : (p.setPc pc).events = p.events := rfl
@[simp, grind =] theorem setPc_status (pc : PlaybackPc) : (p.setPc pc).status = p.status := rfl
@[simp, grind =] theorem setPc_closing (pc : PlaybackPc) : (p.setPc pc).closing = p.closing := rfl
@[simp, grind =] theorem setPc_ownsAudio (pc : PlaybackPc) : (p.setPc pc).ownsAudio = p.ownsAudio := rfl
@[simp, grind =] theorem setPc_audioOwner (pc : PlaybackPc) : (p.setPc pc).audioOwner = p.audioOwner := rfl
@[simp, grind =] theorem setPc_locals (pc : PlaybackPc) : (p.setPc pc).locals = p.locals := rfl
@[simp, grind =] theorem setPc_pc (pc : PlaybackPc) : (p.setPc pc).pc = pc := rfl
@[simp, grind =] theorem setPc_ui (pc : PlaybackPc) : (p.setPc pc).ui = p.ui := rfl

section
variable {call : SessionCall} {sdk : Sdk}

@[simp, grind =] theorem call_frames :
    (p.call call sdk).1.frames = (p.frames.callSession call sdk).1 := rfl
@[simp, grind =] theorem call_pc : (p.call call sdk).1.pc = p.pc := rfl
@[simp, grind =] theorem call_ui : (p.call call sdk).1.ui = p.ui := rfl
@[simp, grind =] theorem call_locals : (p.call call sdk).1.locals = p.locals := rfl
@[simp, grind =] theorem call_status : (p.call call sdk).1.status = p.status := rfl
@[simp, grind =] theorem call_closing : (p.call call sdk).1.closing = p.closing := rfl
@[simp, grind =] theorem call_events : (p.call call sdk).1.events = p.events := rfl
@[simp, grind =] theorem call_ownsAudio : (p.call call sdk).1.ownsAudio = p.ownsAudio := rfl
@[simp, grind =] theorem call_audioOwner : (p.call call sdk).1.audioOwner = p.audioOwner := rfl

end

theorem call_trace {call : SessionCall} {sdk : Sdk} :
    framesTrace (p.call call sdk).2 = (p.frames.callSession call sdk).2 := by
  simp [Playback.call]

@[simp] theorem afterDrain_frames (step : Frames × List FrameEvent) :
    (p.afterDrain step).1.frames = step.1 := rfl

@[simp] theorem afterDrain_trace (step : Frames × List FrameEvent) :
    framesTrace (p.afterDrain step).2 = step.2 := framesTrace_map

@[simp] theorem afterSubmit_frames (step : Frames × List FrameEvent) :
    (p.afterSubmit step).1.frames = step.1 := by
  unfold afterSubmit
  dsimp only
  split <;> rfl

@[simp] theorem afterSubmit_trace (step : Frames × List FrameEvent) :
    framesTrace (p.afterSubmit step).2 = step.2 := framesTrace_map

theorem closeSession_mailbox {sdk : Sdk} {done failed : PlaybackPc} :
    (p.closeSession sdk done failed).1.frames = (p.call .close sdk).1.frames ∧
      framesTrace (p.closeSession sdk done failed).2 = framesTrace (p.call .close sdk).2 := by
  unfold closeSession
  dsimp only
  split
  · split <;> exact ⟨rfl, by simp [framesTrace]⟩
  · exact ⟨rfl, rfl⟩

theorem worker_mailbox (live : p.frames.freed = false) (link : Link trace p)
    (moved : p.stepWorker answers = some (next, events)) :
    MailboxStep (framesTrace trace) p.frames next.frames (framesTrace events) := by
  have called : ∀ call, p.frames.worker = .idle →
      (∀ lease, call = .release lease → .submitted lease .ok ∉ framesTrace trace) →
      MailboxStep (framesTrace trace) p.frames (p.call call answers.frame.sdk).1.frames
        (framesTrace (p.call call answers.frame.sdk).2) := by
    intro call idle allowed
    rw [call_trace]
    exact .session call answers.frame live idle allowed
  have idle := link.idle
  cases pc : p.pc <;> simp only [stepWorker, pc] at moved
  case returned => cases moved
  case draining | submitting =>
    obtain ⟨⟨frames, emitted⟩, stepped, same⟩ := Option.map_eq_some_iff.mp moved
    obtain ⟨rfl, rfl⟩ := Prod.ext_iff.mp same
    simpa using MailboxStep.worker .resume answers.frame live (by simp) stepped
  all_goals
    obtain ⟨rfl, rfl⟩ := Prod.ext_iff.mp (Option.some.inj moved)
    replace idle := idle (by simp [pc]) (by simp [pc])
  case opening => exact called (.open p.uri) idle (by simp)
  case openEvents =>
    unfold stepOpenEvents
    split
    · exact .rest
    · split
      · exact .rest
      · split
        · exact .rest
        · exact called (.allocator p.extraFrames) idle (by simp)
  case faultFrames | closeFrames =>
    exact .worker .close answers.frame live (by simp) (by simp only [Frames.stepWorker, idle]; rfl)
  case drain =>
    simpa using MailboxStep.worker .drain answers.frame live (by simp)
      (by simp only [Frames.stepWorker, idle])
  case closeRelease =>
    have fresh := link.fresh (link.releasing (.inl pc))
    unfold stepCloseRelease
    dsimp only
    split <;> exact called (.release p.locals.pending) idle (by rintro _ ⟨⟩; exact fresh)
  case seekRelease =>
    have fresh := link.fresh (link.releasing (.inr pc))
    unfold stepSeekRelease
    dsimp only
    split <;> exact called (.release p.locals.pending) idle (by rintro _ ⟨⟩; exact fresh)
  case closeIdle | seekIdle =>
    exact .worker .isIdle answers.frame live (by simp) (by simp only [Frames.stepWorker, idle]; rfl)
  case closeSession | seekClose =>
    obtain ⟨frames, trace⟩ := closeSession_mailbox
    rw [frames, trace]
    exact called .close idle (by simp)
  case seekSession => exact called (.seek p.locals.target) idle (by simp)
  case seekReopen =>
    have reopened : (p.stepSeekReopen).1.frames = p.frames.reopen.2 := by
      unfold stepSeekReopen
      dsimp only
      split <;> rfl
    rw [reopened]
    exact .worker .reopen answers.frame live (by simp) (by simp only [Frames.stepWorker, idle]; rfl)
  case startCall =>
    unfold stepStartCall
    dsimp only
    split
    · exact .rest
    · exact called .start idle (by simp)
  case pauseCall =>
    unfold stepPauseCall
    split
    · exact .rest
    · exact called (.pause p.locals.paused) idle (by simp)
  case acquire =>
    unfold stepAcquire
    split
    · exact .rest
    · dsimp only
      split <;> exact called .acquire idle (by simp)
  case submit =>
    simpa using MailboxStep.worker (.submit p.locals.pending) answers.frame live (by simp)
      (by simp only [Frames.stepWorker, idle])
  case openAudio =>
    unfold stepOpenAudio
    split <;> exact .rest
  case closeAudio =>
    unfold stepCloseAudio
    split <;> exact .rest
  case snapshot =>
    unfold stepSnapshot
    split
    · exact .rest
    · split <;> exact .rest
  all_goals exact .rest

@[simp] theorem afterPoll_frames (step : Frames × List FrameEvent) :
    (p.afterPoll step).1.frames = step.1 := rfl

@[simp] theorem afterPoll_trace (step : Frames × List FrameEvent) :
    framesTrace (p.afterPoll step).2 = step.2 := framesTrace_map

/-- The answers of calls that change nothing. -/
def refusals : List PlaybackEvent :=
  [.preserved false, .started false, .paused false, .volumed false, .seeked false, .pollRefused,
    .destroyed false]

/-- What a step of the UI thread can do. -/
inductive UiMove (p : Playback) : Playback → List PlaybackEvent → Prop where
  | refuse (event : PlaybackEvent) (refused : event ∈ refusals) : UiMove p p [event]
  | preserve (enabled : Bool) (idle : p.ui = .idle) (accepted : p.accepts = true) :
      UiMove p { p with frames := { p.frames with preserve := enabled } } [.preserved true]
  | start (accepted : p.startable = true) :
      UiMove p { p with startRequested := true } [.started true]
  | pause (paused : Bool) (accepted : p.startable = true) :
      UiMove p { p with pauseRequested := paused } [.paused true]
  | volume (volume : Int) (accepted : p.accepts = true) :
      UiMove p { p with volumeRequested := volume } [.volumed true]
  | seek (target : Nat) (idle : p.ui = .idle) (accepted : p.seekable target = true) :
      UiMove p
        { p with
          status := { p.status with
            seekPending := true, seekTarget := target, positionValid := false, state := .seeking }
          frames := p.frames.close }
        [.seeked true, .frame .closed]
  | poll (idle : p.ui = .idle) (allowed : p.pollable = true) : UiMove p { p with ui := .polling } []
  | close (idle : p.ui = .idle) : UiMove p p.close [.closeRequested]
  | destroy (idle : p.ui = .idle) (finished : p.status.finished = true)
      (empty : p.frames.isIdle = true) :
      UiMove p
        { p with allocator := false
                 frames := { p.frames with freed := p.frames.closing && p.frames.isIdle } }
        [.frame (.destroyed (p.frames.closing && p.frames.isIdle)),
          .destroyed (p.frames.closing && p.frames.isIdle)]
  | releaseImage (slot : LeaseIndex) (released : Frames × List FrameEvent) (idle : p.ui = .idle)
      (gone : p.frames.releaseImage slot = some released) :
      UiMove p { p with frames := released.1 } (released.2.map .frame)
  | take (polling : p.ui = .polling) :
      UiMove p (p.afterPoll (p.frames.poll false)).1 (p.afterPoll (p.frames.poll false)).2
  | create (ready : Bool) (created : Frames × List FrameEvent) (creating : p.ui = .creating)
      (stepped : p.frames.stepUi (.resume ready) = some created) :
      UiMove p (p.afterPoll created).1 (p.afterPoll created).2
  | shut (closing : p.ui = .closing) :
      UiMove p { p with frames := p.frames.close, ui := .idle } [.frame .closed]

theorem stepUi_moves {call : PlaybackCall} (moved : p.stepUi call = some (next, events)) :
    UiMove p next events := by
  unfold stepUi at moved
  split at moved
  case h_9 =>
    obtain ⟨released, gone, same⟩ := Option.map_eq_some_iff.mp moved
    obtain ⟨rfl, rfl⟩ := Prod.ext_iff.mp same
    exact .releaseImage _ released ‹_› gone
  case h_11 =>
    obtain ⟨created, stepped, same⟩ := Option.map_eq_some_iff.mp moved
    obtain ⟨rfl, rfl⟩ := Prod.ext_iff.mp same
    exact .create _ created ‹_› stepped
  case h_13 => cases moved
  all_goals obtain ⟨rfl, rfl⟩ := Prod.ext_iff.mp (Option.some.inj moved)
  case h_1 =>
    unfold preserve
    cases accepted : p.accepts
    · exact .refuse _ (by simp [refusals])
    · exact .preserve _ ‹_› accepted
  case h_2 =>
    unfold start
    cases accepted : p.startable
    · exact .refuse _ (by simp [refusals])
    · exact .start accepted
  case h_3 =>
    unfold pause
    cases accepted : p.startable
    · exact .refuse _ (by simp [refusals])
    · exact .pause _ accepted
  case h_4 =>
    unfold volume
    dsimp only
    split
    · rename_i accepted
      rw [accepted]
      exact .volume _ (Bool.and_eq_true_iff.mp accepted).2
    · rename_i refused
      rw [Bool.eq_false_iff.mpr refused]
      exact .refuse _ (by simp [refusals])
  case h_5 =>
    unfold seek
    split
    · exact .seek _ ‹_› ‹_›
    · exact .refuse _ (by simp [refusals])
  case h_6 =>
    unfold poll
    split
    · exact .poll ‹_› ‹_›
    · exact .refuse _ (by simp [refusals])
  case h_7 => exact .close ‹_›
  case h_8 =>
    unfold destroy
    split
    · exact .refuse _ (by simp [refusals])
    · rename_i checked
      split
      · exact .refuse _ (by simp [refusals])
      · simp only [Bool.or_eq_true, Bool.not_eq_true', not_or, Bool.not_eq_false] at checked
        exact .destroy ‹_› checked.1 checked.2
  case h_10 => exact .take ‹_›
  case h_12 => exact .shut ‹_›

theorem ui_mailbox (live : p.frames.freed = false) (link : Link trace p)
    (move : UiMove p next events) :
    MailboxStep (framesTrace trace) p.frames next.frames (framesTrace events) := by
  have idle := link.ui
  cases move with
  | refuse event refused =>
      simp only [refusals, List.mem_cons, List.not_mem_nil, or_false] at refused
      rcases refused with rfl | rfl | rfl | rfl | rfl | rfl | rfl <;> exact .rest
  | start | pause | volume | poll | close => exact .rest
  | preserve enabled ui =>
      exact .ui (.preserve enabled) live
        (by simp only [Frames.stepUi, idle (by simp [ui])]; rfl)
  | seek target ui => exact .ui .close live (by simp only [Frames.stepUi, idle (by simp [ui])]; rfl)
  | shut ui => exact .ui .close live (by simp only [Frames.stepUi, idle (by simp [ui])]; rfl)
  | destroy ui => exact .ui .destroy live (by simp only [Frames.stepUi, idle (by simp [ui])]; rfl)
  | releaseImage slot released ui gone =>
      rw [framesTrace_map]
      exact .ui (.releaseImage slot) live
        (by simp only [Frames.stepUi, idle (by simp [ui])]; exact gone)
  | take ui =>
      simpa using MailboxStep.ui (.poll false) live
        (by simp only [Frames.stepUi, idle (by simp [ui])])
  | create ready created ui stepped => simpa using MailboxStep.ui (.resume ready) live stepped

/-! ## The link is kept -/

/-- A step of the worker outside `drain` and `submit`. -/
structure Ordinary (p next : Playback) (events : List PlaybackEvent) : Prop where
  worker : next.frames.worker = p.frames.worker
  frameUi : next.frames.ui = p.frames.ui
  ui : next.ui = p.ui
  pc : next.pc ≠ .draining ∧ next.pc ≠ .submitting
  releasing : next.pc = .closeRelease ∨ next.pc = .seekRelease → next.locals.pending ≠ 0
  pending : next.locals.pending ≠ 0 → next.locals.pending = p.locals.pending
  quiet : ∀ lease result, .frame (.submitted lease result) ∉ events

theorem Ordinary.link (ordinary : Ordinary p next events) (link : Link trace p)
    (idle : p.frames.worker = .idle) : Link (trace ++ events) next where
  idle := fun _ _ => ordinary.worker.trans idle
  draining := fun pc => absurd pc ordinary.pc.1
  submitting := fun pc => absurd pc ordinary.pc.2
  ui := by
    rw [ordinary.ui, ordinary.frameUi]
    exact link.ui
  releasing := ordinary.releasing
  fresh := by
    intro pending
    have same := ordinary.pending pending
    rw [same] at pending ⊢
    rw [framesTrace_append, List.mem_append, not_or]
    exact ⟨link.fresh pending, fun member => ordinary.quiet _ _ (mem_framesTrace.mp member)⟩

@[grind .] theorem call_unsubmitted {call : SessionCall} {sdk : Sdk} {lease : Nat}
    {result : SubmitResult} : .frame (.submitted lease result) ∉ (p.call call sdk).2 := by
  rw [← mem_framesTrace, call_trace]
  exact Frames.callSession_unsubmitted lease result

theorem worker_ordinary (moved : p.stepWorker answers = some (next, events))
    (drains : p.pc ≠ .drain ∧ p.pc ≠ .draining) (submits : p.pc ≠ .submit ∧ p.pc ≠ .submitting)
    (acquires : p.pc ≠ .acquire) : Ordinary p next events := by
  cases pc : p.pc <;> simp only [stepWorker, pc] at moved
  case drain | draining | submit | submitting | acquire => simp_all
  case returned => cases moved
  all_goals obtain ⟨rfl, rfl⟩ := Prod.ext_iff.mp (Option.some.inj moved)
  case opening =>
    unfold stepOpening
    constructor <;> grind
  case openAudio =>
    unfold stepOpenAudio
    constructor <;> grind
  case openEvents =>
    unfold stepOpenEvents
    constructor <;> grind
  case openStatus =>
    unfold stepOpenStatus
    constructor <;> grind
  case faultStatus =>
    unfold stepFaultStatus
    constructor <;> grind
  case faultFrames =>
    unfold stepFaultFrames
    constructor <;> grind
  case top =>
    unfold stepTop
    constructor <;> grind
  case closeFrames =>
    unfold stepCloseFrames
    constructor <;> grind
  case closeRelease =>
    unfold stepCloseRelease
    constructor <;> grind
  case closeIdle =>
    unfold stepCloseIdle
    constructor <;> grind
  case closeSession =>
    unfold closeSession
    constructor <;> grind
  case closeAudio =>
    unfold stepCloseAudio
    constructor <;> grind
  case closeFinish =>
    unfold stepCloseFinish
    constructor <;> grind
  case closeCheck =>
    constructor <;> grind
  case seekRelease =>
    unfold stepSeekRelease
    constructor <;> grind
  case seekIdle =>
    unfold stepSeekIdle
    constructor <;> grind
  case seekClose =>
    unfold closeSession
    constructor <;> grind
  case seekCancel =>
    constructor <;> grind
  case seekSession =>
    unfold stepSeekSession
    constructor <;> grind
  case seekReopen =>
    unfold stepSeekReopen
    constructor <;> grind
  case seekDone =>
    unfold stepSeekDone
    constructor <;> grind
  case snapshot =>
    unfold stepSnapshot
    constructor <;> grind
  case position =>
    unfold stepPosition
    constructor <;> grind [afterVolume]
  case volumeCall =>
    unfold stepVolumeCall
    constructor <;> grind
  case volumeStore =>
    unfold stepVolumeStore
    constructor <;> grind [afterVolume]
  case startCall =>
    unfold stepStartCall
    constructor <;> grind
  case terminal =>
    unfold stepTerminal report
    constructor <;> grind
  case pauseCall =>
    unfold stepPauseCall
    constructor <;> grind
  case playing =>
    unfold stepPlaying report
    constructor <;> grind
  case blocked =>
    unfold stepBlocked
    constructor <;> grind
  case received =>
    unfold stepReceived
    constructor <;> grind
  case refused =>
    unfold stepRefused
    constructor <;> grind
  case queued =>
    unfold stepQueued
    constructor <;> grind

theorem submitResult_none {emitted : List FrameEvent} (quiet : Frames.Unsubmitted emitted) :
    submitResult emitted = none := by
  rw [submitResult, List.findSome?_eq_none_iff]
  intro event member
  cases event
  case submitted lease result => exact absurd member (quiet lease result)
  all_goals rfl

theorem submitResult_some {first : List FrameEvent} {lease : Nat} {result : SubmitResult}
    (quiet : Frames.Unsubmitted first) :
    submitResult (first ++ [.submitted lease result]) = some result := by
  have earlier := submitResult_none quiet
  rw [submitResult] at earlier ⊢
  rw [List.findSome?_append, earlier]
  rfl

/-- The dispatch goes neither into a call nor to a release of nothing. -/
theorem dispatch_cases (drained : Bool) : p.dispatch drained ≠ .draining ∧
    p.dispatch drained ≠ .submitting ∧ p.dispatch drained ≠ .closeRelease ∧
    (p.dispatch drained = .seekRelease → p.locals.pending ≠ 0) := by
  unfold dispatch
  grind

theorem afterDrain_link {step : Frames × List FrameEvent} (link : Link trace p)
    (ui : step.1.ui = p.frames.ui) (drains : step.1.worker.builds = none)
    (quiet : Frames.Unsubmitted step.2) :
    Link (trace ++ (p.afterDrain step).2) (p.afterDrain step).1 := by
  obtain ⟨drained, submitted, release, seek⟩ := dispatch_cases (p := p) (.drained true ∈ step.2)
  have pc : (p.afterDrain step).1.pc =
      if step.1.worker = .idle then p.dispatch (.drained true ∈ step.2) else .draining := rfl
  constructor
  · grind [afterDrain_frames]
  · exact fun _ => drains
  · grind
  · rw [afterDrain_frames, ui]
    exact link.ui
  · have kept : (p.afterDrain step).1.locals = p.locals := rfl
    grind
  · intro pending
    rw [framesTrace_append, afterDrain_trace, List.mem_append, not_or]
    exact ⟨link.fresh pending, quiet _ _⟩

/-- A submit that returns. -/
theorem afterSubmit_returns {frames : Frames} {first : List FrameEvent} {result : SubmitResult}
    (link : Link trace p) (ui : frames.ui = p.frames.ui) (idle : frames.worker = .idle)
    (quiet : Frames.Unsubmitted first) :
    Link (trace ++ (p.afterSubmit (frames, first ++ [.submitted p.locals.pending result])).2)
      (p.afterSubmit (frames, first ++ [.submitted p.locals.pending result])).1 := by
  have ui : p.ui ≠ .creating → frames.ui = .idle := by
    rw [ui]
    exact link.ui
  have fresh : result ≠ .ok → p.locals.pending ≠ 0 →
      .submitted p.locals.pending .ok ∉ framesTrace (trace ++
        (p.afterSubmit (frames, first ++ [.submitted p.locals.pending result])).2) := by
    intro refused pending
    rw [framesTrace_append, afterSubmit_trace]
    simp only [List.mem_append, List.mem_singleton, FrameEvent.submitted.injEq, true_and, not_or]
    exact ⟨link.fresh pending, quiet _ _, refused.symm⟩
  have answer : submitResult (first ++ [.submitted p.locals.pending result]) = some result :=
    submitResult_some quiet
  unfold afterSubmit at fresh ⊢
  simp only [answer] at fresh ⊢
  cases result with
  | ok => exact ⟨fun _ _ => idle, by simp, by simp, ui, by simp, by simp⟩
  | failed => exact ⟨fun _ _ => idle, by simp, by simp, ui, by simp, fresh (by simp)⟩
  | wait => exact ⟨fun _ _ => idle, by simp, by simp, ui, by simp, fresh (by simp)⟩

/-- A submit that goes on. -/
theorem afterSubmit_continues {step : Frames × List FrameEvent} {slot : LeaseIndex}
    (link : Link trace p) (ui : step.1.ui = p.frames.ui)
    (builds : step.1.worker.builds = some slot)
    (lease : (step.1.slots slot).lease = p.locals.pending) (quiet : Frames.Unsubmitted step.2) :
    Link (trace ++ (p.afterSubmit step).2) (p.afterSubmit step).1 := by
  have fresh : p.locals.pending ≠ 0 →
      .submitted p.locals.pending .ok ∉ framesTrace (trace ++ (p.afterSubmit step).2) := by
    intro pending
    rw [framesTrace_append, afterSubmit_trace, List.mem_append, not_or]
    exact ⟨link.fresh pending, quiet _ _⟩
  unfold afterSubmit at fresh ⊢
  simp only [submitResult_none quiet] at fresh ⊢
  refine ⟨by simp, by simp, fun _ => ⟨slot, builds, lease⟩, ?_, by simp, fresh⟩
  intro apart
  exact ui.trans (link.ui apart)

/-- A new lease is one that no submit has seen. -/
theorem acquire_link {sdk : Sdk} (link : Link trace p) (idle : p.frames.worker = .idle)
    (sound : Custody.Sound (framesTrace trace) p.frames.custody) :
    Link (trace ++ (p.stepAcquire sdk).2) (p.stepAcquire sdk).1 := by
  have quiet : ∀ lease, .submitted lease .ok ∉ framesTrace (trace ++ (p.stepAcquire sdk).2) ↔
      .submitted lease .ok ∉ framesTrace trace := by
    intro lease
    rw [framesTrace_append, List.mem_append, not_or, and_iff_left_iff_imp]
    intro _
    rw [mem_framesTrace]
    unfold stepAcquire
    split
    · simp
    · exact call_unsubmitted
  have ui : (p.stepAcquire sdk).1.ui = p.ui ∧ (p.stepAcquire sdk).1.frames.ui = p.frames.ui ∧
      (p.stepAcquire sdk).1.frames.worker = p.frames.worker ∧
      ((p.stepAcquire sdk).1.pc ≠ .draining ∧ (p.stepAcquire sdk).1.pc ≠ .submitting ∧
        (p.stepAcquire sdk).1.pc ≠ .closeRelease ∧ (p.stepAcquire sdk).1.pc ≠ .seekRelease) := by
    unfold stepAcquire
    grind
  obtain ⟨ui, frameUi, worker, draining, submitting, release, seek⟩ := ui
  refine ⟨fun _ _ => worker.trans idle, fun pc => absurd pc draining,
    fun pc => absurd pc submitting, ?_, fun pc => by grind, ?_⟩
  · rw [ui, frameUi]
    exact link.ui
  · rw [quiet]
    unfold stepAcquire
    split
    · exact link.fresh
    · dsimp only
      split
      · exact link.fresh
      · rename_i lease slot acquired
        intro _ submitted
        have bound := sound.submitted_issued submitted
        obtain ⟨rfl, _⟩ := Session.acquire_some acquired
        exact absurd bound (Nat.not_succ_le_self _)

theorem worker_link (link : Link trace p)
    (sound : Custody.Sound (framesTrace trace) p.frames.custody)
    (moved : p.stepWorker answers = some (next, events)) : Link (trace ++ events) next := by
  cases pc : p.pc
  case drain =>
    have idle := link.idle (by simp [pc]) (by simp [pc])
    have drained : p.frames.stepWorker .drain answers.frame = some p.frames.drain := by
      simp only [Frames.stepWorker, idle]
    simp only [stepWorker, pc] at moved
    obtain ⟨rfl, rfl⟩ := Prod.ext_iff.mp (Option.some.inj moved)
    refine afterDrain_link link (Frames.stepWorker_ui drained) ?_ ?_
    · unfold Frames.drain
      split
      · rw [idle]
        rfl
      · rfl
    · unfold Frames.drain
      split <;> simp [Frames.Unsubmitted]
  case draining =>
    simp only [stepWorker, pc] at moved
    obtain ⟨step, stepped, same⟩ := Option.map_eq_some_iff.mp moved
    obtain ⟨rfl, rfl⟩ := Prod.ext_iff.mp same
    obtain ⟨drains, quiet⟩ := Frames.resume_drains (link.draining pc) stepped
    exact afterDrain_link link (Frames.stepWorker_ui stepped) drains quiet
  case submit =>
    have idle := link.idle (by simp [pc]) (by simp [pc])
    have begun : p.frames.stepWorker (.submit p.locals.pending) answers.frame =
        some (p.frames.submit p.locals.pending) := by
      simp only [Frames.stepWorker, idle]
    simp only [stepWorker, pc] at moved
    obtain ⟨rfl, rfl⟩ := Prod.ext_iff.mp (Option.some.inj moved)
    rcases Frames.submit_begins p.frames p.locals.pending with
      ⟨result, returned⟩ | ⟨slot, builds, lease, quiet⟩
    · rw [returned]
      have none : Frames.Unsubmitted [] := by simp [Frames.Unsubmitted]
      exact afterSubmit_returns link rfl idle none
    · exact afterSubmit_continues link (Frames.stepWorker_ui begun) builds lease
        (by simp [quiet, Frames.Unsubmitted])
  case submitting =>
    obtain ⟨slot, builds, lease⟩ := link.submitting pc
    simp only [stepWorker, pc] at moved
    obtain ⟨⟨frames, emitted⟩, stepped, same⟩ := Option.map_eq_some_iff.mp moved
    obtain ⟨rfl, rfl⟩ := Prod.ext_iff.mp same
    have ui := Frames.stepWorker_ui stepped
    rcases Frames.resume_submits builds stepped with
      ⟨still, kept, quiet⟩ | ⟨idle, first, result, _, quiet, rfl⟩
    · exact afterSubmit_continues link ui still (kept.trans lease) quiet
    · rw [lease]
      exact afterSubmit_returns link ui idle quiet
  case acquire =>
    have idle := link.idle (by simp [pc]) (by simp [pc])
    simp only [stepWorker, pc] at moved
    obtain ⟨rfl, rfl⟩ := Prod.ext_iff.mp (Option.some.inj moved)
    exact acquire_link link idle sound
  all_goals
    exact (worker_ordinary moved (by simp [pc]) (by simp [pc]) (by simp [pc])).link link
      (link.idle (by simp [pc]) (by simp [pc]))

/-- The UI thread leaves the worker, its locals and the session alone. -/
structure WorkerKept (p next : Playback) : Prop where
  pc : next.pc = p.pc
  locals : next.locals = p.locals
  worker : next.frames.worker = p.frames.worker
  session : next.frames.session = p.frames.session
  leases : ∀ index, (next.frames.slots index).lease = (p.frames.slots index).lease
  events : next.events = p.events
  ownsAudio : next.ownsAudio = p.ownsAudio
  audioOwner : next.audioOwner = p.audioOwner

theorem ui_kept (link : Link trace p) (move : UiMove p next events) :
    WorkerKept p next ∧ Frames.Unsubmitted (framesTrace events) ∧
      (next.ui ≠ .creating → next.frames.ui = .idle) := by
  have polled : ∀ step : Frames × List FrameEvent,
      (p.afterPoll step).1.ui ≠ .creating → (p.afterPoll step).1.frames.ui = .idle := by
    intro step apart
    by_contra busy
    exact apart (if_neg busy)
  have idle := link.ui
  cases move with
  | refuse event refused =>
      refine ⟨by constructor <;> simp, ?_, idle⟩
      simp only [refusals, List.mem_cons, List.not_mem_nil, or_false] at refused
      rcases refused with rfl | rfl | rfl | rfl | rfl | rfl | rfl <;>
        simp [framesTrace, Frames.Unsubmitted]
  | preserve enabled ui | start | pause | volume =>
      exact ⟨by constructor <;> simp, by simp [framesTrace, Frames.Unsubmitted], idle⟩
  | close ui =>
      exact ⟨by constructor <;> simp [close], by simp [framesTrace, Frames.Unsubmitted],
        fun _ => idle (by simp [ui])⟩
  | poll ui =>
      exact ⟨by constructor <;> simp, by simp [framesTrace, Frames.Unsubmitted],
        fun _ => idle (by simp [ui])⟩
  | destroy ui =>
      exact ⟨by constructor <;> simp, by simp [framesTrace, Frames.Unsubmitted], idle⟩
  | seek target ui =>
      have closed : p.frames.stepUi .close = some (p.frames.close, [.closed]) := by
        simp only [Frames.stepUi, idle (by simp [ui])]
      obtain ⟨worker, session, leases, _⟩ := Frames.stepUi_frame closed
      exact ⟨⟨rfl, rfl, worker, session, leases, rfl, rfl, rfl⟩,
        by simp [framesTrace, Frames.Unsubmitted], idle⟩
  | shut ui =>
      have closed : p.frames.stepUi .close = some (p.frames.close, [.closed]) := by
        simp only [Frames.stepUi, idle (by simp [ui])]
      obtain ⟨worker, session, leases, _⟩ := Frames.stepUi_frame closed
      exact ⟨⟨rfl, rfl, worker, session, leases, rfl, rfl, rfl⟩,
        by simp [framesTrace, Frames.Unsubmitted], fun _ => idle (by simp [ui])⟩
  | releaseImage slot released ui gone =>
      have stepped : p.frames.stepUi (.releaseImage slot) = some released := by
        simp only [Frames.stepUi, idle (by simp [ui])]
        exact gone
      obtain ⟨worker, session, leases, quiet⟩ := Frames.stepUi_frame stepped
      exact ⟨⟨rfl, rfl, worker, session, leases, rfl, rfl, rfl⟩, by simpa using quiet,
        fun _ => (Frames.releaseImage_ui gone).trans (idle (by simp [ui]))⟩
  | take ui =>
      have stepped : p.frames.stepUi (.poll false) = some (p.frames.poll false) := by
        simp only [Frames.stepUi, idle (by simp [ui])]
      obtain ⟨worker, session, leases, quiet⟩ := Frames.stepUi_frame stepped
      refine ⟨⟨rfl, rfl, worker, session, leases, rfl, rfl, rfl⟩, ?_, polled _⟩
      rw [afterPoll_trace]
      exact quiet
  | create ready created ui stepped =>
      obtain ⟨worker, session, leases, quiet⟩ := Frames.stepUi_frame stepped
      refine ⟨⟨rfl, rfl, worker, session, leases, rfl, rfl, rfl⟩, ?_, polled _⟩
      rw [afterPoll_trace]
      exact quiet

theorem WorkerKept.link (kept : WorkerKept p next) (link : Link trace p)
    (quiet : Frames.Unsubmitted (framesTrace events))
    (ui : next.ui ≠ .creating → next.frames.ui = .idle) : Link (trace ++ events) next where
  idle := by
    rw [kept.pc, kept.worker]
    exact link.idle
  draining := by
    rw [kept.pc, kept.worker]
    exact link.draining
  submitting := by
    rw [kept.pc, kept.worker, kept.locals]
    intro pc
    obtain ⟨slot, builds, lease⟩ := link.submitting pc
    exact ⟨slot, builds, (kept.leases slot).trans lease⟩
  ui := ui
  releasing := by
    rw [kept.pc, kept.locals]
    exact link.releasing
  fresh := by
    rw [kept.locals, framesTrace_append, List.mem_append, not_or]
    exact fun pending => ⟨link.fresh pending, quiet _ _⟩

end Playback

/-! ## The machine -/

section
variable {trace events : List PlaybackEvent} {p next : Playback}

/-- A step of the playback is a worker step, a UI move, or the other player's. -/
theorem playbackMachine_step {action : PlaybackAction}
    (moved : playbackMachine.step p action = some (next, events)) : p.frames.freed = false ∧
      ((∃ answers, p.stepWorker answers = some (next, events)) ∨ p.UiMove next events ∨
        (p.audioOwner ≠ .self ∧ events = [] ∧ ∃ owner, owner ≠ .self ∧
          next = { p with audioOwner := owner })) := by
  unfold playbackMachine at moved
  dsimp only at moved
  split at moved
  · cases moved
  · rename_i live
    refine ⟨Bool.eq_false_iff.mpr live, ?_⟩
    cases action with
    | worker answers => exact .inl ⟨answers, moved⟩
    | ui call => exact .inr (.inl (Playback.stepUi_moves moved))
    | otherAudio =>
        refine .inr (.inr ?_)
        simp only [Playback.otherAudio] at moved
        split at moved <;> rename_i owner
        · obtain ⟨rfl, rfl⟩ := Prod.ext_iff.mp (Option.some.inj moved)
          exact ⟨by simp [owner], rfl, .other, by simp, rfl⟩
        · obtain ⟨rfl, rfl⟩ := Prod.ext_iff.mp (Option.some.inj moved)
          exact ⟨by simp [owner], rfl, .free, by simp, rfl⟩
        · cases moved

/-- A run of the playback is a run of its mailbox under the contract. -/
theorem playback_mailbox {trace : List PlaybackEvent} {p : Playback}
    (reached : playbackMachine.Reaches Machine.Always trace p) :
    Link trace p ∧ framesMachine.Reaches FrameContract (framesTrace trace) p.frames := by
  refine reached.invariant (fun trace p => Link trace p ∧
    framesMachine.Reaches FrameContract (framesTrace trace) p.frames) ?_ ?_
  · rintro p ⟨uri, extraFrames, owner, rfl, _⟩
    exact ⟨⟨fun _ _ => rfl, fun pc => rfl, by simp [Playback.prepared], fun _ => rfl,
      by simp [Playback.prepared], by simp [Playback.prepared]⟩, .start rfl⟩
  · rintro trace p action next events ⟨link, reached⟩ _ moved
    obtain ⟨control, sound⟩ := framesMachine_sound reached
    obtain ⟨live, stepped⟩ := playbackMachine_step moved
    have advance : MailboxStep (framesTrace trace) p.frames next.frames (framesTrace events) →
        framesMachine.Reaches FrameContract (framesTrace (trace ++ events)) next.frames := by
      rintro (⟨same, quiet⟩ | ⟨action, allowed, moved⟩)
      · rw [framesTrace_append, same, quiet, List.append_nil]
        exact reached
      · rw [framesTrace_append]
        exact .step reached allowed moved
    rcases stepped with ⟨answers, worker⟩ | ui | ⟨_, rfl, owner, _, rfl⟩
    · exact ⟨Playback.worker_link link sound worker,
        advance (Playback.worker_mailbox live link worker)⟩
    · obtain ⟨kept, quiet, rest⟩ := Playback.ui_kept link ui
      exact ⟨kept.link link quiet rest, advance (Playback.ui_mailbox live link ui)⟩
    · rw [List.append_nil]
      exact ⟨⟨link.idle, link.draining, link.submitting, link.ui, link.releasing, link.fresh⟩,
        reached⟩

/-- The custody of the mailbox holds in every run of the playback. -/
theorem playback_sound (reached : playbackMachine.Reaches Machine.Always trace p) :
    p.frames.Control ∧ Custody.Sound (framesTrace trace) p.frames.custody :=
  framesMachine_sound (playback_mailbox reached).2

end

end LvglAic.Player
