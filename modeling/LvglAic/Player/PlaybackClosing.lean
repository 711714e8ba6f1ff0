import LvglAic.Player.PlaybackCustody

/-! # A finished playback has given everything back

The closing branch of the worker passes its checks one after the other, and no
UI call undoes one of them once publication is closed.
-/

namespace LvglAic.Player

namespace PlaybackPc

/-- The worker is in its closing branch, or in the second section of `fault`. -/
@[grind] def closes : PlaybackPc → Bool
  | .faultFrames _ | .closeFrames | .closeRelease | .closeIdle | .closeSession | .closeAudio
  | .closeFinish | .closeCheck | .returned => true
  | _ => false

/-- Neither the closing branch, nor the way into it, nor a change of the audio owner. -/
def calm : PlaybackPc → Bool
  | .openAudio _ | .faultStatus _ | .faultFrames _ | .top | .drain | .draining | .closeFrames
  | .closeRelease | .closeIdle | .closeSession | .closeAudio | .closeFinish | .closeCheck
  | .returned => false
  | _ => true

/-- The closing branch has closed publication. -/
@[grind] def shut : PlaybackPc → Bool
  | .closeRelease | .closeIdle | .closeSession | .closeAudio | .closeFinish | .returned => true
  | _ => false

/-- The pending lease is back. -/
@[grind] def settled : PlaybackPc → Bool
  | .closeIdle | .closeSession | .closeAudio | .closeFinish | .returned => true
  | _ => false

/-- The mailbox was found idle. -/
@[grind] def emptied : PlaybackPc → Bool
  | .closeSession | .closeAudio | .closeFinish | .returned => true
  | _ => false

/-- The session and the event object are gone. -/
@[grind] def gone : PlaybackPc → Bool
  | .closeAudio | .closeFinish | .returned => true
  | _ => false

/-- The audio device is given back. -/
@[grind] def silent : PlaybackPc → Bool
  | .closeFinish | .returned => true
  | _ => false

/-- The event object is yet to be created. -/
@[grind] def opens : PlaybackPc → Bool
  | .opening _ | .openAudio _ | .openEvents _ | .seekCancel => true
  | _ => false

end PlaybackPc

/-- What the worker has established where it stands. -/
structure Closing (p : Playback) : Prop where
  ordered : p.locals.closing = true → p.pc = .drain ∨ p.pc = .draining → p.closing = true
  closing : p.pc.closes = true → p.closing = true
  shut : p.pc.shut = true → p.frames.closing = true
  settled : p.pc.settled = true → p.locals.pending = 0
  emptied : p.pc.emptied = true → p.frames.isIdle = true
  gone : p.pc.gone = true → p.session = p.session.cleared ∧ p.events = none
  silent : p.pc.silent = true → p.ownsAudio = false
  audio : p.ownsAudio = true ↔ p.audioOwner = .self
  finished : p.status.finished = true ↔ p.pc = .returned

/-- Each event object that was created is the current one or was destroyed. -/
structure Created (trace : List PlaybackEvent) (p : Playback) : Prop where
  vacant : p.pc.opens = true → p.events = none
  balance : trace.count .eventsCreated =
    trace.count .eventsDestroyed + p.events.isSome.toNat

namespace Playback

variable {trace events : List PlaybackEvent} {p next : Playback} {answers : PlaybackAnswers}

/-- A session that closed is blank. -/
theorem closeSession_success {sdk : Sdk} (closed : (p.session.close sdk).1 = true) :
    (p.frames.callSession .close sdk).1.session =
      (p.frames.callSession .close sdk).1.session.cleared := by
  have blank : (p.frames.callSession .close sdk).1.session = p.session.cleared :=
    (Session.close_closed closed).1
  rw [blank]
  rfl

/-- A step outside the closing branch that leaves the audio device alone. -/
structure Calm (p next : Playback) : Prop where
  pc : next.pc.closes = false ∧ next.pc ≠ .drain ∧ next.pc ≠ .draining
  audio : next.ownsAudio = p.ownsAudio ∧ next.audioOwner = p.audioOwner
  finished : next.status.finished = p.status.finished

theorem Calm.closing (calm : Calm p next) (closing : Closing p) (running : p.pc.calm = true) :
    Closing next := by
  obtain ⟨⟨outside, drain, draining⟩, ⟨owns, owner⟩, finished⟩ := calm
  have inside : ∀ stage : PlaybackPc → Bool, (∀ pc, stage pc = true → pc.closes = true) →
      stage next.pc ≠ true := by
    intro stage within reached
    rw [within _ reached] at outside
    cases outside
  constructor
  · intro _ pc
    exact absurd pc (not_or.mpr ⟨drain, draining⟩)
  · exact fun reached => absurd reached (inside _ fun _ => id)
  · exact fun reached => absurd reached (inside _ fun pc => by cases pc <;> simp [PlaybackPc.closes, PlaybackPc.shut])
  · exact fun reached => absurd reached (inside _ fun pc => by cases pc <;> simp [PlaybackPc.closes, PlaybackPc.settled])
  · exact fun reached => absurd reached (inside _ fun pc => by cases pc <;> simp [PlaybackPc.closes, PlaybackPc.emptied])
  · exact fun reached => absurd reached (inside _ fun pc => by cases pc <;> simp [PlaybackPc.closes, PlaybackPc.gone])
  · exact fun reached => absurd reached (inside _ fun pc => by cases pc <;> simp [PlaybackPc.closes, PlaybackPc.silent])
  · rw [owns, owner]
    exact closing.audio
  · rw [finished, closing.finished]
    constructor
    · intro pc
      rw [pc] at running
      cases running
    · intro pc
      rw [pc] at outside
      cases outside

theorem worker_calm (moved : p.stepWorker answers = some (next, events))
    (outside : p.pc.calm = true) : Calm p next := by
  cases pc : p.pc <;> simp only [stepWorker, pc] at moved
  case openAudio | faultStatus | faultFrames | top | drain | draining | closeFrames | closeRelease
      | closeIdle | closeSession | closeAudio | closeFinish | closeCheck | returned =>
    rw [pc] at outside
    cases outside
  case submitting =>
    obtain ⟨step, _, same⟩ := Option.map_eq_some_iff.mp moved
    obtain ⟨rfl, rfl⟩ := Prod.ext_iff.mp same
    unfold afterSubmit
    constructor <;> grind
  all_goals
    obtain ⟨rfl, rfl⟩ := Prod.ext_iff.mp (Option.some.inj moved)
    clear moved outside
  case opening =>
    unfold stepOpening
    constructor <;> grind
  case openEvents =>
    unfold stepOpenEvents
    constructor <;> grind
  case openStatus =>
    unfold stepOpenStatus
    constructor <;> grind
  case seekRelease =>
    unfold stepSeekRelease
    constructor <;> grind
  case seekIdle =>
    unfold stepSeekIdle
    constructor <;> grind
  case seekClose =>
    unfold closeSession
    constructor <;> grind
  case seekCancel =>
    constructor <;> grind
  case seekSession =>
    unfold stepSeekSession
    constructor <;> grind
  case seekReopen =>
    unfold stepSeekReopen
    constructor <;> grind
  case seekDone =>
    unfold stepSeekDone
    constructor <;> grind
  case snapshot =>
    unfold stepSnapshot
    constructor <;> grind
  case position =>
    unfold stepPosition afterVolume
    constructor <;> grind
  case volumeCall =>
    unfold stepVolumeCall
    constructor <;> grind
  case volumeStore =>
    unfold stepVolumeStore afterVolume
    constructor <;> grind
  case startCall =>
    unfold stepStartCall
    constructor <;> grind
  case terminal =>
    unfold stepTerminal report
    constructor <;> grind
  case pauseCall =>
    unfold stepPauseCall
    constructor <;> grind
  case playing =>
    unfold stepPlaying report
    constructor <;> grind
  case blocked =>
    unfold stepBlocked
    constructor <;> grind
  case acquire =>
    unfold stepAcquire
    constructor <;> grind
  case received =>
    unfold stepReceived
    constructor <;> grind
  case submit =>
    unfold afterSubmit
    constructor <;> grind
  case refused =>
    unfold stepRefused
    constructor <;> grind
  case queued =>
    unfold stepQueued
    constructor <;> grind

theorem afterDrain_closing {step : Frames × List FrameEvent} (closing : Closing p) (pc : p.pc = .drain ∨ p.pc = .draining) :
    Closing (p.afterDrain step).1 := by
  obtain ⟨ordered, closes, shut, settled, emptied, gone, silent, audio, finished⟩ := closing
  unfold Playback.afterDrain dispatch
  constructor <;> grind

theorem stepOpenAudio_closing {seeking gate : Bool} (closing : Closing p) (pc : p.pc = .openAudio seeking) :
    Closing (p.stepOpenAudio seeking gate) := by
  obtain ⟨ordered, closes, shut, settled, emptied, gone, silent, audio, finished⟩ := closing
  unfold Playback.stepOpenAudio
  constructor <;> grind

theorem stepFaultStatus_closing {after : AfterFault} (closing : Closing p) (pc : p.pc = .faultStatus after) :
    Closing (p.stepFaultStatus after) := by
  obtain ⟨ordered, closes, shut, settled, emptied, gone, silent, audio, finished⟩ := closing
  unfold Playback.stepFaultStatus
  constructor <;> grind

theorem stepFaultFrames_closing {after : AfterFault} (closing : Closing p) (pc : p.pc = .faultFrames after) :
    Closing (p.stepFaultFrames after) := by
  obtain ⟨ordered, closes, shut, settled, emptied, gone, silent, audio, finished⟩ := closing
  unfold Playback.stepFaultFrames
  constructor <;> grind

theorem stepTop_closing (closing : Closing p) (pc : p.pc = .top) :
    Closing p.stepTop := by
  obtain ⟨ordered, closes, shut, settled, emptied, gone, silent, audio, finished⟩ := closing
  unfold Playback.stepTop
  constructor <;> grind

theorem stepCloseFrames_closing (closing : Closing p) (pc : p.pc = .closeFrames) :
    Closing p.stepCloseFrames := by
  obtain ⟨ordered, closes, shut, settled, emptied, gone, silent, audio, finished⟩ := closing
  unfold Playback.stepCloseFrames
  constructor <;> grind

theorem stepCloseRelease_closing {sdk : Sdk} (closing : Closing p) (pc : p.pc = .closeRelease) :
    Closing (p.stepCloseRelease sdk).1 := by
  obtain ⟨ordered, closes, shut, settled, emptied, gone, silent, audio, finished⟩ := closing
  unfold Playback.stepCloseRelease
  constructor <;> grind

theorem stepCloseIdle_closing (closing : Closing p) (pc : p.pc = .closeIdle) :
    Closing p.stepCloseIdle.1 := by
  obtain ⟨ordered, closes, shut, settled, emptied, gone, silent, audio, finished⟩ := closing
  unfold Playback.stepCloseIdle
  constructor <;> grind

theorem closeSession_closing {sdk : Sdk} (closing : Closing p) (pc : p.pc = .closeSession) :
    Closing (p.closeSession sdk (if p.ownsAudio then .closeAudio else .closeFinish)
      .closeCheck).1 := by
  obtain ⟨ordered, closes, shut, settled, emptied, gone, silent, audio, finished⟩ := closing
  unfold Playback.closeSession
  constructor <;> grind [closeSession_success, Playback.session]

theorem stepCloseAudio_closing {gate : Bool} (closing : Closing p) (pc : p.pc = .closeAudio) :
    Closing (p.stepCloseAudio gate) := by
  obtain ⟨ordered, closes, shut, settled, emptied, gone, silent, audio, finished⟩ := closing
  unfold Playback.stepCloseAudio
  constructor <;> grind [Playback.session]

theorem stepCloseFinish_closing (closing : Closing p) (pc : p.pc = .closeFinish) :
    Closing p.stepCloseFinish := by
  obtain ⟨ordered, closes, shut, settled, emptied, gone, silent, audio, finished⟩ := closing
  unfold Playback.stepCloseFinish
  constructor <;> grind [Playback.session]

theorem closeCheck_closing (closing : Closing p) (pc : p.pc = .closeCheck) :
    Closing (p.setPc (if p.session.faulted then .faultStatus .top else .top)) := by
  obtain ⟨ordered, closes, shut, settled, emptied, gone, silent, audio, finished⟩ := closing
  constructor <;> grind

theorem worker_closing (closing : Closing p) (moved : p.stepWorker answers = some (next, events)) :
    Closing next := by
  by_cases calm : p.pc.calm = true
  · exact (worker_calm moved calm).closing closing calm
  cases pc : p.pc <;> simp only [pc, PlaybackPc.calm, not_true_eq_false] at calm
  all_goals simp only [stepWorker, pc] at moved
  case returned => cases moved
  case draining =>
    obtain ⟨step, _, same⟩ := Option.map_eq_some_iff.mp moved
    obtain ⟨rfl, rfl⟩ := Prod.ext_iff.mp same
    exact afterDrain_closing closing (.inr pc)
  all_goals
    obtain ⟨rfl, rfl⟩ := Prod.ext_iff.mp (Option.some.inj moved)
    clear moved
  case openAudio => exact stepOpenAudio_closing closing pc
  case faultStatus => exact stepFaultStatus_closing closing pc
  case faultFrames => exact stepFaultFrames_closing closing pc
  case top => exact stepTop_closing closing pc
  case drain => exact afterDrain_closing closing (.inl pc)
  case closeFrames => exact stepCloseFrames_closing closing pc
  case closeRelease => exact stepCloseRelease_closing closing pc
  case closeIdle => exact stepCloseIdle_closing closing pc
  case closeSession => exact closeSession_closing closing pc
  case closeAudio => exact stepCloseAudio_closing closing pc
  case closeFinish => exact stepCloseFinish_closing closing pc
  case closeCheck => exact closeCheck_closing closing pc

/-! ## The event object -/

/-- A step that leaves the event object alone. -/
structure Aside (p next : Playback) (events : List PlaybackEvent) : Prop where
  opens : next.pc.opens = true → p.pc.opens = true
  kept : next.events = p.events
  created : .eventsCreated ∉ events
  destroyed : .eventsDestroyed ∉ events

theorem Aside.created_of (aside : Aside p next events) (created : Created trace p) :
    Created (trace ++ events) next where
  vacant := fun opens => aside.kept.trans (created.vacant (aside.opens opens))
  balance := by
    rw [List.count_append, List.count_append, List.count_eq_zero_of_not_mem aside.created,
      List.count_eq_zero_of_not_mem aside.destroyed, aside.kept]
    exact created.balance

@[grind .] theorem frame_map_created {emitted : List FrameEvent} :
    .eventsCreated ∉ emitted.map PlaybackEvent.frame := by simp

@[grind .] theorem frame_map_destroyed {emitted : List FrameEvent} :
    .eventsDestroyed ∉ emitted.map PlaybackEvent.frame := by simp

@[grind .] theorem call_created {call : SessionCall} {sdk : Sdk} :
    .eventsCreated ∉ (p.call call sdk).2 := frame_map_created

@[grind .] theorem call_destroyed {call : SessionCall} {sdk : Sdk} :
    .eventsDestroyed ∉ (p.call call sdk).2 := frame_map_destroyed

theorem worker_aside (moved : p.stepWorker answers = some (next, events))
    (others : (∀ seeking, p.pc ≠ .openEvents seeking) ∧ p.pc ≠ .closeSession ∧ p.pc ≠ .seekClose) :
    Aside p next events := by
  cases pc : p.pc <;> simp only [stepWorker, pc] at moved
  case openEvents | closeSession | seekClose => simp_all
  case returned => cases moved
  case draining =>
    obtain ⟨step, _, same⟩ := Option.map_eq_some_iff.mp moved
    obtain ⟨rfl, rfl⟩ := Prod.ext_iff.mp same
    unfold afterDrain dispatch
    constructor <;> grind
  case submitting =>
    obtain ⟨step, _, same⟩ := Option.map_eq_some_iff.mp moved
    obtain ⟨rfl, rfl⟩ := Prod.ext_iff.mp same
    unfold afterSubmit
    constructor <;> grind
  all_goals
    obtain ⟨rfl, rfl⟩ := Prod.ext_iff.mp (Option.some.inj moved)
    clear moved others
  case opening =>
    unfold stepOpening
    constructor <;> grind
  case openAudio =>
    unfold stepOpenAudio
    constructor <;> grind
  case openStatus =>
    unfold stepOpenStatus
    constructor <;> grind
  case faultStatus =>
    unfold stepFaultStatus
    constructor <;> grind
  case faultFrames =>
    unfold stepFaultFrames
    constructor <;> grind
  case top =>
    unfold stepTop
    constructor <;> grind
  case drain =>
    unfold afterDrain dispatch
    constructor <;> grind
  case closeFrames =>
    unfold stepCloseFrames
    constructor <;> grind
  case closeRelease =>
    unfold stepCloseRelease
    constructor <;> grind
  case closeIdle =>
    unfold stepCloseIdle
    constructor <;> grind
  case closeAudio =>
    unfold stepCloseAudio
    constructor <;> grind
  case closeFinish =>
    unfold stepCloseFinish
    constructor <;> grind
  case closeCheck =>
    constructor <;> grind
  case seekRelease =>
    unfold stepSeekRelease
    constructor <;> grind
  case seekIdle =>
    unfold stepSeekIdle
    constructor <;> grind
  case seekCancel =>
    constructor <;> grind
  case seekSession =>
    unfold stepSeekSession
    constructor <;> grind
  case seekReopen =>
    unfold stepSeekReopen
    constructor <;> grind
  case seekDone =>
    unfold stepSeekDone
    constructor <;> grind
  case snapshot =>
    unfold stepSnapshot
    constructor <;> grind
  case position =>
    unfold stepPosition afterVolume
    constructor <;> grind
  case volumeCall =>
    unfold stepVolumeCall
    constructor <;> grind
  case volumeStore =>
    unfold stepVolumeStore afterVolume
    constructor <;> grind
  case startCall =>
    unfold stepStartCall
    constructor <;> grind
  case terminal =>
    unfold stepTerminal report
    constructor <;> grind
  case pauseCall =>
    unfold stepPauseCall
    constructor <;> grind
  case playing =>
    unfold stepPlaying report
    constructor <;> grind
  case blocked =>
    unfold stepBlocked
    constructor <;> grind
  case acquire =>
    unfold stepAcquire
    constructor <;> grind
  case received =>
    unfold stepReceived
    constructor <;> grind
  case submit =>
    unfold afterSubmit
    constructor <;> grind
  case refused =>
    unfold stepRefused
    constructor <;> grind
  case queued =>
    unfold stepQueued
    constructor <;> grind

theorem closeSession_created {sdk : Sdk} {done failed : PlaybackPc} (created : Created trace p)
    (closed : failed.opens = false) :
    Created (trace ++ (p.closeSession sdk done failed).2) (p.closeSession sdk done failed).1 := by
  obtain ⟨vacant, balance⟩ := created
  have quiet : (p.call .close sdk).2.count .eventsCreated = 0 :=
    List.count_eq_zero_of_not_mem call_created
  have kept : (p.call .close sdk).2.count .eventsDestroyed = 0 :=
    List.count_eq_zero_of_not_mem call_destroyed
  unfold closeSession
  dsimp only
  split
  · refine ⟨fun _ => rfl, ?_⟩
    cases object : p.events <;> simp [object, List.count_append, quiet, kept] at balance ⊢ <;> omega
  · refine ⟨fun opens => ?_, by simpa [List.count_append, quiet, kept] using balance⟩
    rw [setPc_pc, closed] at opens
    cases opens

theorem worker_created (created : Created trace p)
    (moved : p.stepWorker answers = some (next, events)) : Created (trace ++ events) next := by
  cases pc : p.pc
  case openEvents seeking =>
    have vacant := created.vacant (by rw [pc]; rfl)
    have balance := created.balance
    simp only [stepWorker, pc] at moved
    obtain ⟨rfl, rfl⟩ := Prod.ext_iff.mp (Option.some.inj moved)
    unfold stepOpenEvents
    split
    · exact ⟨fun _ => rfl, by simpa [vacant] using balance⟩
    · constructor <;> grind
  case closeSession =>
    simp only [stepWorker, pc] at moved
    obtain ⟨rfl, rfl⟩ := Prod.ext_iff.mp (Option.some.inj moved)
    exact closeSession_created created rfl
  case seekClose =>
    simp only [stepWorker, pc] at moved
    obtain ⟨rfl, rfl⟩ := Prod.ext_iff.mp (Option.some.inj moved)
    exact closeSession_created created rfl
  all_goals exact (worker_aside moved (by simp [pc])).created_of created

/-! ## The UI thread undoes nothing -/

theorem isIdle_empty {f : Frames} (idle : f.isIdle = true) (index : LeaseIndex) :
    (f.slots index).state = .empty := by
  simp only [Frames.isIdle, Frames.allEmpty, Bool.and_eq_true, Bool.not_eq_true'] at idle
  simpa using Frames.anySlot_false.mp idle.2 index

theorem isIdle_close {f : Frames} (idle : f.isIdle = true) : f.close.isIdle = true := by
  have empty := isIdle_empty idle
  simp only [Frames.isIdle, Bool.and_eq_true, Bool.not_eq_true'] at idle ⊢
  refine ⟨idle.1, ?_⟩
  simp only [Frames.allEmpty, Bool.not_eq_true', Frames.anySlot_false, Frames.close]
  intro index
  rw [Frames.retire_state, empty index]
  rfl

/-- Closed publication stays closed while the UI thread acts. -/
theorem ui_shut (move : UiMove p next events) (shut : p.frames.closing = true) :
    next.frames.closing = true := by
  cases move with
  | releaseImage slot released ui gone =>
      unfold Frames.releaseImage at gone
      split at gone
      · rw [← Option.some.inj gone]
        exact shut
      · cases gone
  | take ui =>
      rcases Frames.poll_cases p.frames false with failed | ⟨_, opened, _⟩
      · rw [failed]
        exact shut
      · rw [shut] at opened
        cases opened
  | create ready created ui stepped =>
      unfold Frames.stepUi at stepped
      split at stepped
      case h_8 =>
        rcases Frames.stepCreate_cases p.frames ‹_› ‹_› with failed | ⟨opened, _⟩
        · rw [failed] at stepped
          rw [← Option.some.inj stepped]
          exact shut
        · rw [shut] at opened
          cases opened
      case h_9 =>
        rw [← Option.some.inj stepped]
        exact shut
      all_goals simp_all
  | seek | shut => rfl
  | _ => exact shut

/-- An idle mailbox with closed publication stays idle while the UI thread acts. -/
theorem ui_emptied (control : p.frames.Control) (move : UiMove p next events)
    (shut : p.frames.closing = true) (idle : p.frames.isIdle = true) :
    next.frames.isIdle = true := by
  have empty := isIdle_empty idle
  cases move with
  | releaseImage slot released ui gone =>
      unfold Frames.releaseImage at gone
      split at gone
      · rename_i shown
        have published := (control.images slot).mp shown
        rw [empty slot] at published
        cases published
      · cases gone
  | take ui =>
      rcases Frames.poll_cases p.frames false with failed | ⟨_, opened, _⟩
      · rw [failed]
        exact idle
      · rw [shut] at opened
        cases opened
  | create ready created ui stepped =>
      have vacant : p.frames.ui = .idle := by
        cases busy : p.frames.ui with
        | idle => rfl
        | creating slot | failing slot =>
            have publishing := (control.publishes slot).mp (by rw [busy]; rfl)
            rw [empty slot] at publishing
            cases publishing
      simp [Frames.stepUi, vacant] at stepped
  | seek | shut => exact isIdle_close idle
  | _ => exact idle

theorem ui_created (created : Created trace p) (link : Link trace p) (move : UiMove p next events) :
    Created (trace ++ events) next := by
  obtain ⟨⟨pc, _, _, _, _, kept, _, _⟩, _⟩ := ui_kept link move
  refine Aside.created_of ⟨by rw [pc]; exact id, kept, ?_, ?_⟩ created
  all_goals
    cases move with
    | refuse event kind =>
        intro member
        obtain rfl := List.mem_singleton.mp member
        simp [refusals] at kind
    | releaseImage | take | create => simp [afterPoll]
    | _ => simp

theorem ui_closing (closing : Closing p) (control : p.frames.Control) (link : Link trace p)
    (move : UiMove p next events) : Closing next := by
  obtain ⟨⟨pc, locals, worker, session, leases, eventObject, owns, owner⟩, _⟩ := ui_kept link move
  have flag : p.closing = true → next.closing = true := by
    intro requested
    cases move <;> first | exact requested | rfl
  have finished : next.status.finished = p.status.finished := by cases move <;> rfl
  have gone : next.session = p.session := session
  constructor
  · rw [locals, pc]
    exact fun ordered stage => flag (closing.ordered ordered stage)
  · rw [pc]
    exact fun stage => flag (closing.closing stage)
  · rw [pc]
    exact fun stage => ui_shut move (closing.shut stage)
  · rw [pc, locals]
    exact closing.settled
  · rw [pc]
    intro stage
    have shut : p.pc.shut = true := by
      revert stage
      cases p.pc <;> simp [PlaybackPc.emptied, PlaybackPc.shut]
    exact ui_emptied control move (closing.shut shut) (closing.emptied stage)
  · rw [pc, gone, eventObject]
    exact closing.gone
  · rw [pc, owns]
    exact closing.silent
  · rw [owns, owner]
    exact closing.audio
  · rw [finished, pc]
    exact closing.finished

end Playback

theorem playback_closing {trace : List PlaybackEvent} {p : Playback}
    (reached : playbackMachine.Reaches Machine.Always trace p) : Closing p := by
  induction reached with
  | start initial =>
      obtain ⟨uri, extraFrames, owner, rfl, apart, _⟩ := initial
      constructor <;> simp [Playback.prepared, PlaybackPc.closes, PlaybackPc.shut,
        PlaybackPc.settled, PlaybackPc.emptied, PlaybackPc.gone, PlaybackPc.silent, apart]
  | step reached _ moved closing =>
      obtain ⟨_, ⟨answers, worker⟩ | ui | ⟨apart, rfl, owner, foreign, rfl⟩⟩ :=
        playbackMachine_step moved
      · exact Playback.worker_closing closing worker
      · exact Playback.ui_closing closing (playback_sound reached).1 (playback_mailbox reached).1 ui
      · obtain ⟨ordered, closes, shut, settled, emptied, gone, silent, audio, finished⟩ := closing
        refine ⟨ordered, closes, shut, settled, emptied, gone, silent, ?_, finished⟩
        rw [audio]
        exact ⟨fun same => absurd same apart, fun same => absurd same foreign⟩

theorem playback_created {trace : List PlaybackEvent} {p : Playback}
    (reached : playbackMachine.Reaches Machine.Always trace p) : Created trace p := by
  induction reached with
  | start initial =>
      obtain ⟨uri, extraFrames, owner, rfl, _⟩ := initial
      exact ⟨fun _ => rfl, rfl⟩
  | step reached _ moved created =>
      obtain ⟨_, ⟨answers, worker⟩ | ui | ⟨_, rfl, owner, _, rfl⟩⟩ := playbackMachine_step moved
      · exact Playback.worker_created created worker
      · exact Playback.ui_created created (playback_mailbox reached).1 ui
      · rw [List.append_nil]
        exact ⟨created.vacant, created.balance⟩

/-! ## The finished state -/

/-- Everything the player took is back, and its worker is gone. -/
structure GivenBack (trace : List PlaybackEvent) (p : Playback) : Prop where
  session : p.session = p.session.cleared
  held : ∀ lease, ¬p.session.Holds lease
  leases : ∀ lease, .frame (.acquired lease) ∈ trace →
    .frame (.put lease true) ∈ trace ∨ .frame (.handedBack lease true) ∈ trace
  slots : ∀ index, (p.frames.slots index).state = .empty
  pending : p.locals.pending = 0
  events : p.events = none
  destroyed : trace.count .eventsCreated = trace.count .eventsDestroyed
  audio : p.ownsAudio = false ∧ p.audioOwner ≠ .self
  worker : ∀ answers, p.stepWorker answers = none

/-- Answers that a finished playback may give. -/
def PlaybackEvent.afterFinish : PlaybackEvent → Bool
  | .frame (.polled _ _) | .seeked true | .started true | .paused true | .volumed true
  | .preserved true => false
  | _ => true

section
variable {trace events : List PlaybackEvent} {p next : Playback}

theorem givenBack (reached : playbackMachine.Reaches Machine.Always trace p)
    (finished : p.status.finished = true) : GivenBack trace p := by
  have closing := playback_closing reached
  have sound := (playback_sound reached).2
  have pc := closing.finished.mp finished
  obtain ⟨blank, events⟩ := closing.gone (by rw [pc]; rfl)
  have held : ∀ lease, ¬p.session.Holds lease := by
    rw [blank]
    rintro lease ⟨index, held, _⟩
    cases held
  have audio := closing.silent (by rw [pc]; rfl)
  refine ⟨blank, held, fun lease acquired => ?_,
    Playback.isIdle_empty (closing.emptied (by rw [pc]; rfl)), closing.settled (by rw [pc]; rfl),
    events, by simpa [events] using (playback_created reached).balance, ⟨audio, ?_⟩, fun answers => by simp [Playback.stepWorker, pc]⟩
  · have kept := sound.leases.acquired lease (mem_framesTrace.mpr acquired)
    simpa only [mem_framesTrace] using kept.resolve_left (held lease)
  · rw [ne_eq, ← closing.audio, audio]
    simp

/-- Nothing that a finished playback answers is an image or an acceptance. -/
theorem finished_answers (closing : Closing p) (finished : p.status.finished = true)
    (move : p.UiMove next events) : ∀ event ∈ events, event.afterFinish = true := by
  have shut : p.frames.closing = true := closing.shut (by rw [closing.finished.mp finished]; rfl)
  have refused : p.accepts = false := by simp [Playback.accepts, finished]
  cases move with
  | refuse event kind =>
      simp only [Playback.refusals, List.mem_cons, List.not_mem_nil, or_false] at kind
      rcases kind with rfl | rfl | rfl | rfl | rfl | rfl | rfl <;> simp [PlaybackEvent.afterFinish]
  | preserve _ _ accepted | volume _ accepted =>
      rw [refused] at accepted
      cases accepted
  | start accepted | pause _ accepted =>
      simp [Playback.startable, refused] at accepted
  | seek _ _ accepted => simp [Playback.seekable, refused] at accepted
  | poll | close | destroy | shut => simp [PlaybackEvent.afterFinish]
  | releaseImage slot released ui gone =>
      unfold Frames.releaseImage at gone
      split at gone
      · rw [← Option.some.inj gone]
        simp [PlaybackEvent.afterFinish]
      · cases gone
  | take ui =>
      simp [Playback.afterPoll, Frames.poll, shut, PlaybackEvent.afterFinish]
  | create ready created ui stepped =>
      unfold Frames.stepUi at stepped
      split at stepped
      case h_8 =>
        rcases Frames.stepCreate_cases p.frames ‹_› ‹_› with failed | ⟨opened, _⟩
        · rw [failed] at stepped
          rw [← Option.some.inj stepped]
          simp [Playback.afterPoll]
        · rw [shut] at opened
          cases opened
      case h_9 =>
        rw [← Option.some.inj stepped]
        simp [Playback.afterPoll, Frames.stepFail, PlaybackEvent.afterFinish]
      all_goals simp_all

/-- A step of a finished playback leaves it finished. -/
theorem finished_stays {action : PlaybackAction} (closing : Closing p)
    (finished : p.status.finished = true)
    (moved : playbackMachine.step p action = some (next, events)) :
    next.status.finished = true ∧ ∀ event ∈ events, event.afterFinish = true := by
  obtain ⟨_, ⟨answers, worker⟩ | ui | ⟨_, rfl, owner, _, rfl⟩⟩ := playbackMachine_step moved
  · simp [Playback.stepWorker, closing.finished.mp finished] at worker
  · refine ⟨?_, finished_answers closing finished ui⟩
    rw [← finished]
    cases ui <;> rfl
  · exact ⟨finished, by simp⟩

/-- In a finished playback everything was given back, every further call is
refused, and it can be destroyed once the allocator is empty. -/
theorem playback_finished_gave_back (reached : playbackMachine.Reaches Machine.Always trace p)
    (finished : p.status.finished = true) :
    GivenBack trace p ∧
      (∀ actions last later, playbackMachine.execute p actions = some (last, later) →
        last.status.finished = true ∧ ∀ event ∈ later, event.afterFinish = true) ∧
      (p.frames.freed = false → p.ui = .idle →
        ∃ last, playbackMachine.step p (.ui (.destroy true)) =
          some (last, [.frame (.destroyed true), .destroyed true])) := by
  refine ⟨givenBack reached finished, fun actions => ?_, fun live ui => ?_⟩
  · induction actions generalizing trace p with
    | nil =>
        rintro last later executed
        obtain ⟨rfl, rfl⟩ := Prod.ext_iff.mp (Option.some.inj executed)
        exact ⟨finished, by simp⟩
    | cons action rest ih =>
        intro last later executed
        cases moved : playbackMachine.step p action with
        | none => simp [Machine.execute, moved] at executed
        | some result =>
            obtain ⟨next, events⟩ := result
            obtain ⟨still, quiet⟩ := finished_stays (playback_closing reached) finished moved
            cases remaining : playbackMachine.execute next rest with
            | none => simp [Machine.execute, moved, remaining] at executed
            | some result =>
                obtain ⟨final, more⟩ := result
                simp only [Machine.execute, moved, remaining, Option.some.injEq,
                  Prod.mk.injEq] at executed
                obtain ⟨rfl, rfl⟩ := executed
                obtain ⟨ended, silent⟩ := ih (reached.extend moved) still _ _ remaining
                refine ⟨ended, fun event member => ?_⟩
                exact (List.mem_append.mp member).elim (quiet event) (silent event)
  · have closing := playback_closing reached
    have pc := closing.finished.mp finished
    have idle := closing.emptied (by rw [pc]; rfl)
    have shut := closing.shut (by rw [pc]; rfl)
    refine ⟨(p.destroy true).1, ?_⟩
    simp [playbackMachine, live, Playback.stepUi, ui, Playback.destroy, finished, idle, shut]

end

/-- The answers of calls that all succeed, for a medium with sound. -/
def generousPlayback (id : Nat) : PlaybackAnswers where
  frame := { generousAnswers id with
    sdk := { (generousAnswers id).sdk with
      mediaInfo := some { hasVideo := true, hasAudio := true, width := 16, height := 16
                          seekable := true, duration := 100 } } }
  gate := true
  eventsCreate := true
  eventsAttach := true
  snapshot := .zero

/-- A player opens, shows one frame, and is closed. -/
def closingRun : List PlaybackAction :=
  [.ui .start] ++ .replicate 27 (.worker (generousPlayback 1)) ++
    [.ui .poll, .ui (.resume true), .ui (.resume true), .ui .close, .ui (.resume true),
      .ui (.releaseImage 0)] ++
    .replicate 18 (.worker (generousPlayback 2))

theorem playback_finished_gave_back_shown : ∃ p trace,
    playbackMachine.execute (.prepared [1] 3 .free) closingRun = some (p, trace) ∧
      .frame (.acquired 1) ∈ trace ∧ GivenBack trace p := by
  obtain ⟨⟨p, trace⟩, executed⟩ := Option.isSome_iff_exists.mp
    (show (playbackMachine.execute (.prepared [1] 3 .free) closingRun).isSome = true by decide)
  have facts : (playbackMachine.execute (.prepared [1] 3 .free) closingRun).map
      (fun result => (result.1.status.finished,
        decide (PlaybackEvent.frame (.acquired 1) ∈ result.2))) = some (true, true) := by decide
  rw [executed] at facts
  simp only [Option.map_some, Option.some.injEq, Prod.mk.injEq, decide_eq_true_eq] at facts
  have initial : playbackMachine.Initial (.prepared [1] 3 .free) :=
    ⟨_, _, _, rfl, by decide, by decide, by decide, by decide, by decide⟩
  have reached := (Machine.Reaches.start initial).execute executed
  exact ⟨p, trace, executed, facts.2, (playback_finished_gave_back reached facts.1).1⟩

end LvglAic.Player
