import LvglAic.Player.Frames

/-! # Playback (`lv_aic_player_playback.c`)

One worker runs a session and its mailbox; the UI thread controls it under the
playback lock.  A step is one critical section or one call of the session, or
one step of the mailbox call in progress.  The event object is filled by SDK
callbacks, so its snapshot is answered by the environment.
-/

namespace LvglAic.Player

/-- `lv_aic_playback_state_t` -/
inductive PlaybackState where
  | opening
  | ready
  | playing
  | paused
  | terminal
  | closing
  | closed
  | fault
  | seeking
deriving DecidableEq, Repr

/-- `lv_aic_playback_status_t` -/
structure PlaybackStatus where
  state : PlaybackState
  finished : Bool
  hasVideo : Bool
  hasAudio : Bool
  seekable : Bool
  videoEos : Bool
  sdkTerminal : Bool
  positionValid : Bool
  width : Int
  height : Int
  framesReceived : Nat
  framesQueued : Nat
  duration : Int
  position : Int
  seekPending : Bool
  seekTarget : Nat
  seeksCompleted : Nat
  volume : Int
  mediaInfoValid : Bool
  mediaInfo : MediaInfo
deriving DecidableEq, Repr

/-- `struct lv_aic_player_events`, without the fields of its snapshot that
callbacks fill. -/
structure PlayerEvents where
  attached : Bool
  registrationFailed : Bool
deriving DecidableEq, Repr

/-- The fields of `lv_aic_player_event_snapshot_t` that callbacks fill and the
worker reads. -/
structure EventSnapshot where
  audioPts : Int
  audioValid : Bool
  terminal : Bool
  formatFailed : Bool
deriving DecidableEq, Repr

def EventSnapshot.zero : EventSnapshot :=
  { audioPts := 0, audioValid := false, terminal := false, formatFailed := false }

/-- `audio_owner` of the media runtime, as this player sees it. -/
inductive AudioOwner where
  | free
  | self
  | other
deriving DecidableEq, Repr

/-- The local variables of `worker`. -/
structure WorkerLocals where
  pending : Nat
  videoEos : Bool
  closing : Bool
  start : Bool
  paused : Bool
  volume : Int
  applied : Int
  seeking : Bool
  target : Nat
  events : EventSnapshot
deriving DecidableEq, Repr

/-- Where the worker goes on after `fault`. -/
inductive AfterFault where
  | top
  | closeFrames
  | closeCheck
deriving DecidableEq, Repr

inductive PlaybackPc where
  | opening (seeking : Bool)
  | openAudio (seeking : Bool)
  | openEvents (seeking : Bool)
  | openStatus (seeking : Bool)
  | faultStatus (after : AfterFault)
  | faultFrames (after : AfterFault)
  | top
  | drain
  | draining
  | closeFrames
  | closeRelease
  | closeIdle
  | closeSession
  | closeAudio
  | closeFinish
  | closeCheck
  | seekRelease
  | seekIdle
  | seekClose
  | seekCancel
  | seekSession
  | seekReopen
  | seekDone
  | snapshot
  | position
  | volumeCall
  | volumeStore
  | startCall
  | terminal
  | pauseCall
  | playing
  | blocked
  | acquire
  | received (slot : LeaseIndex)
  | submit
  | submitting
  | refused (result : SubmitResult)
  | queued
  | returned
deriving DecidableEq, Repr

/-- `polling` has passed the check of `poll`, `closing` is inside `close`. -/
inductive PlaybackUi where
  | idle
  | polling
  | creating
  | closing
deriving DecidableEq, Repr

/-- `struct lv_aic_player_playback`, with the mailbox that owns the session, the
owner of the audio device, and both threads. -/
structure Playback where
  frames : Frames
  allocator : Bool
  events : Option PlayerEvents
  status : PlaybackStatus
  extraFrames : Nat
  uri : List UInt8
  closing : Bool
  startRequested : Bool
  pauseRequested : Bool
  ownsAudio : Bool
  volumeRequested : Int
  audioOwner : AudioOwner
  locals : WorkerLocals
  pc : PlaybackPc
  ui : PlaybackUi

inductive PlaybackEvent where
  | frame (event : FrameEvent)
  | faulted
  | closeRequested
  | eventsCreated
  | eventsDestroyed
  | seeked (accepted : Bool)
  | seekCompleted
  | finished
  | preserved (accepted : Bool)
  | started (accepted : Bool)
  | paused (accepted : Bool)
  | volumed (accepted : Bool)
  | pollRefused
  | destroyed (result : Bool)
deriving DecidableEq, Repr

structure PlaybackAnswers where
  frame : FrameAnswers
  gate : Bool
  eventsCreate : Bool
  eventsAttach : Bool
  snapshot : EventSnapshot
deriving DecidableEq, Repr

namespace Playback

def session (p : Playback) : Session := p.frames.session

def setPc (p : Playback) (pc : PlaybackPc) : Playback := { p with pc }

/-- A session call of the worker through its mailbox's session. -/
def call (p : Playback) (call : SessionCall) (sdk : Sdk) : Playback × List PlaybackEvent :=
  let called := p.frames.callSession call sdk
  ({ p with frames := called.1 }, called.2.map .frame)

/-! ## `open_session` -/

def stepOpening (p : Playback) (seeking : Bool) (sdk : Sdk) : Playback × List PlaybackEvent :=
  let opened := p.call (.open p.uri) sdk
  (opened.1.setPc
    (if !(p.session.open p.uri sdk).1 then .faultStatus .top
    else if opened.1.session.info.hasAudio && !p.ownsAudio then .openAudio seeking
    else .openEvents seeking), opened.2)

/-- `lv_aic_media_audio_acquire` -/
def stepOpenAudio (p : Playback) (seeking gate : Bool) : Playback :=
  if gate && p.audioOwner ≠ .other then
    { p with audioOwner := .self, ownsAudio := true, pc := .openEvents seeking }
  else p.setPc (.faultStatus .top)

/-- `lv_aic_player_events_create`, `lv_aic_player_events_attach` and the allocator. -/
def stepOpenEvents (p : Playback) (seeking : Bool) (answers : PlaybackAnswers) :
    Playback × List PlaybackEvent :=
  if !answers.eventsCreate then ({ p with events := none, pc := .faultStatus .top }, [])
  else
    (if !p.session.player || p.session.started || p.session.faulted || p.session.quarantined then
      { p with events := some { attached := false, registrationFailed := false }
               pc := .faultStatus .top }
    else if !answers.eventsAttach then
      { p with events := some { attached := true, registrationFailed := true }
               pc := .faultStatus .top }
    else
      { p with
        frames := (p.frames.callSession (.allocator p.extraFrames) answers.frame.sdk).1
        events := some { attached := true, registrationFailed := false }
        pc := if (p.session.allocator p.extraFrames answers.frame.sdk).1 then .openStatus seeking
          else .faultStatus .top },
      [.eventsCreated])

def stepOpenStatus (p : Playback) (seeking : Bool) : Playback :=
  let info := p.session.info
  { p with
    status := { p.status with
      hasVideo := info.hasVideo, hasAudio := info.hasAudio, seekable := info.seekable
      duration := info.duration, width := info.width, height := info.height
      volume := -1, mediaInfo := info, mediaInfoValid := true
      state := if !p.closing && !p.status.seekPending then .ready else p.status.state }
    pc := if seeking then .seekSession else .top }

/-! ## `fault` -/

def stepFaultStatus (p : Playback) (after : AfterFault) : Playback :=
  { p with status := { p.status with state := .fault, seekPending := false }
           closing := true, pc := .faultFrames after }

def stepFaultFrames (p : Playback) (after : AfterFault) : Playback :=
  { p with
    frames := p.frames.close
    pc := match after with
      | .top => .top
      | .closeFrames => .closeFrames
      | .closeCheck => .closeCheck }

/-! ## The loop up to its branches -/

def stepTop (p : Playback) : Playback :=
  { p with
    locals := { p.locals with
      closing := p.closing, start := p.startRequested, paused := p.pauseRequested
      volume := p.volumeRequested, applied := p.status.volume
      seeking := p.status.seekPending, target := p.status.seekTarget }
    pc := .drain }

/-- After `drain` has returned. -/
def dispatch (p : Playback) (drained : Bool) : PlaybackPc :=
  if !drained then .faultStatus .closeFrames
  else if p.locals.closing then .closeFrames
  else if p.locals.seeking then (if p.locals.pending = 0 then .seekIdle else .seekRelease)
  else .snapshot

/-- One step of the drain in progress. -/
def afterDrain (p : Playback) (step : Frames × List FrameEvent) : Playback × List PlaybackEvent :=
  ({ p with
      frames := step.1
      pc := if step.1.worker = .idle then p.dispatch (.drained true ∈ step.2) else .draining },
    step.2.map .frame)

/-! ## Closing -/

def stepCloseFrames (p : Playback) : Playback :=
  { p with frames := p.frames.close
           pc := if p.locals.pending = 0 then .closeIdle else .closeRelease }

def stepCloseRelease (p : Playback) (sdk : Sdk) : Playback × List PlaybackEvent :=
  let released := p.call (.release p.locals.pending) sdk
  (if (p.session.release p.locals.pending sdk).1 then
    { released.1 with locals := { p.locals with pending := 0 }, pc := .closeIdle }
  else released.1.setPc (.faultStatus .closeCheck), released.2)

def stepCloseIdle (p : Playback) : Playback × List PlaybackEvent :=
  (p.setPc (if p.frames.isIdle then .closeSession else .closeCheck), [.frame (.idle p.frames.isIdle)])

/-- `lv_aic_player_events_destroy` succeeds. -/
def eventsDestroyed (p : Playback) : Bool :=
  match p.events with
  | none => true
  | some events => !(events.attached && p.session.player)

/-- `lv_aic_player_session_close` and `lv_aic_player_events_destroy`. -/
def closeSession (p : Playback) (sdk : Sdk) (done failed : PlaybackPc) :
    Playback × List PlaybackEvent :=
  let closed := p.call .close sdk
  if (p.session.close sdk).1 && closed.1.eventsDestroyed then
    ({ closed.1 with events := none, pc := done },
      closed.2 ++ if p.events.isSome then [.eventsDestroyed] else [])
  else (closed.1.setPc failed, closed.2)

/-- `lv_aic_media_audio_release` -/
def stepCloseAudio (p : Playback) (gate : Bool) : Playback :=
  if gate && p.audioOwner = .self then
    { p with audioOwner := .free, ownsAudio := false, pc := .closeFinish }
  else p.setPc (.faultStatus .top)

def stepCloseFinish (p : Playback) : Playback :=
  { p with
    status := { p.status with
      state := if p.status.state = .fault then .fault else .closed, finished := true }
    pc := .returned }

/-! ## Seeking -/

def stepSeekRelease (p : Playback) (sdk : Sdk) : Playback × List PlaybackEvent :=
  let released := p.call (.release p.locals.pending) sdk
  (if (p.session.release p.locals.pending sdk).1 then
    { released.1 with locals := { p.locals with pending := 0 }, pc := .seekIdle }
  else released.1.setPc (.faultStatus .top), released.2)

def stepSeekIdle (p : Playback) : Playback × List PlaybackEvent :=
  (p.setPc (if p.frames.isIdle then .seekClose else .top), [.frame (.idle p.frames.isIdle)])

def stepSeekSession (p : Playback) (sdk : Sdk) : Playback × List PlaybackEvent :=
  let sought := p.call (.seek p.locals.target) sdk
  (sought.1.setPc
    (if (p.session.seek p.locals.target sdk).1 then .seekReopen else .faultStatus .top), sought.2)

def stepSeekReopen (p : Playback) : Playback × List PlaybackEvent :=
  let frames := { p with frames := p.frames.reopen.2 }
  (if p.frames.reopen.1 then
    { frames with locals := { p.locals with videoEos := false }, pc := .seekDone }
  else frames.setPc (.faultStatus .top), [.frame (.reopened p.frames.reopen.1)])

def stepSeekDone (p : Playback) : Playback :=
  { p with
    status := { p.status with
      seekPending := false, seeksCompleted := (p.status.seeksCompleted + 1) % 2 ^ 64
      sdkTerminal := false, videoEos := false, positionValid := false
      state := if p.closing then p.status.state else .ready }
    pc := .top }

/-! ## Playing -/

def stepSnapshot (p : Playback) (snapshot : EventSnapshot) : Playback :=
  match p.events with
  | none => p.setPc (.faultStatus .top)
  | some events =>
      if events.registrationFailed || snapshot.formatFailed then p.setPc (.faultStatus .top)
      else { p with locals := { p.locals with events := snapshot }, pc := .position }

def afterVolume (p : Playback) : PlaybackPc := if p.locals.start then .startCall else .top

def stepPosition (p : Playback) : Playback :=
  let events := p.locals.events
  let s := p.status
  { p with
    status :=
      if s.seekPending then s
      else if s.hasAudio && events.audioValid then
        { s with sdkTerminal := events.terminal, position := events.audioPts
                 positionValid := true }
      else { s with sdkTerminal := events.terminal }
    pc := if 0 ≤ p.locals.volume && p.locals.volume ≠ p.locals.applied then .volumeCall
      else p.afterVolume }

def stepVolumeCall (p : Playback) (sdk : Sdk) : Playback :=
  p.setPc (if p.session.volume p.locals.volume sdk then .volumeStore else .faultStatus .top)

def stepVolumeStore (p : Playback) : Playback :=
  { p with status := { p.status with volume := p.locals.volume }, pc := p.afterVolume }

def stepStartCall (p : Playback) (sdk : Sdk) : Playback :=
  let l := p.locals
  let started := if p.session.started then p else (p.call .start sdk).1
  started.setPc
    (if !p.session.started && !(p.session.start sdk).1 then .faultStatus .top
    else if l.pending = 0 &&
        (l.events.terminal || (l.videoEos && !started.session.info.hasAudio)) then .terminal
    else .pauseCall)

/-- The sections that report a state while no seek or close is pending. -/
def report (p : Playback) (state : PlaybackState) : Playback :=
  { p with status := { p.status with
      state := if !p.closing && !p.status.seekPending then state else p.status.state } }

def stepTerminal (p : Playback) : Playback := (p.report .terminal).setPc .top

def stepPauseCall (p : Playback) (sdk : Sdk) : Playback :=
  if p.locals.paused = p.session.paused then p.setPc .playing
  else (p.call (.pause p.locals.paused) sdk).1.setPc
    (if (p.session.pause p.locals.paused sdk).1 then .playing else .faultStatus .top)

def stepPlaying (p : Playback) : Playback :=
  let l := p.locals
  (p.report (if l.paused then .paused else .playing)).setPc
    (if l.paused || (l.pending = 0 && l.videoEos) || !p.session.info.hasVideo then .top
    else .blocked)

def stepBlocked (p : Playback) : Playback :=
  p.setPc (if p.frames.blocked then .top else if p.locals.pending = 0 then .acquire else .submit)

/-- The set bits of `session.held`. -/
def heldCount (s : Session) : Nat := (List.finRange leases).countP s.held

def stepAcquire (p : Playback) (sdk : Sdk) : Playback × List PlaybackEvent :=
  if p.extraFrames ≤ heldCount p.session then (p.setPc .top, [])
  else
    let acquired := p.call .acquire sdk
    (match (p.session.acquire sdk).1 with
      | none => acquired.1.setPc (if acquired.1.session.faulted then .faultStatus .top else .top)
      | some (lease, slot) =>
          { acquired.1 with locals := { p.locals with pending := lease }, pc := .received slot },
      acquired.2)

/-- A 32-bit counter. -/
def increment (counter : Nat) : Nat := (counter + 1) % 2 ^ 32

def stepReceived (p : Playback) (slot : LeaseIndex) : Playback :=
  let frame := p.session.frames slot
  let discard := p.closing || p.status.seekPending
  let s := { p.status with
    framesReceived := increment p.status.framesReceived, videoEos := frame.flagEos }
  { p with
    status := if !discard && !s.hasAudio then { s with position := frame.pts, positionValid := true }
      else s
    locals := { p.locals with videoEos := frame.flagEos }
    pc := if discard then .top else .submit }

/-- The result of a submit that returned in this step. -/
def submitResult (events : List FrameEvent) : Option SubmitResult :=
  events.findSome? fun
    | .submitted _ result => some result
    | _ => none

/-- One step of the submit in progress. -/
def afterSubmit (p : Playback) (step : Frames × List FrameEvent) : Playback × List PlaybackEvent :=
  let p := { p with frames := step.1 }
  (match submitResult step.2 with
    | none => p.setPc .submitting
    | some .ok => { p with locals := { p.locals with pending := 0 }, pc := .queued }
    | some result => p.setPc (.refused result), step.2.map .frame)

def stepRefused (p : Playback) (result : SubmitResult) : Playback :=
  p.setPc (if !(p.closing || p.status.seekPending) && result = .failed then .faultStatus .top
    else .top)

def stepQueued (p : Playback) : Playback :=
  { p with status := { p.status with framesQueued := increment p.status.framesQueued }, pc := .top }

/-- One step of `worker`. -/
def stepWorker (p : Playback) (answers : PlaybackAnswers) :
    Option (Playback × List PlaybackEvent) :=
  let sdk := answers.frame.sdk
  match p.pc with
  | .opening seeking => some (p.stepOpening seeking sdk)
  | .openAudio seeking => some (p.stepOpenAudio seeking answers.gate, [])
  | .openEvents seeking => some (p.stepOpenEvents seeking answers)
  | .openStatus seeking => some (p.stepOpenStatus seeking, [])
  | .faultStatus after => some (p.stepFaultStatus after, [.faulted])
  | .faultFrames after => some (p.stepFaultFrames after, [.frame .closed])
  | .top => some (p.stepTop, [])
  | .drain => some (p.afterDrain p.frames.drain)
  | .draining => (p.frames.stepWorker .resume answers.frame).map p.afterDrain
  | .closeFrames => some (p.stepCloseFrames, [.frame .closed])
  | .closeRelease => some (p.stepCloseRelease sdk)
  | .closeIdle => some p.stepCloseIdle
  | .closeSession =>
      some (p.closeSession sdk (if p.ownsAudio then .closeAudio else .closeFinish) .closeCheck)
  | .closeAudio => some (p.stepCloseAudio answers.gate, [])
  | .closeFinish => some (p.stepCloseFinish, [.finished])
  | .closeCheck => some (p.setPc (if p.session.faulted then .faultStatus .top else .top), [])
  | .seekRelease => some (p.stepSeekRelease sdk)
  | .seekIdle => some p.stepSeekIdle
  | .seekClose => some (p.closeSession sdk .seekCancel (.faultStatus .top))
  | .seekCancel => some (p.setPc (if p.closing then .top else .opening true), [])
  | .seekSession => some (p.stepSeekSession sdk)
  | .seekReopen => some p.stepSeekReopen
  | .seekDone => some (p.stepSeekDone, [.seekCompleted])
  | .snapshot => some (p.stepSnapshot answers.snapshot, [])
  | .position => some (p.stepPosition, [])
  | .volumeCall => some (p.stepVolumeCall sdk, [])
  | .volumeStore => some (p.stepVolumeStore, [])
  | .startCall => some (p.stepStartCall sdk, [])
  | .terminal => some (p.stepTerminal, [])
  | .pauseCall => some (p.stepPauseCall sdk, [])
  | .playing => some (p.stepPlaying, [])
  | .blocked => some (p.stepBlocked, [])
  | .acquire => some (p.stepAcquire sdk)
  | .received slot => some (p.stepReceived slot, [])
  | .submit => some (p.afterSubmit (p.frames.submit p.locals.pending))
  | .submitting => (p.frames.stepWorker .resume answers.frame).map p.afterSubmit
  | .refused result => some (p.stepRefused result, [])
  | .queued => some (p.stepQueued, [])
  | .returned => none

end Playback

inductive PlaybackCall where
  | preserve (enabled : Bool)
  | start
  | pause (paused : Bool)
  | volume (volume : Int)
  | seek (target : Nat)
  | poll
  | close
  | destroy (allocatorEmpty : Bool)
  | releaseImage (slot : LeaseIndex)
  | resume (ready : Bool)
deriving DecidableEq, Repr

namespace Playback

/-! ## The UI thread -/

def accepts (p : Playback) : Bool := !p.closing && !p.status.finished

def preserve (p : Playback) (enabled : Bool) : Playback × List PlaybackEvent :=
  (if p.accepts then { p with frames := { p.frames with preserve := enabled } } else p,
    [.preserved p.accepts])

/-- `start` and `pause` are refused at the end of the stream. -/
def startable (p : Playback) : Bool := p.accepts && p.status.state ≠ .terminal

def start (p : Playback) : Playback × List PlaybackEvent :=
  (if p.startable then { p with startRequested := true } else p, [.started p.startable])

def pause (p : Playback) (paused : Bool) : Playback × List PlaybackEvent :=
  (if p.startable then { p with pauseRequested := paused } else p, [.paused p.startable])

def volume (p : Playback) (volume : Int) : Playback × List PlaybackEvent :=
  let accepted := 0 ≤ volume && volume ≤ 100 && p.accepts
  (if accepted then { p with volumeRequested := volume } else p, [.volumed accepted])

def int64Max : Nat := 2 ^ 63 - 1

def seekable (p : Playback) (target : Nat) : Bool :=
  target ≤ int64Max && p.accepts && !p.status.seekPending && p.status.state ≠ .opening &&
    p.status.seekable && p.status.seeksCompleted < Session.uint64Max &&
    (p.status.duration ≤ 0 || (target : Int) ≤ p.status.duration)

def seek (p : Playback) (target : Nat) : Playback × List PlaybackEvent :=
  if p.seekable target then
    ({ p with
        status := { p.status with
          seekPending := true, seekTarget := target, positionValid := false, state := .seeking }
        frames := p.frames.close },
      [.seeked true, .frame .closed])
  else (p, [.seeked false])

/-- The check of `poll`. -/
def pollable (p : Playback) : Bool :=
  p.accepts && !p.status.seekPending && (!p.pauseRequested || p.status.state = .terminal)

def poll (p : Playback) : Playback × List PlaybackEvent :=
  if p.pollable then ({ p with ui := .polling }, []) else (p, [.pollRefused])

/-- One step of `lv_aic_player_frames_poll_image`. -/
def afterPoll (p : Playback) (step : Frames × List FrameEvent) : Playback × List PlaybackEvent :=
  ({ p with frames := step.1, ui := if step.1.ui = .idle then .idle else .creating },
    step.2.map .frame)

/-- The first section of `close`. -/
def close (p : Playback) : Playback :=
  { p with
    closing := true
    status := { p.status with
      seekPending := false
      state := if !p.status.finished && p.status.state ≠ .fault then .closing else p.status.state }
    ui := .closing }

/-- `lv_aic_player_playback_destroy`; the worker has returned before it gets
past the first check. -/
def destroy (p : Playback) (allocatorEmpty : Bool) : Playback × List PlaybackEvent :=
  if !p.status.finished || !p.frames.isIdle then (p, [.destroyed false])
  else if p.allocator && !allocatorEmpty then (p, [.destroyed false])
  else
    let freed := p.frames.closing && p.frames.isIdle
    ({ p with allocator := false, frames := { p.frames with freed } },
      [.frame (.destroyed freed), .destroyed freed])

def stepUi (p : Playback) (call : PlaybackCall) : Option (Playback × List PlaybackEvent) :=
  match p.ui, call with
  | .idle, .preserve enabled => some (p.preserve enabled)
  | .idle, .start => some p.start
  | .idle, .pause paused => some (p.pause paused)
  | .idle, .volume volume => some (p.volume volume)
  | .idle, .seek target => some (p.seek target)
  | .idle, .poll => some p.poll
  | .idle, .close => some (p.close, [.closeRequested])
  | .idle, .destroy allocatorEmpty => some (p.destroy allocatorEmpty)
  | .idle, .releaseImage slot => (p.frames.releaseImage slot).map fun released =>
      ({ p with frames := released.1 }, released.2.map .frame)
  | .polling, .resume _ => some (p.afterPoll (p.frames.poll false))
  | .creating, .resume ready => (p.frames.stepUi (.resume ready)).map p.afterPoll
  | .closing, .resume _ =>
      some ({ p with frames := p.frames.close, ui := .idle }, [.frame .closed])
  | _, _ => none

/-- Another player takes the free audio device, or gives it back. -/
def otherAudio (p : Playback) : Option (Playback × List PlaybackEvent) :=
  match p.audioOwner with
  | .free => some ({ p with audioOwner := .other }, [])
  | .other => some ({ p with audioOwner := .free }, [])
  | .self => none

/-- `lv_aic_player_playback_prepare`, once its worker runs. -/
def prepared (uri : List UInt8) (extraFrames : Nat) (audioOwner : AudioOwner) : Playback where
  frames := .created
  allocator := true
  events := none
  status :=
    { state := .opening, finished := false, hasVideo := false, hasAudio := false, seekable := false
      videoEos := false, sdkTerminal := false, positionValid := false, width := 0, height := 0
      framesReceived := 0, framesQueued := 0, duration := 0, position := 0, seekPending := false
      seekTarget := 0, seeksCompleted := 0, volume := -1, mediaInfoValid := false
      mediaInfo := .zero }
  extraFrames
  uri
  closing := false
  startRequested := false
  pauseRequested := false
  ownsAudio := false
  volumeRequested := -1
  audioOwner
  locals :=
    { pending := 0, videoEos := false, closing := false, start := false, paused := false
      volume := -1, applied := -1, seeking := false, target := 0, events := .zero }
  pc := .opening false
  ui := .idle

end Playback

inductive PlaybackAction where
  | worker (answers : PlaybackAnswers)
  | ui (call : PlaybackCall)
  | otherAudio
deriving DecidableEq, Repr

def playbackMachine : Machine Playback PlaybackAction PlaybackEvent where
  Initial p := ∃ uri extraFrames audioOwner, p = Playback.prepared uri extraFrames audioOwner ∧
    audioOwner ≠ .self ∧ uri ≠ [] ∧ uri.length < 128 ∧ 2 ≤ extraFrames ∧ extraFrames ≤ leases
  step p action :=
    if p.frames.freed then none
    else
      match action with
      | .worker answers => p.stepWorker answers
      | .ui call => p.stepUi call
      | .otherAudio => p.otherAudio

end LvglAic.Player
