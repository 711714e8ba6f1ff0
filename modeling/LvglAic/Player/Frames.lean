import LvglAic.Machine.Run
import LvglAic.Player.Session

/-! # The frame mailbox (`lv_aic_player_frames.c`)

One worker and one UI thread share eight slots under a lock.  A step is one
critical section together with the unlocked work up to the next one, which
touches only what its thread owns.  The SDK, the allocator and the image
constructor are answered by the environment; the allocator numbers its pins.
-/

namespace LvglAic.Player

/-- `slot_state_t` -/
inductive SlotState where
  | empty
  | building
  | deferred
  | ready
  | publishing
  | published
  | returning
  | releasing
deriving DecidableEq, Repr

/-- `slot_t`, without the pixels its frame describes. -/
structure FrameSlot where
  rgb : Bool
  lease : Nat
  pin : Nat
  pts : Int
  state : SlotState
deriving DecidableEq, Repr

/-- `lv_aic_player_submit_result_t` -/
inductive SubmitResult where
  | failed
  | wait
  | ok
deriving DecidableEq, Repr

inductive FrameEvent where
  | opened (result : Bool)
  | sessionClosed (result : Bool)
  | acquired (lease : Nat)
  | handedBack (lease : Nat) (result : Bool)
  | submitted (lease : Nat) (result : SubmitResult)
  | pinned (lease pin : Nat)
  | unpinned (lease pin : Nat) (result : Bool)
  | put (lease : Nat) (result : Bool)
  | emptied (lease : Nat)
  | quarantined
  | drained (result : Bool)
  | polled (lease : Nat) (pts : Int)
  | pollFailed
  | imageReleased (lease : Nat)
  | closed
  | reopened (result : Bool)
  | idle (result : Bool)
  | destroyed (result : Bool)
deriving DecidableEq, Repr

inductive WorkerPc where
  | idle
  | submitPin (slot : LeaseIndex) (frame : MppFrame)
  | submitReject (slot : LeaseIndex) (pin : Nat) (released : Bool)
  | submitPublish (slot : LeaseIndex)
  | drainPromote
  | drainSlot (slot : LeaseIndex) (success : Bool)
  | drainPin (slot : LeaseIndex) (success : Bool)
  | drainFault (slot : LeaseIndex)
  | drainStore (slot : LeaseIndex) (success returned : Bool)
deriving DecidableEq, Repr

/-- A poll between its two sections; `creating` is inside the image constructor. -/
inductive UiPc where
  | idle
  | creating (slot : LeaseIndex)
  | failing (slot : LeaseIndex)
deriving DecidableEq, Repr

/-- `struct lv_aic_player_frames`, the session and the pin counter it borrows,
the images created from it that are not released, and both threads. -/
structure Frames where
  session : Session
  nextPin : Nat
  closing : Bool
  quarantined : Bool
  preserve : Bool
  slots : LeaseIndex → FrameSlot
  images : List LeaseIndex
  freed : Bool
  worker : WorkerPc
  ui : UiPc

/-- The answers to the calls of one worker step. -/
structure FrameAnswers where
  sdk : Sdk
  pin : Bool
  yuv : Bool
  rgb : Bool
  unpin : Bool
deriving DecidableEq, Repr

namespace Frames

def setSlot (f : Frames) (index : LeaseIndex) (slot : FrameSlot) : Frames :=
  { f with slots := Function.update f.slots index slot }

def setState (f : Frames) (index : LeaseIndex) (state : SlotState) : Frames :=
  f.setSlot index { f.slots index with state }

section
variable (f : Frames) (index : LeaseIndex) (slot : FrameSlot) (state : SlotState)

@[simp] theorem setSlot_session : (f.setSlot index slot).session = f.session := rfl
@[simp] theorem setSlot_nextPin : (f.setSlot index slot).nextPin = f.nextPin := rfl
@[simp] theorem setSlot_closing : (f.setSlot index slot).closing = f.closing := rfl
@[simp] theorem setSlot_quarantined : (f.setSlot index slot).quarantined = f.quarantined := rfl
@[simp] theorem setSlot_preserve : (f.setSlot index slot).preserve = f.preserve := rfl
@[simp] theorem setSlot_images : (f.setSlot index slot).images = f.images := rfl
@[simp] theorem setSlot_worker : (f.setSlot index slot).worker = f.worker := rfl
@[simp] theorem setSlot_ui : (f.setSlot index slot).ui = f.ui := rfl

@[simp] theorem setSlot_same : (f.setSlot index slot).slots index = slot := by simp [setSlot]

theorem setSlot_other {other : LeaseIndex} (different : other ≠ index) :
    (f.setSlot index slot).slots other = f.slots other := by simp [setSlot, different]

end

def anySlot (f : Frames) (test : FrameSlot → Bool) : Bool :=
  (firstIndex fun index => test (f.slots index)).isSome

/-- Every slot in a state the test accepts moves to RETURNING. -/
def retire (f : Frames) (test : SlotState → Bool) : Frames :=
  { f with slots := fun index =>
      if test (f.slots index).state then { f.slots index with state := .returning }
      else f.slots index }

/-- `state==READY || state==PUBLISHING` -/
def published : SlotState → Bool
  | .ready | .publishing => true
  | _ => false

/-- `state==READY || state==DEFERRED` -/
def unconsumed : SlotState → Bool
  | .ready | .deferred => true
  | _ => false

/-- `pending_locked` -/
def pending (f : Frames) : Bool :=
  f.anySlot fun slot => slot.state == .ready || slot.state == .publishing || slot.state == .deferred

/-- `lv_aic_player_frames_blocked` -/
def blocked (f : Frames) : Bool := f.preserve && f.pending

def allEmpty (f : Frames) : Bool := !f.anySlot fun slot => slot.state != .empty

/-- `lv_aic_player_frames_idle` -/
def isIdle (f : Frames) : Bool := !f.quarantined && f.allEmpty

/-! ## `submit` -/

/-- `submit` up to the end of its first section. -/
def submit (f : Frames) (lease : Nat) : Frames × List FrameEvent :=
  if lease = 0 then (f, [.submitted lease .failed])
  else
    match f.session.lookup lease with
    | none => (f, [.submitted lease .failed])
    | some frame =>
        if f.anySlot fun slot => slot.state != .empty && slot.lease == lease then
          (f, [.submitted lease .ok])
        else if f.session.faulted || frame.flagError then (f, [.submitted lease .failed])
        else if f.blocked then (f, [.submitted lease .wait])
        else if f.closing || f.quarantined then (f, [.submitted lease .failed])
        else
          match firstIndex fun index => (f.slots index).state == .empty with
          | none => (f, [.submitted lease .failed])
          | some slot =>
              ({ f.setSlot slot { f.slots slot with lease, state := .building } with
                  worker := .submitPin slot frame }, [])

/-- The unlocked work on a BUILDING slot. -/
def stepPin (f : Frames) (slot : LeaseIndex) (frame : MppFrame) (answers : FrameAnswers) :
    Frames × List FrameEvent :=
  let s := f.slots slot
  let pin := f.nextPin + 1
  if !answers.pin || f.nextPin = Session.uint64Max then
    ({ f.setSlot slot { s with rgb := false } with worker := .submitReject slot 0 true }, [])
  else if answers.yuv || answers.rgb then
    ({ f.setSlot slot { s with rgb := !answers.yuv, pin, pts := frame.pts } with
        nextPin := pin, worker := .submitPublish slot },
      [.pinned s.lease pin])
  else
    ({ f.setSlot slot { s with rgb := false } with
        nextPin := pin, worker := .submitReject slot pin answers.unpin },
      [.pinned s.lease pin, .unpinned s.lease pin answers.unpin])

def stepReject (f : Frames) (slot : LeaseIndex) (pin : Nat) (released : Bool) :
    Frames × List FrameEvent :=
  let s := f.slots slot
  if released then
    ({ f.setState slot .empty with worker := .idle },
      [.emptied s.lease, .submitted s.lease .failed])
  else
    ({ f.setSlot slot { s with pin } with quarantined := true, worker := .idle },
      [.quarantined, .submitted s.lease .ok])

/-- The second section of `submit`. -/
def stepPublish (f : Frames) (slot : LeaseIndex) : Frames × List FrameEvent :=
  let s := f.slots slot
  if f.preserve && !f.closing && !f.quarantined && f.anySlot fun slot => published slot.state then
    ({ f.setState slot .deferred with worker := .idle }, [.submitted s.lease .ok])
  else
    ({ (f.retire unconsumed).setState slot
        (if f.closing || f.quarantined then .returning else .ready) with worker := .idle },
      [.submitted s.lease .ok])

/-! ## `lv_aic_player_frames_drain` -/

def drain (f : Frames) : Frames × List FrameEvent :=
  if f.quarantined then (f, [.drained false]) else ({ f with worker := .drainPromote }, [])

/-- With nothing READY or PUBLISHING, the first DEFERRED slot moves on. -/
def promote (f : Frames) : Frames :=
  if f.anySlot fun slot => published slot.state then f
  else
    match firstIndex fun index => (f.slots index).state == .deferred with
    | none => f
    | some index => f.setState index (if f.closing then .returning else .ready)

def stepPromote (f : Frames) : Frames := { f.promote with worker := .drainSlot 0 true }

/-- The loop of `drain` after one slot. -/
def nextSlot (f : Frames) (slot : LeaseIndex) (success : Bool) : Frames × List FrameEvent :=
  if next : slot.val + 1 < leases then
    ({ f with worker := .drainSlot ⟨slot.val + 1, next⟩ success }, [])
  else ({ f with worker := .idle }, [.drained success])

def stepDrainSlot (f : Frames) (slot : LeaseIndex) (success : Bool) : Frames × List FrameEvent :=
  if (f.slots slot).state = .returning then
    ({ f.setState slot .releasing with worker := .drainPin slot success }, [])
  else f.nextSlot slot success

/-- Release the pin once, then put the lease back. -/
def stepDrainPin (f : Frames) (slot : LeaseIndex) (success : Bool) (answers : FrameAnswers) :
    Frames × List FrameEvent :=
  let s := f.slots slot
  if s.pin ≠ 0 && !answers.unpin then
    ({ f with worker := .drainFault slot }, [.unpinned s.lease s.pin false])
  else
    let returned := f.session.release s.lease answers.sdk
    ({ f.setSlot slot { s with pin := 0 } with
        session := returned.2, worker := .drainStore slot success returned.1 },
      (if s.pin = 0 then [] else [.unpinned s.lease s.pin true]) ++ [.put s.lease returned.1])

def stepDrainFault (f : Frames) : Frames × List FrameEvent :=
  ({ f with quarantined := true, worker := .idle }, [.quarantined, .drained false])

def stepDrainStore (f : Frames) (slot : LeaseIndex) (success returned : Bool) :
    Frames × List FrameEvent :=
  let next := (f.setState slot (if returned then .empty else .returning)).nextSlot slot
    (success && returned)
  (next.1, (if returned then [.emptied (f.slots slot).lease] else []) ++ next.2)

/-! ## Sections used by both threads -/

/-- `lv_aic_player_frames_close` -/
def close (f : Frames) : Frames := { f.retire unconsumed with closing := true }

/-- `lv_aic_player_frames_reopen` -/
def reopen (f : Frames) : Bool × Frames :=
  if f.closing && !f.quarantined && f.allEmpty then (true, { f with closing := false })
  else (false, f)

end Frames

/-- The session functions a worker calls. -/
inductive SessionCall where
  | open (uri : List UInt8)
  | allocator (extraFrames : Nat)
  | start
  | pause (paused : Bool)
  | acquire
  | release (lease : Nat)
  | seek (target : Nat)
  | volume (volume : Int)
  | stop
  | close
deriving DecidableEq, Repr

namespace Frames

def callSession (f : Frames) (call : SessionCall) (sdk : Sdk) : Frames × List FrameEvent :=
  match call with
  | .open uri =>
      let opened := f.session.open uri sdk
      ({ f with session := opened.2 }, [.opened opened.1])
  | .allocator extraFrames => ({ f with session := (f.session.allocator extraFrames sdk).2 }, [])
  | .start => ({ f with session := (f.session.start sdk).2 }, [])
  | .pause paused => ({ f with session := (f.session.pause paused sdk).2 }, [])
  | .acquire =>
      let acquired := f.session.acquire sdk
      ({ f with session := acquired.2 },
        match acquired.1 with
        | none => []
        | some (lease, _) => [.acquired lease])
  | .release lease =>
      let released := f.session.release lease sdk
      ({ f with session := released.2 }, [.handedBack lease released.1])
  | .seek target => ({ f with session := (f.session.seek target sdk).2 }, [])
  | .volume _ => (f, [])
  | .stop => ({ f with session := (f.session.stop sdk).2 }, [])
  | .close =>
      let closed := f.session.close sdk
      ({ f with session := closed.2 }, [.sessionClosed closed.1])

end Frames

/-- A call of the worker, or the continuation of the one in progress. -/
inductive WorkerCall where
  | session (call : SessionCall)
  | submit (lease : Nat)
  | drain
  | close
  | reopen
  | isIdle
  | resume
deriving DecidableEq, Repr

inductive UiCall where
  | poll (yuvOnly : Bool)
  | preserve (enabled : Bool)
  | close
  | reopen
  | isIdle
  | destroy
  | releaseImage (slot : LeaseIndex)
  | resume (ready : Bool)
deriving DecidableEq, Repr

namespace Frames

def stepWorker (f : Frames) (call : WorkerCall) (answers : FrameAnswers) :
    Option (Frames × List FrameEvent) :=
  match f.worker, call with
  | .idle, .session call => some (f.callSession call answers.sdk)
  | .idle, .submit lease => some (f.submit lease)
  | .idle, .drain => some f.drain
  | .idle, .close => some (f.close, [.closed])
  | .idle, .reopen => some (f.reopen.2, [.reopened f.reopen.1])
  | .idle, .isIdle => some (f, [.idle f.isIdle])
  | .submitPin slot frame, .resume => some (f.stepPin slot frame answers)
  | .submitReject slot pin released, .resume => some (f.stepReject slot pin released)
  | .submitPublish slot, .resume => some (f.stepPublish slot)
  | .drainPromote, .resume => some (f.stepPromote, [])
  | .drainSlot slot success, .resume => some (f.stepDrainSlot slot success)
  | .drainPin slot success, .resume => some (f.stepDrainPin slot success answers)
  | .drainFault _, .resume => some f.stepDrainFault
  | .drainStore slot success returned, .resume => some (f.stepDrainStore slot success returned)
  | _, _ => none

/-- `lv_aic_player_frames_poll_image`, or the legacy `lv_aic_player_frames_poll`
that skips RGB frames, up to the end of its first section. -/
def poll (f : Frames) (yuvOnly : Bool) : Frames × List FrameEvent :=
  if f.closing || f.quarantined then (f, [.pollFailed])
  else
    match firstIndex fun index =>
      (f.slots index).state == .ready && !(yuvOnly && (f.slots index).rgb) with
    | none => (f, [.pollFailed])
    | some slot => ({ f.setState slot .publishing with ui := .creating slot }, [])

/-- The image constructor with its `retain`. -/
def stepCreate (f : Frames) (slot : LeaseIndex) (ready : Bool) : Frames × List FrameEvent :=
  let s := f.slots slot
  if ready && !f.closing && !f.quarantined && s.state == .publishing then
    ({ f.setState slot .published with images := f.images ++ [slot], ui := .idle },
      [.polled s.lease s.pts])
  else ({ f with ui := .failing slot }, [])

def stepFail (f : Frames) (slot : LeaseIndex) : Frames × List FrameEvent :=
  ({ f.setState slot (if f.preserve && !f.closing && !f.quarantined then .ready else .returning) with
      ui := .idle }, [.pollFailed])

/-- The last reader of an image is gone: its constructor's `release`. -/
def releaseImage (f : Frames) (slot : LeaseIndex) : Option (Frames × List FrameEvent) :=
  if slot ∈ f.images then
    some ({ f.setState slot .returning with images := f.images.erase slot },
      [.imageReleased (f.slots slot).lease])
  else none

def stepUi (f : Frames) (call : UiCall) : Option (Frames × List FrameEvent) :=
  match f.ui, call with
  | .idle, .poll yuvOnly => some (f.poll yuvOnly)
  | .idle, .preserve enabled => some ({ f with preserve := enabled }, [])
  | .idle, .close => some (f.close, [.closed])
  | .idle, .reopen => some (f.reopen.2, [.reopened f.reopen.1])
  | .idle, .isIdle => some (f, [.idle f.isIdle])
  | .idle, .destroy =>
      some ({ f with freed := f.closing && f.isIdle }, [.destroyed (f.closing && f.isIdle)])
  | .idle, .releaseImage slot => f.releaseImage slot
  | .creating slot, .resume ready => some (f.stepCreate slot ready)
  | .failing slot, .resume _ => some (f.stepFail slot)
  | _, _ => none

/-- `lv_aic_player_frames_create` over a zero-initialized session. -/
def created : Frames where
  session := .zero
  nextPin := 0
  closing := false
  quarantined := false
  preserve := false
  slots _ := { rgb := false, lease := 0, pin := 0, pts := 0, state := .empty }
  images := []
  freed := false
  worker := .idle
  ui := .idle

end Frames

inductive FrameAction where
  | worker (call : WorkerCall) (answers : FrameAnswers)
  | ui (call : UiCall)
deriving DecidableEq, Repr

def framesMachine : Machine Frames FrameAction FrameEvent where
  Initial f := f = Frames.created
  step f action :=
    if f.freed then none
    else
      match action with
      | .worker call answers => f.stepWorker call answers
      | .ui call => f.stepUi call

/-- The answers of calls that all succeed; `id` names the next SDK frame. -/
def generousAnswers (id : Nat) : FrameAnswers where
  sdk :=
    { create := true, setUri := true, prepareSync := true
      mediaInfo := some { hasVideo := true, hasAudio := false, width := 16, height := 16
                          seekable := true, duration := 100 }
      allocator := true, frameNum := true, start := true, pause := true, play := true
      getFrame := some { id, pts := 40, flagError := false, flagEos := false }
      putFrame := true, seek := true, volume := true, stop := true, destroy := true }
  pin := true
  yuv := true
  rgb := false
  unpin := true

end LvglAic.Player
