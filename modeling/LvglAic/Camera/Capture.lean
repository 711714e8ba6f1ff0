import LvglAic.Machine.Run

/-! # Camera capture (`lv_aic_camera_capture.c`, `lv_aic_vin_session.c`)

One worker owns the VIN session.  The UI thread and the readers of published images
share the slots and the mailboxes with it under the capture's mutex.  A step is one
critical section, one call of the VIN session or one half of a call of the sensor
driver; frames are numbered as VIN delivers them.
-/

namespace LvglAic.Camera

/-- `slot_state_t` -/
inductive SlotState where
  | empty
  | ready
  | publishing
  | published
  | toReturn
deriving DecidableEq, Repr

/-- `lv_aic_capture_state_t` -/
inductive CaptureState where
  | opening
  | ready
  | running
  | paused
  | closing
  | closed
  | fault
deriving DecidableEq, Repr

/-- `lv_aic_camera_input_state_t` -/
inductive InputState where
  | none
  | pending
  | applied
  | failed
  | cancelled
deriving DecidableEq, Repr

def uint32Max : Nat := 2 ^ 32 - 1

/-- `lv_aic_camera_input_status_t` -/
structure InputStatus where
  state : InputState
  sequence : Nat
  requested : Nat
  applied : Nat
deriving DecidableEq, Repr

/-- `lv_aic_camera_capture_get_input(NULL)` -/
def InputStatus.none : InputStatus where
  state := .none
  sequence := 0
  requested := uint32Max
  applied := uint32Max

/-- `frame_slot_t` with the image that was published from it and not released; a frame
stands for its view of the buffer. -/
structure Slot where
  state : SlotState
  frame : Nat
  image : Option Nat
deriving DecidableEq, Repr

/-- The barcode mailbox: `data` and `result` are the frames that `barcode_data`, and
`barcode_length` with `barcode_result`, were decoded from. -/
structure Barcode where
  data : Nat
  length : Nat
  result : Nat
  generation : Nat
  enabled : Bool
  only : Bool
  ready : Bool
deriving DecidableEq, Repr

/-! ## The VIN session -/

/-- `lv_aic_vin_session_t`; `queued` and `delivered` are VIN's own: the buffers that it
has and the number of frames that it delivered. -/
structure VinSession where
  opened : Bool
  pool : Bool
  streaming : Bool
  paused : Bool
  faulted : Bool
  held : Nat → Bool
  numBuffers : Nat
  queued : Nat → Bool
  delivered : Nat

/-- A session filled with zeros. -/
def VinSession.zero (delivered : Nat) : VinSession where
  opened := false
  pool := false
  streaming := false
  paused := false
  faulted := false
  held := fun _ => false
  numBuffers := 0
  queued := fun _ => false
  delivered := delivered

section Vin

variable (v : VinSession)

/-- The mask of held buffers is not zero. -/
def VinSession.holding : Bool := (List.range 32).any v.held

/-- `lv_aic_vin_stop`; `off` is the outcome of VIN_STREAM_OFF. -/
def vinStop (off : Bool) : Bool × VinSession :=
  if v.holding then (false, v)
  else if !v.streaming then (true, v)
  else if !off then (false, { v with faulted := true })
  else
    (true, { v with
      streaming := false
      paused := false
      queued := fun _ => false })

/-- `lv_aic_vin_close` -/
def vinClose (off : Bool) : Bool × VinSession :=
  let stopped := vinStop v off
  if !stopped.1 then (false, stopped.2) else (true, .zero v.delivered)

/-- `lv_aic_vin_open` for three buffers; `slots` is VIN_MAX_BUF_NUM, `ok` tells that
every command and check before VIN_REQ_BUF passed, and `buffers` is what that gave. -/
def vinOpen (slots : Nat) (ok : Bool) (buffers : Nat) : Bool × VinSession :=
  if v.opened || v.pool || v.holding || v.faulted || slots < 3 then (false, v)
  else if !ok || buffers < 2 || 3 < buffers then (false, .zero v.delivered)
  else
    (true, { VinSession.zero v.delivered with
      opened := true
      pool := true
      numBuffers := buffers })

/-- `lv_aic_vin_start`; VIN_Q_BUF succeeds for the first `taken` buffers, `on` is the
outcome of VIN_STREAM_ON. -/
def vinStart (taken : Nat) (on : Bool) : Bool × VinSession :=
  if !v.pool || v.holding || v.faulted || v.streaming then (false, v)
  else
    let queued := fun i => v.queued i || (i < taken && i < v.numBuffers)
    if taken < v.numBuffers then
      (false, { v with
        queued := queued
        faulted := true })
    else if !on then
      (false, { v with
        queued := queued
        streaming := true
        faulted := true })
    else
      (true, { v with
        queued := queued
        streaming := true })

/-- `lv_aic_vin_pause` -/
def vinPause (ok : Bool) : Bool × VinSession :=
  if !v.streaming || v.paused || v.faulted then (false, v)
  else if !ok then (false, { v with faulted := true })
  else (true, { v with paused := true })

/-- `lv_aic_vin_resume` -/
def vinResume (ok : Bool) : Bool × VinSession :=
  if !v.streaming || !v.paused || v.faulted then (false, v)
  else if !ok then (false, { v with faulted := true })
  else (true, { v with paused := false })

/-- `lv_aic_vin_acquire`; `next` is what VIN_DQ_BUF delivers, if anything. -/
def vinAcquire (next : Option Nat) : Option Nat × VinSession :=
  if !v.streaming || v.paused || v.faulted then (none, v)
  else
    match next with
    | none => (none, v)
    | some next =>
        if v.numBuffers ≤ next || v.held next then (none, { v with faulted := true })
        else
          (some next, { v with
            held := Function.update v.held next true
            queued := Function.update v.queued next false
            delivered := v.delivered + 1 })

/-- `lv_aic_vin_release`; `ok` is the outcome of VIN_Q_BUF. -/
def vinRelease (i : Nat) (ok : Bool) : Bool × VinSession :=
  if v.numBuffers ≤ i || !v.held i then (false, v)
  else if !ok then (false, { v with faulted := true })
  else
    (true, { v with
      held := Function.update v.held i false
      queued := Function.update v.queued i true })

end Vin

/-! ## The capture -/

/-- What a round of the worker's loop read at its start. -/
structure Round where
  closing : Bool
  paused : Bool
  start : Bool
deriving DecidableEq, Repr

/-- Where the worker is. -/
inductive WorkerPc where
  | opening
  | fault
  | top
  | returning (i : Nat) (r : Round)
  | give (i : Nat) (r : Round)
  | given (i : Nat) (r : Round)
  | returnFault (i : Nat) (r : Round)
  | close
  | closed
  | selecting (r : Round)
  | driving (input : Nat) (r : Round)
  | driven (ok : Bool) (input : Nat) (r : Round)
  | starting (r : Round)
  | pausing (r : Round)
  | running (r : Round)
  | acquiring
  | viewing (i : Nat)
  | refusing (i : Nat)
  | scanning (i : Nat)
  | decoding (i generation : Nat)
  | decoded (i generation length : Nat)
  | publishing (i : Nat)
  | stopped
deriving DecidableEq, Repr

/-- Where the UI thread is in `lv_aic_camera_capture_poll`. -/
inductive UiPc where
  | idle
  | creating (i : Nat)
  | refused (i : Nat)
deriving DecidableEq, Repr

inductive CameraEvent where
  | dequeued (i frame : Nat)
  | queued (i : Nat)
  | polled (frame : Nat)
  | configured
  | scanning (frame : Nat)
  | stored (frame : Nat)
  | scanned (frame : Nat) (data : Option Nat)
  | accepted
  | called
  | returned (ok : Bool)
  | applied
  | failed
  | cancelled
deriving DecidableEq, Repr

/-- `struct lv_aic_camera_capture`; `slots` is VIN_MAX_BUF_NUM and `barcodeBuild` is
AIC_LVGL_USE_BARCODE. -/
structure Capture where
  slots : Nat
  barcodeBuild : Bool
  vin : VinSession
  slot : Nat → Slot
  state : CaptureState
  input : InputStatus
  barcode : Barcode
  inflight : Bool
  closing : Bool
  pauseRequested : Bool
  startRequested : Bool
  finished : Bool
  worker : WorkerPc
  ui : UiPc
  log : List CameraEvent

namespace Capture

variable (c : Capture)

def tell (event : CameraEvent) : Capture := { c with log := c.log ++ [event] }

def goTo (worker : WorkerPc) : Capture := { c with worker := worker }

def withVin (vin : VinSession) : Capture := { c with vin := vin }

def setSlot (i : Nat) (state : SlotState) : Capture :=
  { c with slot := Function.update c.slot i { c.slot i with state := state } }

/-- Every slot that is READY goes to RETURN. -/
def returnReady : Capture :=
  { c with slot := fun i =>
      if i < c.slots && (c.slot i).state = .ready then { c.slot i with state := .toReturn }
      else c.slot i }

def shut : Capture := { c with closing := true }

def settleInput (state : InputState) (applied : Nat) : Capture :=
  { c with input := { c.input with
      state := state
      applied := applied } }

/-- A pending request is cancelled, but not one that the driver works on. -/
def cancelPending : Capture :=
  if c.input.state = .pending && !c.inflight then
    (c.settleInput .cancelled c.input.applied).tell .cancelled
  else c

def setState (state : CaptureState) : Capture := { c with state := state }

/-- `fault` -/
def fault : Capture := (c.shut.setState .fault).cancelPending

/-! ## UI calls and readers -/

/-- `lv_aic_camera_capture_start` -/
def start : Capture :=
  if c.closing || c.finished then c else { c with startRequested := true }

/-- `lv_aic_camera_capture_pause` -/
def pause (paused : Bool) : Capture := { c with pauseRequested := paused }

/-- The first critical section of `lv_aic_camera_capture_poll`. -/
def poll : Capture :=
  if c.closing || c.input.state = .pending then c
  else
    match (List.range c.slots).find? fun i => (c.slot i).state = .ready with
    | none => c
    | some i => { c.setSlot i .publishing with ui := .creating i }

/-- The slot has an image of its frame. -/
def publishSlot (i : Nat) : Capture :=
  { c with
    slot := Function.update c.slot i { c.slot i with
      state := .published
      image := some (c.slot i).frame }
    ui := .idle }

/-- `retain_slot` in `lv_aic_yuv_image_create`, with the image that follows. -/
def retainSlot (i : Nat) : Capture :=
  if (c.slot i).state = .publishing then (c.publishSlot i).tell (.polled (c.slot i).frame)
  else { c with ui := .refused i }

/-- `release_slot` -/
def releaseSlot (i : Nat) : Capture :=
  { c with slot := Function.update c.slot i { c.slot i with
      state := .toReturn
      image := none } }

/-- The last critical section of `lv_aic_camera_capture_poll`, without an image. -/
def refuse (i : Nat) : Capture := { c.setSlot i .toReturn with ui := .idle }

/-- Results in preparation are dropped. -/
def nextGeneration : Capture :=
  { c with barcode := { c.barcode with
      generation := (c.barcode.generation + 1) % 2 ^ 32
      ready := false } }

def setBarcode (enabled only : Bool) : Capture :=
  { c with barcode := { c.barcode with
      enabled := enabled
      only := only } }

/-- `lv_aic_camera_capture_barcode_configure` -/
def barcodeConfigure (enabled only : Bool) : Capture :=
  if !c.barcodeBuild || c.closing || c.finished then c
  else
    let configured := (c.nextGeneration.setBarcode enabled only).tell .configured
    if enabled && only then configured.returnReady else configured

/-- The result is taken. -/
def takeResult : Capture := { c with barcode := { c.barcode with ready := false } }

/-- `lv_aic_camera_capture_barcode_poll`; `capacity` is none for a null output. -/
def barcodePoll (capacity : Option Nat) : Capture :=
  let b := c.barcode
  if !c.barcodeBuild || c.closing || !b.ready ||
      (b.length ≠ 0 && capacity.all fun capacity => capacity < b.length) then c
  else c.takeResult.tell (.scanned b.result (if b.length = 0 then none else some b.data))

def request (input : Nat) : Capture :=
  { c with input := { c.input with
      sequence := (c.input.sequence + 1) % 2 ^ 32
      requested := input
      state := .pending } }

/-- `lv_aic_camera_capture_select_input` -/
def selectInput (input : Nat) : Capture :=
  if 3 < input || c.closing || c.finished || c.input.state = .pending then c
  else
    let renewed := if c.barcodeBuild then c.nextGeneration else c
    ((renewed.request input).tell .accepted).returnReady

/-- `lv_aic_camera_capture_close` -/
def close : Capture :=
  let cancelled := c.shut.cancelPending
  if !c.finished && c.state ≠ .fault then cancelled.setState .closing else cancelled

end Capture

/-! ## The worker -/

/-- The outcome of a command: whether it succeeds, and what it delivers. -/
structure Answer where
  ok : Bool
  value : Nat
deriving DecidableEq, Repr

namespace Capture

variable (c : Capture)

/-- The start of a round of `worker`. -/
def workTop : Capture :=
  let r : Round := {
    closing := c.closing
    paused := c.pauseRequested
    start := c.startRequested }
  (if c.closing then c.returnReady else c).goTo (.returning 0 r)

/-- The loop that gives buffers back looks at a slot. -/
def workReturning (i : Nat) (r : Round) : Capture :=
  if i < c.slots then
    if (c.slot i).state = .toReturn then c.goTo (.give i r) else c.goTo (.returning (i + 1) r)
  else if r.closing then c.goTo .close
  else c.goTo (.selecting r)

/-- VIN_Q_BUF in the loop that gives buffers back. -/
def workGive (i : Nat) (r : Round) (a : Answer) : Capture :=
  let released := vinRelease c.vin i a.ok
  let asked := (c.withVin released.2).tell (.queued i)
  if released.1 then asked.goTo (.given i r)
  else asked.goTo (.returnFault i r)

def workClose (a : Answer) : Capture :=
  let closed := vinClose c.vin a.ok
  (c.withVin closed.2).goTo (if closed.1 then .closed else .top)

def workClosed : Capture :=
  { c with
    state := if c.state ≠ .fault then .closed else c.state
    finished := true
    worker := .stopped }

def setInflight (inflight : Bool) : Capture := { c with inflight := inflight }

def workSelecting (r : Round) : Capture :=
  if !c.closing && c.input.state = .pending then
    ((c.setInflight true).tell .called).goTo (.driving c.input.requested r)
  else c.goTo (.starting r)

/-- What the driver answered is stored. -/
def workDriven (ok : Bool) (input : Nat) (r : Round) : Capture :=
  if ok then
    (((c.setInflight false).settleInput .applied input).tell .applied).goTo
      (if c.closing then .top else .starting r)
  else
    (((((c.setInflight false).settleInput .failed uint32Max).shut).setState .fault).tell
      .failed).goTo .top

def workStarting (r : Round) (a : Answer) : Capture :=
  if c.vin.streaming then c.goTo (.pausing r)
  else if !r.start then
    (c.setState (if c.closing then c.state else .ready)).goTo .top
  else
    let started := vinStart c.vin a.value a.ok
    (c.withVin started.2).goTo (if started.1 then .pausing r else .fault)

def workPausing (r : Round) (a : Answer) : Capture :=
  if r.paused = c.vin.paused then c.goTo (.running r)
  else
    let changed := if r.paused then vinPause c.vin a.ok else vinResume c.vin a.ok
    (c.withVin changed.2).goTo (if changed.1 then .running r else .fault)

/-- The number of buffers that the session holds. -/
def heldCount : Nat := (List.range c.slots).countP c.vin.held

def workRunning (r : Round) : Capture :=
  (c.setState (if c.closing then c.state else if r.paused then .paused else .running)).goTo
    (if r.paused || c.vin.numBuffers ≤ c.heldCount + 1 then .top else .acquiring)

/-- VIN_DQ_BUF -/
def workAcquiring (a : Answer) : Capture :=
  let acquired := vinAcquire c.vin (if a.ok then some a.value else none)
  match acquired.1 with
  | some i => ((c.withVin acquired.2).tell (.dequeued i c.vin.delivered)).goTo (.viewing i)
  | none => (c.withVin acquired.2).goTo (if acquired.2.faulted then .fault else .top)

/-- The slot's view is that of the frame that VIN delivered last. -/
def viewFrame (i : Nat) : Capture :=
  { c with slot := Function.update c.slot i { c.slot i with frame := c.vin.delivered - 1 } }

/-- `lv_aic_vin_frame_view` and `invalidate_frame` -/
def workViewing (i : Nat) (a : Answer) : Capture :=
  (c.viewFrame i).goTo (if a.ok then .scanning i else .refusing i)

/-- The first critical section of `scan_frame`. -/
def workScanning (i : Nat) : Capture :=
  if c.barcodeBuild && c.barcode.enabled && !c.barcode.ready && !c.closing &&
      c.input.state ≠ .pending then
    (c.tell (.scanning (c.slot i).frame)).goTo (.decoding i c.barcode.generation)
  else c.goTo (.publishing i)

def setData (frame : Nat) : Capture := { c with barcode := { c.barcode with data := frame } }

/-- `lv_aic_barcode_decode` -/
def workDecoding (i generation : Nat) (a : Answer) : Capture :=
  (c.setData (c.slot i).frame).goTo (.decoded i generation a.value)

def setResult (frame length : Nat) : Capture :=
  { c with barcode := { c.barcode with
      length := length
      result := frame
      ready := true } }

/-- The last critical section of `scan_frame`. -/
def workDecoded (i generation length : Nat) : Capture :=
  if generation = c.barcode.generation && !c.closing then
    ((c.setResult (c.slot i).frame length).tell (.stored (c.slot i).frame)).goTo (.publishing i)
  else c.goTo (.publishing i)

/-- The critical section that publishes a frame. -/
def workPublishing (i : Nat) : Capture :=
  let back := c.closing || c.input.state = .pending ||
    (c.barcodeBuild && c.barcode.enabled && c.barcode.only)
  (c.returnReady.setSlot i (if back then .toReturn else .ready)).goTo .top

/-- One step of `worker`. -/
def work (a : Answer) : Option Capture :=
  match c.worker with
  | .opening =>
      let opened := vinOpen c.vin c.slots a.ok a.value
      some ((c.withVin opened.2).goTo (if opened.1 then .top else .fault))
  | .fault => some (c.fault.goTo .top)
  | .top => some c.workTop
  | .returning i r => some (c.workReturning i r)
  | .give i r => some (c.workGive i r a)
  | .given i r => some ((c.setSlot i .empty).goTo (.returning (i + 1) r))
  | .returnFault i r => some (c.fault.goTo (.returning (i + 1) { r with closing := true }))
  | .close => some (c.workClose a)
  | .closed => some c.workClosed
  | .selecting r => some (c.workSelecting r)
  | .driving input r => some ((c.tell (.returned a.ok)).goTo (.driven a.ok input r))
  | .driven ok input r => some (c.workDriven ok input r)
  | .starting r => some (c.workStarting r a)
  | .pausing r => some (c.workPausing r a)
  | .running r => some (c.workRunning r)
  | .acquiring => some (c.workAcquiring a)
  | .viewing i => some (c.workViewing i a)
  | .refusing i => some ((c.setSlot i .toReturn).goTo (.fault))
  | .scanning i => some (c.workScanning i)
  | .decoding i generation => some (c.workDecoding i generation a)
  | .decoded i generation length => some (c.workDecoded i generation length)
  | .publishing i => some (c.workPublishing i)
  | .stopped => none

end Capture

/-! ## Steps -/

/-- The UI thread calls or goes on with its poll, a reader releases an image, or the
worker takes a step. -/
inductive CameraAction where
  | start
  | pause (paused : Bool)
  | poll
  | create (ok : Bool)
  | refuse
  | release (i : Nat)
  | barcodeConfigure (enabled only : Bool)
  | barcodePoll (capacity : Option Nat)
  | selectInput (input : Nat)
  | close
  | work (a : Answer)
deriving DecidableEq, Repr

namespace Capture

/-- A call of the UI thread, which is in no other call. -/
def called (c : Capture) (next : Capture) : Option Capture := if c.ui = .idle then some next else none

def perform (c : Capture) : CameraAction → Option Capture
  | .start => c.called c.start
  | .pause paused => c.called (c.pause paused)
  | .poll => c.called c.poll
  | .create ok =>
      match c.ui with
      | .creating i => some (if ok then c.retainSlot i else { c with ui := .refused i })
      | _ => none
  | .refuse =>
      match c.ui with
      | .refused i => some (c.refuse i)
      | _ => none
  | .release i => if (c.slot i).image.isSome then some (c.releaseSlot i) else none
  | .barcodeConfigure enabled only => c.called (c.barcodeConfigure enabled only)
  | .barcodePoll capacity => c.called (c.barcodePoll capacity)
  | .selectInput input => c.called (c.selectInput input)
  | .close => c.called c.close
  | .work a => c.work a

/-- `lv_aic_camera_capture_prepare` -/
def prepare (slots : Nat) (barcodeBuild : Bool) : Capture where
  slots := slots
  barcodeBuild := barcodeBuild
  vin := .zero 0
  slot := fun _ => { state := .empty, frame := 0, image := none }
  state := .opening
  input := .none
  barcode := {
    data := 0
    length := 0
    result := 0
    generation := 0
    enabled := false
    only := false
    ready := false }
  inflight := false
  closing := false
  pauseRequested := false
  startRequested := false
  finished := false
  worker := .opening
  ui := .idle
  log := []

/-- A step leaves the log empty and tells it. -/
def step (c : Capture) (action : CameraAction) : Option (Capture × List CameraEvent) :=
  (c.perform action).map fun next => ({ next with log := [] }, next.log)

end Capture

def cameraMachine : Machine Capture CameraAction CameraEvent where
  Initial c := ∃ slots barcodeBuild, c = Capture.prepare slots barcodeBuild
  step := Capture.step

end LvglAic.Camera
