import LvglAic.Spi.WorkerDelivery
import LvglAic.Spi.PipelineDelivery

/-! # The SPI display (`lv_aic_spi_display.c`)

The UI thread's calls over a one-job worker or a two-job pipeline.  A call takes
the answers that its back end gave; the back end itself runs in any
interleaving, and `BackEnd` says which histories it can show.
-/

namespace LvglAic.Spi

def uint32Max : Nat := 2 ^ 32 - 1

/-- `increment` -/
def increment (counter : Nat) : Nat := if counter < uint32Max then counter + 1 else counter

/-- `lv_tick_elaps`, on a clock of 32 bits. -/
def tickElapsed (now since : Nat) : Nat := (now + 2 ^ 32 - since) % 2 ^ 32

/-- `display_job_t` -/
structure DisplayJob where
  used : Bool
  blit : Bool
  submittedAt : Nat
deriving DecidableEq, Repr

/-- The counters of `lv_aic_spi_display_stats_t`. -/
structure DisplayStats where
  accepted : Nat
  completed : Nat
  failed : Nat
  rejected : Nat
  lastObservedMs : Nat
  maxObservedMs : Nat
  lastWorker : Timing
  lastCompletion : SpiResult
deriving DecidableEq, Repr

/-- `lv_draw_buf_t`, as `flush` reads it. -/
structure DrawBuf where
  address : Nat
  frame : Rgb565Frame
deriving DecidableEq, Repr

/-- `struct lv_aic_spi_display`: `display` while `d->display` is set, `pipelined`
for the back end it was created with, `freed` after a successful close. -/
structure SpiDisplay where
  display : Bool
  buffer : Nat
  second : Option Nat
  pipelined : Bool
  jobs : Fin 2 → DisplayJob
  inflight : Nat
  sourcePending : Bool
  degrees : Nat
  pending : Bool
  closing : Bool
  claiming : Bool
  blit : Bool
  pendingBlit : Bool
  result : SpiResult
  stats : DisplayStats
  submittedAt : Nat
  freed : Bool

inductive DisplayEvent where
  | flushed
  | ready
  | submitted (blit : Bool) (cookie : Nat) (frame : Rgb565Frame) (degrees : Nat)
  | collected (kind : EventKind) (cookie : Nat) (result : SpiResult) (timing : Timing)
  | blitReported (result : SpiResult)
  | stopped
  | closeCalled
  | deleted
  | freed
deriving DecidableEq, Repr

/-- An event of the pipeline, and the tick at which it was taken. -/
structure PipeAnswer where
  kind : EventKind
  job : Fin 2
  result : SpiResult
  timing : Timing
  now : Nat
deriving DecidableEq, Repr

/-- A result of the worker. -/
structure WorkerAnswer where
  result : SpiResult
  timing : Timing
  now : Nat
deriving DecidableEq, Repr

/-- What the back end answers to one `collect`. -/
structure CollectAnswer where
  events : List PipeAnswer
  done : Option WorkerAnswer
deriving DecidableEq, Repr

/-- What it answers to a submit, and the ticks after it. -/
structure SubmitAnswer where
  result : SpiResult
  jobTick : Nat
  acceptTick : Nat
deriving DecidableEq, Repr

namespace SpiDisplay

def accepted (d : SpiDisplay) (now : Nat) : SpiDisplay :=
  { d with
    pending := true
    submittedAt := now
    stats := { d.stats with accepted := increment d.stats.accepted } }

def recordCompletion (d : SpiDisplay) (submittedAt now : Nat) : SpiDisplay :=
  let observed := tickElapsed now submittedAt
  { d with stats := { d.stats with
      lastCompletion := d.result
      completed := if d.result = .ok then increment d.stats.completed else d.stats.completed
      failed := if d.result = .ok then d.stats.failed else increment d.stats.failed
      lastObservedMs := observed
      maxObservedMs := max d.stats.maxObservedMs observed } }

def reject (d : SpiDisplay) (result : SpiResult) : SpiDisplay :=
  { d with
    result := result
    stats := { d.stats with rejected := increment d.stats.rejected } }

def setJob (d : SpiDisplay) (index : Fin 2) (job : DisplayJob) : SpiDisplay :=
  { d with jobs := Function.update d.jobs index job }

/-- `lv_display_flush_ready`, unless the display is gone. -/
def acknowledge (d : SpiDisplay) : List DisplayEvent := if d.display then [.ready] else []

/-- The body of the loop in `collect`. -/
def handle (d : SpiDisplay) (answer : PipeAnswer) : SpiDisplay × List DisplayEvent :=
  let job := d.jobs answer.job
  let told := .collected answer.kind answer.job.val answer.result answer.timing
  match answer.kind with
  | .sourceReleased =>
      if job.blit then (d, [told])
      else ({ d with sourcePending := false }, told :: d.acknowledge)
  | .completed =>
      let taken := { d with
        result := answer.result
        stats := { d.stats with lastWorker := answer.timing } }
      let recorded := taken.recordCompletion job.submittedAt answer.now
      ({ recorded.setJob answer.job { job with used := false } with
          pendingBlit := if job.blit then false else d.pendingBlit
          inflight := d.inflight - 1 },
        [told])

/-- The loop in `collect`. -/
def handleAll (d : SpiDisplay) : List PipeAnswer → SpiDisplay × List DisplayEvent
  | [] => (d, [])
  | answer :: rest =>
      let first := d.handle answer
      let others := first.1.handleAll rest
      (others.1, first.2 ++ others.2)

/-- The worker's result in `collect`. -/
def finish (d : SpiDisplay) (answer : WorkerAnswer) : SpiDisplay × List DisplayEvent :=
  let taken := { d with
    result := answer.result
    pending := false
    stats := { d.stats with lastWorker := answer.timing } }
  let recorded := taken.recordCompletion d.submittedAt answer.now
  ({ recorded with pendingBlit := false },
    .collected .completed 0 answer.result answer.timing ::
      if d.pendingBlit then [] else d.acknowledge)

def collect (d : SpiDisplay) (answer : CollectAnswer) : Bool × SpiDisplay × List DisplayEvent :=
  if !d.pending then (true, d, [])
  else if d.pipelined then
    let handled := d.handleAll answer.events
    let pending := handled.1.inflight ≠ 0
    (!pending, { handled.1 with pending := pending }, handled.2)
  else
    match answer.done with
    | none => (false, d, [])
    | some result => (true, d.finish result)

/-- `while(busy) collect` -/
def collectWhile (busy : SpiDisplay → Bool) (d : SpiDisplay) :
    List CollectAnswer → Option (SpiDisplay × List DisplayEvent)
  | [] => if busy d then none else some (d, [])
  | answer :: rest =>
      if busy d then
        let collected := d.collect answer
        (collected.2.1.collectWhile busy rest).map fun last =>
          (last.1, collected.2.2 ++ last.2)
      else some (d, [])

/-- `while(!collect(d))` -/
def collectUntil (d : SpiDisplay) : List CollectAnswer → Option (SpiDisplay × List DisplayEvent)
  | [] => none
  | answer :: rest =>
      let collected := d.collect answer
      if collected.1 then some collected.2
      else (collected.2.1.collectUntil rest).map fun last => (last.1, collected.2.2 ++ last.2)

/-- The first job that is not used. -/
def freeJob (d : SpiDisplay) : Option (Fin 2) :=
  (List.finRange 2).find? fun index => !(d.jobs index).used

/-- `submit` -/
def submit (d : SpiDisplay) (frame : Rgb565Frame) (degrees : Nat) (blit : Bool)
    (answer : SubmitAnswer) : SpiResult × SpiDisplay × List DisplayEvent :=
  if d.pipelined then
    match d.freeJob with
    | none => (.busy, d, [])
    | some index =>
        if answer.result ≠ .ok then (answer.result, d, [])
        else
          let job : DisplayJob := { used := true, blit := blit, submittedAt := answer.jobTick }
          let queued := { d.setJob index job with
            inflight := d.inflight + 1
            sourcePending := if blit then d.sourcePending else true }
          (.ok, queued.accepted answer.acceptTick, [.submitted blit index.val frame degrees])
  else if answer.result ≠ .ok then (answer.result, d, [])
  else (.ok, d.accepted answer.acceptTick, [.submitted blit 0 frame degrees])

/-! ## LVGL's callbacks -/

/-- The wait for an event slot in `flush`. -/
def flushWait (d : SpiDisplay) (collects : List CollectAnswer) :
    Option (SpiDisplay × List DisplayEvent) :=
  if d.pipelined then
    match collects with
    | [] => none
    | answer :: rest =>
        let collected := d.collect answer
        (collected.2.1.collectWhile (fun d => d.inflight = 2) rest).map fun last =>
          (last.1, collected.2.2 ++ last.2)
  else some (d, [])

/-- `flush` once its frame is known to be drawn in one of the buffers. -/
def flushFrame (d : SpiDisplay) (frame : Rgb565Frame) (collects : List CollectAnswer)
    (answer : SubmitAnswer) : Option (SpiDisplay × List DisplayEvent) :=
  (d.flushWait collects).map fun waited =>
    let submitted := waited.1.submit frame d.degrees false answer
    let told := waited.2 ++ submitted.2.2
    if submitted.1 = .ok then ({ submitted.2.1 with result := .ok }, told)
    else (submitted.2.1.reject submitted.1, told ++ [.ready])

def flush (d : SpiDisplay) (last : Bool) (active : Option DrawBuf) (collects : List CollectAnswer)
    (answer : SubmitAnswer) : Option (SpiDisplay × List DisplayEvent) :=
  if d.closing || d.claiming || !last then some (d, [.flushed, .ready])
  else
    match active with
    | none => some (d.reject .invalid, [.flushed, .ready])
    | some buffer =>
        if buffer.address ≠ d.buffer ∧ some buffer.address ≠ d.second then
          some (d.reject .invalid, [.flushed, .ready])
        else
          (d.flushFrame buffer.frame collects answer).map fun done => (done.1, .flushed :: done.2)

def waitFlush (d : SpiDisplay) (collects : List CollectAnswer) :
    Option (SpiDisplay × List DisplayEvent) :=
  if d.pendingBlit then some (d, [])
  else if d.pipelined then d.collectWhile (fun d => d.sourcePending) collects
  else d.collectUntil collects

/-- `deleted` -/
def delete (d : SpiDisplay) : SpiDisplay × List DisplayEvent :=
  ({ d with display := false, closing := true }, [.deleted, .stopped])

/-! ## The application's calls -/

def poll (d : SpiDisplay) (answer : CollectAnswer) : Bool × SpiDisplay × List DisplayEvent :=
  if d.pendingBlit then (false, d, []) else d.collect answer

def claimBlit (d : SpiDisplay) (answer : CollectAnswer) :
    SpiResult × SpiDisplay × List DisplayEvent :=
  if d.closing || !d.display then (.invalid, d, [])
  else if d.blit then (.ok, d, [])
  else
    let collected := { d with claiming := true }.collect answer
    if !collected.1 then (.busy, collected.2)
    else if collected.2.1.result = .fault ∨ collected.2.1.result = .busy then
      (collected.2.1.result, collected.2)
    else (.ok, { collected.2.1 with blit := true }, collected.2.2)

/-- `lv_aic_spi_display_blit` -/
def blitFrame (d : SpiDisplay) (frame : Option Rgb565Frame) (degrees : Nat)
    (answer : SubmitAnswer) : SpiResult × SpiDisplay × List DisplayEvent :=
  let rejected := { d with stats := { d.stats with rejected := increment d.stats.rejected } }
  match frame with
  | none => (.invalid, rejected, [])
  | some frame =>
      if !d.blit || d.closing then (.invalid, rejected, [])
      else if d.pending then (.busy, rejected, [])
      else
        let submitted := d.submit frame degrees true answer
        if submitted.1 = .ok then
          (.ok, { submitted.2.1 with result := .ok, pendingBlit := true }, submitted.2.2)
        else (submitted.1, submitted.2.1.reject submitted.1, submitted.2.2)

def blitTake (d : SpiDisplay) (answer : CollectAnswer) :
    Option SpiResult × SpiDisplay × List DisplayEvent :=
  if !d.pendingBlit then (none, d, [])
  else
    let collected := d.collect answer
    if collected.1 then
      (some collected.2.1.result, collected.2.1,
        collected.2.2 ++ [.blitReported collected.2.1.result])
    else (none, collected.2)

/-- `lv_aic_spi_display_close`; `closed` is the answer of the back end's close. -/
def close (d : SpiDisplay) (answer : CollectAnswer) (closed : Bool) :
    Bool × SpiDisplay × List DisplayEvent :=
  let stopped := if d.closing then [.closeCalled] else [.closeCalled, .stopped]
  let collected := { d with closing := true }.collect answer
  if collected.1 && closed then
    (true, { collected.2.1 with display := false, freed := true },
      stopped ++ (collected.2.2 ++ (if d.display then [.deleted] else []) ++ [.freed]))
  else (false, collected.2.1, stopped ++ collected.2.2)

end SpiDisplay

inductive DisplayCall where
  | flush (last : Bool) (active : Option DrawBuf) (collects : List CollectAnswer)
      (answer : SubmitAnswer)
  | waitFlush (collects : List CollectAnswer)
  | delete
  | poll (answer : CollectAnswer)
  | claimBlit (answer : CollectAnswer)
  | blit (frame : Option Rgb565Frame) (degrees : Nat) (answer : SubmitAnswer)
  | blitTake (answer : CollectAnswer)
  | close (answer : CollectAnswer) (closed : Bool)

/-- A call that has returned; LVGL's calls need the display. -/
def SpiDisplay.perform (d : SpiDisplay) (call : DisplayCall) :
    Option (SpiDisplay × List DisplayEvent) :=
  if d.freed then none
  else
    match call with
    | .flush last active collects answer =>
        if d.display then d.flush last active collects answer else none
    | .waitFlush collects => if d.display then d.waitFlush collects else none
    | .delete => if d.display then some d.delete else none
    | .poll answer => some (d.poll answer).2
    | .claimBlit answer => some (d.claimBlit answer).2
    | .blit frame degrees answer => some (d.blitFrame frame degrees answer).2
    | .blitTake answer => some (d.blitTake answer).2
    | .close answer closed => some (d.close answer closed).2

def SpiDisplay.create (buffer : Nat) (second : Option Nat) (degrees : Nat) (pipelined : Bool) :
    SpiDisplay where
  display := true
  buffer := buffer
  second := second
  pipelined := pipelined
  jobs _ := { used := false, blit := false, submittedAt := 0 }
  inflight := 0
  sourcePending := false
  degrees := degrees
  pending := false
  closing := false
  claiming := false
  blit := false
  pendingBlit := false
  result := .ok
  stats := {
    accepted := 0
    completed := 0
    failed := 0
    rejected := 0
    lastObservedMs := 0
    maxObservedMs := 0
    lastWorker := { submitMs := 0, drainMs := 0 }
    lastCompletion := .ok }
  submittedAt := 0
  freed := false

def displayMachine : Machine SpiDisplay DisplayCall DisplayEvent where
  Initial d := ∃ buffer second degrees pipelined,
    d = SpiDisplay.create buffer second degrees pipelined
  step := SpiDisplay.perform

/-! ## What the back end can show -/

/-- What the UI thread sees of its back end. -/
inductive Visible where
  | accepted (cookie : Nat)
  | reported (kind : EventKind) (cookie : Nat) (result : SpiResult) (timing : Timing)
deriving DecidableEq, Repr

def PipeEvent.visible : PipeEvent → Option Visible
  | .accepted _ cookie => some (.accepted cookie)
  | .took report => some (.reported report.kind report.cookie report.result report.timing)
  | _ => none

def JobEvent.visible : JobEvent → Option Visible
  | .accepted job => some (.accepted job.cookie)
  | .took cookie result timing => some (.reported .completed cookie result timing)
  | _ => none

def DisplayEvent.visible : DisplayEvent → Option Visible
  | .submitted _ cookie _ _ => some (.accepted cookie)
  | .collected kind cookie result timing => some (.reported kind cookie result timing)
  | _ => none

/-- Some interleaving of the back end shows this history. -/
def BackEnd (pipelined : Bool) (history : List Visible) : Prop :=
  if pipelined then ∃ trace p, pipelineMachine.Reaches Machine.Always trace p ∧
    trace.filterMap PipeEvent.visible = history
  else ∃ trace w, workerMachine.Reaches Machine.Always trace w ∧
    trace.filterMap JobEvent.visible = history

/-- The calls of `lv_display_flush_ready`. -/
def readies (trace : List DisplayEvent) : Nat := trace.count .ready

/-- The calls of `flush`. -/
def flushes (trace : List DisplayEvent) : Nat := trace.count .flushed

/-- LVGL flushes after the acknowledgement only, and the back end answers as it can. -/
structure DisplayContract (trace : List DisplayEvent) (d : SpiDisplay) (call : DisplayCall) :
    Prop where
  flush : ∀ last active collects answer, call = .flush last active collects answer →
    flushes trace = readies trace
  answers : ∀ next events before after, d.perform call = some (next, events) →
    events = before ++ after →
    BackEnd d.pipelined ((trace ++ before).filterMap DisplayEvent.visible)

end LvglAic.Spi
