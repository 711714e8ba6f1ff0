import LvglAic.Spi.Transfer

/-! # The two-slot SPI pipeline (`lv_aic_spi_pipeline.c`)

One producer and one worker share two slots without a lock.  A step of either
thread is one atomic load or store together with the plain accesses that follow
it in program order; the producer's and the worker's steps interleave freely.
The session, the semaphore and the clock are answered by the environment.

`ticket`, `accepted` and `begun` are ghost state: they number the frames the
producer handed in and the worker took up, and no branch reads them.
-/

namespace LvglAic.Spi

/-- `lv_aic_spi_rgb565_frame_t`. -/
structure Rgb565Frame where
  data : Nat
  capacity : Nat
  stride : Nat
  width : Nat
  height : Nat
deriving DecidableEq, Repr

/-- `enum { EMPTY, QUEUED, RUNNING, SUBMITTED, DONE }`. -/
inductive SlotState where
  | empty
  | queued
  | running
  | submitted
  | done
deriving DecidableEq, Repr

/-- `state>=SUBMITTED`. -/
def SlotState.sourceFree : SlotState → Bool
  | .submitted | .done => true
  | .empty | .queued | .running => false

/-- `lv_aic_spi_timing_t`. -/
structure Timing where
  submitMs : Nat
  drainMs : Nat
deriving DecidableEq, Repr

structure PipeSlot where
  state : SlotState
  released : Bool
  frame : Rgb565Frame
  degrees : Nat
  cookie : Nat
  submitted : SpiResult
  completed : SpiResult
  timing : Timing
  ticket : Nat
deriving DecidableEq, Repr

/-- `lv_aic_spi_event_kind_t`. -/
inductive EventKind where
  | sourceReleased
  | completed
deriving DecidableEq, Repr

/-- `lv_aic_spi_event_t`, with the ghost ticket of the slot it was read from. -/
structure PipeReport where
  kind : EventKind
  cookie : Nat
  result : SpiResult
  timing : Timing
  ticket : Nat
deriving DecidableEq, Repr

/-- The event of a slot whose source is free: `drain_ms` may still be written. -/
def PipeSlot.releaseReport (s : PipeSlot) : PipeReport where
  kind := .sourceReleased
  cookie := s.cookie
  result := s.submitted
  timing := { submitMs := s.timing.submitMs, drainMs := 0 }
  ticket := s.ticket

def PipeSlot.completionReport (s : PipeSlot) : PipeReport where
  kind := .completed
  cookie := s.cookie
  result := s.completed
  timing := s.timing
  ticket := s.ticket

/-- The slot fields that a worker writes and an event reports. -/
inductive ReportField where
  | submitted
  | completed
  | submitMs
  | drainMs
deriving DecidableEq, Repr

/-- What the two threads do: results of the producer's calls, session calls,
accesses to slot fields, and the stores that hand a slot over. -/
inductive PipeEvent where
  | accepted (ticket cookie : Nat)
  | refused (result : SpiResult)
  | took (report : PipeReport)
  | tookNothing
  | readFrame (ticket : Nat)
  | sessionSubmit (ticket : Nat) (result : SpiResult) (receipt : Bool)
  | sessionDrain (result : SpiResult)
  | wrote (ticket : Nat) (field : ReportField)
  | published (ticket : Nat)
  | finished (ticket : Nat)
  | faultSet
  | exited
  | closed
deriving DecidableEq, Repr

/-- One pass over `run_next`: the regular one, or the last one after `stopping`. -/
structure Round where
  last : Bool
  turn : Nat
  woke : Bool
  ran : Bool
deriving DecidableEq, Repr

inductive WorkerPc where
  | wake
  | load (round : Round)
  | mark (round : Round)
  | faultLoad (round : Round) (index : Fin 2)
  | submit (round : Round) (index : Fin 2)
  | receipt (round : Round) (index : Fin 2) (result : SpiResult) (received : Bool)
  | check (round : Round) (index : Fin 2) (result : SpiResult)
  | quarantine (round : Round) (index : Fin 2)
  | publish (round : Round) (index : Fin 2) (result : SpiResult)
  | stopLoad (round : Round)
  | drain (last : Bool) (index : Fin 2)
  | drainFault (last : Bool) (index : Fin 2)
  | drainStore (last : Bool) (index : Fin 2) (result : SpiResult)
  | exit
  | exited
deriving DecidableEq, Repr

inductive ProducerPc where
  | idle
  | submitFault (frame : Rgb565Frame) (degrees cookie : Nat)
  | submitState (frame : Rgb565Frame) (degrees cookie : Nat)
  | submitStore (frame : Rgb565Frame) (degrees cookie : Nat)
  | give
  | takeComplete
  | takeStore (report : PipeReport)
  | closeSlot (index : Fin 2)
  | closed
deriving DecidableEq, Repr

/-- `struct lv_aic_spi_pipeline` and the two program counters. -/
structure Pipeline where
  slots : Fin 2 → PipeSlot
  wake : Nat
  put : Fin 2
  release : Fin 2
  take : Fin 2
  run : Fin 2
  active : Option (Fin 2)
  stopping : Bool
  exited : Bool
  fault : Bool
  worker : WorkerPc
  producer : ProducerPc
  accepted : Nat
  begun : Nat

def Pipeline.setSlot (p : Pipeline) (index : Fin 2) (slot : PipeSlot) : Pipeline :=
  { p with slots := Function.update p.slots index slot }

section
variable (p : Pipeline) (index : Fin 2) (slot : PipeSlot)

@[simp] theorem Pipeline.setSlot_same : (p.setSlot index slot).slots index = slot := by
  simp [Pipeline.setSlot]

@[simp] theorem Pipeline.setSlot_wake : (p.setSlot index slot).wake = p.wake := rfl
@[simp] theorem Pipeline.setSlot_put : (p.setSlot index slot).put = p.put := rfl
@[simp] theorem Pipeline.setSlot_release : (p.setSlot index slot).release = p.release := rfl
@[simp] theorem Pipeline.setSlot_take : (p.setSlot index slot).take = p.take := rfl
@[simp] theorem Pipeline.setSlot_run : (p.setSlot index slot).run = p.run := rfl
@[simp] theorem Pipeline.setSlot_active : (p.setSlot index slot).active = p.active := rfl
@[simp] theorem Pipeline.setSlot_stopping : (p.setSlot index slot).stopping = p.stopping := rfl
@[simp] theorem Pipeline.setSlot_exited : (p.setSlot index slot).exited = p.exited := rfl
@[simp] theorem Pipeline.setSlot_fault : (p.setSlot index slot).fault = p.fault := rfl
@[simp] theorem Pipeline.setSlot_worker : (p.setSlot index slot).worker = p.worker := rfl
@[simp] theorem Pipeline.setSlot_producer : (p.setSlot index slot).producer = p.producer := rfl
@[simp] theorem Pipeline.setSlot_accepted : (p.setSlot index slot).accepted = p.accepted := rfl
@[simp] theorem Pipeline.setSlot_begun : (p.setSlot index slot).begun = p.begun := rfl

end

/-- The answers of the callees of one worker step. -/
structure WorkerAnswers where
  submit : SpiResult
  receipt : Bool
  drain : SpiResult
  elapsed : Nat
deriving DecidableEq, Repr

/-- `complete`: report the result, then hand the slot over as DONE. -/
def Pipeline.complete (p : Pipeline) (index : Fin 2) (result : SpiResult) :
    Pipeline × List PipeEvent :=
  let s := p.slots index
  (p.setSlot index { s with completed := result, state := .done },
    [.wrote s.ticket .completed, .finished s.ticket])

/-- `drain` up to its session call. -/
def Pipeline.enterDrain (p : Pipeline) (last : Bool) : Pipeline :=
  match p.active with
  | none => { p with worker := if last then .exit else .wake }
  | some index => { p with worker := .drain last index, active := none }

/-- The loop over `run_next` ended. -/
def Pipeline.endRound (p : Pipeline) (round : Round) : Pipeline :=
  if round.last then p.enterDrain true else { p with worker := .stopLoad round }

/-- `run_next` returned true: the loop makes at most two turns. -/
def Pipeline.nextTurn (p : Pipeline) (round : Round) : Pipeline :=
  let round := { round with turn := round.turn + 1, ran := true }
  if round.turn < 2 then { p with worker := .load round } else p.endRound round

/-- `run_next` at its first load. -/
def Pipeline.stepLoad (p : Pipeline) (round : Round) : Pipeline :=
  if (p.slots p.run).state = .queued then { p with worker := .mark round } else p.endRound round

def Pipeline.stepMark (p : Pipeline) (round : Round) : Pipeline :=
  { p.setSlot p.run { p.slots p.run with state := .running } with
    run := p.run + 1, begun := p.begun + 1, worker := .faultLoad round p.run }

/-- `aicos_sem_take(p->wake,10)`: a pending token, or the idle timeout. -/
def Pipeline.stepWake (p : Pipeline) : Pipeline :=
  { p with wake := p.wake - 1
           worker := .load { last := false, turn := 0, woke := p.wake != 0, ran := false } }

def Pipeline.stepSubmit (p : Pipeline) (round : Round) (index : Fin 2) (answers : WorkerAnswers) :
    Pipeline × List PipeEvent :=
  let s := p.slots index
  ({ p with worker := .receipt round index answers.submit answers.receipt },
    [.readFrame s.ticket, .sessionSubmit s.ticket answers.submit answers.receipt])

/-- Take the index out of `active` and complete that slot. -/
def Pipeline.completeActive (p : Pipeline) (result : SpiResult) : Pipeline × List PipeEvent :=
  match p.active with
  | some previous => { p with active := none }.complete previous result
  | none => (p, [])

/-- The answer of a frame's own submit and its duration. -/
def Pipeline.record (p : Pipeline) (index : Fin 2) (result : SpiResult) (elapsed : Nat) :
    Pipeline :=
  p.setSlot index { p.slots index with
    submitted := result, timing := { submitMs := elapsed, drainMs := 0 } }

/-- A receipt completes the outstanding transfer. -/
def Pipeline.acknowledge (p : Pipeline) (received : Bool) : Pipeline × List PipeEvent :=
  if received then p.completeActive .ok else (p, [])

def Pipeline.stepReceipt (p : Pipeline) (round : Round) (index : Fin 2) (result : SpiResult)
    (received : Bool) (answers : WorkerAnswers) : Pipeline × List PipeEvent :=
  let ticket := (p.slots index).ticket
  let completion := (p.record index result answers.elapsed).acknowledge received
  ({ completion.1 with worker := .check round index result },
    [.wrote ticket .submitted, .wrote ticket .submitMs, .wrote ticket .drainMs] ++ completion.2)

/-- FAULT, BUSY, or OK without the receipt of the active transfer. -/
def Pipeline.violates (p : Pipeline) (result : SpiResult) : Bool :=
  result == .fault || result == .busy || (result == .ok && p.active.isSome)

def Pipeline.stepCheck (p : Pipeline) (round : Round) (index : Fin 2) (result : SpiResult) :
    Pipeline × List PipeEvent :=
  let s := p.slots index
  if p.violates result then
    ({ p.setSlot index { s with submitted := .fault } with
        fault := true, worker := .quarantine round index },
      [.wrote s.ticket .submitted, .faultSet])
  else ({ p with worker := .publish round index result }, [])

def Pipeline.stepQuarantine (p : Pipeline) (round : Round) (index : Fin 2) :
    Pipeline × List PipeEvent :=
  let completion := p.completeActive .fault
  ({ completion.1 with worker := .publish round index .fault }, completion.2)

def Pipeline.stepPublish (p : Pipeline) (round : Round) (index : Fin 2) (result : SpiResult) :
    Pipeline × List PipeEvent :=
  let s := p.slots index
  if result = .ok then
    (({ p.setSlot index { s with state := .submitted } with active := some index }).nextTurn round,
      [.published s.ticket])
  else
    let completion := p.complete index result
    (completion.1.nextTurn round, .published s.ticket :: completion.2)

/-- The worker saw `stopping`, or drains after an idle timeout without work. -/
def Pipeline.stepStopLoad (p : Pipeline) (round : Round) : Pipeline :=
  if p.stopping then { p with worker := .load { round with last := true, turn := 0 } }
  else if round.ran = false ∧ round.woke = false then p.enterDrain false
  else { p with worker := .wake }

def Pipeline.stepDrain (p : Pipeline) (last : Bool) (index : Fin 2) (answers : WorkerAnswers) :
    Pipeline × List PipeEvent :=
  let s := p.slots index
  let timed := p.setSlot index { s with timing := { s.timing with drainMs := answers.elapsed } }
  ({ timed with worker := if answers.drain = .ok then .drainStore last index .ok
      else .drainFault last index },
    [.sessionDrain answers.drain, .wrote s.ticket .drainMs])

def Pipeline.stepDrainStore (p : Pipeline) (last : Bool) (index : Fin 2) (result : SpiResult) :
    Pipeline × List PipeEvent :=
  let completion := p.complete index result
  ({ completion.1 with worker := if last then .exit else .wake }, completion.2)

/-- One step of `worker_entry`. -/
def Pipeline.stepWorker (p : Pipeline) (answers : WorkerAnswers) :
    Option (Pipeline × List PipeEvent) :=
  match p.worker with
  | .wake => some (p.stepWake, [])
  | .load round => some (p.stepLoad round, [])
  | .mark round => some (p.stepMark round, [])
  | .faultLoad round index =>
      if p.fault then some ({ p with worker := .receipt round index .fault false }, [])
      else some ({ p with worker := .submit round index }, [])
  | .submit round index => some (p.stepSubmit round index answers)
  | .receipt round index result received =>
      some (p.stepReceipt round index result received answers)
  | .check round index result => some (p.stepCheck round index result)
  | .quarantine round index => some (p.stepQuarantine round index)
  | .publish round index result => some (p.stepPublish round index result)
  | .stopLoad round => some (p.stepStopLoad round, [])
  | .drain last index => some (p.stepDrain last index answers)
  | .drainFault last index =>
      some ({ p with fault := true, worker := .drainStore last index .fault }, [.faultSet])
  | .drainStore last index result => some (p.stepDrainStore last index result)
  | .exit => some ({ p with exited := true, worker := .exited }, [.exited])
  | .exited => none

/-- The producer's calls, and the continuation of the one in progress; a
semaphore give may fail. -/
inductive ProducerAction where
  | submit (frame : Rgb565Frame) (degrees cookie : Nat)
  | take
  | stop
  | close
  | resume (given : Bool)
deriving DecidableEq, Repr

/-- Store the descriptor and hand the slot over as QUEUED. -/
def Pipeline.stepSubmitStore (p : Pipeline) (frame : Rgb565Frame) (degrees cookie : Nat) :
    Pipeline × List PipeEvent :=
  let s := p.slots p.put
  ({ p.setSlot p.put { s with frame, degrees, cookie, released := false, state := .queued,
                              ticket := p.accepted } with
      put := p.put + 1, accepted := p.accepted + 1, producer := .give },
    [.accepted p.accepted cookie])

/-- `lv_aic_spi_pipeline_take` at its first load. -/
def Pipeline.stepTake (p : Pipeline) : Pipeline × List PipeEvent :=
  let s := p.slots p.release
  if s.state.sourceFree = true ∧ s.released = false then
    ({ p.setSlot p.release { s with released := true } with release := p.release + 1 },
      [.took s.releaseReport])
  else ({ p with producer := .takeComplete }, [])

/-- Its second load, after no release was available. -/
def Pipeline.stepTakeComplete (p : Pipeline) : Pipeline × List PipeEvent :=
  let s := p.slots p.take
  if s.state ≠ .done ∨ s.released = false then ({ p with producer := .idle }, [.tookNothing])
  else ({ p with producer := .takeStore s.completionReport }, [])

def Pipeline.stepTakeStore (p : Pipeline) (report : PipeReport) : Pipeline × List PipeEvent :=
  let s := p.slots p.take
  ({ p.setSlot p.take { s with state := .empty } with take := p.take + 1, producer := .idle },
    [.took report])

/-- One step of the producer thread. -/
def Pipeline.stepProducer (p : Pipeline) (action : ProducerAction) :
    Option (Pipeline × List PipeEvent) :=
  match p.producer, action with
  | .idle, .submit frame degrees cookie =>
      if p.stopping then some (p, [.refused .invalid])
      else some ({ p with producer := .submitFault frame degrees cookie }, [])
  | .idle, .take => some p.stepTake
  | .idle, .stop => some ({ p with stopping := true, producer := .give }, [])
  | .idle, .close =>
      if p.exited then some ({ p with producer := .closeSlot 0 }, []) else some (p, [])
  | .submitFault frame degrees cookie, .resume _ =>
      if p.fault then some ({ p with producer := .idle }, [.refused .fault])
      else some ({ p with producer := .submitState frame degrees cookie }, [])
  | .submitState frame degrees cookie, .resume _ =>
      if (p.slots p.put).state ≠ .empty then some ({ p with producer := .idle }, [.refused .busy])
      else some ({ p with producer := .submitStore frame degrees cookie }, [])
  | .submitStore frame degrees cookie, .resume _ => some (p.stepSubmitStore frame degrees cookie)
  | .give, .resume given =>
      some ({ p with wake := if given then p.wake + 1 else p.wake, producer := .idle }, [])
  | .takeComplete, .resume _ => some p.stepTakeComplete
  | .takeStore report, .resume _ => some (p.stepTakeStore report)
  | .closeSlot index, .resume _ =>
      if (p.slots index).state ≠ .empty then some ({ p with producer := .idle }, [])
      else if index = 0 then some ({ p with producer := .closeSlot 1 }, [])
      else some ({ p with producer := .closed }, [.closed])
  | _, _ => none

inductive PipeAction where
  | producer (action : ProducerAction)
  | worker (answers : WorkerAnswers)
deriving DecidableEq, Repr

/-- `lv_malloc_zeroed` storage with `active=-1`, before either thread moved. -/
def Pipeline.created : Pipeline where
  slots _ := {
    state := .empty, released := false
    frame := { data := 0, capacity := 0, stride := 0, width := 0, height := 0 }
    degrees := 0, cookie := 0, submitted := .ok, completed := .ok
    timing := { submitMs := 0, drainMs := 0 }, ticket := 0 }
  wake := 0
  put := 0
  release := 0
  take := 0
  run := 0
  active := none
  stopping := false
  exited := false
  fault := false
  worker := .wake
  producer := .idle
  accepted := 0
  begun := 0

def pipelineMachine : Machine Pipeline PipeAction PipeEvent where
  Initial p := p = Pipeline.created
  step p action :=
    match action with
    | .producer action => p.stepProducer action
    | .worker answers => p.stepWorker answers

end LvglAic.Spi
