import LvglAic.Spi.Pipeline

/-! # The one-job SPI worker (`lv_aic_spi_handoff.c`, `lv_aic_spi_worker.c`)

One producer and one worker share a slot without a lock.  A step of either
thread is one atomic access together with the plain accesses around it in
program order, or one call of the session.  The semaphore and the clock are
answered by the environment.
-/

namespace LvglAic.Spi

/-- `enum { EMPTY, QUEUED, RUNNING, DONE }` of the handoff. -/
inductive JobState where
  | empty
  | queued
  | running
  | done
deriving DecidableEq, Repr

/-- What a submit hands over. -/
structure Job where
  frame : Rgb565Frame
  degrees : Nat
  cookie : Nat
deriving DecidableEq, Repr

/-- `struct lv_aic_spi_handoff`; `stopped` and `fault` belong to the producer. -/
structure Handoff where
  state : JobState
  stopped : Bool
  fault : Bool
  job : Job
  result : SpiResult
  timing : Timing
deriving DecidableEq, Repr

/-- Where `worker_entry` stands; `last` is the run after `stopping` was seen. -/
inductive JobWorkerPc where
  | wait
  | run (last : Bool)
  | submit (last : Bool)
  | drain (last : Bool)
  | finish (last : Bool)
  | stopLoad
  | exit
  | exited
deriving DecidableEq, Repr

inductive JobProducerPc where
  | idle
  | putStore (job : Job)
  | give
  | takeStore
  | closeState
  | closed
deriving DecidableEq, Repr

/-- `struct lv_aic_spi_worker` and the two program counters. -/
structure JobWorker where
  handoff : Handoff
  wake : Nat
  stopping : Bool
  exited : Bool
  worker : JobWorkerPc
  producer : JobProducerPc
deriving DecidableEq, Repr

inductive JobEvent where
  | accepted (job : Job)
  | refused (result : SpiResult)
  | ran (job : Job) (result : SpiResult)
  | drained (result : SpiResult)
  | finished (result : SpiResult)
  | took (cookie : Nat) (result : SpiResult) (timing : Timing)
  | tookNothing
  | stopped
  | exited
  | closed
deriving DecidableEq, Repr

namespace JobWorker

def setHandoff (w : JobWorker) (h : Handoff) : JobWorker := { w with handoff := h }

/-- `lv_aic_spi_handoff_run` returned. -/
def afterRun (last : Bool) : JobWorkerPc := if last then .exit else .stopLoad

/-- The compare and exchange of `lv_aic_spi_handoff_run`. -/
def stepRun (w : JobWorker) (last : Bool) : JobWorker :=
  if w.handoff.state = .queued then
    { w.setHandoff { w.handoff with state := .running } with worker := .submit last }
  else { w with worker := afterRun last }

/-- `lv_aic_spi_session_submit` and its duration. -/
def stepSubmit (w : JobWorker) (last : Bool) (answer : SpiResult) (elapsed : Nat) :
    JobWorker × List JobEvent :=
  ({ w.setHandoff { w.handoff with
        result := answer
        timing := { submitMs := elapsed, drainMs := 0 } } with
      worker := if answer = .ok then .drain last else .finish last },
    [.ran w.handoff.job answer])

def stepDrain (w : JobWorker) (last : Bool) (answer : SpiResult) (elapsed : Nat) :
    JobWorker × List JobEvent :=
  ({ w.setHandoff { w.handoff with
        result := answer
        timing := { w.handoff.timing with drainMs := elapsed } } with worker := .finish last },
    [.drained answer])

def stepFinish (w : JobWorker) (last : Bool) : JobWorker × List JobEvent :=
  ({ w.setHandoff { w.handoff with state := .done } with worker := afterRun last },
    [.finished w.handoff.result])

/-- One step of `worker_entry`.  The wait for the semaphore ends with a token or
with its timeout. -/
def stepWorker (w : JobWorker) (answer : SpiResult) (elapsed : Nat) :
    Option (JobWorker × List JobEvent) :=
  match w.worker with
  | .wait => some ({ w with wake := w.wake - 1, worker := .run false }, [])
  | .run last => some (w.stepRun last, [])
  | .submit last => some (w.stepSubmit last answer elapsed)
  | .drain last => some (w.stepDrain last answer elapsed)
  | .finish last => some (w.stepFinish last)
  | .stopLoad => some ({ w with worker := if w.stopping then .run true else .wait }, [])
  | .exit => some ({ w with exited := true, worker := .exited }, [.exited])
  | .exited => none

inductive Call where
  | submit (job : Job)
  | take
  | stop
  | close
  | resume (given : Bool)
deriving DecidableEq, Repr

/-- `lv_aic_spi_handoff_put` at its load. -/
def stepPut (w : JobWorker) (job : Job) : JobWorker × List JobEvent :=
  if w.handoff.fault then (w, [.refused .fault])
  else if w.handoff.stopped then (w, [.refused .invalid])
  else if w.handoff.state ≠ .empty then (w, [.refused .busy])
  else ({ w with producer := .putStore job }, [])

def stepPutStore (w : JobWorker) (job : Job) : JobWorker × List JobEvent :=
  ({ w.setHandoff { w.handoff with job := job, state := .queued } with producer := .give },
    [.accepted job])

def stepTake (w : JobWorker) : JobWorker × List JobEvent :=
  if w.handoff.state = .done then ({ w with producer := .takeStore }, []) else (w, [.tookNothing])

def stepTakeStore (w : JobWorker) : JobWorker × List JobEvent :=
  ({ w.setHandoff { w.handoff with
        fault := w.handoff.fault || w.handoff.result = .fault || w.handoff.result = .busy
        state := .empty } with producer := .idle },
    [.took w.handoff.job.cookie w.handoff.result w.handoff.timing])

/-- One step of the producer thread. -/
def stepProducer (w : JobWorker) (call : Call) : Option (JobWorker × List JobEvent) :=
  match w.producer, call with
  | .idle, .submit job => some (w.stepPut job)
  | .idle, .take => some w.stepTake
  | .idle, .stop =>
      some ({ w.setHandoff { w.handoff with stopped := true } with
        stopping := true
        producer := .give }, [.stopped])
  | .idle, .close => some (if w.exited then { w with producer := .closeState } else w, [])
  | .putStore job, .resume _ => some (w.stepPutStore job)
  | .give, .resume given =>
      some ({ w with wake := if given then w.wake + 1 else w.wake, producer := .idle }, [])
  | .takeStore, .resume _ => some w.stepTakeStore
  | .closeState, .resume _ =>
      if w.handoff.stopped && w.handoff.state = .empty then
        some ({ w with producer := .closed }, [.closed])
      else some ({ w with producer := .idle }, [])
  | _, _ => none

end JobWorker

inductive JobAction where
  | producer (call : JobWorker.Call)
  | worker (answer : SpiResult) (elapsed : Nat)
deriving DecidableEq, Repr

/-- `lv_malloc_zeroed` storage, before either thread moved. -/
def JobWorker.created : JobWorker where
  handoff := {
    state := .empty
    stopped := false
    fault := false
    job := {
      frame := { data := 0, capacity := 0, stride := 0, width := 0, height := 0 }
      degrees := 0
      cookie := 0 }
    result := .ok
    timing := { submitMs := 0, drainMs := 0 } }
  wake := 0
  stopping := false
  exited := false
  worker := .wait
  producer := .idle

def workerMachine : Machine JobWorker JobAction JobEvent where
  Initial w := w = JobWorker.created
  step w action :=
    match action with
    | .producer call => w.stepProducer call
    | .worker answer elapsed => w.stepWorker answer elapsed

end LvglAic.Spi
