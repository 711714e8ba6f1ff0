import LvglAic.Spi.Worker
import LvglAic.Machine.Progress

/-! # What the one-job worker delivers

Every accepted job runs once and is taken once, also one that was queued just
before `stop`.
-/

namespace LvglAic.Spi

variable {trace events : List JobEvent} {w next : JobWorker} {action : JobAction}

def acceptedJobs (trace : List JobEvent) : List Job :=
  trace.filterMap fun event => match event with
    | .accepted job => some job
    | _ => none

def ranJobs (trace : List JobEvent) : List Job :=
  trace.filterMap fun event => match event with
    | .ran job _ => some job
    | _ => none

/-- The results of the runs. -/
def finishedResults (trace : List JobEvent) : List SpiResult :=
  trace.filterMap fun event => match event with
    | .finished result => some result
    | _ => none

/-- The results that were taken, with their cookies. -/
def takenResults (trace : List JobEvent) : List (Nat × SpiResult) :=
  trace.filterMap fun event => match event with
    | .took cookie result _ => some (cookie, result)
    | _ => none

/-- What the session answered last. -/
def lastAnswer (trace : List JobEvent) : Option SpiResult :=
  (trace.filterMap fun event => match event with
    | .ran _ result | .drained result => some result
    | _ => none).getLast?

/-- An event of the worker thread. -/
def JobEvent.ofWorker : JobEvent → Bool
  | .ran _ _ | .drained _ | .finished _ | .exited => true
  | _ => false

/-- A result after which nothing is accepted. -/
def SpiResult.poisons (result : SpiResult) : Bool := result = .fault || result = .busy

/-- What an event tells about the events before it. -/
def JobSafe (before : List JobEvent) (event : JobEvent) : Prop :=
  (event.ofWorker = true → .exited ∉ before) ∧
  match event with
  | .accepted _ => .stopped ∉ before ∧ ∀ taken ∈ takenResults before, taken.2.poisons = false
  | .finished result => lastAnswer before = some result
  | .closed => .exited ∈ before ∧
      (takenResults before).map Prod.fst = (acceptedJobs before).map Job.cookie
  | _ => True

/-- The worker holds the slot. -/
def JobWorkerPc.running : JobWorkerPc → Bool
  | .submit _ | .drain _ | .finish _ => true
  | _ => false

/-- The worker has seen `stopping`. -/
def JobWorkerPc.stopSeen : JobWorkerPc → Bool
  | .run last | .submit last | .drain last | .finish last => last
  | .exit | .exited => true
  | .wait | .stopLoad => false

/-- The worker takes no further job. -/
def JobWorkerPc.leaving : JobWorkerPc → Bool
  | .exit | .exited => true
  | _ => false

theorem JobWorkerPc.leaving_seen {pc : JobWorkerPc} (leaving : pc.leaving = true) :
    pc.stopSeen = true := by
  cases pc <;> first | rfl | cases leaving

namespace JobWorker

/-- Who owns the slot. -/
structure Control (w : JobWorker) : Prop where
  running : w.handoff.state = .running ↔ w.worker.running = true
  putting : ∀ job, w.producer = .putStore job →
    w.handoff.state = .empty ∧ w.handoff.stopped = false ∧ w.handoff.fault = false
  taking : w.producer = .takeStore → w.handoff.state = .done
  stopping : w.stopping = w.handoff.stopped
  stopSeen : w.worker.stopSeen = true → w.stopping = true
  leaving : w.worker.leaving = true → w.handoff.state ≠ .queued
  exited : w.exited = true ↔ w.worker = .exited
  closing : w.producer = .closeState → w.exited = true
  closed : w.producer = .closed →
    w.exited = true ∧ w.handoff.stopped = true ∧ w.handoff.state = .empty

theorem Control.created : Control JobWorker.created := by
  constructor <;> simp [JobWorker.created, JobWorkerPc.running, JobWorkerPc.stopSeen,
    JobWorkerPc.leaving]

theorem Control.runs {last : Bool} (control : Control w) (pc : w.worker = .run last) :
    Control (w.stepRun last) := by
  obtain ⟨running, putting, taking, stopping, stopSeen, leaving, exited, closing, closed⟩ := control
  unfold JobWorker.stepRun setHandoff afterRun
  split <;> constructor <;>
    grind [JobWorkerPc.running, JobWorkerPc.stopSeen, JobWorkerPc.leaving]

theorem Control.submits {answer : SpiResult} {elapsed : Nat} {last : Bool} (control : Control w)
    (pc : w.worker = .submit last) : Control (w.stepSubmit last answer elapsed).1 := by
  obtain ⟨running, putting, taking, stopping, stopSeen, leaving, exited, closing, closed⟩ := control
  unfold JobWorker.stepSubmit setHandoff
  constructor <;> grind [JobWorkerPc.running, JobWorkerPc.stopSeen, JobWorkerPc.leaving]

theorem Control.drains {answer : SpiResult} {elapsed : Nat} {last : Bool} (control : Control w)
    (pc : w.worker = .drain last) : Control (w.stepDrain last answer elapsed).1 := by
  obtain ⟨running, putting, taking, stopping, stopSeen, leaving, exited, closing, closed⟩ := control
  unfold JobWorker.stepDrain setHandoff
  constructor <;> grind [JobWorkerPc.running, JobWorkerPc.stopSeen, JobWorkerPc.leaving]

theorem Control.finishes {last : Bool} (control : Control w) (pc : w.worker = .finish last) :
    Control (w.stepFinish last).1 := by
  obtain ⟨running, putting, taking, stopping, stopSeen, leaving, exited, closing, closed⟩ := control
  unfold JobWorker.stepFinish setHandoff afterRun
  constructor <;> grind [JobWorkerPc.running, JobWorkerPc.stopSeen, JobWorkerPc.leaving]

theorem Control.stepWorker {answer : SpiResult} {elapsed : Nat} (control : Control w)
    (moved : w.stepWorker answer elapsed = some (next, events)) : Control next := by
  cases pc : w.worker with
  | run last =>
      simp only [JobWorker.stepWorker, pc, Option.some.injEq, Prod.mk.injEq] at moved
      obtain ⟨rfl, rfl⟩ := moved
      exact control.runs pc
  | submit last =>
      simp only [JobWorker.stepWorker, pc, Option.some.injEq] at moved
      obtain ⟨rfl, rfl⟩ := Prod.ext_iff.mp moved
      exact control.submits pc
  | drain last =>
      simp only [JobWorker.stepWorker, pc, Option.some.injEq] at moved
      obtain ⟨rfl, rfl⟩ := Prod.ext_iff.mp moved
      exact control.drains pc
  | finish last =>
      simp only [JobWorker.stepWorker, pc, Option.some.injEq] at moved
      obtain ⟨rfl, rfl⟩ := Prod.ext_iff.mp moved
      exact control.finishes pc
  | exited => simp [JobWorker.stepWorker, pc] at moved
  | wait | stopLoad | exit =>
      obtain ⟨running, putting, taking, stopping, stopSeen, leaving, exited, closing, closed⟩ :=
        control
      simp only [JobWorker.stepWorker, pc, Option.some.injEq, Prod.mk.injEq] at moved
      obtain ⟨rfl, rfl⟩ := moved
      constructor <;> grind [JobWorkerPc.running, JobWorkerPc.stopSeen, JobWorkerPc.leaving]

theorem Control.puts {job : Job} (control : Control w) : Control (w.stepPut job).1 := by
  unfold JobWorker.stepPut
  split
  · exact control
  split
  · exact control
  split
  · exact control
  obtain ⟨running, putting, taking, stopping, stopSeen, leaving, exited, closing, closed⟩ := control
  constructor <;> grind

theorem Control.putStores {job : Job} (control : Control w) (pc : w.producer = .putStore job) :
    Control (w.stepPutStore job).1 := by
  obtain ⟨running, putting, taking, stopping, stopSeen, leaving, exited, closing, closed⟩ := control
  unfold JobWorker.stepPutStore setHandoff
  constructor <;> grind [JobWorkerPc.leaving_seen]

theorem Control.takes (control : Control w) : Control w.stepTake.1 := by
  unfold JobWorker.stepTake
  split
  · obtain ⟨running, putting, taking, stopping, stopSeen, leaving, exited, closing, closed⟩ :=
      control
    constructor <;> grind
  · exact control

theorem Control.takeStores (control : Control w) (pc : w.producer = .takeStore) :
    Control w.stepTakeStore.1 := by
  obtain ⟨running, putting, taking, stopping, stopSeen, leaving, exited, closing, closed⟩ := control
  unfold JobWorker.stepTakeStore setHandoff
  constructor <;> grind

theorem Control.stops (control : Control w) :
    Control { w.setHandoff { w.handoff with stopped := true } with
      stopping := true
      producer := .give } := by
  obtain ⟨running, putting, taking, stopping, stopSeen, leaving, exited, closing, closed⟩ := control
  unfold setHandoff
  constructor <;> grind

theorem Control.rests {wake : Nat} (control : Control w) :
    Control { w with wake := wake, producer := .idle } := by
  obtain ⟨running, putting, taking, stopping, stopSeen, leaving, exited, closing, closed⟩ := control
  constructor <;> grind

theorem Control.closeCalled (control : Control w) :
    Control (if w.exited then { w with producer := .closeState } else w) := by
  split
  · rename_i gone
    obtain ⟨running, putting, taking, stopping, stopSeen, leaving, exited, closing, closed⟩ :=
      control
    constructor <;> grind
  · exact control

theorem Control.closes (control : Control w) (pc : w.producer = .closeState)
    (shut : (w.handoff.stopped && w.handoff.state = .empty) = true) :
    Control { w with producer := .closed } := by
  obtain ⟨running, putting, taking, stopping, stopSeen, leaving, exited, closing, closed⟩ := control
  constructor <;> grind

theorem Control.stepProducer {call : Call} (control : Control w)
    (moved : w.stepProducer call = some (next, events)) : Control next := by
  cases pc : w.producer with
  | idle =>
      cases call with
      | submit job =>
          simp only [JobWorker.stepProducer, pc, Option.some.injEq] at moved
          obtain ⟨rfl, rfl⟩ := Prod.ext_iff.mp moved
          exact control.puts
      | take =>
          simp only [JobWorker.stepProducer, pc, Option.some.injEq] at moved
          obtain ⟨rfl, rfl⟩ := Prod.ext_iff.mp moved
          exact control.takes
      | stop =>
          simp only [JobWorker.stepProducer, pc, Option.some.injEq, Prod.mk.injEq] at moved
          obtain ⟨rfl, rfl⟩ := moved
          exact control.stops
      | close =>
          simp only [JobWorker.stepProducer, pc, Option.some.injEq, Prod.mk.injEq] at moved
          obtain ⟨rfl, rfl⟩ := moved
          exact control.closeCalled
      | resume given => simp [JobWorker.stepProducer, pc] at moved
  | closed => cases call <;> simp [JobWorker.stepProducer, pc] at moved
  | putStore job =>
      cases call with
      | resume given =>
          simp only [JobWorker.stepProducer, pc, Option.some.injEq] at moved
          obtain ⟨rfl, rfl⟩ := Prod.ext_iff.mp moved
          exact control.putStores pc
      | _ => simp [JobWorker.stepProducer, pc] at moved
  | give =>
      cases call with
      | resume given =>
          simp only [JobWorker.stepProducer, pc, Option.some.injEq, Prod.mk.injEq] at moved
          obtain ⟨rfl, rfl⟩ := moved
          exact control.rests
      | _ => simp [JobWorker.stepProducer, pc] at moved
  | takeStore =>
      cases call with
      | resume given =>
          simp only [JobWorker.stepProducer, pc, Option.some.injEq] at moved
          obtain ⟨rfl, rfl⟩ := Prod.ext_iff.mp moved
          exact control.takeStores pc
      | _ => simp [JobWorker.stepProducer, pc] at moved
  | closeState =>
      cases call with
      | resume given =>
          simp only [JobWorker.stepProducer, pc] at moved
          split at moved
          · rename_i shut
            obtain ⟨rfl, rfl⟩ := Prod.ext_iff.mp (Option.some.inj moved)
            exact control.closes pc shut
          · obtain ⟨rfl, rfl⟩ := Prod.ext_iff.mp (Option.some.inj moved)
            exact control.rests
      | _ => simp [JobWorker.stepProducer, pc] at moved

theorem Control.step (control : Control w)
    (moved : workerMachine.step w action = some (next, events)) : Control next := by
  cases action with
  | producer call => exact control.stepProducer moved
  | worker answer elapsed => exact control.stepWorker moved

/-! ## Histories -/

/-- The job that still has to run. -/
def unrun (w : JobWorker) : List Job :=
  match w.handoff.state, w.worker with
  | .queued, _ | .running, .submit _ => [w.handoff.job]
  | _, _ => []

/-- The job whose result still has to be taken. -/
def untaken (w : JobWorker) : List Job :=
  if w.handoff.state = .empty then [] else [w.handoff.job]

/-- The result that waits in the slot. -/
def waiting (w : JobWorker) : List SpiResult :=
  if w.handoff.state = .done then [w.handoff.result] else []

/-- The trace explains the slot. -/
structure History (trace : List JobEvent) (w : JobWorker) : Prop where
  ran : ranJobs trace ++ w.unrun = acceptedJobs trace
  cookies : (takenResults trace).map Prod.fst ++ w.untaken.map Job.cookie =
    (acceptedJobs trace).map Job.cookie
  results : (takenResults trace).map Prod.snd ++ w.waiting = finishedResults trace
  answer : ∀ last, w.worker = .drain last ∨ w.worker = .finish last →
    lastAnswer trace = some w.handoff.result
  fault : w.handoff.fault = false → ∀ taken ∈ takenResults trace, taken.2.poisons = false
  stopped : .stopped ∈ trace → w.handoff.stopped = true
  exited : .exited ∈ trace ↔ w.exited = true
  guarded : Guarded JobSafe trace

theorem History.created : History [] JobWorker.created := by
  constructor <;> simp [JobWorker.created, ranJobs, acceptedJobs, takenResults, finishedResults,
    unrun, untaken, waiting, Guarded.nil]

/-- A step without an event that leaves the slot alone. -/
theorem History.quiet (history : History trace w) (handoff : next.handoff = w.handoff)
    (unrun : next.unrun = w.unrun) (exited : next.exited = w.exited)
    (pending : ∀ last, next.worker = .drain last ∨ next.worker = .finish last →
      w.worker = .drain last ∨ w.worker = .finish last) : History (trace ++ []) next := by
  obtain ⟨ran, cookies, results, answer, fault, stopped, left, guarded⟩ := history
  rw [List.append_nil]
  refine ⟨by rwa [unrun], ?_, ?_, ?_, by rwa [handoff], by rwa [handoff], by rwa [exited], guarded⟩
  · simpa only [untaken, handoff] using cookies
  · simpa only [waiting, handoff] using results
  · intro last pc
    rw [handoff]
    exact answer last (pending last pc)

theorem History.inside (history : History trace w) (control : Control w)
    (inside : w.worker ≠ .exited) : .exited ∉ trace := by
  rwa [history.exited, control.exited]

theorem History.stepWorker {answer : SpiResult} {elapsed : Nat} (history : History trace w)
    (control : Control w) (moved : w.stepWorker answer elapsed = some (next, events)) :
    History (trace ++ events) next := by
  cases pc : w.worker with
  | wait =>
      simp only [JobWorker.stepWorker, pc, Option.some.injEq, Prod.mk.injEq] at moved
      obtain ⟨rfl, rfl⟩ := moved
      exact history.quiet rfl (by cases state : w.handoff.state <;> simp [unrun, state, pc]) rfl
        (by simp)
  | run last =>
      simp only [JobWorker.stepWorker, pc, Option.some.injEq, Prod.mk.injEq] at moved
      obtain ⟨rfl, rfl⟩ := moved
      by_cases queued : w.handoff.state = .queued
      · obtain ⟨ran, cookies, results, answered, fault, stopped, exited, guarded⟩ := history
        rw [List.append_nil]
        refine ⟨?_, ?_, ?_, ?_, ?_, ?_, ?_, guarded⟩
        · simpa [stepRun, setHandoff, unrun, queued] using ran
        · simpa [stepRun, setHandoff, untaken, queued] using cookies
        · simpa [stepRun, setHandoff, waiting, queued] using results
        · simp [stepRun, setHandoff, queued]
        · simpa [stepRun, setHandoff, queued] using fault
        · simpa [stepRun, setHandoff, queued] using stopped
        · simpa [stepRun, setHandoff, queued] using exited
      · have unmoved : w.stepRun last = { w with worker := afterRun last } := by
          simp only [stepRun, queued, if_false]
        have free : w.handoff.state ≠ .running := by
          rw [ne_eq, control.running, pc]
          simp [JobWorkerPc.running]
        rw [unmoved]
        refine history.quiet rfl ?_ rfl ?_
        · cases state : w.handoff.state <;> simp_all [unrun]
        · cases last <;> simp [afterRun]
  | submit last =>
      simp only [JobWorker.stepWorker, pc, Option.some.injEq] at moved
      obtain ⟨rfl, rfl⟩ := Prod.ext_iff.mp moved
      have state := control.running.mpr (by rw [pc]; rfl)
      have inside := history.inside control (by rw [pc]; nofun)
      obtain ⟨ran, cookies, results, answered, fault, stopped, exited, guarded⟩ := history
      refine ⟨?_, ?_, ?_, ?_, ?_, ?_, ?_, guarded.snoc ⟨fun _ => inside, trivial⟩⟩
      · by_cases ok : answer = .ok <;>
          simpa [stepSubmit, setHandoff, unrun, ranJobs, acceptedJobs, pc, state, ok] using ran
      · simpa [stepSubmit, setHandoff, untaken, takenResults, acceptedJobs, state] using cookies
      · simpa [stepSubmit, setHandoff, waiting, takenResults, finishedResults, state] using results
      · simp [stepSubmit, setHandoff, lastAnswer]
      · simpa [stepSubmit, setHandoff, takenResults] using fault
      · simpa [stepSubmit, setHandoff] using stopped
      · simpa [stepSubmit, setHandoff] using exited
  | drain last =>
      simp only [JobWorker.stepWorker, pc, Option.some.injEq] at moved
      obtain ⟨rfl, rfl⟩ := Prod.ext_iff.mp moved
      have state := control.running.mpr (by rw [pc]; rfl)
      have inside := history.inside control (by rw [pc]; nofun)
      obtain ⟨ran, cookies, results, answered, fault, stopped, exited, guarded⟩ := history
      refine ⟨?_, ?_, ?_, ?_, ?_, ?_, ?_, guarded.snoc ⟨fun _ => inside, trivial⟩⟩
      · simpa [stepDrain, setHandoff, unrun, ranJobs, acceptedJobs, pc, state] using ran
      · simpa [stepDrain, setHandoff, untaken, takenResults, acceptedJobs, state] using cookies
      · simpa [stepDrain, setHandoff, waiting, takenResults, finishedResults, state] using results
      · simp [stepDrain, setHandoff, lastAnswer]
      · simpa [stepDrain, setHandoff, takenResults] using fault
      · simpa [stepDrain, setHandoff] using stopped
      · simpa [stepDrain, setHandoff] using exited
  | finish last =>
      simp only [JobWorker.stepWorker, pc, Option.some.injEq] at moved
      obtain ⟨rfl, rfl⟩ := Prod.ext_iff.mp moved
      have state := control.running.mpr (by rw [pc]; rfl)
      have inside := history.inside control (by rw [pc]; nofun)
      obtain ⟨ran, cookies, results, answered, fault, stopped, exited, guarded⟩ := history
      refine ⟨?_, ?_, ?_, ?_, ?_, ?_, ?_,
        guarded.snoc ⟨fun _ => inside, answered last (.inr pc)⟩⟩
      · simpa [stepFinish, setHandoff, unrun, ranJobs, acceptedJobs, pc, state] using ran
      · simpa [stepFinish, setHandoff, untaken, takenResults, acceptedJobs, state] using cookies
      · simpa [stepFinish, setHandoff, waiting, takenResults, finishedResults, state] using results
      · cases last <;> simp [stepFinish, setHandoff, afterRun]
      · simpa [stepFinish, setHandoff, takenResults] using fault
      · simpa [stepFinish, setHandoff] using stopped
      · simpa [stepFinish, setHandoff] using exited
  | stopLoad =>
      simp only [JobWorker.stepWorker, pc, Option.some.injEq, Prod.mk.injEq] at moved
      obtain ⟨rfl, rfl⟩ := moved
      refine history.quiet rfl ?_ rfl ?_
      · cases stopping : w.stopping <;> cases state : w.handoff.state <;>
          simp [unrun, state, pc]
      · cases stopping : w.stopping <;> simp
  | exit =>
      simp only [JobWorker.stepWorker, pc, Option.some.injEq, Prod.mk.injEq] at moved
      obtain ⟨rfl, rfl⟩ := moved
      have inside := history.inside control (by rw [pc]; nofun)
      obtain ⟨ran, cookies, results, answered, fault, stopped, exited, guarded⟩ := history
      refine ⟨?_, ?_, ?_, ?_, ?_, ?_, ?_, guarded.snoc ⟨fun _ => inside, trivial⟩⟩
      · cases state : w.handoff.state <;>
          simpa [unrun, ranJobs, acceptedJobs, pc, state] using ran
      · simpa [untaken, takenResults, acceptedJobs] using cookies
      · simpa [waiting, takenResults, finishedResults] using results
      · simp
      · simpa [takenResults] using fault
      · simpa using stopped
      · simp
  | exited => simp [JobWorker.stepWorker, pc] at moved

/-- A call that tells something, but moves no job. -/
theorem History.tell {event : JobEvent} (history : History trace w)
    (silent : ranJobs [event] = [] ∧ acceptedJobs [event] = [] ∧ finishedResults [event] = [] ∧
      takenResults [event] = [] ∧ event ≠ .stopped ∧ event ≠ .exited)
    (safe : JobSafe trace event) (answers : lastAnswer (trace ++ [event]) = lastAnswer trace)
    (handoff : next.handoff = w.handoff) (worker : next.worker = w.worker)
    (exited : next.exited = w.exited) : History (trace ++ [event]) next := by
  obtain ⟨noRun, noJob, noResult, noTake, unstopped, unexited⟩ := silent
  obtain ⟨ran, cookies, results, answer, fault, stopped, left, guarded⟩ := history
  have runs : ranJobs (trace ++ [event]) = ranJobs trace := by
    simpa [ranJobs, List.filterMap_append] using noRun
  have jobs : acceptedJobs (trace ++ [event]) = acceptedJobs trace := by
    simpa [acceptedJobs, List.filterMap_append] using noJob
  have finishes : finishedResults (trace ++ [event]) = finishedResults trace := by
    simpa [finishedResults, List.filterMap_append] using noResult
  have takes : takenResults (trace ++ [event]) = takenResults trace := by
    simpa [takenResults, List.filterMap_append] using noTake
  refine ⟨?_, ?_, ?_, ?_, ?_, ?_, ?_, guarded.snoc safe⟩
  · simpa only [runs, jobs, unrun, handoff, worker] using ran
  · simpa only [takes, jobs, untaken, handoff] using cookies
  · simpa only [takes, finishes, waiting, handoff] using results
  · simpa only [answers, worker, handoff] using answer
  · simpa only [takes, handoff] using fault
  · simpa [handoff, unstopped.symm] using stopped
  · simpa [exited, unexited.symm] using left

theorem History.stepProducer {call : Call} (history : History trace w) (control : Control w)
    (moved : w.stepProducer call = some (next, events)) : History (trace ++ events) next := by
  cases pc : w.producer with
  | idle =>
      cases call with
      | submit job =>
          simp only [JobWorker.stepProducer, pc, Option.some.injEq] at moved
          obtain ⟨rfl, rfl⟩ := Prod.ext_iff.mp moved
          unfold stepPut
          split
          · exact history.tell (by simp [ranJobs, acceptedJobs, finishedResults, takenResults])
              ⟨nofun, trivial⟩ (by simp [lastAnswer]) rfl rfl rfl
          · split
            · exact history.tell (by simp [ranJobs, acceptedJobs, finishedResults, takenResults])
                ⟨nofun, trivial⟩ (by simp [lastAnswer]) rfl rfl rfl
            · split
              · exact history.tell (by simp [ranJobs, acceptedJobs, finishedResults, takenResults])
                  ⟨nofun, trivial⟩ (by simp [lastAnswer]) rfl rfl rfl
              · exact history.quiet rfl rfl rfl fun _ => id
      | take =>
          simp only [JobWorker.stepProducer, pc, Option.some.injEq] at moved
          obtain ⟨rfl, rfl⟩ := Prod.ext_iff.mp moved
          unfold stepTake
          split
          · exact history.quiet rfl rfl rfl fun _ => id
          · exact history.tell (by simp [ranJobs, acceptedJobs, finishedResults, takenResults])
              ⟨nofun, trivial⟩ (by simp [lastAnswer]) rfl rfl rfl
      | stop =>
          simp only [JobWorker.stepProducer, pc, Option.some.injEq, Prod.mk.injEq] at moved
          obtain ⟨rfl, rfl⟩ := moved
          obtain ⟨ran, cookies, results, answered, fault, stopped, exited, guarded⟩ := history
          refine ⟨?_, ?_, ?_, ?_, ?_, ?_, ?_, guarded.snoc ⟨nofun, trivial⟩⟩
          · simpa [setHandoff, unrun, ranJobs, acceptedJobs] using ran
          · by_cases state : w.handoff.state = .empty <;>
              simpa [setHandoff, untaken, takenResults, acceptedJobs, state] using cookies
          · by_cases state : w.handoff.state = .done <;>
              simpa [setHandoff, waiting, takenResults, finishedResults, state] using results
          · simpa [setHandoff, lastAnswer] using answered
          · simpa [setHandoff, takenResults] using fault
          · simp [setHandoff]
          · simpa [setHandoff] using exited
      | close =>
          simp only [JobWorker.stepProducer, pc, Option.some.injEq, Prod.mk.injEq] at moved
          obtain ⟨rfl, rfl⟩ := moved
          split <;> exact history.quiet rfl rfl rfl fun _ => id
      | resume given => simp [JobWorker.stepProducer, pc] at moved
  | closed => cases call <;> simp [JobWorker.stepProducer, pc] at moved
  | putStore job =>
      cases call with
      | resume given =>
          simp only [JobWorker.stepProducer, pc, Option.some.injEq] at moved
          obtain ⟨rfl, rfl⟩ := Prod.ext_iff.mp moved
          obtain ⟨state, unstopped, unfaulted⟩ := control.putting job pc
          obtain ⟨ran, cookies, results, answered, fault, stopped, exited, guarded⟩ := history
          have open_ : .stopped ∉ trace := fun member => by simp [stopped member] at unstopped
          have all : ranJobs trace = acceptedJobs trace := by
            simpa [unrun, state] using ran
          refine ⟨?_, ?_, ?_, ?_, ?_, ?_, ?_,
            guarded.snoc ⟨nofun, open_, fault unfaulted⟩⟩
          · simpa [stepPutStore, setHandoff, unrun, ranJobs, acceptedJobs] using all
          · simpa [stepPutStore, setHandoff, untaken, takenResults, acceptedJobs, state] using cookies
          · simpa [stepPutStore, setHandoff, waiting, takenResults, finishedResults, state]
              using results
          · simpa [stepPutStore, setHandoff, lastAnswer] using answered
          · simpa [stepPutStore, setHandoff, takenResults] using fault
          · simpa [stepPutStore, setHandoff] using stopped
          · simpa [stepPutStore, setHandoff] using exited
      | _ => simp [JobWorker.stepProducer, pc] at moved
  | give =>
      cases call with
      | resume given =>
          simp only [JobWorker.stepProducer, pc, Option.some.injEq, Prod.mk.injEq] at moved
          obtain ⟨rfl, rfl⟩ := moved
          exact history.quiet rfl rfl rfl fun _ => id
      | _ => simp [JobWorker.stepProducer, pc] at moved
  | takeStore =>
      cases call with
      | resume given =>
          simp only [JobWorker.stepProducer, pc, Option.some.injEq] at moved
          obtain ⟨rfl, rfl⟩ := Prod.ext_iff.mp moved
          have state := control.taking pc
          obtain ⟨ran, cookies, results, answered, fault, stopped, exited, guarded⟩ := history
          refine ⟨?_, ?_, ?_, ?_, ?_, ?_, ?_, guarded.snoc ⟨nofun, trivial⟩⟩
          · simpa [stepTakeStore, setHandoff, unrun, ranJobs, acceptedJobs, state] using ran
          · simpa [stepTakeStore, setHandoff, untaken, takenResults, acceptedJobs, state]
              using cookies
          · simpa [stepTakeStore, setHandoff, waiting, takenResults, finishedResults, state]
              using results
          · simpa [stepTakeStore, setHandoff, lastAnswer] using answered
          · intro unfaulted taken member
            simp only [stepTakeStore, setHandoff, Bool.or_eq_false_iff] at unfaulted
            obtain ⟨⟨clean, whole⟩, free⟩ := unfaulted
            rw [takenResults, List.filterMap_append, List.mem_append] at member
            rcases member with before | now
            · exact fault clean taken before
            · simp only [stepTakeStore, List.filterMap_cons, List.filterMap_nil,
                List.mem_singleton] at now
              simp [now, SpiResult.poisons, whole, free]
          · simpa [stepTakeStore, setHandoff] using stopped
          · simpa [stepTakeStore, setHandoff] using exited
      | _ => simp [JobWorker.stepProducer, pc] at moved
  | closeState =>
      cases call with
      | resume given =>
          simp only [JobWorker.stepProducer, pc] at moved
          split at moved
          · rename_i ready
            obtain ⟨rfl, rfl⟩ := Prod.ext_iff.mp (Option.some.inj moved)
            simp only [Bool.and_eq_true, decide_eq_true_eq] at ready
            have exited := history.exited.mpr (control.closing pc)
            have cookies := history.cookies
            simp only [untaken, ready.2, if_true, List.map_nil, List.append_nil] at cookies
            exact history.tell (by simp [ranJobs, acceptedJobs, finishedResults, takenResults])
              ⟨nofun, exited, cookies⟩ (by simp [lastAnswer]) rfl rfl rfl
          · obtain ⟨rfl, rfl⟩ := Prod.ext_iff.mp (Option.some.inj moved)
            exact history.quiet rfl rfl rfl fun _ => id
      | _ => simp [JobWorker.stepProducer, pc] at moved

theorem worker_invariant (reached : workerMachine.Reaches Machine.Always trace w) :
    Control w ∧ History trace w := by
  refine reached.invariant (fun trace w => Control w ∧ History trace w) ?_ ?_
  · rintro w rfl
    exact ⟨.created, .created⟩
  · rintro trace before action after events ⟨control, history⟩ - moved
    refine ⟨control.step moved, ?_⟩
    cases action with
    | producer call => exact history.stepProducer control moved
    | worker answer elapsed => exact history.stepWorker control moved

end JobWorker

end LvglAic.Spi
