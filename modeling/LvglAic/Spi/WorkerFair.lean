import LvglAic.Spi.WorkerDelivery

/-! # Fair runs of the one-job worker -/

namespace LvglAic.Spi

variable {trace events past : List JobEvent} {w next start : JobWorker} {n : Nat}

namespace JobWorker

/-- The slot holds a job that is not done. -/
def underway (w : JobWorker) : Prop := w.handoff.state = .queued ∨ w.handoff.state = .running

/-- Worker steps until the job is done. -/
def runRank (w : JobWorker) : Nat :=
  match w.worker with
  | .stopLoad => 6
  | .wait => 5
  | .run _ => 4
  | .submit _ => 3
  | .drain _ => 2
  | .finish _ => 1
  | .exit | .exited => 0

theorem Control.worker_advances {answer : SpiResult} {elapsed : Nat} (control : Control w)
    (underway : w.underway) (moved : w.stepWorker answer elapsed = some (next, events)) :
    next.handoff.job = w.handoff.job ∧ (next.handoff.state = .done ∨ next.runRank < w.runRank) := by
  obtain ⟨running, _, _, _, _, leaving, _, _, _⟩ := control
  cases pc : w.worker with
  | wait =>
      simp only [JobWorker.stepWorker, pc, Option.some.injEq, Prod.mk.injEq] at moved
      obtain ⟨rfl, rfl⟩ := moved
      exact ⟨rfl, .inr (by simp [runRank, pc])⟩
  | run last =>
      simp only [JobWorker.stepWorker, pc, Option.some.injEq, Prod.mk.injEq] at moved
      obtain ⟨rfl, rfl⟩ := moved
      have queued : w.handoff.state = .queued := by
        refine underway.resolve_right fun busy => ?_
        have held := running.mp busy
        rw [pc] at held
        cases held
      simp [stepRun, queued, setHandoff, runRank, pc]
  | submit last =>
      simp only [JobWorker.stepWorker, pc, Option.some.injEq] at moved
      obtain ⟨rfl, rfl⟩ := Prod.ext_iff.mp moved
      refine ⟨rfl, .inr ?_⟩
      by_cases ok : answer = .ok <;> simp [stepSubmit, runRank, pc, ok]
  | drain last =>
      simp only [JobWorker.stepWorker, pc, Option.some.injEq] at moved
      obtain ⟨rfl, rfl⟩ := Prod.ext_iff.mp moved
      exact ⟨rfl, .inr (by simp [stepDrain, runRank, pc])⟩
  | finish last =>
      simp only [JobWorker.stepWorker, pc, Option.some.injEq] at moved
      obtain ⟨rfl, rfl⟩ := Prod.ext_iff.mp moved
      exact ⟨rfl, .inl rfl⟩
  | stopLoad =>
      simp only [JobWorker.stepWorker, pc, Option.some.injEq, Prod.mk.injEq] at moved
      obtain ⟨rfl, rfl⟩ := moved
      refine ⟨rfl, .inr ?_⟩
      cases stopping : w.stopping <;> simp [runRank, pc]
  | exit =>
      have free := leaving (by rw [pc]; rfl)
      have idle := mt running.mp (by rw [pc]; exact Bool.false_ne_true)
      exact absurd underway (not_or.mpr ⟨free, idle⟩)
  | exited => simp [JobWorker.stepWorker, pc] at moved

/-- The producer leaves a job that is not done alone. -/
theorem Control.producer_waits {call : Call} (control : Control w) (underway : w.underway)
    (moved : w.stepProducer call = some (next, events)) :
    next.handoff.job = w.handoff.job ∧ next.handoff.state = w.handoff.state ∧
      next.worker = w.worker := by
  obtain ⟨_, putting, taking, _, _, _, _, _, _⟩ := control
  have busy : w.handoff.state ≠ .empty ∧ w.handoff.state ≠ .done := by
    rcases underway with state | state <;> simp [state]
  cases pc : w.producer with
  | putStore job => exact absurd (putting job pc).1 busy.1
  | takeStore => exact absurd (taking pc) busy.2
  | closed => cases call <;> simp [JobWorker.stepProducer, pc] at moved
  | idle =>
      cases call with
      | submit job =>
          simp only [JobWorker.stepProducer, pc, Option.some.injEq, stepPut, busy.1, ne_eq,
            not_false_eq_true, if_true] at moved
          split at moved
          · obtain ⟨rfl, rfl⟩ := Prod.ext_iff.mp moved
            exact ⟨rfl, rfl, rfl⟩
          · split at moved <;>
              (obtain ⟨rfl, rfl⟩ := Prod.ext_iff.mp moved
               exact ⟨rfl, rfl, rfl⟩)
      | take =>
          simp only [JobWorker.stepProducer, pc, Option.some.injEq, stepTake, busy.2, if_false]
            at moved
          obtain ⟨rfl, rfl⟩ := Prod.ext_iff.mp moved
          exact ⟨rfl, rfl, rfl⟩
      | stop =>
          simp only [JobWorker.stepProducer, pc, Option.some.injEq] at moved
          obtain ⟨rfl, rfl⟩ := Prod.ext_iff.mp moved
          exact ⟨rfl, rfl, rfl⟩
      | close =>
          simp only [JobWorker.stepProducer, pc, Option.some.injEq] at moved
          obtain ⟨rfl, rfl⟩ := Prod.ext_iff.mp moved
          split <;> exact ⟨rfl, rfl, rfl⟩
      | resume given => simp [JobWorker.stepProducer, pc] at moved
  | give =>
      cases call with
      | resume given =>
          simp only [JobWorker.stepProducer, pc, Option.some.injEq] at moved
          obtain ⟨rfl, rfl⟩ := Prod.ext_iff.mp moved
          exact ⟨rfl, rfl, rfl⟩
      | _ => simp [JobWorker.stepProducer, pc] at moved
  | closeState =>
      cases call with
      | resume given =>
          simp only [JobWorker.stepProducer, pc, busy.1, decide_false, Bool.and_false,
            Bool.false_eq_true, if_false, Option.some.injEq] at moved
          obtain ⟨rfl, rfl⟩ := Prod.ext_iff.mp moved
          exact ⟨rfl, rfl, rfl⟩
      | _ => simp [JobWorker.stepProducer, pc] at moved

/-- The descriptor stays as it was accepted until the job is done. -/
theorem Control.job_kept {action : JobAction} (control : Control w) (underway : w.underway)
    (moved : workerMachine.step w action = some (next, events)) :
    next.handoff.job = w.handoff.job := by
  cases action with
  | producer call => exact (control.producer_waits underway moved).1
  | worker answer elapsed => exact (control.worker_advances underway moved).1

/-- The worker leaves a result in the slot alone. -/
theorem Control.worker_leaves {answer : SpiResult} {elapsed : Nat} (control : Control w)
    (done : w.handoff.state = .done) (moved : w.stepWorker answer elapsed = some (next, events)) :
    next.handoff = w.handoff ∧ next.producer = w.producer := by
  have idle := mt control.running.mpr (by simp [done])
  cases pc : w.worker with
  | run last =>
      simp only [JobWorker.stepWorker, pc, stepRun, done, reduceCtorEq, if_false,
        Option.some.injEq] at moved
      obtain ⟨rfl, rfl⟩ := Prod.ext_iff.mp moved
      exact ⟨rfl, rfl⟩
  | submit | drain | finish => simp [pc, JobWorkerPc.running] at idle
  | exited => simp [JobWorker.stepWorker, pc] at moved
  | wait | stopLoad | exit =>
      simp only [JobWorker.stepWorker, pc, Option.some.injEq] at moved
      obtain ⟨rfl, rfl⟩ := Prod.ext_iff.mp moved
      exact ⟨rfl, rfl⟩

/-- The take in progress has seen the result. -/
def takeRank (w : JobWorker) : Nat := if w.producer = .takeStore then 0 else 1

theorem Control.producer_takes {call : Call} (control : Control w)
    (done : w.handoff.state = .done) (moved : w.stepProducer call = some (next, events)) :
    next.handoff.state = .empty ∨ (next.handoff.state = .done ∧ next.takeRank ≤ w.takeRank ∧
      (call = .take → next.takeRank < w.takeRank)) := by
  cases pc : w.producer with
  | putStore job => simp [control.putting job pc] at done
  | closed => cases call <;> simp [JobWorker.stepProducer, pc] at moved
  | takeStore =>
      cases call with
      | resume given =>
          simp only [JobWorker.stepProducer, pc, Option.some.injEq] at moved
          obtain ⟨rfl, rfl⟩ := Prod.ext_iff.mp moved
          exact .inl rfl
      | _ => simp [JobWorker.stepProducer, pc] at moved
  | idle =>
      cases call with
      | submit job =>
          simp only [JobWorker.stepProducer, pc, Option.some.injEq, stepPut, done, ne_eq,
            reduceCtorEq, not_false_eq_true, if_true] at moved
          split at moved
          · obtain ⟨rfl, rfl⟩ := Prod.ext_iff.mp moved
            exact .inr ⟨done, Nat.le_refl _, fun same => by cases same⟩
          · split at moved <;>
              (obtain ⟨rfl, rfl⟩ := Prod.ext_iff.mp moved
               exact .inr ⟨done, Nat.le_refl _, fun same => by cases same⟩)
      | take =>
          simp only [JobWorker.stepProducer, pc, Option.some.injEq, stepTake, done, if_true]
            at moved
          obtain ⟨rfl, rfl⟩ := Prod.ext_iff.mp moved
          exact .inr ⟨done, by simp [takeRank], fun _ => by simp [takeRank, pc]⟩
      | stop =>
          simp only [JobWorker.stepProducer, pc, Option.some.injEq] at moved
          obtain ⟨rfl, rfl⟩ := Prod.ext_iff.mp moved
          exact .inr ⟨done, by simp [takeRank, pc], fun same => by cases same⟩
      | close =>
          simp only [JobWorker.stepProducer, pc, Option.some.injEq] at moved
          obtain ⟨rfl, rfl⟩ := Prod.ext_iff.mp moved
          split <;> exact .inr ⟨done, by simp [takeRank, pc], fun same => by cases same⟩
      | resume given => simp [JobWorker.stepProducer, pc] at moved
  | give =>
      cases call with
      | resume given =>
          simp only [JobWorker.stepProducer, pc, Option.some.injEq] at moved
          obtain ⟨rfl, rfl⟩ := Prod.ext_iff.mp moved
          exact .inr ⟨done, by simp [takeRank, pc], fun same => by cases same⟩
      | _ => simp [JobWorker.stepProducer, pc] at moved
  | closeState =>
      cases call with
      | resume given =>
          simp only [JobWorker.stepProducer, pc, done, reduceCtorEq, decide_false, Bool.and_false,
            Bool.false_eq_true, if_false, Option.some.injEq] at moved
          obtain ⟨rfl, rfl⟩ := Prod.ext_iff.mp moved
          exact .inr ⟨done, by simp [takeRank, pc], fun same => by cases same⟩
      | _ => simp [JobWorker.stepProducer, pc] at moved

/-- A job that is not taken is in the slot. -/
theorem History.holds (history : History trace w)
    (behind : (takenResults trace).length < (acceptedJobs trace).length) :
    w.handoff.state ≠ .empty := by
  intro state
  have cookies := congrArg List.length history.cookies
  simp [untaken, state] at cookies
  omega

theorem History.taken_all (history : History trace w) (empty : w.handoff.state = .empty) :
    (takenResults trace).length = (acceptedJobs trace).length := by
  simpa [untaken, empty] using congrArg List.length history.cookies

theorem History.ran_taken (history : History trace w) :
    (takenResults trace).length ≤ (ranJobs trace).length := by
  have ran := congrArg List.length history.ran
  have cookies := congrArg List.length history.cookies
  simp only [List.length_append, List.length_map] at ran cookies
  have owed : w.unrun.length ≤ w.untaken.length := by
    cases state : w.handoff.state <;> cases pc : w.worker <;> simp [unrun, untaken, state, pc]
  omega

end JobWorker

/-! ## Fairness -/

/-- The worker moves, unless it has returned. -/
def JobWorkerMoves (w : JobWorker) (action : JobAction) : Prop :=
  w.worker = .exited ∨ ∃ answer elapsed, action = .worker answer elapsed

/-- The producer calls `take`. -/
def JobTakeCalled (_ : JobWorker) (action : JobAction) : Prop := action = .producer .take

section
variable (path : workerMachine.Path past start)
  (reached : workerMachine.Reaches Machine.Always past start) {i j : Nat}

theorem path_accepted (later : i ≤ j) :
    acceptedJobs (path.trace i) <+: acceptedJobs (path.trace j) :=
  path.stable (fun trace _ => acceptedJobs (path.trace i) <+: acceptedJobs trace)
    (fun k kept => by
      simp only [Machine.Path.trace, acceptedJobs, List.filterMap_append]
      exact kept.trans (List.prefix_append _ _)) later (List.prefix_refl _)

include reached

theorem path_behind (later : i ≤ j) (accepted : n < (acceptedJobs (path.trace i)).length)
    (untaken : ¬n < (takenResults (path.trace j)).length) :
    (path.state j).handoff.state ≠ .empty := by
  obtain ⟨_, history⟩ := JobWorker.worker_invariant (path.reaches reached j)
  have kept := (path_accepted path later).length_le
  exact history.holds (by omega)

theorem path_done (moves : path.Often JobWorkerMoves)
    (accepted : n < (acceptedJobs (path.trace i)).length) :
    ∃ j, i ≤ j ∧ ((path.state j).handoff.state = .done ∨
      n < (takenResults (path.trace j)).length) := by
  refine path.eventually
    (fun trace w => w.handoff.state = .done ∨ n < (takenResults trace).length)
    (fun _ w => w.runRank) moves ?_
  intro j later unmet
  obtain ⟨unfinished, untaken⟩ := not_or.mp unmet
  obtain ⟨control, _⟩ := JobWorker.worker_invariant (path.reaches reached j)
  have held := path_behind path reached later accepted untaken
  have underway : (path.state j).underway := by
    cases state : (path.state j).handoff.state <;> simp_all [JobWorker.underway]
  have moved := path.moves j
  cases action : path.action j with
  | worker answer elapsed =>
      rw [action] at moved
      rcases (control.worker_advances underway moved).2 with done | falls
      · exact .inl (.inl done)
      · exact .inr ⟨Nat.le_of_lt falls, fun _ => falls⟩
  | producer call =>
      rw [action] at moved
      obtain ⟨_, _, same⟩ := control.producer_waits underway moved
      refine .inr ⟨Nat.le_of_eq (by simp only [JobWorker.runRank, same]), ?_⟩
      rintro (exited | ⟨answer, elapsed, other⟩)
      · have free := control.leaving (by rw [exited]; rfl)
        have idle := mt control.running.mp (by rw [exited]; nofun)
        exact absurd underway (not_or.mpr ⟨free, idle⟩)
      · cases other

theorem path_takes (takes : path.Often JobTakeCalled)
    (accepted : n < (acceptedJobs (path.trace i)).length)
    (done : (path.state i).handoff.state = .done) :
    ∃ j, i ≤ j ∧ n < (takenResults (path.trace j)).length := by
  have step : ∀ j, i ≤ j → (path.state j).handoff.state = .done →
      ¬n < (takenResults (path.trace (j + 1))).length →
      (path.state (j + 1)).handoff.state = .done ∧
        (path.state (j + 1)).takeRank ≤ (path.state j).takeRank ∧
        (JobTakeCalled (path.state j) (path.action j) →
          (path.state (j + 1)).takeRank < (path.state j).takeRank) := by
    intro j later held untaken
    obtain ⟨control, _⟩ := JobWorker.worker_invariant (path.reaches reached j)
    have full := path_behind path reached (j := j + 1) (by omega) accepted untaken
    have moved := path.moves j
    cases action : path.action j with
    | worker answer elapsed =>
        rw [action] at moved
        obtain ⟨handoff, producer⟩ := control.worker_leaves held moved
        refine ⟨by rw [handoff, held], Nat.le_of_eq ?_, nofun⟩
        simp only [JobWorker.takeRank, producer]
    | producer call =>
        rw [action] at moved
        obtain ⟨stays, slow, falls⟩ := (control.producer_takes held moved).resolve_left full
        exact ⟨stays, slow, fun taking => falls (by simpa [JobTakeCalled] using taking)⟩
  by_contra missed
  have untaken : ∀ j, i ≤ j → ¬n < (takenResults (path.trace j)).length := fun j later taken =>
    missed ⟨j, later, taken⟩
  have held : ∀ j, i ≤ j → (path.state j).handoff.state = .done := by
    intro j later
    obtain ⟨steps, rfl⟩ := Nat.exists_eq_add_of_le later
    induction steps with
    | zero => exact done
    | succ steps ih =>
        have before := Nat.le_add_right i steps
        exact (step (i + steps) before (ih before) (untaken _ later)).1
  refine missed (path.eventually (fun trace _ => n < (takenResults trace).length)
    (fun _ w => w.takeRank) takes fun j later _ => .inr ?_)
  exact (step j later (held j later) (untaken (j + 1) (by omega))).2

/-- In a fair run everything accepted is run and taken. -/
theorem path_takes_all (moves : path.Often JobWorkerMoves) (takes : path.Often JobTakeCalled) :
    ∃ i, (acceptedJobs past).length ≤ (takenResults (path.trace i)).length := by
  cases count : (acceptedJobs past).length with
  | zero => exact ⟨0, Nat.zero_le _⟩
  | succ n =>
      have accepted : n < (acceptedJobs (path.trace 0)).length := by
        simp [Machine.Path.trace, count]
      obtain ⟨j, _, done | taken⟩ := path_done path reached moves accepted
      · have kept := (path_accepted path (Nat.zero_le j)).length_le
        obtain ⟨k, _, taken⟩ := path_takes path reached takes (Nat.lt_of_lt_of_le accepted kept) done
        exact ⟨k, taken⟩
      · exact ⟨j, taken⟩

end

/-- Nothing that was accepted is lost, in any interleaving. -/
theorem worker_loses_no_job (reached : workerMachine.Reaches Machine.Always trace w) :
    Guarded JobSafe trace ∧
    ranJobs trace <+: acceptedJobs trace ∧
    (takenResults trace).map Prod.fst <+: (acceptedJobs trace).map Job.cookie ∧
    (takenResults trace).map Prod.snd <+: finishedResults trace ∧
    (∀ action next events, w.handoff.state = .queued ∨ w.handoff.state = .running →
      workerMachine.step w action = some (next, events) → next.handoff.job = w.handoff.job) ∧
    (w.exited = true → (w.handoff.state = .empty ∨ w.handoff.state = .done) ∧
      ∀ answer elapsed, w.stepWorker answer elapsed = none) ∧
    (w.producer = .closed → w.exited = true ∧ w.handoff.state = .empty) ∧
    ∀ path : workerMachine.Path trace w, path.Often JobWorkerMoves → path.Often JobTakeCalled →
      ∃ i, acceptedJobs trace <+: ranJobs (path.trace i) ∧
        (acceptedJobs trace).map Job.cookie <+: (takenResults (path.trace i)).map Prod.fst := by
  obtain ⟨control, history⟩ := JobWorker.worker_invariant reached
  refine ⟨history.guarded, ⟨_, history.ran⟩, ⟨_, history.cookies⟩, ⟨_, history.results⟩, ?_, ?_, ?_,
    ?_⟩
  · exact fun action next events underway moved => control.job_kept underway moved
  · intro exited
    have pc := control.exited.mp exited
    have free := control.leaving (by rw [pc]; rfl)
    have idle := mt control.running.mp (by rw [pc]; nofun)
    refine ⟨?_, fun answer elapsed => by simp only [JobWorker.stepWorker, pc]⟩
    cases state : w.handoff.state <;> simp_all
  · intro closed
    obtain ⟨exited, _, empty⟩ := control.closed closed
    exact ⟨exited, empty⟩
  · intro path moves takes
    obtain ⟨i, all⟩ := path_takes_all path reached moves takes
    obtain ⟨_, later⟩ := JobWorker.worker_invariant (path.reaches reached i)
    have grown := path_accepted path (Nat.zero_le i)
    refine ⟨i, ?_, ?_⟩
    · exact List.prefix_of_prefix_length_le grown ⟨_, later.ran⟩ 
        (Nat.le_trans all later.ran_taken)
    · exact List.prefix_of_prefix_length_le (grown.map _) ⟨_, later.cookies⟩ (by simpa using all)

/-- `stop` comes after the worker found the slot empty, and just after a submit. -/
def lastJobActions : List JobAction :=
  let frame : Rgb565Frame := { data := 4096, capacity := 64, stride := 8, width := 4, height := 4 }
  let producer (call : JobWorker.Call) : JobAction := .producer call
  let worker : JobAction := .worker .ok 1
  [worker, worker, producer (.submit ⟨frame, 90, 7⟩), producer (.resume true),
    producer (.resume false), producer .stop, worker, worker, worker, worker, worker, worker,
    producer (.resume false), producer .take, producer (.resume true), producer .close,
    producer (.resume true)]

theorem worker_loses_no_job_last :
    ∃ trace w, workerMachine.execute JobWorker.created lastJobActions = some (w, trace) ∧
      (ranJobs trace).map Job.cookie = [7] ∧ takenResults trace = [(7, .ok)] ∧
      .closed ∈ trace ∧ Guarded JobSafe trace := by
  obtain ⟨⟨w, trace⟩, executed⟩ : ∃ last,
      workerMachine.execute JobWorker.created lastJobActions = some last :=
    Option.isSome_iff_exists.mp (by decide)
  have reached := (Machine.Reaches.start rfl).execute executed
  have told : (workerMachine.execute JobWorker.created lastJobActions).map
      (fun last => ((ranJobs last.2).map Job.cookie, takenResults last.2,
        decide (JobEvent.closed ∈ last.2))) = some ([7], [(7, .ok)], true) := by decide
  rw [executed] at told
  simp only [Option.map_some, Option.some.injEq, Prod.mk.injEq, decide_eq_true_eq] at told
  exact ⟨trace, w, executed, told.1, told.2.1, told.2.2, (worker_loses_no_job reached).1⟩

end LvglAic.Spi
