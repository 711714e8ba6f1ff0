import LvglAic.Spi.Display
import LvglAic.Spi.PipelineFair
import LvglAic.Spi.WorkerFair

/-! # One acknowledgement for each flush

The display's flags count what its back end has accepted, released and
completed.
-/

namespace LvglAic.Spi

variable {trace events : List DisplayEvent} {d next : SpiDisplay} {n : Nat}

/-! ## The back end's history -/

def acceptedCookies (history : List Visible) : List Nat :=
  history.filterMap fun
    | .accepted cookie => some cookie
    | .reported _ _ _ _ => none

def reportedCookies (kind : EventKind) (history : List Visible) : List Nat :=
  history.filterMap fun
    | .accepted _ => none
    | .reported found cookie _ _ => if found = kind then some cookie else none

/-- The report that frees a source. -/
def releaseKind (pipelined : Bool) : EventKind := if pipelined then .sourceReleased else .completed

/-- Nothing is completed before it is released, or released before it is accepted. -/
structure Ordered (pipelined : Bool) (history : List Visible) : Prop where
  completed : reportedCookies .completed history <+:
    reportedCookies (releaseKind pipelined) history
  released : reportedCookies (releaseKind pipelined) history <+: acceptedCookies history

theorem pipe_acceptedCookies (trace : List PipeEvent) :
    acceptedCookies (trace.filterMap PipeEvent.visible) = (acceptedList trace).map Prod.snd := by
  rw [acceptedCookies, acceptedList, List.filterMap_filterMap, List.map_filterMap]
  exact List.filterMap_congr fun event _ => by cases event <;> rfl

theorem pipe_reportedCookies (kind : EventKind) (trace : List PipeEvent) :
    reportedCookies kind (trace.filterMap PipeEvent.visible) =
      (takenList kind trace).map Prod.snd := by
  rw [reportedCookies, takenList, List.filterMap_filterMap, List.map_filterMap]
  refine List.filterMap_congr fun event _ => ?_
  cases event with
  | took report => by_cases same : report.kind = kind <;> simp [PipeEvent.visible, same]
  | _ => rfl

theorem job_acceptedCookies (trace : List JobEvent) :
    acceptedCookies (trace.filterMap JobEvent.visible) = (acceptedJobs trace).map Job.cookie := by
  rw [acceptedCookies, acceptedJobs, List.filterMap_filterMap, List.map_filterMap]
  exact List.filterMap_congr fun event _ => by cases event <;> rfl

theorem job_reportedCookies (trace : List JobEvent) :
    reportedCookies .completed (trace.filterMap JobEvent.visible) =
      (takenResults trace).map Prod.fst := by
  rw [reportedCookies, takenResults, List.filterMap_filterMap, List.map_filterMap]
  exact List.filterMap_congr fun event _ => by cases event <;> rfl

theorem BackEnd.ordered {pipelined : Bool} {history : List Visible}
    (shown : BackEnd pipelined history) : Ordered pipelined history := by
  cases pipelined with
  | true =>
      obtain ⟨trace, p, reached, rfl⟩ := shown
      obtain ⟨q, invariant⟩ := pipelineMachine_invariant reached
      have delivered := invariant.explained.delivered
      have ring := invariant.tracks.ring
      refine ⟨?_, ?_⟩
      · rw [releaseKind, if_pos rfl, pipe_reportedCookies, pipe_reportedCookies,
          delivered.completed, delivered.released]
        exact (q.deliveries_prefix ring.takenReleased).map _
      · rw [releaseKind, if_pos rfl, pipe_reportedCookies, pipe_acceptedCookies,
          delivered.accepted, delivered.released]
        exact (q.deliveries_prefix (Nat.le_trans ring.releasedBegun ring.begunAccepted)).map _
  | false =>
      obtain ⟨trace, w, reached, rfl⟩ := shown
      obtain ⟨_, history⟩ := JobWorker.worker_invariant reached
      refine ⟨List.prefix_refl _, ?_⟩
      rw [releaseKind, if_neg (by simp), job_reportedCookies, job_acceptedCookies]
      exact ⟨_, history.cookies⟩

/-! ## The display's history -/

/-- What the display has seen of its back end. -/
def shownHistory (trace : List DisplayEvent) : List Visible :=
  trace.filterMap DisplayEvent.visible

/-- The cookies of the accepted jobs. -/
def jobCookies (trace : List DisplayEvent) : List Nat := acceptedCookies (shownHistory trace)

def releases (pipelined : Bool) (trace : List DisplayEvent) : List Nat :=
  reportedCookies (releaseKind pipelined) (shownHistory trace)

def completions (trace : List DisplayEvent) : List Nat :=
  reportedCookies .completed (shownHistory trace)

/-- Whether each accepted job is a blit. -/
def jobBlits (trace : List DisplayEvent) : List Bool :=
  trace.filterMap fun
    | .submitted blit _ _ _ => some blit
    | _ => none

/-- The results of the completed jobs. -/
def completedResults (trace : List DisplayEvent) : List SpiResult :=
  trace.filterMap fun
    | .collected .completed _ result _ => some result
    | _ => none

/-- The result that was collected last. -/
def lastResult (trace : List DisplayEvent) : Option SpiResult := (completedResults trace).getLast?

/-- Events that the back end has no part in, apart from flushes. -/
def DisplayEvent.aside : DisplayEvent → Bool
  | .blitReported _ | .stopped | .closeCalled | .deleted | .freed => true
  | _ => false

/-- What an event tells about the events before it. -/
def DisplaySafe (pipelined : Bool) (before : List DisplayEvent) : DisplayEvent → Prop
  | .flushed => readies before = flushes before ∧ .deleted ∉ before
  | .ready => readies before + 1 = flushes before ∧ .deleted ∉ before ∧
      false ∉ (jobBlits before).drop (releases pipelined before).length
  | .submitted true _ _ _ => (completions before).length = (jobCookies before).length
  | .blitReported result => lastResult before = some result
  | _ => True

theorem shownHistory_append : shownHistory (trace ++ events) =
    shownHistory trace ++ shownHistory events :=
  List.filterMap_append

theorem shownHistory_quiet {event : DisplayEvent} (unseen : event.visible = none) :
    shownHistory (trace ++ [event]) = shownHistory trace := by
  simp [shownHistory, List.filterMap_append, unseen]

@[simp] theorem jobCookies_append : jobCookies (trace ++ events) =
    jobCookies trace ++ jobCookies events := by
  simp [jobCookies, acceptedCookies, shownHistory_append]

@[simp] theorem releases_append {pipelined : Bool} : releases pipelined (trace ++ events) =
    releases pipelined trace ++ releases pipelined events := by
  simp [releases, reportedCookies, shownHistory_append]

@[simp] theorem completions_append : completions (trace ++ events) =
    completions trace ++ completions events := by
  simp [completions, reportedCookies, shownHistory_append]

@[simp] theorem jobBlits_append : jobBlits (trace ++ events) = jobBlits trace ++ jobBlits events :=
  List.filterMap_append

@[simp] theorem completedResults_append : completedResults (trace ++ events) =
    completedResults trace ++ completedResults events :=
  List.filterMap_append

@[simp] theorem readies_append : readies (trace ++ events) = readies trace + readies events :=
  List.count_append

@[simp] theorem flushes_append : flushes (trace ++ events) = flushes trace + flushes events :=
  List.count_append

section
variable (event : DisplayEvent)

@[simp] theorem jobBlits_single : jobBlits [event] = match event with
    | .submitted blit _ _ _ => [blit]
    | _ => [] := by
  cases event <;> rfl

@[simp] theorem jobCookies_single : jobCookies [event] = match event with
    | .submitted _ cookie _ _ => [cookie]
    | _ => [] := by
  cases event <;> rfl

@[simp] theorem completions_single : completions [event] = match event with
    | .collected .completed cookie _ _ => [cookie]
    | _ => [] := by
  cases event with
  | collected kind => cases kind <;> rfl
  | _ => rfl

@[simp] theorem completedResults_single : completedResults [event] = match event with
    | .collected .completed _ result _ => [result]
    | _ => [] := by
  cases event with
  | collected kind => cases kind <;> rfl
  | _ => rfl

@[simp] theorem releases_single (pipelined : Bool) : releases pipelined [event] = match event with
    | .collected kind cookie _ _ => if kind = releaseKind pipelined then [cookie] else []
    | _ => [] := by
  cases event with
  | collected kind => cases kind <;> cases pipelined <;> rfl
  | _ => rfl

@[simp] theorem readies_single : readies [event] = if event = .ready then 1 else 0 := by
  simp [readies, List.count_singleton]

@[simp] theorem flushes_single : flushes [event] = if event = .flushed then 1 else 0 := by
  simp [flushes, List.count_singleton]

end

theorem jobBlits_length : (jobBlits trace).length = (jobCookies trace).length := by
  induction trace with
  | nil => rfl
  | cons event rest ih =>
      rw [← List.singleton_append, jobBlits_append, jobCookies_append, List.length_append,
        List.length_append, ih]
      cases event <;> rfl

theorem completedResults_length (trace : List DisplayEvent) : (completedResults trace).length = (completions trace).length := by
  induction trace with
  | nil => rfl
  | cons event rest ih =>
      rw [← List.singleton_append, completedResults_append, completions_append,
        List.length_append, List.length_append, ih]
      cases event with
      | collected kind => cases kind <;> rfl
      | _ => rfl

/-! ## Lists -/

section
variable {α : Type*} {list rest : List α} {value : α}

theorem getElem?_of_prefix_snoc (inside : list ++ [value] <+: rest) :
    rest[list.length]? = some value := by
  obtain ⟨tail, rfl⟩ := inside
  simp

theorem drop_of_getElem? {k : Nat} (found : list[k]? = some value) :
    list.drop k = value :: list.drop (k + 1) := by
  obtain ⟨inside, rfl⟩ := List.getElem?_eq_some_iff.mp found
  exact List.drop_eq_getElem_cons inside

end

/-! ## Accounts -/

namespace SpiDisplay

/-- Jobs in flight. -/
def running (d : SpiDisplay) : Nat := if d.pipelined then d.inflight else d.pending.toNat

/-- The worker may still read a flushed frame. -/
def sourceHeld (d : SpiDisplay) : Bool :=
  if d.pipelined then d.sourcePending else d.pending && !d.pendingBlit

/-- The jobs of the display are those that its back end has not completed. -/
structure Queue (trace : List DisplayEvent) (d : SpiDisplay) : Prop where
  ordered : Ordered d.pipelined (shownHistory trace)
  count : d.running + (completions trace).length = (jobCookies trace).length
  slots : d.pipelined = true → ∀ job : Fin 2, (d.jobs job).used = true ↔
    job.val ∈ (jobCookies trace).drop (completions trace).length
  distinct : d.pipelined = true → ((jobCookies trace).drop (completions trace).length).Nodup
  blit : d.pipelined = true → ∀ (k : Nat) (job : Fin 2), (completions trace).length ≤ k →
    (jobCookies trace)[k]? = some job.val → (jobBlits trace)[k]? = some (d.jobs job).blit

/-- The flags tell which kinds of job are in flight; `owed` flushes are being called. -/
structure Flags (trace : List DisplayEvent) (d : SpiDisplay) (owed : Nat) : Prop where
  source : ((jobBlits trace).drop (releases d.pipelined trace).length).count false =
    d.sourceHeld.toNat
  blits : ((jobBlits trace).drop (completions trace).length).count true = d.pendingBlit.toNat
  acks : d.display = true → flushes trace = readies trace + d.sourceHeld.toNat + owed
  calm : 0 < owed → d.sourceHeld = false
  gone : .deleted ∈ trace → d.display = false

structure Audited (trace : List DisplayEvent) (d : SpiDisplay) (owed : Nat) : Prop where
  queue : Queue trace d
  flags : Flags trace d owed
  guarded : Guarded (DisplaySafe d.pipelined) trace

/-- The back end can show every step of the call. -/
def Shown (pipelined : Bool) (trace events : List DisplayEvent) : Prop :=
  ∀ before after, events = before ++ after → BackEnd pipelined (shownHistory (trace ++ before))

theorem Shown.left {pipelined : Bool} {more : List DisplayEvent}
    (shown : Shown pipelined trace (events ++ more)) : Shown pipelined trace events :=
  fun before after same => shown before (after ++ more) (by rw [same, List.append_assoc])

theorem Shown.right {pipelined : Bool} {more : List DisplayEvent}
    (shown : Shown pipelined trace (events ++ more)) : Shown pipelined (trace ++ events) more := by
  intro before after same
  rw [List.append_assoc]
  exact shown (events ++ before) after (by rw [same, List.append_assoc])

theorem Shown.whole {pipelined : Bool} (shown : Shown pipelined trace events) :
    Ordered pipelined (shownHistory (trace ++ events)) :=
  (shown events [] (List.append_nil events).symm).ordered

/-- The flags that only the calls themselves change. -/
structure SameMode (d next : SpiDisplay) : Prop where
  pipelined : next.pipelined = d.pipelined
  display : next.display = d.display
  closing : next.closing = d.closing
  claiming : next.claiming = d.claiming
  blit : next.blit = d.blit
  pendingBlit : next.pendingBlit = true → d.pendingBlit = true

theorem SameMode.refl (d : SpiDisplay) : SameMode d d := ⟨rfl, rfl, rfl, rfl, rfl, id⟩

theorem SameMode.trans {middle : SpiDisplay} (first : SameMode d middle)
    (second : SameMode middle next) : SameMode d next :=
  ⟨second.pipelined.trans first.pipelined, second.display.trans first.display,
    second.closing.trans first.closing, second.claiming.trans first.claiming,
    second.blit.trans first.blit, fun pending => first.pendingBlit (second.pendingBlit pending)⟩

theorem handle_mode (d : SpiDisplay) (answer : PipeAnswer) : SameMode d (d.handle answer).1 := by
  cases kind : answer.kind with
  | sourceReleased =>
      by_cases blit : (d.jobs answer.job).blit = true <;>
        simp only [handle, kind, blit, if_true, if_false, Bool.false_eq_true] <;>
        exact ⟨rfl, rfl, rfl, rfl, rfl, id⟩
  | completed =>
      simp only [handle, kind]
      refine ⟨rfl, rfl, rfl, rfl, rfl, fun pending => ?_⟩
      by_cases blit : (d.jobs answer.job).blit = true <;> simp_all

/-! ## Collecting -/

/-- A release comes next in the order of acceptance. -/
theorem Queue.next_release (queue : Queue trace d) (pipelined : d.pipelined = true) {job : Fin 2}
    {result : SpiResult} {timing : Timing}
    (ordered : Ordered d.pipelined
      (shownHistory (trace ++ [.collected .sourceReleased job.val result timing]))) :
    (jobBlits trace)[(releases d.pipelined trace).length]? = some (d.jobs job).blit := by
  have next : releases d.pipelined (trace ++ [.collected .sourceReleased job.val result timing]) <+:
      jobCookies (trace ++ [.collected .sourceReleased job.val result timing]) := ordered.released
  simp only [releases_append, releases_single, releaseKind, pipelined, if_true, jobCookies_append,
    jobCookies_single, List.append_nil] at next
  have behind := queue.ordered.completed
  rw [pipelined] at behind ⊢
  exact queue.blit pipelined _ job behind.length_le (getElem?_of_prefix_snoc next)

/-- Events that accept and complete nothing. -/
theorem Queue.quiet (queue : Queue trace d)
    (ordered : Ordered d.pipelined (shownHistory (trace ++ events)))
    (cookies : jobCookies events = []) (completed : completions events = [])
    (pipelined : next.pipelined = d.pipelined) (running : next.running = d.running)
    (jobs : next.jobs = d.jobs) : Queue (trace ++ events) next := by
  have accepted : jobCookies (trace ++ events) = jobCookies trace := by
    rw [jobCookies_append, cookies, List.append_nil]
  have done : completions (trace ++ events) = completions trace := by
    rw [completions_append, completed, List.append_nil]
  have blits : jobBlits (trace ++ events) = jobBlits trace := by
    have none : jobBlits events = [] := by
      rw [← List.length_eq_zero_iff, jobBlits_length, cookies, List.length_nil]
    rw [jobBlits_append, none, List.append_nil]
  constructor
  · rwa [pipelined]
  · rw [accepted, done, running]
    exact queue.count
  · rw [accepted, done, pipelined, jobs]
    exact queue.slots
  · rw [accepted, done, pipelined]
    exact queue.distinct
  · rw [accepted, done, blits, pipelined, jobs]
    exact queue.blit

theorem aside_silent (aside : ∀ event ∈ events, event.aside = true) :
    shownHistory events = [] ∧ jobBlits events = [] ∧ flushes events = 0 ∧ readies events = 0 := by
  refine ⟨List.filterMap_eq_nil_iff.mpr fun event member => ?_,
    List.filterMap_eq_nil_iff.mpr fun event member => ?_,
    List.count_eq_zero.mpr fun member => ?_, List.count_eq_zero.mpr fun member => ?_⟩
  · have kind := aside event member
    cases event <;> first | rfl | cases kind
  · have kind := aside event member
    cases event <;> first | rfl | cases kind
  · cases aside _ member
  · cases aside _ member

theorem Audited.aside {owed : Nat} (audited : Audited trace d owed)
    (aside : ∀ event ∈ events, event.aside = true)
    (pipelined : next.pipelined = d.pipelined) (running : next.running = d.running)
    (jobs : next.jobs = d.jobs) (source : next.sourceHeld = d.sourceHeld)
    (blit : next.pendingBlit = d.pendingBlit) (display : next.display = true → d.display = true)
    (gone : .deleted ∈ events → next.display = false)
    (safe : Guarded.Continues (DisplaySafe d.pipelined) trace events) :
    Audited (trace ++ events) next owed := by
  obtain ⟨queue, flags, guarded⟩ := audited
  obtain ⟨seen, kinds, noFlush, noReady⟩ := aside_silent aside
  have same : shownHistory (trace ++ events) = shownHistory trace := by
    rw [shownHistory_append, seen, List.append_nil]
  have cookies : jobCookies events = [] := by rw [jobCookies, seen]; rfl
  have completed : completions events = [] := by rw [completions, seen]; rfl
  have released : releases d.pipelined events = [] := by rw [releases, seen]; rfl
  refine ⟨queue.quiet (by rw [same]; exact queue.ordered) cookies completed pipelined running jobs,
    ⟨?_, ?_, ?_, ?_, ?_⟩, by rw [pipelined]; exact guarded.append safe⟩
  · rw [jobBlits_append, kinds, pipelined, releases_append, released, source]
    simpa using flags.source
  · rw [jobBlits_append, kinds, completions_append, completed, blit]
    simpa using flags.blits
  · intro alive
    rw [flushes_append, readies_append, noFlush, noReady, source]
    exact flags.acks (display alive)
  · rw [source]
    exact flags.calm
  · intro member
    rcases List.mem_append.mp member with before | now
    · cases shown : next.display with
      | false => rfl
      | true => simp [flags.gone before] at display; simp [display] at shown
    · exact gone now

/-- The flush that is owed an acknowledgement gets it. -/
theorem Audited.ready (audited : Audited trace d 1) (alive : d.display = true) :
    Audited (trace ++ [.ready]) d 0 := by
  obtain ⟨queue, flags, guarded⟩ := audited
  have free := flags.calm Nat.one_pos
  have acks := flags.acks alive
  have source := flags.source
  rw [free] at acks source
  have ordered : Ordered d.pipelined (shownHistory (trace ++ [.ready])) := by
    rw [shownHistory_quiet rfl]
    exact queue.ordered
  refine ⟨queue.quiet ordered rfl rfl rfl rfl rfl, ⟨?_, ?_, ?_, nofun, ?_⟩, guarded.snoc ⟨?_, ?_, ?_⟩⟩
  · simpa [free] using source
  · simpa using flags.blits
  · intro _
    simpa [free] using acks
  · simpa using flags.gone
  · simpa using acks.symm
  · exact fun member => by simp [flags.gone member] at alive
  · exact List.count_eq_zero.mp source

theorem Audited.release {owed : Nat} {answer : PipeAnswer} (audited : Audited trace d owed)
    (pipelined : d.pipelined = true) (kind : answer.kind = .sourceReleased)
    (shown : Shown d.pipelined trace (d.handle answer).2) :
    Audited (trace ++ (d.handle answer).2) (d.handle answer).1 owed := by
  obtain ⟨queue, flags, guarded⟩ := audited
  have first : Ordered d.pipelined (shownHistory (trace ++
      [.collected .sourceReleased answer.job.val answer.result answer.timing])) := by
    refine Shown.whole (Shown.left (?_ : Shown d.pipelined trace ([_] ++ (d.handle answer).2.tail)))
    by_cases blit : (d.jobs answer.job).blit = true <;>
      simpa [handle, kind, blit] using shown
  have next := drop_of_getElem? (queue.next_release pipelined first)
  have source := flags.source
  rw [next] at source
  by_cases blit : (d.jobs answer.job).blit = true
  · have same : d.handle answer = (d, [.collected .sourceReleased answer.job.val answer.result
        answer.timing]) := by
      simp only [handle, kind, blit, if_true]
    rw [same]
    refine ⟨queue.quiet first rfl rfl rfl rfl rfl, ?_, guarded.snoc trivial⟩
    rw [blit, List.count_cons_of_ne (by simp)] at source
    refine ⟨?_, ?_, ?_, flags.calm, ?_⟩
    · simpa [releaseKind, pipelined] using source
    · simpa using flags.blits
    · simpa using flags.acks
    · simpa using flags.gone
  · have same : d.handle answer = ({ d with sourcePending := false },
        [.collected .sourceReleased answer.job.val answer.result answer.timing] ++
          d.acknowledge) := by
      simp only [handle, kind, blit, if_false, Bool.false_eq_true, List.singleton_append]
    have plain : (d.jobs answer.job).blit = false := by simpa using blit
    rw [plain, List.count_cons_self] at source
    have held : d.sourceHeld = true := by
      cases value : d.sourceHeld with
      | true => rfl
      | false => simp [value] at source
    have others : ((jobBlits trace).drop ((releases d.pipelined trace).length + 1)).count false =
        0 := by
      simpa [held] using source
    have past : owed = 0 := by
      by_contra calling
      simp [flags.calm (Nat.pos_of_ne_zero calling)] at held
    have released : ∀ owed, (d.display = true → owed = 1) → Audited (trace ++
        [.collected .sourceReleased answer.job.val answer.result answer.timing])
        { d with sourcePending := false } owed := by
      intro owed due
      refine ⟨queue.quiet first rfl rfl rfl (by simp [running]) rfl, ?_, guarded.snoc trivial⟩
      refine ⟨?_, ?_, ?_, fun _ => by simp [sourceHeld, pipelined], ?_⟩
      · simpa [releaseKind, pipelined, sourceHeld] using others
      · simpa using flags.blits
      · intro alive
        have acks := flags.acks alive
        rw [held, past] at acks
        rw [due alive]
        simpa [sourceHeld, pipelined] using acks
      · simpa using flags.gone
    rw [same, past]
    by_cases alive : d.display = true
    · rw [acknowledge, if_pos alive, ← List.append_assoc]
      exact (released 1 fun _ => rfl).ready alive
    · rw [acknowledge, if_neg alive, List.append_nil]
      exact released 0 fun shown => absurd shown alive

/-- A completion comes next in the order of acceptance. -/
theorem next_completion {cookie : Nat} {result : SpiResult} {timing : Timing}
    (ordered : Ordered d.pipelined
      (shownHistory (trace ++ [.collected .completed cookie result timing]))) :
    (jobCookies trace)[(completions trace).length]? = some cookie := by
  have completed : completions (trace ++ [.collected .completed cookie result timing]) <+:
      jobCookies (trace ++ [.collected .completed cookie result timing]) :=
    ordered.completed.trans ordered.released
  simp only [completions_append, completions_single, jobCookies_append, jobCookies_single,
    List.append_nil] at completed
  exact getElem?_of_prefix_snoc completed

theorem Audited.complete {owed : Nat} {answer : PipeAnswer} (audited : Audited trace d owed)
    (pipelined : d.pipelined = true) (kind : answer.kind = .completed)
    (shown : Shown d.pipelined trace (d.handle answer).2) :
    Audited (trace ++ (d.handle answer).2) (d.handle answer).1 owed := by
  obtain ⟨queue, flags, guarded⟩ := audited
  have told : (d.handle answer).2 =
      [.collected .completed answer.job.val answer.result answer.timing] := by
    simp only [handle, kind]
  have mode := d.handle_mode answer
  have inflight : (d.handle answer).1.inflight = d.inflight - 1 := by simp only [handle, kind]
  have source : (d.handle answer).1.sourcePending = d.sourcePending := by
    simp only [handle, kind, setJob, recordCompletion]
  have pendingBlit : (d.handle answer).1.pendingBlit =
      if (d.jobs answer.job).blit then false else d.pendingBlit := by
    simp only [handle, kind]
  have jobs : (d.handle answer).1.jobs = Function.update d.jobs answer.job
      { d.jobs answer.job with used := false } := by
    simp only [handle, kind, setJob, recordCompletion]
  rw [told] at shown ⊢
  have ordered := shown.whole
  have next := next_completion ordered
  have blit := queue.blit pipelined _ answer.job (Nat.le_refl _) next
  have within := (List.getElem?_eq_some_iff.mp next).1
  have slots := queue.slots pipelined
  have distinct := queue.distinct pipelined
  rw [drop_of_getElem? next] at slots distinct
  have kinds := flags.blits
  rw [drop_of_getElem? blit] at kinds
  have unreleased : releaseKind (d.handle answer).1.pipelined = .sourceReleased := by
    rw [mode.pipelined, releaseKind, if_pos pipelined]
  refine ⟨⟨?_, ?_, fun _ job => ?_, fun _ => ?_, fun _ k job later found => ?_⟩,
    ⟨?_, ?_, ?_, ?_, ?_⟩, ?_⟩
  · rwa [mode.pipelined]
  · have count := queue.count
    simp only [running, mode.pipelined, pipelined, inflight, if_true] at count ⊢
    simp
    omega
  · rw [jobs]
    by_cases here : job = answer.job
    · subst here
      simpa using (List.nodup_cons.mp distinct).1
    · have other := slots job
      simp only [List.mem_cons, Fin.val_inj, here, false_or] at other
      simpa [here] using other
  · simpa using (List.nodup_cons.mp distinct).2
  · have before := queue.blit pipelined k job (by simp at later; omega) (by simpa using found)
    rw [jobs]
    by_cases here : job = answer.job
    · subst here
      simpa using before
    · simpa [here] using before
  · have before := flags.source
    simpa [unreleased, mode.pipelined, sourceHeld, pipelined, source, releaseKind] using before
  · rw [pendingBlit]
    by_cases blitted : (d.jobs answer.job).blit = true
    · rw [blitted, List.count_cons_self] at kinds
      cases pending : d.pendingBlit with
      | true => simpa [blitted, pending] using kinds
      | false => simp [pending] at kinds
    · have plain : (d.jobs answer.job).blit = false := by simpa using blitted
      rw [plain, List.count_cons_of_ne (by simp)] at kinds
      simpa [plain] using kinds
  · intro alive
    have acks := flags.acks (mode.display ▸ alive)
    simpa [sourceHeld, mode.pipelined, pipelined, source] using acks
  · intro calling
    simpa [sourceHeld, mode.pipelined, pipelined, source] using flags.calm calling
  · rw [mode.display]
    simpa using flags.gone
  · rw [mode.pipelined]
    exact guarded.snoc trivial

theorem Audited.handle {owed : Nat} {answer : PipeAnswer} (audited : Audited trace d owed)
    (pipelined : d.pipelined = true) (shown : Shown d.pipelined trace (d.handle answer).2) :
    Audited (trace ++ (d.handle answer).2) (d.handle answer).1 owed := by
  cases kind : answer.kind with
  | sourceReleased => exact audited.release pipelined kind shown
  | completed => exact audited.complete pipelined kind shown

theorem Audited.handleAll {owed : Nat} {answers : List PipeAnswer} (audited : Audited trace d owed)
    (pipelined : d.pipelined = true) (shown : Shown d.pipelined trace (d.handleAll answers).2) :
    Audited (trace ++ (d.handleAll answers).2) (d.handleAll answers).1 owed ∧
      SameMode d (d.handleAll answers).1 := by
  induction answers generalizing trace d with
  | nil =>
      refine ⟨?_, .refl d⟩
      simpa [SpiDisplay.handleAll] using audited
  | cons answer rest ih =>
      simp only [SpiDisplay.handleAll] at shown ⊢
      have mode := d.handle_mode answer
      have first := audited.handle pipelined shown.left
      obtain ⟨others, modes⟩ := ih first (mode.pipelined.trans pipelined)
        (mode.pipelined ▸ shown.right)
      rw [← List.append_assoc]
      exact ⟨others, mode.trans modes⟩

/-- The worker's only job is done, up to the acknowledgement. -/
theorem Audited.done {owed due : Nat} {answer : WorkerAnswer} (audited : Audited trace d owed)
    (plain : d.pipelined = false) (pending : d.pending = true)
    (ordered : Ordered d.pipelined (shownHistory (trace ++
      [.collected .completed 0 answer.result answer.timing])))
    (acks : d.display = true → d.sourceHeld.toNat + owed = due) :
    Audited (trace ++ [.collected .completed 0 answer.result answer.timing]) (d.finish answer).1
      due := by
  obtain ⟨queue, flags, guarded⟩ := audited
  have count := queue.count
  simp only [running, plain, Bool.false_eq_true, if_false, pending, Bool.toNat_true] at count
  have kinds : (jobBlits trace).length = (completions trace).length + 1 := by
    rw [jobBlits_length]
    omega
  have free : (d.finish answer).1.sourceHeld = false := by
    simp [finish, sourceHeld, plain, recordCompletion]
  have kept : (d.finish answer).1.pipelined = false := plain
  have same : releases false trace = completions trace := rfl
  refine ⟨⟨?_, ?_, ?_, ?_, ?_⟩, ⟨?_, ?_, ?_, ?_, ?_⟩, ?_⟩
  · rwa [kept, ← plain]
  · simp only [running, kept, Bool.false_eq_true, if_false]
    simp [finish, recordCompletion]
    omega
  · rw [kept]
    nofun
  · rw [kept]
    nofun
  · rw [kept]
    nofun
  · rw [free, kept]
    simp [releaseKind, same, ← kinds]
  · simp [finish, ← kinds]
  · intro alive
    have before := flags.acks alive
    have owes := acks alive
    rw [free]
    simp
    omega
  · exact fun _ => free
  · intro member
    exact flags.gone (by simpa using member)
  · rw [kept, ← plain]
    exact guarded.snoc trivial

theorem Audited.finish {owed : Nat} {answer : WorkerAnswer} (audited : Audited trace d owed)
    (plain : d.pipelined = false) (pending : d.pending = true)
    (shown : Shown d.pipelined trace (d.finish answer).2) :
    Audited (trace ++ (d.finish answer).2) (d.finish answer).1 owed := by
  have told : (d.finish answer).2 = [.collected .completed 0 answer.result answer.timing] ++
      (if d.pendingBlit then [] else d.acknowledge) := rfl
  rw [told] at shown ⊢
  have ordered := shown.left.whole
  have held : d.sourceHeld = !d.pendingBlit := by
    simp [sourceHeld, plain, pending]
  by_cases blit : d.pendingBlit = true
  · rw [if_pos blit, List.append_nil]
    exact audited.done plain pending ordered fun _ => by simp [held, blit]
  · have flushed : d.pendingBlit = false := by simpa using blit
    have past : owed = 0 := by
      by_contra calling
      have calm := audited.flags.calm (Nat.pos_of_ne_zero calling)
      simp [held, flushed] at calm
    subst past
    rw [if_neg blit]
    by_cases alive : d.display = true
    · rw [acknowledge, if_pos alive, ← List.append_assoc]
      refine Audited.ready (audited.done plain pending ordered fun _ => ?_) alive
      simp [held, flushed]
    · rw [acknowledge, if_neg alive, List.append_nil]
      exact audited.done plain pending ordered fun shown => absurd shown alive

/-- The accounts read the flags and the jobs only. -/
theorem Audited.congr {owed : Nat} (audited : Audited trace d owed)
    (pipelined : next.pipelined = d.pipelined) (running : next.running = d.running)
    (source : next.sourceHeld = d.sourceHeld) (jobs : next.jobs = d.jobs)
    (display : next.display = d.display) (blit : next.pendingBlit = d.pendingBlit) :
    Audited trace next owed := by
  obtain ⟨queue, flags, guarded⟩ := audited
  obtain ⟨ordered, count, slots, distinct, kinds⟩ := queue
  obtain ⟨held, blits, acks, calm, gone⟩ := flags
  refine ⟨⟨?_, ?_, ?_, ?_, ?_⟩, ⟨?_, ?_, ?_, ?_, ?_⟩, ?_⟩ <;>
    simpa only [pipelined, running, source, jobs, display, blit]

/-- What every call leaves of a collect. -/
structure Collected (trace : List DisplayEvent) (d : SpiDisplay) (owed : Nat)
    (result : Bool × SpiDisplay × List DisplayEvent) : Prop where
  audited : Audited (trace ++ result.2.2) result.2.1 owed
  mode : SameMode d result.2.1
  settled : result.2.1.pending = decide (result.2.1.running ≠ 0)
  answer : result.1 = !result.2.1.pending

theorem Audited.collect {owed : Nat} {answer : CollectAnswer} (audited : Audited trace d owed)
    (settled : d.pending = decide (d.running ≠ 0))
    (shown : Shown d.pipelined trace (d.collect answer).2.2) :
    Collected trace d owed (d.collect answer) := by
  by_cases pending : d.pending = true
  · by_cases pipelined : d.pipelined = true
    · have same : d.collect answer = (!decide ((d.handleAll answer.events).1.inflight ≠ 0),
          { (d.handleAll answer.events).1 with
            pending := decide ((d.handleAll answer.events).1.inflight ≠ 0) },
          (d.handleAll answer.events).2) := by
        simp only [SpiDisplay.collect, pending, pipelined, Bool.not_true, Bool.false_eq_true,
          if_false, if_true]
      rw [same] at shown ⊢
      obtain ⟨handled, mode⟩ := audited.handleAll pipelined shown
      have still := mode.pipelined.trans pipelined
      refine ⟨?_, ⟨mode.pipelined, mode.display, mode.closing, mode.claiming, mode.blit,
        mode.pendingBlit⟩, ?_, ?_⟩
      · exact handled.congr rfl (by simp [running, still]) (by simp [sourceHeld, still]) rfl rfl rfl
      · simp [running, still]
      · simp
    · have plain : d.pipelined = false := by simpa using pipelined
      cases found : answer.done with
      | none =>
          have same : d.collect answer = (false, d, []) := by
            simp only [SpiDisplay.collect, pending, plain, found, Bool.not_true,
              Bool.false_eq_true, if_false]
          rw [same]
          exact ⟨by simpa using audited, .refl d, settled, by simp [pending]⟩
      | some result =>
          have same : d.collect answer = (true, d.finish result) := by
            simp only [SpiDisplay.collect, pending, plain, found, Bool.not_true,
              Bool.false_eq_true, if_false]
          rw [same] at shown ⊢
          refine ⟨audited.finish plain pending shown, ⟨rfl, rfl, rfl, rfl, rfl, nofun⟩, ?_, rfl⟩
          simp [SpiDisplay.finish, running, plain, recordCompletion]
  · have same : d.collect answer = (true, d, []) := by
      simp only [SpiDisplay.collect, pending, Bool.not_false, if_true]
    rw [same]
    exact ⟨by simpa using audited, .refl d, settled, by simp [pending]⟩

/-- The accounts at the end of a wait. -/
structure Waited (trace : List DisplayEvent) (d : SpiDisplay) (owed : Nat)
    (result : SpiDisplay × List DisplayEvent) : Prop where
  audited : Audited (trace ++ result.2) result.1 owed
  mode : SameMode d result.1
  settled : result.1.pending = decide (result.1.running ≠ 0)

theorem Collected.waited {owed : Nat} {result : Bool × SpiDisplay × List DisplayEvent}
    (collected : Collected trace d owed result) : Waited trace d owed result.2 :=
  ⟨collected.audited, collected.mode, collected.settled⟩

theorem Waited.trans {owed : Nat} {first second : SpiDisplay × List DisplayEvent}
    (before : Waited trace d owed first) (after : Waited (trace ++ first.2) first.1 owed second) :
    Waited trace d owed (second.1, first.2 ++ second.2) :=
  ⟨by simpa only [List.append_assoc] using after.audited, before.mode.trans after.mode,
    after.settled⟩

theorem Waited.here {owed : Nat} (audited : Audited trace d owed)
    (settled : d.pending = decide (d.running ≠ 0)) : Waited trace d owed (d, []) :=
  ⟨by simpa using audited, .refl d, settled⟩

theorem Audited.collectWhile {busy : SpiDisplay → Bool} {owed : Nat}
    {answers : List CollectAnswer} {result : SpiDisplay × List DisplayEvent}
    (audited : Audited trace d owed) (settled : d.pending = decide (d.running ≠ 0))
    (done : d.collectWhile busy answers = some result) (shown : Shown d.pipelined trace result.2) :
    Waited trace d owed result ∧ busy result.1 = false := by
  induction answers generalizing trace d result with
  | nil =>
      simp only [SpiDisplay.collectWhile] at done
      split at done
      · cases done
      · rename_i free
        cases done
        exact ⟨.here audited settled, by simpa using free⟩
  | cons answer rest ih =>
      simp only [SpiDisplay.collectWhile] at done
      split at done
      · obtain ⟨last, remaining, rfl⟩ := Option.map_eq_some_iff.mp done
        have first := audited.collect settled shown.left
        obtain ⟨others, free⟩ := ih first.audited first.settled remaining
          (first.mode.pipelined ▸ shown.right)
        exact ⟨first.waited.trans others, free⟩
      · rename_i free
        cases done
        exact ⟨.here audited settled, by simpa using free⟩

theorem Audited.collectUntil {owed : Nat} {answers : List CollectAnswer}
    {result : SpiDisplay × List DisplayEvent} (audited : Audited trace d owed)
    (settled : d.pending = decide (d.running ≠ 0))
    (done : d.collectUntil answers = some result) (shown : Shown d.pipelined trace result.2) :
    Waited trace d owed result ∧ result.1.pending = false := by
  induction answers generalizing trace d result with
  | nil => cases done
  | cons answer rest ih =>
      simp only [SpiDisplay.collectUntil] at done
      split at done
      · rename_i taken
        cases done
        have first := audited.collect settled shown
        exact ⟨first.waited, by simpa [taken] using first.answer⟩
      · obtain ⟨last, remaining, rfl⟩ := Option.map_eq_some_iff.mp done
        have first := audited.collect settled shown.left
        obtain ⟨others, free⟩ := ih first.audited first.settled remaining
          (first.mode.pipelined ▸ shown.right)
        exact ⟨first.waited.trans others, free⟩

/-! ## Submitting -/

variable {frame : Rgb565Frame} {degrees : Nat} {blit : Bool}

/-- A job is accepted under a cookie that no job in flight has. -/
structure Accepts (d : SpiDisplay) (blit : Bool) (cookie : Nat) (next : SpiDisplay) : Prop where
  pipelined : next.pipelined = d.pipelined
  display : next.display = d.display
  modes : next.closing = d.closing ∧ next.claiming = d.claiming ∧ next.blit = d.blit ∧
    next.pendingBlit = d.pendingBlit
  pending : next.pending = true
  running : d.pipelined = true ∨ d.pending = false → next.running = d.running + 1
  source : d.pipelined = true → next.sourcePending = if blit then d.sourcePending else true
  jobs : d.pipelined = true → ∃ job : Fin 2, job.val = cookie ∧ (d.jobs job).used = false ∧
    (next.jobs job).used = true ∧ (next.jobs job).blit = blit ∧
    ∀ other, other ≠ job → next.jobs other = d.jobs other
  counted : next.stats = { d.stats with accepted := increment d.stats.accepted }

theorem submit_cases (d : SpiDisplay) (frame : Rgb565Frame) (degrees : Nat) (blit : Bool)
    (answer : SubmitAnswer) : ((d.submit frame degrees blit answer).1 ≠ .ok ∧
      (d.submit frame degrees blit answer).2 = (d, [])) ∨
    ∃ cookie next, d.submit frame degrees blit answer =
      (.ok, next, [.submitted blit cookie frame degrees]) ∧ Accepts d blit cookie next := by
  by_cases pipelined : d.pipelined = true
  · cases found : d.freeJob with
    | none => exact .inl ⟨by simp [submit, pipelined, found], by simp [submit, pipelined, found]⟩
    | some index =>
        have free : (d.jobs index).used = false := by
          simpa using List.find?_some found
        by_cases refused : answer.result = .ok
        · refine .inr ⟨index.val, _, by
            simp only [submit, pipelined, found, refused, if_true, ne_eq, not_true_eq_false,
              if_false]
            rfl, ?_⟩
          refine ⟨rfl, rfl, ⟨rfl, rfl, rfl, rfl⟩, rfl, fun _ => ?_, fun _ => rfl,
            fun _ => ⟨index, rfl, free, ?_, ?_, fun other different => ?_⟩, rfl⟩
          · simp [SpiDisplay.running, accepted, setJob, pipelined]
          · simp [accepted, setJob]
          · simp [accepted, setJob]
          · simp [accepted, setJob, different]
        · exact .inl ⟨by simp [submit, pipelined, found, refused],
            by simp [submit, pipelined, found, refused]⟩
  · have plain : d.pipelined = false := by simpa using pipelined
    by_cases refused : answer.result = .ok
    · refine .inr ⟨0, d.accepted answer.acceptTick, by simp [submit, plain, refused], ?_⟩
      refine ⟨rfl, rfl, ⟨rfl, rfl, rfl, rfl⟩, rfl, fun idle => ?_, fun found => ?_,
        fun found => ?_, rfl⟩
      · have idle := idle.resolve_left pipelined
        simp [SpiDisplay.running, accepted, plain, idle]
      · exact absurd found pipelined
      · exact absurd found pipelined
    · exact .inl ⟨by simp [submit, plain, refused],
        by simp [submit, plain, refused]⟩

theorem Queue.accept {cookie : Nat} (queue : Queue trace d) (accepts : Accepts d blit cookie next)
    (idle : d.pipelined = true ∨ d.pending = false)
    (ordered : Ordered d.pipelined (shownHistory (trace ++ [.submitted blit cookie frame degrees]))) :
    Queue (trace ++ [.submitted blit cookie frame degrees]) next := by
  have completed := (queue.ordered.completed.trans queue.ordered.released).length_le
  have within : (completions trace).length ≤ (jobCookies trace).length := completed
  refine ⟨by rwa [accepts.pipelined], ?_, ?_, ?_, ?_⟩
  · have count := queue.count
    rw [accepts.running idle]
    simp
    omega
  · intro pipelined job
    rw [accepts.pipelined] at pipelined
    obtain ⟨index, rfl, free, used, _, others⟩ := accepts.jobs pipelined
    have before := queue.slots pipelined job
    simp only [jobCookies_append, jobCookies_single, completions_append, completions_single,
      List.append_nil, List.drop_append_of_le_length within, List.mem_append, List.mem_singleton,
      Fin.val_inj]
    by_cases here : job = index
    · simp [here, used]
    · rw [others job here, before]
      simp [here]
  · intro pipelined
    rw [accepts.pipelined] at pipelined
    obtain ⟨index, rfl, free, _⟩ := accepts.jobs pipelined
    have absent := mt (queue.slots pipelined index).mpr (by simp [free])
    simp only [jobCookies_append, jobCookies_single, completions_append, completions_single,
      List.append_nil, List.drop_append_of_le_length within]
    refine List.nodup_append.mpr ⟨queue.distinct pipelined, by simp, fun cookie old other new => ?_⟩
    rintro rfl
    rw [List.mem_singleton.mp new] at old
    exact absent old
  · intro pipelined k job later found
    rw [accepts.pipelined] at pipelined
    obtain ⟨index, rfl, free, _, kind, others⟩ := accepts.jobs pipelined
    have absent := mt (queue.slots pipelined index).mpr (by simp [free])
    simp only [completions_append, completions_single, List.append_nil] at later
    simp only [jobCookies_append, jobCookies_single] at found
    simp only [jobBlits_append, jobBlits_single]
    rcases Nat.lt_or_ge k (jobCookies trace).length with old | last
    · rw [List.getElem?_append_left old] at found
      rw [List.getElem?_append_left (by rwa [jobBlits_length])]
      have other : job ≠ index := by
        rintro rfl
        refine absent (List.mem_iff_getElem?.mpr ⟨k - (completions trace).length, ?_⟩)
        rw [List.getElem?_drop, show (completions trace).length + (k - (completions trace).length) =
          k by omega]
        exact found
      rw [others job other]
      exact queue.blit pipelined k job later found
    · rw [List.getElem?_append_right last] at found
      rw [List.getElem?_append_right (by rwa [jobBlits_length]), jobBlits_length]
      obtain ⟨place, same⟩ := List.getElem?_eq_some_iff.mp found
      have zero : k - (jobCookies trace).length = 0 := by simpa using place
      simp only [zero, List.getElem_cons_zero, Fin.val_inj] at same
      simp [zero, ← same, kind]

/-- The flush in progress is accepted. -/
theorem Audited.flushed {cookie : Nat} (audited : Audited trace d 1)
    (accepts : Accepts d false cookie next) (free : d.pendingBlit = false)
    (idle : d.pipelined = true ∨ d.pending = false)
    (ordered : Ordered d.pipelined
      (shownHistory (trace ++ [.submitted false cookie frame degrees]))) :
    Audited (trace ++ [.submitted false cookie frame degrees]) next 0 := by
  obtain ⟨queue, flags, guarded⟩ := audited
  have calm := flags.calm Nat.one_pos
  have behind := queue.ordered.released.length_le
  have released : (releases d.pipelined trace).length ≤ (jobBlits trace).length := by
    rw [jobBlits_length]
    exact behind
  have completed : (completions trace).length ≤ (jobBlits trace).length :=
    Nat.le_trans queue.ordered.completed.length_le released
  have held : next.sourceHeld = true := by
    rw [sourceHeld, accepts.pipelined, accepts.pending, accepts.modes.2.2.2, free]
    by_cases pipelined : d.pipelined = true
    · simp [pipelined, accepts.source pipelined]
    · simp [pipelined]
  refine ⟨queue.accept accepts idle ordered, ⟨?_, ?_, ?_, nofun, ?_⟩, ?_⟩
  · have source := flags.source
    rw [calm] at source
    rw [held, accepts.pipelined]
    simpa [List.drop_append_of_le_length released] using source
  · rw [accepts.modes.2.2.2]
    simpa [List.drop_append_of_le_length completed] using flags.blits
  · intro alive
    have acks := flags.acks (accepts.display ▸ alive)
    rw [calm] at acks
    rw [held]
    simpa using acks
  · rw [accepts.display]
    simpa using flags.gone
  · rw [accepts.pipelined]
    exact guarded.snoc trivial

/-- A blit is accepted while nothing is in flight. -/
theorem Audited.blitted {cookie : Nat} {last : SpiDisplay} (audited : Audited trace d 0)
    (accepts : Accepts d true cookie next) (nothing : d.running = 0)
    (idle : d.pipelined = true ∨ d.pending = false)
    (ordered : Ordered d.pipelined (shownHistory (trace ++ [.submitted true cookie frame degrees])))
    (same : last = { next with result := .ok, pendingBlit := true }) :
    Audited (trace ++ [.submitted true cookie frame degrees]) last 0 := by
  obtain ⟨queue, flags, guarded⟩ := audited
  have count := queue.count
  rw [nothing, Nat.zero_add] at count
  have all : (completions trace).length = (jobBlits trace).length := by rw [jobBlits_length, count]
  have order := queue.ordered.completed.length_le
  have behind := queue.ordered.released.length_le
  have released : (releases d.pipelined trace).length = (jobBlits trace).length := by
    change (completions trace).length ≤ (releases d.pipelined trace).length at order
    change (releases d.pipelined trace).length ≤ (jobCookies trace).length at behind
    rw [jobBlits_length]
    omega
  have free : d.sourceHeld = false := by
    have source := flags.source
    rw [released, List.drop_length] at source
    cases held : d.sourceHeld with
    | false => rfl
    | true => simp [held] at source
  have still : last.sourceHeld = false := by
    rw [same, sourceHeld, accepts.pipelined]
    by_cases pipelined : d.pipelined = true
    · rw [sourceHeld, if_pos pipelined] at free
      simp [pipelined, accepts.source pipelined, free]
    · simp [pipelined]
  have accepted := queue.accept accepts idle ordered
  have queued : Queue (trace ++ [.submitted true cookie frame degrees]) last := by
    rw [same]
    exact ⟨accepted.ordered, accepted.count, accepted.slots, accepted.distinct, accepted.blit⟩
  have mode : last.pipelined = d.pipelined ∧ last.display = d.display ∧
      last.pendingBlit = true := by
    rw [same]
    exact ⟨accepts.pipelined, accepts.display, rfl⟩
  refine ⟨queued, ⟨?_, ?_, ?_, nofun, ?_⟩, ?_⟩
  · rw [still, mode.1]
    simp [released]
  · rw [mode.2.2]
    simp [all]
  · intro alive
    have acks := flags.acks (mode.2.1 ▸ alive)
    rw [free] at acks
    rw [still]
    simpa using acks
  · rw [mode.2.1]
    simpa using flags.gone
  · rw [mode.1]
    exact guarded.snoc count

end SpiDisplay

end LvglAic.Spi
