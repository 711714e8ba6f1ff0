import LvglAic.Spi.DisplayFlush

/-! # Runs of the SPI display -/

namespace LvglAic.Spi

variable {trace events : List DisplayEvent} {d next : SpiDisplay}

/-- The blit results that were reported. -/
def reportedBlits (trace : List DisplayEvent) : Nat :=
  trace.countP fun
    | .blitReported _ => true
    | _ => false

/-- What a collect tells. -/
def DisplayEvent.collects : DisplayEvent → Bool
  | .collected _ _ _ _ | .ready => true
  | _ => false

theorem reportedBlits_append : reportedBlits (trace ++ events) =
    reportedBlits trace + reportedBlits events :=
  List.countP_append

theorem collects_quiet (only : ∀ event ∈ events, event.collects = true) :
    jobBlits events = [] ∧ reportedBlits events = 0 := by
  refine ⟨List.filterMap_eq_nil_iff.mpr fun event member => ?_,
    List.countP_eq_zero.mpr fun event member => ?_⟩ <;>
  · have kind := only event member
    cases event <;> simp_all [DisplayEvent.collects]

theorem increment_min (count : Nat) : increment (min count uint32Max) = min (count + 1) uint32Max := by
  unfold increment
  split <;> omega

theorem results_split (results : List SpiResult) :
    results.count .ok + results.countP (fun result => result ≠ .ok) = results.length := by
  induction results with
  | nil => rfl
  | cons result rest ih =>
      rw [List.count_cons, List.countP_cons, List.length_cons]
      by_cases ok : result = .ok <;> simp [ok] at ih ⊢ <;> omega

namespace SpiDisplay

/-- The counters, each of them saturating. -/
structure Counted (trace : List DisplayEvent) (d : SpiDisplay) : Prop where
  accepted : d.stats.accepted = min (jobCookies trace).length uint32Max
  completed : d.stats.completed = min ((completedResults trace).count .ok) uint32Max
  failed : d.stats.failed =
    min ((completedResults trace).countP fun result => result ≠ .ok) uint32Max

theorem Counted.silent (counted : Counted trace d) (cookies : jobCookies events = [])
    (results : completedResults events = []) (accepted : next.stats.accepted = d.stats.accepted)
    (completed : next.stats.completed = d.stats.completed)
    (failed : next.stats.failed = d.stats.failed) : Counted (trace ++ events) next := by
  constructor
  · rw [accepted, jobCookies_append, cookies, List.append_nil]
    exact counted.accepted
  · rw [completed, completedResults_append, results, List.append_nil]
    exact counted.completed
  · rw [failed, completedResults_append, results, List.append_nil]
    exact counted.failed

/-- One more completion. -/
theorem Counted.record {result : SpiResult} (counted : Counted trace d)
    (cookies : jobCookies events = []) (results : completedResults events = [result])
    (accepted : next.stats.accepted = d.stats.accepted)
    (completed : next.stats.completed =
      if result = .ok then increment d.stats.completed else d.stats.completed)
    (failed : next.stats.failed =
      if result = .ok then d.stats.failed else increment d.stats.failed) :
    Counted (trace ++ events) next := by
  obtain ⟨jobs, good, bad⟩ := counted
  constructor
  · rw [accepted, jobCookies_append, cookies, List.append_nil]
    exact jobs
  · rw [completed, completedResults_append, results, good]
    by_cases ok : result = .ok <;> simp [ok, increment_min]
  · rw [failed, completedResults_append, results, bad]
    by_cases ok : result = .ok <;> simp [ok, increment_min]

theorem Counted.accept {blit : Bool} {cookie : Nat} (counted : Counted trace d)
    (accepts : Accepts d blit cookie next) (frame : Rgb565Frame) (degrees : Nat) :
    Counted (trace ++ [.submitted blit cookie frame degrees]) next := by
  obtain ⟨jobs, good, bad⟩ := counted
  constructor
  · rw [accepts.counted]
    simp [jobs, increment_min]
  · rw [accepts.counted]
    simpa using good
  · rw [accepts.counted]
    simpa using bad

/-! ## What a collect is made of -/

inductive Gathers : SpiDisplay → List DisplayEvent → SpiDisplay → Prop where
  | idle (d : SpiDisplay) : Gathers d [] d
  | handle (d : SpiDisplay) (answer : PipeAnswer) :
      Gathers d (d.handle answer).2 (d.handle answer).1
  | finish (d : SpiDisplay) (answer : WorkerAnswer) :
      Gathers d (d.finish answer).2 (d.finish answer).1
  | settle (d : SpiDisplay) (pending : Bool) : Gathers d [] { d with pending := pending }
  | append {d middle next : SpiDisplay} {events more : List DisplayEvent}
      (first : Gathers d events middle) (second : Gathers middle more next) :
      Gathers d (events ++ more) next

theorem handleAll_gathers {answers : List PipeAnswer} :
    Gathers d (d.handleAll answers).2 (d.handleAll answers).1 := by
  induction answers generalizing d with
  | nil => exact .idle d
  | cons answer rest ih => exact .append (.handle d answer) ih

theorem collect_gathers (d : SpiDisplay) (answer : CollectAnswer) :
    Gathers d (d.collect answer).2.2 (d.collect answer).2.1 := by
  unfold collect
  split
  · exact .idle d
  · split
    · simpa using Gathers.append handleAll_gathers (.settle _ _)
    · split
      · exact .idle d
      · exact .finish d _

theorem collectWhile_gathers {busy : SpiDisplay → Bool} {answers : List CollectAnswer}
    {result : SpiDisplay × List DisplayEvent} (done : d.collectWhile busy answers = some result) :
    Gathers d result.2 result.1 := by
  induction answers generalizing d result with
  | nil =>
      simp only [collectWhile] at done
      split at done
      · cases done
      · cases done
        exact .idle d
  | cons answer rest ih =>
      simp only [collectWhile] at done
      split at done
      · obtain ⟨last, remaining, rfl⟩ := Option.map_eq_some_iff.mp done
        exact .append (collect_gathers _ _) (ih remaining)
      · cases done
        exact .idle d

theorem collectUntil_gathers {answers : List CollectAnswer}
    {result : SpiDisplay × List DisplayEvent} (done : d.collectUntil answers = some result) :
    Gathers d result.2 result.1 := by
  induction answers generalizing d result with
  | nil => cases done
  | cons answer rest ih =>
      simp only [collectUntil] at done
      split at done
      · cases done
        exact collect_gathers _ _
      · obtain ⟨last, remaining, rfl⟩ := Option.map_eq_some_iff.mp done
        exact .append (collect_gathers _ _) (ih remaining)

theorem acknowledge_collects : ∀ event ∈ d.acknowledge, event.collects = true := by
  unfold acknowledge
  split <;> simp [DisplayEvent.collects]

theorem acknowledge_silent : jobCookies d.acknowledge = [] ∧ completedResults d.acknowledge = [] := by
  unfold acknowledge
  split <;> exact ⟨rfl, rfl⟩

namespace Gathers

theorem collects (gathers : Gathers d events next) :
    ∀ event ∈ events, event.collects = true := by
  induction gathers with
  | idle | settle => nofun
  | handle d answer =>
      intro event member
      cases kind : answer.kind with
      | sourceReleased =>
          simp only [SpiDisplay.handle, kind] at member
          split at member
          · rw [List.mem_singleton.mp member]
            rfl
          · rcases List.mem_cons.mp member with rfl | later
            · rfl
            · exact acknowledge_collects event later
      | completed =>
          simp only [SpiDisplay.handle, kind, List.mem_singleton] at member
          rw [member]
          rfl
  | finish d answer =>
      intro event member
      rcases List.mem_cons.mp member with rfl | later
      · rfl
      · split at later
        · cases later
        · exact acknowledge_collects event later
  | append _ _ first second =>
      intro event member
      exact (List.mem_append.mp member).elim (first event) (second event)

theorem counted (gathers : Gathers d events next) (counted : Counted trace d) :
    Counted (trace ++ events) next := by
  induction gathers generalizing trace with
  | idle => simpa using counted
  | settle d pending =>
      rw [List.append_nil]
      exact ⟨counted.accepted, counted.completed, counted.failed⟩
  | handle d answer =>
      cases kind : answer.kind with
      | sourceReleased =>
          simp only [SpiDisplay.handle, kind]
          split
          · exact counted.silent rfl rfl rfl rfl rfl
          · rw [← List.singleton_append, ← List.append_assoc]
            exact (counted.silent rfl rfl rfl rfl rfl).silent acknowledge_silent.1
              acknowledge_silent.2 rfl rfl rfl
      | completed =>
          simp only [SpiDisplay.handle, kind]
          exact counted.record rfl rfl rfl rfl rfl
  | finish d answer =>
      have told : (d.finish answer).2 = [.collected .completed 0 answer.result answer.timing] ++
          (if d.pendingBlit then [] else d.acknowledge) := rfl
      rw [told, ← List.append_assoc]
      have recorded : Counted (trace ++ [.collected .completed 0 answer.result answer.timing])
          (d.finish answer).1 := counted.record rfl rfl rfl rfl rfl
      split
      · rwa [List.append_nil]
      · exact recorded.silent acknowledge_silent.1 acknowledge_silent.2 rfl rfl rfl
  | append _ _ first second =>
      rw [← List.append_assoc]
      exact second (first counted)

/-- The display keeps the last result. -/
theorem result (gathers : Gathers d events next) :
    (completedResults events = [] ∧ next.result = d.result) ∨
      (completedResults events).getLast? = some next.result := by
  induction gathers with
  | idle | settle => exact .inl ⟨rfl, rfl⟩
  | handle d answer =>
      cases kind : answer.kind with
      | sourceReleased =>
          simp only [SpiDisplay.handle, kind]
          split
          · exact .inl ⟨rfl, rfl⟩
          · refine .inl ⟨?_, rfl⟩
            rw [← List.singleton_append, completedResults_append, acknowledge_silent.2]
            rfl
      | completed =>
          simp only [SpiDisplay.handle, kind]
          exact .inr rfl
  | finish d answer =>
      refine .inr ?_
      have told : (d.finish answer).2 = [.collected .completed 0 answer.result answer.timing] ++
          (if d.pendingBlit then [] else d.acknowledge) := rfl
      rw [told, completedResults_append]
      split
      · rfl
      · rw [acknowledge_silent.2]
        rfl
  | append _ _ first second =>
      rw [completedResults_append]
      rcases second with ⟨none, same⟩ | last
      · rw [none, List.append_nil, same]
        exact first
      · exact .inr (by rw [List.getLast?_append, last, Option.some_or])

end Gathers

/-! ## The invariant of the calls -/

structure Modes (d : SpiDisplay) : Prop where
  settled : d.pending = decide (d.running ≠ 0)
  claims : d.blit = true → d.claiming = true
  blits : d.pendingBlit = true → d.blit = true ∧ d.running = 1
  alive : d.display = false → d.closing = true

/-- Every blit is in flight, reported, or collected by a close. -/
def BlitLedger (trace : List DisplayEvent) (d : SpiDisplay) : Prop :=
  ∃ lost, (jobBlits trace).count true = reportedBlits trace + d.pendingBlit.toNat + lost ∧
    lost ≤ 1 ∧ (lost = 1 → .closeCalled ∈ trace ∧ d.closing = true ∧ d.pendingBlit = false)

theorem BlitLedger.aside (ledger : BlitLedger trace d)
    (aside : ∀ event ∈ events, event.aside = true) (silent : reportedBlits events = 0)
    (blit : next.pendingBlit = d.pendingBlit)
    (closing : d.closing = true → next.closing = true) : BlitLedger (trace ++ events) next := by
  obtain ⟨lost, total, one, closed⟩ := ledger
  refine ⟨lost, ?_, one, fun is => ?_⟩
  · rw [jobBlits_append, (aside_silent aside).2.1, List.append_nil, reportedBlits_append, silent,
      blit, total, Nat.add_zero]
  · obtain ⟨called, shut, free⟩ := closed is
    exact ⟨List.mem_append_left _ called, closing shut, by rw [blit, free]⟩

structure DisplayInvariant (trace : List DisplayEvent) (d : SpiDisplay) : Prop where
  audited : Audited trace d 0
  modes : Modes d
  blits : BlitLedger trace d
  counted : Counted trace d

/-- Everything that the accounts read is the same. -/
structure SameAccounts (d next : SpiDisplay) : Prop where
  pipelined : next.pipelined = d.pipelined
  inflight : next.inflight = d.inflight
  pending : next.pending = d.pending
  source : next.sourcePending = d.sourcePending
  jobs : next.jobs = d.jobs
  display : next.display = d.display
  blit : next.pendingBlit = d.pendingBlit
  accepted : next.stats.accepted = d.stats.accepted
  completed : next.stats.completed = d.stats.completed
  failed : next.stats.failed = d.stats.failed

theorem SameAccounts.running (same : SameAccounts d next) : next.running = d.running := by
  simp only [SpiDisplay.running, same.pipelined, same.inflight, same.pending]

theorem SameAccounts.audited {owed : Nat} (same : SameAccounts d next)
    (audited : Audited trace d owed) : Audited trace next owed :=
  audited.congr same.pipelined same.running
    (by simp only [sourceHeld, same.pipelined, same.source, same.pending, same.blit]) same.jobs
    same.display same.blit

theorem SameAccounts.counted (same : SameAccounts d next) (counted : Counted trace d) :
    Counted trace next :=
  ⟨same.accepted.trans counted.accepted, same.completed.trans counted.completed,
    same.failed.trans counted.failed⟩

namespace DisplayInvariant

theorem congr (invariant : DisplayInvariant trace d) (same : SameAccounts d next)
    (closing : d.closing = true → next.closing = true)
    (claims : next.blit = true → next.claiming = true)
    (blit : d.blit = true → next.blit = true) : DisplayInvariant trace next := by
  obtain ⟨audited, modes, ledger, counted⟩ := invariant
  refine ⟨same.audited audited, ⟨?_, claims, ?_, ?_⟩, ?_, same.counted counted⟩
  · rw [same.pending, same.running]
    exact modes.settled
  · intro pending
    rw [same.running]
    obtain ⟨owned, alone⟩ := modes.blits (same.blit ▸ pending)
    exact ⟨blit owned, alone⟩
  · intro gone
    exact closing (modes.alive (same.display ▸ gone))
  · obtain ⟨lost, total, one, closed⟩ := ledger
    refine ⟨lost, by rw [same.blit, total], one, fun is => ?_⟩
    obtain ⟨called, shut, free⟩ := closed is
    exact ⟨called, closing shut, by rw [same.blit, free]⟩

/-- A wait while no blit is in flight. -/
theorem gathered (invariant : DisplayInvariant trace d) (waited : Waited trace d 0 (next, events))
    (gathers : Gathers d events next) (free : d.pendingBlit = false) :
    DisplayInvariant (trace ++ events) next := by
  obtain ⟨_, modes, ledger, counted⟩ := invariant
  obtain ⟨audited, mode, settled⟩ := waited
  have still : next.pendingBlit = false := by
    cases pending : next.pendingBlit with
    | false => rfl
    | true => simp [mode.pendingBlit pending] at free
  obtain ⟨noBlits, noReports⟩ := collects_quiet gathers.collects
  refine ⟨audited, ⟨settled, ?_, ?_, ?_⟩, ?_, gathers.counted counted⟩
  · rw [mode.blit, mode.claiming]
    exact modes.claims
  · intro pending
    rw [still] at pending
    cases pending
  · rw [mode.display, mode.closing]
    exact modes.alive
  · obtain ⟨lost, total, one, closed⟩ := ledger
    refine ⟨lost, ?_, one, fun is => ?_⟩
    · rw [jobBlits_append, noBlits, List.append_nil, reportedBlits_append, noReports, still, total,
        free]
      rfl
    · obtain ⟨called, shut, _⟩ := closed is
      exact ⟨List.mem_append_left _ called, by rw [mode.closing, shut], still⟩

theorem poll {answer : CollectAnswer} (invariant : DisplayInvariant trace d)
    (shown : Shown d.pipelined trace (d.poll answer).2.2) :
    DisplayInvariant (trace ++ (d.poll answer).2.2) (d.poll answer).2.1 := by
  by_cases busy : d.pendingBlit = true
  · have same : d.poll answer = (false, d, []) := by
      simp only [SpiDisplay.poll, busy, if_true]
    rw [same]
    simpa using invariant
  · have same : d.poll answer = d.collect answer := by
      simp only [SpiDisplay.poll, busy, if_false, Bool.false_eq_true]
    rw [same] at shown ⊢
    exact invariant.gathered
      (invariant.audited.collect invariant.modes.settled shown).waited (collect_gathers _ _)
      (by simpa using busy)

theorem waitFlush {answers : List CollectAnswer} {result : SpiDisplay × List DisplayEvent}
    (invariant : DisplayInvariant trace d) (done : d.waitFlush answers = some result)
    (shown : Shown d.pipelined trace result.2) :
    DisplayInvariant (trace ++ result.2) result.1 ∧ result.1.display = d.display ∧
      (d.pendingBlit = false → result.1.sourceHeld = false) := by
  by_cases busy : d.pendingBlit = true
  · simp only [SpiDisplay.waitFlush, busy, if_true, Option.some.injEq] at done
    subst done
    refine ⟨by simpa using invariant, rfl, fun free => ?_⟩
    simp [busy] at free
  · have free : d.pendingBlit = false := by simpa using busy
    by_cases pipelined : d.pipelined = true
    · simp only [SpiDisplay.waitFlush, free, pipelined, if_true, if_false, Bool.false_eq_true]
        at done
      obtain ⟨waited, empty⟩ :=
        invariant.audited.collectWhile invariant.modes.settled done shown
      refine ⟨invariant.gathered waited (collectWhile_gathers done) free, waited.mode.display,
        fun _ => ?_⟩
      rw [sourceHeld, waited.mode.pipelined, if_pos pipelined]
      exact empty
    · simp only [SpiDisplay.waitFlush, free, pipelined, if_false, Bool.false_eq_true] at done
      obtain ⟨waited, empty⟩ :=
        invariant.audited.collectUntil invariant.modes.settled done shown
      refine ⟨invariant.gathered waited (collectUntil_gathers done) free, waited.mode.display,
        fun _ => ?_⟩
      rw [sourceHeld, waited.mode.pipelined, if_neg pipelined, empty]
      rfl

theorem claimBlit {answer : CollectAnswer} (invariant : DisplayInvariant trace d)
    (shown : Shown d.pipelined trace (d.claimBlit answer).2.2) :
    DisplayInvariant (trace ++ (d.claimBlit answer).2.2) (d.claimBlit answer).2.1 := by
  by_cases refused : (d.closing || !d.display) = true
  · have same : d.claimBlit answer = (.invalid, d, []) := by
      simp only [SpiDisplay.claimBlit, refused, if_true]
    rw [same]
    simpa using invariant
  · by_cases owned : d.blit = true
    · have same : d.claimBlit answer = (.ok, d, []) := by
        simp only [SpiDisplay.claimBlit, refused, owned, if_true, if_false, Bool.false_eq_true]
      rw [same]
      simpa using invariant
    · have free : d.pendingBlit = false := by
        cases pending : d.pendingBlit with
        | false => rfl
        | true => exact absurd (invariant.modes.blits pending).1 owned
      have claiming : DisplayInvariant trace { d with claiming := true } :=
        invariant.congr ⟨rfl, rfl, rfl, rfl, rfl, rfl, rfl, rfl, rfl, rfl⟩ id (fun _ => rfl) id
      rw [SpiDisplay.claimBlit, if_neg refused, if_neg owned] at shown ⊢
      have told : Shown d.pipelined trace ({ d with claiming := true }.collect answer).2.2 := by
        dsimp only at shown
        split at shown
        · exact shown
        · split at shown <;> exact shown
      have collected := claiming.audited.collect claiming.modes.settled told
      have gathered := claiming.gathered collected.waited (collect_gathers _ _) free
      dsimp only
      split
      · exact gathered
      · split
        · exact gathered
        · exact gathered.congr ⟨rfl, rfl, rfl, rfl, rfl, rfl, rfl, rfl, rfl, rfl⟩ id
            (fun _ => collected.mode.claiming) fun _ => rfl

theorem delete (invariant : DisplayInvariant trace d) :
    DisplayInvariant (trace ++ d.delete.2) d.delete.1 := by
  obtain ⟨audited, modes, ledger, counted⟩ := invariant
  refine ⟨?_, ⟨modes.settled, modes.claims, modes.blits, fun _ => rfl⟩, ?_,
    counted.silent rfl rfl rfl rfl rfl⟩
  · exact audited.aside (by simp [SpiDisplay.delete, DisplayEvent.aside]) rfl rfl rfl rfl rfl nofun
      (fun _ => rfl) ⟨trivial, trivial, trivial⟩
  · exact ledger.aside (by simp [SpiDisplay.delete, DisplayEvent.aside]) rfl rfl fun _ => rfl

/-! ## Flushing -/

/-- LVGL calls `flush`. -/
theorem called (audited : Audited trace d 0) (alive : d.display = true)
    (answered : flushes trace = readies trace) : Audited (trace ++ [.flushed]) d 1 := by
  obtain ⟨queue, flags, guarded⟩ := audited
  have acks := flags.acks alive
  have free : d.sourceHeld = false := by
    cases held : d.sourceHeld with
    | false => rfl
    | true => simp [held, answered] at acks
  have ordered : Ordered d.pipelined (shownHistory (trace ++ [.flushed])) := by
    rw [shownHistory_quiet rfl]
    exact queue.ordered
  refine ⟨queue.quiet ordered rfl rfl rfl rfl rfl, ⟨?_, ?_, ?_, fun _ => free, ?_⟩,
    guarded.snoc ⟨answered.symm, ?_⟩⟩
  · simpa using flags.source
  · simpa using flags.blits
  · intro _
    simp [free, answered]
  · simpa using flags.gone
  · exact fun member => by simp [flags.gone member] at alive

theorem ledger_quiet (ledger : BlitLedger trace d) (kinds : (jobBlits events).count true = 0)
    (silent : reportedBlits events = 0) (blit : next.pendingBlit = d.pendingBlit)
    (closing : next.closing = d.closing) : BlitLedger (trace ++ events) next := by
  obtain ⟨lost, total, one, closed⟩ := ledger
  refine ⟨lost, ?_, one, fun is => ?_⟩
  · rw [jobBlits_append, List.count_append, kinds, reportedBlits_append, silent, blit, total,
      Nat.add_zero, Nat.add_zero]
  · obtain ⟨called, shut, free⟩ := closed is
    exact ⟨List.mem_append_left _ called, by rw [closing, shut], by rw [blit, free]⟩

/-- A flush that is acknowledged at once. -/
theorem dismissed (invariant : DisplayInvariant trace d) (alive : d.display = true)
    (answered : flushes trace = readies trace) :
    DisplayInvariant (trace ++ [.flushed, .ready]) d := by
  obtain ⟨audited, modes, ledger, counted⟩ := invariant
  refine ⟨?_, modes, ledger_quiet ledger rfl rfl rfl rfl, counted.silent rfl rfl rfl rfl rfl⟩
  have ready := (called audited alive answered).ready alive
  rwa [List.append_assoc] at ready

theorem reject_same {result : SpiResult} : SameAccounts d (d.reject result) :=
  ⟨rfl, rfl, rfl, rfl, rfl, rfl, rfl, rfl, rfl, rfl⟩

theorem rejected {result : SpiResult} (invariant : DisplayInvariant trace d) :
    DisplayInvariant trace (d.reject result) :=
  invariant.congr reject_same id invariant.modes.claims id

theorem flushWait {owed : Nat} {collects : List CollectAnswer}
    {result : SpiDisplay × List DisplayEvent} (audited : Audited trace d owed)
    (settled : d.pending = decide (d.running ≠ 0)) (done : d.flushWait collects = some result)
    (shown : Shown d.pipelined trace result.2) :
    Waited trace d owed result ∧ Gathers d result.2 result.1 := by
  by_cases pipelined : d.pipelined = true
  · cases collects with
    | nil => simp [SpiDisplay.flushWait, pipelined] at done
    | cons answer rest =>
        simp only [SpiDisplay.flushWait, pipelined, if_true] at done
        obtain ⟨last, remaining, rfl⟩ := Option.map_eq_some_iff.mp done
        have first := audited.collect settled shown.left
        obtain ⟨others, _⟩ := first.audited.collectWhile first.settled remaining
          (first.mode.pipelined ▸ shown.right)
        exact ⟨first.waited.trans others, .append (collect_gathers _ _) (collectWhile_gathers remaining)⟩
  · simp only [SpiDisplay.flushWait, pipelined, if_false, Bool.false_eq_true,
      Option.some.injEq] at done
    subst done
    exact ⟨.here audited settled, .idle d⟩

theorem flushFrame {frame : Rgb565Frame} {collects : List CollectAnswer} {answer : SubmitAnswer}
    {result : SpiDisplay × List DisplayEvent} (invariant : DisplayInvariant trace d)
    (alive : d.display = true) (answered : flushes trace = readies trace)
    (unclaimed : d.claiming = false)
    (done : d.flushFrame frame collects answer = some result)
    (shown : Shown d.pipelined (trace ++ [.flushed]) result.2) :
    DisplayInvariant (trace ++ [.flushed] ++ result.2) result.1 := by
  obtain ⟨audited, modes, ledger, counted⟩ := invariant
  have unowned : d.blit = false := by
    cases owned : d.blit with
    | false => rfl
    | true => simp [modes.claims owned] at unclaimed
  have free : d.pendingBlit = false := by
    cases pending : d.pendingBlit with
    | false => rfl
    | true => simp [(modes.blits pending).1] at unowned
  obtain ⟨⟨middle, told⟩, waited, rfl⟩ := Option.map_eq_some_iff.mp done
  have early : Shown d.pipelined (trace ++ [.flushed]) told := by
    dsimp only at shown
    split at shown
    · exact shown.left
    · exact shown.left.left
  obtain ⟨⟨held, mode, settled⟩, gathers⟩ :=
    flushWait (called audited alive answered) modes.settled waited early
  have still : middle.pendingBlit = false := by
    cases pending : middle.pendingBlit with
    | false => rfl
    | true => simp [mode.pendingBlit pending] at free
  have idle : middle.pipelined = true ∨ middle.pending = false := by
    have calm := held.flags.calm Nat.one_pos
    cases pipelined : middle.pipelined with
    | true => exact .inl rfl
    | false => exact .inr (by simpa [sourceHeld, pipelined, still] using calm)
  obtain ⟨noBlits, noReports⟩ := collects_quiet gathers.collects
  have gathered : Counted (trace ++ [.flushed] ++ told) middle :=
    gathers.counted (counted.silent rfl rfl rfl rfl rfl)
  have ledgered : BlitLedger (trace ++ [.flushed] ++ told) middle := by
    rw [List.append_assoc]
    refine ledger_quiet ledger ?_ ?_ (still.trans free.symm) mode.closing
    · rw [jobBlits_append, noBlits]
      rfl
    · rw [reportedBlits_append, noReports]
      rfl
  have claims : middle.blit = true → middle.claiming = true := by
    rw [mode.blit, mode.claiming]
    exact modes.claims
  have shut : middle.display = false → middle.closing = true := by
    rw [mode.display, mode.closing]
    exact modes.alive
  rcases submit_cases middle frame d.degrees false answer with ⟨refused, same⟩ | ⟨cookie, next, same, accepts⟩
  · simp only [same, refused, if_false, List.append_nil] at shown ⊢
    have ready := held.ready (mode.display.trans alive)
    rw [← List.append_assoc]
    refine rejected ⟨ready, ⟨settled, claims, ?_, shut⟩, ?_, gathered.silent rfl rfl rfl rfl rfl⟩
    · intro pending
      rw [still] at pending
      cases pending
    · exact ledger_quiet ledgered rfl rfl rfl rfl
  · simp only [same, if_true] at shown ⊢
    rw [← List.append_assoc]
    have ordered := shown.right.whole
    rw [← mode.pipelined] at ordered
    have flushed := held.flushed accepts still idle ordered
    obtain ⟨closing, claiming, owned, pendingBlit⟩ := accepts.modes
    have accepted : DisplayInvariant (trace ++ [.flushed] ++ told ++
        [.submitted false cookie frame d.degrees]) next := by
      refine ⟨flushed, ⟨?_, ?_, ?_, ?_⟩, ?_, gathered.accept accepts _ _⟩
      · rw [accepts.pending, accepts.running idle]
        simp
      · rwa [owned, claiming]
      · rw [pendingBlit, still]
        intro same
        cases same
      · rwa [accepts.display, closing]
      · exact ledger_quiet ledgered rfl rfl pendingBlit closing
    exact accepted.congr ⟨rfl, rfl, rfl, rfl, rfl, rfl, rfl, rfl, rfl, rfl⟩ id
      accepted.modes.claims id

theorem flush {last : Bool} {active : Option DrawBuf} {collects : List CollectAnswer}
    {answer : SubmitAnswer} {result : SpiDisplay × List DisplayEvent}
    (invariant : DisplayInvariant trace d) (alive : d.display = true)
    (answered : flushes trace = readies trace)
    (done : d.flush last active collects answer = some result)
    (shown : Shown d.pipelined trace result.2) :
    DisplayInvariant (trace ++ result.2) result.1 := by
  by_cases skipped : (d.closing || d.claiming || !last) = true
  · unfold SpiDisplay.flush at done
    rw [if_pos skipped, Option.some.injEq] at done
    subst done
    exact invariant.dismissed alive answered
  · unfold SpiDisplay.flush at done
    rw [if_neg skipped] at done
    have unclaimed : d.claiming = false := by
      simp only [Bool.or_eq_true, not_or] at skipped
      simpa using skipped.1.2
    cases active with
    | none =>
        cases done
        exact (invariant.dismissed alive answered).rejected
    | some buffer =>
        dsimp only at done
        split at done
        · cases done
          exact (invariant.dismissed alive answered).rejected
        · obtain ⟨drawn, flushed, rfl⟩ := Option.map_eq_some_iff.mp done
          rw [← List.singleton_append] at shown ⊢
          rw [← List.append_assoc]
          exact invariant.flushFrame alive answered unclaimed flushed shown.right

/-! ## Blits -/

theorem blitFrame {frame : Option Rgb565Frame} {degrees : Nat} {answer : SubmitAnswer}
    (invariant : DisplayInvariant trace d)
    (shown : Shown d.pipelined trace (d.blitFrame frame degrees answer).2.2) :
    DisplayInvariant (trace ++ (d.blitFrame frame degrees answer).2.2)
      (d.blitFrame frame degrees answer).2.1 := by
  have refused : DisplayInvariant trace
      { d with stats := { d.stats with rejected := increment d.stats.rejected } } :=
    invariant.congr ⟨rfl, rfl, rfl, rfl, rfl, rfl, rfl, rfl, rfl, rfl⟩ id invariant.modes.claims id
  cases frame with
  | none => simpa [SpiDisplay.blitFrame] using refused
  | some frame =>
      simp only [SpiDisplay.blitFrame] at shown ⊢
      by_cases unowned : (!d.blit || d.closing) = true
      · simpa only [unowned, if_true, List.append_nil] using refused
      · by_cases pending : d.pending = true
        · simpa only [unowned, pending, if_true, if_false, List.append_nil, Bool.false_eq_true]
            using refused
        · simp only [unowned, pending, if_false, Bool.false_eq_true] at shown ⊢
          rcases submit_cases d frame degrees true answer with ⟨failed, same⟩ | ⟨cookie, next, same, accepts⟩
          · simp only [same, failed, if_false, List.append_nil]
            exact invariant.rejected
          · simp only [same, if_true] at shown ⊢
            obtain ⟨audited, modes, ledger, counted⟩ := invariant
            have idle : d.pipelined = true ∨ d.pending = false := .inr (by simpa using pending)
            have nothing : d.running = 0 := by
              have settled := modes.settled
              simpa [pending] using settled
            have free : d.pendingBlit = false := by
              cases blitting : d.pendingBlit with
              | false => rfl
              | true => simp [(modes.blits blitting).2] at nothing
            simp only [Bool.or_eq_true, Bool.not_eq_true', not_or, Bool.not_eq_false,
              Bool.not_eq_true] at unowned
            obtain ⟨closing, claiming, owned, _⟩ := accepts.modes
            have running : next.running = 1 := by rw [accepts.running idle, nothing]
            refine ⟨audited.blitted accepts nothing idle shown.whole rfl, ⟨?_, ?_, ?_, ?_⟩, ?_, ?_⟩
            · show next.pending = decide (next.running ≠ 0)
              rw [accepts.pending, running]
              rfl
            · show next.blit = true → next.claiming = true
              rw [owned, claiming]
              exact modes.claims
            · exact fun _ => ⟨owned.trans unowned.1, running⟩
            · show next.display = false → next.closing = true
              rw [accepts.display, closing]
              exact modes.alive
            · obtain ⟨lost, total, one, closed⟩ := ledger
              refine ⟨lost, ?_, one, fun is => ?_⟩
              · rw [jobBlits_append, List.count_append, total, reportedBlits_append, free]
                show _ + 1 = _ + 0 + 1 + _
                simp
                omega
              · exact absurd (closed is).2.1 (by simp [unowned.2])
            · have accepted := counted.accept accepts frame degrees
              exact ⟨accepted.accepted, accepted.completed, accepted.failed⟩

end DisplayInvariant

/-- What a collect does to the blit in flight. -/
theorem Collected.blit {answer : CollectAnswer} (queue : Queue trace d)
    (collected : Collected trace d 0 (d.collect answer)) (pending : d.pendingBlit = true)
    (flags : Flags trace d 0) (alone : d.running = 1) :
    ((d.collect answer).1 = false ∧ (d.collect answer).2.1.pendingBlit = true ∧
      (d.collect answer).2.1.running = 1) ∨
    ((d.collect answer).1 = true ∧ (d.collect answer).2.1.pendingBlit = false ∧
      (d.collect answer).2.1.running = 0 ∧
      lastResult (trace ++ (d.collect answer).2.2) = some (d.collect answer).2.1.result) := by
  obtain ⟨⟨after, later, _⟩, mode, settled, told⟩ := collected
  have gathers := collect_gathers d answer
  have kinds := (collects_quiet gathers.collects).1
  have cookies : jobCookies (d.collect answer).2.2 = [] := by
    rw [← List.length_eq_zero_iff, ← jobBlits_length, kinds, List.length_nil]
  have before := queue.count
  have count := after.count
  simp only [completions_append, jobCookies_append, cookies, List.append_nil,
    List.length_append] at count
  have blits := later.blits
  simp only [jobBlits_append, kinds, List.append_nil, completions_append,
    List.length_append] at blits
  have lit := flags.blits
  rw [pending] at lit
  cases busy : (d.collect answer).2.1.pending with
  | true =>
      have held : (d.collect answer).2.1.running ≠ 0 := by
        rw [busy] at settled
        exact of_decide_eq_true settled.symm
      have none : (completions (d.collect answer).2.2).length = 0 := by omega
      refine .inl ⟨by simp [told, busy], ?_, by omega⟩
      rw [none, Nat.add_zero, lit] at blits
      cases kept : (d.collect answer).2.1.pendingBlit with
      | true => rfl
      | false => simp [kept] at blits
  | false =>
      have idle : (d.collect answer).2.1.running = 0 := by
        rw [busy] at settled
        exact not_not.mp (of_decide_eq_false settled.symm)
      have one : (completions (d.collect answer).2.2).length = 1 := by omega
      refine .inr ⟨by simp [told, busy], ?_, idle, ?_⟩
      · have all : (completions trace).length + 1 = (jobBlits trace).length := by
          rw [jobBlits_length]
          omega
        rw [one, all, List.drop_length] at blits
        cases kept : (d.collect answer).2.1.pendingBlit with
        | true => simp [kept] at blits
        | false => rfl
      · rcases gathers.result with ⟨none, _⟩ | last
        · rw [← completedResults_length, none] at one
          cases one
        · rw [lastResult, completedResults_append, List.getLast?_append, last, Option.some_or]

namespace DisplayInvariant

theorem blitTake {answer : CollectAnswer} (invariant : DisplayInvariant trace d)
    (shown : Shown d.pipelined trace (d.blitTake answer).2.2) :
    DisplayInvariant (trace ++ (d.blitTake answer).2.2) (d.blitTake answer).2.1 := by
  by_cases pending : d.pendingBlit = true
  · obtain ⟨audited, modes, ledger, counted⟩ := invariant
    obtain ⟨owned, alone⟩ := modes.blits pending
    have early : Shown d.pipelined trace (d.collect answer).2.2 := by
      simp only [SpiDisplay.blitTake, pending, Bool.not_true, Bool.false_eq_true, if_false] at shown
      split at shown
      · exact shown.left
      · exact shown
    have collected := audited.collect modes.settled early
    have outcome := Collected.blit audited.queue collected pending audited.flags alone
    obtain ⟨after, mode, settled, _⟩ := collected
    have gathers := collect_gathers d answer
    obtain ⟨noBlits, noReports⟩ := collects_quiet gathers.collects
    obtain ⟨lost, total, one, closed⟩ := ledger
    have none : lost = 0 := by
      by_contra some
      exact absurd (closed (by omega)).2.2 (by simp [pending])
    have claims : (d.collect answer).2.1.blit = true → (d.collect answer).2.1.claiming = true := by
      rw [mode.blit, mode.claiming]
      exact modes.claims
    have alive : (d.collect answer).2.1.display = false →
        (d.collect answer).2.1.closing = true := by
      rw [mode.display, mode.closing]
      exact modes.alive
    rcases outcome with ⟨waiting, kept, busy⟩ | ⟨done, cleared, idle, last⟩
    · have same : d.blitTake answer = (Option.none, (d.collect answer).2) := by
        simp only [SpiDisplay.blitTake, pending, waiting, Bool.not_true, Bool.false_eq_true,
          if_false]
      rw [same]
      refine ⟨after, ⟨settled, claims, fun _ => ⟨mode.blit.trans owned, busy⟩, alive⟩,
        ⟨0, ?_, Nat.zero_le 1, nofun⟩, gathers.counted counted⟩
      rw [jobBlits_append, noBlits, List.append_nil, reportedBlits_append, noReports, kept, total,
        pending, none]
      rfl
    · have same : d.blitTake answer = (some (d.collect answer).2.1.result,
          (d.collect answer).2.1, (d.collect answer).2.2 ++
            [.blitReported (d.collect answer).2.1.result]) := by
        simp only [SpiDisplay.blitTake, pending, done, Bool.not_true, Bool.false_eq_true, if_false,
          if_true]
      rw [same]
      dsimp only
      rw [← List.append_assoc]
      refine ⟨?_, ⟨settled, claims, ?_, alive⟩, ⟨0, ?_, Nat.zero_le 1, nofun⟩,
        (gathers.counted counted).silent rfl rfl rfl rfl rfl⟩
      · exact after.aside (by simp [DisplayEvent.aside]) rfl rfl rfl rfl rfl id (by simp)
          ⟨last, trivial⟩
      · rw [cleared]
        nofun
      · rw [jobBlits_append, jobBlits_append, noBlits, reportedBlits_append, reportedBlits_append,
          noReports, cleared, List.append_nil, List.count_append, total, pending, none]
        rfl
  · have same : d.blitTake answer = (none, d, []) := by
      simp only [SpiDisplay.blitTake, pending, Bool.not_false, if_true]
    rw [same]
    simpa using invariant

/-! ## Closing -/

theorem aside (invariant : DisplayInvariant trace d)
    (aside : ∀ event ∈ events, event.aside = true) (silent : reportedBlits events = 0)
    (same : SameAccounts d { next with display := d.display })
    (display : next.display = true → d.display = true)
    (gone : .deleted ∈ events → next.display = false)
    (safe : Guarded.Continues (DisplaySafe d.pipelined) trace events)
    (closing : next.closing = true) (claims : next.claiming = d.claiming)
    (blit : next.blit = d.blit) : DisplayInvariant (trace ++ events) next := by
  obtain ⟨audited, modes, ledger, counted⟩ := invariant
  obtain ⟨seen, _⟩ := aside_silent aside
  have running : next.running = d.running := same.running
  have source : next.sourceHeld = d.sourceHeld := by
    have pipelined : next.pipelined = d.pipelined := same.pipelined
    have pending : next.pending = d.pending := same.pending
    have held : next.sourcePending = d.sourcePending := same.source
    have kept : next.pendingBlit = d.pendingBlit := same.blit
    simp only [sourceHeld, pipelined, pending, held, kept]
  refine ⟨?_, ⟨?_, ?_, ?_, fun _ => closing⟩, ?_, ?_⟩
  · exact audited.aside aside same.pipelined running same.jobs source same.blit display gone safe
  · rw [running]
    exact (show next.pending = d.pending from same.pending).trans modes.settled
  · rw [blit, claims]
    exact modes.claims
  · intro pending
    have before : d.pendingBlit = true :=
      (show next.pendingBlit = d.pendingBlit from same.blit) ▸ pending
    rw [blit, running]
    exact modes.blits before
  · exact ledger.aside aside silent same.blit fun _ => closing
  · exact counted.silent (by rw [jobCookies, seen]; rfl) (by
      have none := completedResults_length events
      rw [completions, seen] at none
      exact List.length_eq_zero_iff.mp none) same.accepted same.completed same.failed

/-- `close` collects whatever is in flight, a blit's result as well. -/
theorem closeCollect (invariant : DisplayInvariant trace d) (answer : CollectAnswer)
    (called : .closeCalled ∈ trace) (closing : d.closing = true)
    (shown : Shown d.pipelined trace (d.collect answer).2.2) :
    DisplayInvariant (trace ++ (d.collect answer).2.2) (d.collect answer).2.1 := by
  by_cases pending : d.pendingBlit = true
  · obtain ⟨audited, modes, ledger, counted⟩ := invariant
    obtain ⟨owned, alone⟩ := modes.blits pending
    have collected := audited.collect modes.settled shown
    have outcome := Collected.blit audited.queue collected pending audited.flags alone
    obtain ⟨after, mode, settled, _⟩ := collected
    have gathers := collect_gathers d answer
    obtain ⟨noBlits, noReports⟩ := collects_quiet gathers.collects
    obtain ⟨lost, total, one, closed⟩ := ledger
    have none : lost = 0 := by
      by_contra some
      exact absurd (closed (by omega)).2.2 (by simp [pending])
    have claims : (d.collect answer).2.1.blit = true → (d.collect answer).2.1.claiming = true := by
      rw [mode.blit, mode.claiming]
      exact modes.claims
    have shut : (d.collect answer).2.1.closing = true := mode.closing.trans closing
    rcases outcome with ⟨_, kept, busy⟩ | ⟨_, cleared, _, _⟩
    · refine ⟨after, ⟨settled, claims, fun _ => ⟨mode.blit.trans owned, busy⟩, fun _ => shut⟩,
        ⟨0, ?_, Nat.zero_le 1, nofun⟩, gathers.counted counted⟩
      rw [jobBlits_append, noBlits, List.append_nil, reportedBlits_append, noReports, kept, total,
        pending, none]
      rfl
    · refine ⟨after, ⟨settled, claims, ?_, fun _ => shut⟩, ⟨1, ?_, Nat.le_refl 1, fun _ => ?_⟩,
        gathers.counted counted⟩
      · rw [cleared]
        nofun
      · rw [jobBlits_append, noBlits, List.append_nil, reportedBlits_append, noReports, cleared,
          total, pending, none]
        rfl
      · exact ⟨List.mem_append_left _ called, shut, cleared⟩
  · exact invariant.gathered (invariant.audited.collect invariant.modes.settled shown).waited
      (collect_gathers _ _) (by simpa using pending)

theorem close {answer : CollectAnswer} {closed : Bool} (invariant : DisplayInvariant trace d)
    (shown : Shown d.pipelined trace (d.close answer closed).2.2) :
    DisplayInvariant (trace ++ (d.close answer closed).2.2) (d.close answer closed).2.1 := by
  obtain ⟨stopped, first, member, quiet, safe⟩ : ∃ stopped : List DisplayEvent,
      (if d.closing then [.closeCalled] else [.closeCalled, .stopped]) = stopped ∧
      .closeCalled ∈ stopped ∧ (∀ event ∈ stopped, event.aside = true) ∧
      reportedBlits stopped = 0 ∧ .deleted ∉ stopped ∧
      Guarded.Continues (DisplaySafe d.pipelined) trace stopped := by
    refine ⟨_, rfl, ?_⟩
    split <;> simp [DisplayEvent.aside, reportedBlits, Guarded.Continues, DisplaySafe]
  have begun : DisplayInvariant (trace ++ stopped) { d with closing := true } :=
    invariant.aside quiet safe.1 ⟨rfl, rfl, rfl, rfl, rfl, rfl, rfl, rfl, rfl, rfl⟩ id
      (fun gone => absurd gone safe.2.1) safe.2.2 rfl rfl rfl
  simp only [SpiDisplay.close, first] at shown ⊢
  by_cases finished : (({ d with closing := true }.collect answer).1 && closed) = true
  · simp only [finished, if_true] at shown ⊢
    have collected := begun.closeCollect answer (List.mem_append_right _ member) rfl
      shown.right.left.left
    rw [← List.append_assoc, List.append_assoc _ _ [DisplayEvent.freed], ← List.append_assoc]
    have mode := (begun.audited.collect begun.modes.settled shown.right.left.left).mode
    refine collected.aside ?_ ?_ ⟨rfl, rfl, rfl, rfl, rfl, rfl, rfl, rfl, rfl, rfl⟩ (fun gone => by cases gone)
      (fun _ => rfl) ?_ mode.closing rfl rfl
    · split <;> simp [DisplayEvent.aside]
    · split <;> rfl
    · split
      · exact ⟨trivial, trivial, trivial⟩
      · exact ⟨trivial, trivial⟩
  · simp only [finished, if_false, Bool.false_eq_true] at shown ⊢
    rw [← List.append_assoc]
    exact begun.closeCollect answer (List.mem_append_right _ member) rfl shown.right

theorem begin {buffer degrees : Nat} {second : Option Nat} {pipelined : Bool} :
    DisplayInvariant [] (create buffer second degrees pipelined) := by
  have ordered : Ordered pipelined [] := ⟨List.nil_prefix, List.nil_prefix⟩
  refine ⟨⟨⟨ordered, ?_, ?_, ?_, ?_⟩, ⟨?_, rfl, ?_, nofun, nofun⟩, .nil⟩, ⟨?_, nofun, nofun, nofun⟩,
    ⟨0, rfl, Nat.zero_le 1, nofun⟩, ⟨rfl, rfl, rfl⟩⟩
  · cases pipelined <;> rfl
  · intro _ job
    simp [create, jobCookies, acceptedCookies, shownHistory]
  · intro _
    simp [jobCookies, acceptedCookies, shownHistory]
  · intro _ k job _ found
    simp [jobCookies, acceptedCookies, shownHistory] at found
  · cases pipelined <;> rfl
  · cases pipelined <;> exact fun _ => rfl
  · cases pipelined <;> rfl

theorem step {call : DisplayCall} (invariant : DisplayInvariant trace d)
    (contract : DisplayContract trace d call) (moved : d.perform call = some (next, events)) :
    DisplayInvariant (trace ++ events) next := by
  have shown : Shown d.pipelined trace events := fun before after same =>
    contract.answers next events before after moved same
  unfold perform at moved
  split at moved
  · cases moved
  · cases call with
    | flush last active collects answer =>
        dsimp only at moved
        split at moved
        · rename_i alive
          exact invariant.flush alive (contract.flush last active collects answer rfl) moved shown
        · cases moved
    | waitFlush collects =>
        dsimp only at moved
        split at moved
        · exact (invariant.waitFlush moved shown).1
        · cases moved
    | delete =>
        dsimp only at moved
        split at moved
        · obtain ⟨rfl, rfl⟩ := Prod.ext_iff.mp (Option.some.inj moved)
          exact invariant.delete
        · cases moved
    | poll answer =>
        obtain ⟨rfl, rfl⟩ := Prod.ext_iff.mp (Option.some.inj moved)
        exact invariant.poll shown
    | claimBlit answer =>
        obtain ⟨rfl, rfl⟩ := Prod.ext_iff.mp (Option.some.inj moved)
        exact invariant.claimBlit shown
    | blit frame degrees answer =>
        obtain ⟨rfl, rfl⟩ := Prod.ext_iff.mp (Option.some.inj moved)
        exact invariant.blitFrame shown
    | blitTake answer =>
        obtain ⟨rfl, rfl⟩ := Prod.ext_iff.mp (Option.some.inj moved)
        exact invariant.blitTake shown
    | close answer closed =>
        obtain ⟨rfl, rfl⟩ := Prod.ext_iff.mp (Option.some.inj moved)
        exact invariant.close shown

end DisplayInvariant

theorem display_invariant (reached : displayMachine.Reaches DisplayContract trace d) :
    DisplayInvariant trace d := by
  refine reached.invariant DisplayInvariant ?_ fun trace before call after events invariant
    contract moved => invariant.step contract moved
  rintro d ⟨buffer, second, degrees, pipelined, rfl⟩
  exact .begin

/-! ## The back end's side -/

/-- A frame whose release was collected has been released by the worker. -/
theorem releases_published {back : List PipeEvent} {p : Pipeline} {n : Nat}
    (reached : pipelineMachine.Reaches Machine.Always back p)
    (same : back.filterMap PipeEvent.visible = shownHistory trace)
    (released : n < (releases true trace).length) : .published n ∈ back := by
  obtain ⟨q, invariant⟩ := pipelineMachine_invariant reached
  have count : (releases true trace).length = q.released := by
    rw [releases, releaseKind, if_pos rfl, ← same, pipe_reportedCookies,
      invariant.explained.delivered.released]
    simp [Ledger.deliveries]
  have member : (n, (q.frames n).cookie) ∈ takenList .sourceReleased back := by
    rw [invariant.explained.delivered.released]
    exact List.mem_map.mpr ⟨n, List.mem_range.mpr (by omega), rfl⟩
  obtain ⟨event, found, taken⟩ := List.mem_filterMap.mp member
  cases event with
  | took report =>
      obtain ⟨before, after, rfl⟩ := List.append_of_mem found
      have safe := invariant.explained.guarded before (.took report) after rfl
      by_cases kind : report.kind = .sourceReleased
      · simp only [kind, if_true, Option.some.injEq, Prod.mk.injEq] at taken
        simp only [PipeSafe, kind] at safe
        rw [taken.1] at safe
        exact List.mem_append_left _ safe
      · simp [kind] at taken
  | _ => cases taken

/-- A frame whose result was collected has been run by the worker. -/
theorem releases_finished {back : List JobEvent} {w : JobWorker}
    (reached : workerMachine.Reaches Machine.Always back w)
    (same : back.filterMap JobEvent.visible = shownHistory trace) :
    (releases false trace).length ≤ (finishedResults back).length := by
  obtain ⟨_, history⟩ := JobWorker.worker_invariant reached
  have results := congrArg List.length history.results
  have taken : (releases false trace).length = (takenResults back).length := by
    rw [releases, releaseKind, if_neg (by simp), ← same, job_reportedCookies, List.length_map]
  simp only [List.length_append, List.length_map] at results
  omega

/-- A fair back end releases all that it accepted. -/
theorem path_releases_all {back : List PipeEvent} {p : Pipeline}
    (reached : pipelineMachine.Reaches Machine.Always back p)
    (path : pipelineMachine.Path back p) (moves : path.Often WorkerMoves)
    (takes : path.Often TakeCalled) :
    ∃ i, ∀ j, i ≤ j → (acceptedList back).length ≤ releasedCount (path.trace j) := by
  obtain ⟨q, invariant⟩ := pipelineMachine_invariant reached
  have count : (acceptedList back).length = (path.state 0).accepted := by
    rw [invariant.explained.delivered.accepted, path.begins, invariant.tracks.ring.count]
    simp [Ledger.deliveries]
  cases size : (path.state 0).accepted with
  | zero => exact ⟨0, fun j _ => by omega⟩
  | succ n =>
      obtain ⟨i, completed⟩ := path_completes_accepted path reached moves takes
        (n := n) (by omega)
      refine ⟨i, fun j later => ?_⟩
      obtain ⟨last, final⟩ := pipelineMachine_invariant (path.reaches reached i)
      have order := final.tracks.ring.takenReleased
      rw [← final.explained.delivered.counts.1, ← final.explained.delivered.counts.2] at order
      have grown := path.stable (fun trace _ => n < releasedCount trace)
        (fun k kept => by
          simp only [Machine.Path.trace, releasedCount_append]
          omega) later (by omega)
      omega

/-- Every display that has seen this history of `count` jobs has acknowledged its flushes. -/
def Acknowledged (pipelined : Bool) (count : Nat) (history : List Visible) : Prop :=
  ∀ trace d, displayMachine.Reaches DisplayContract trace d → d.pipelined = pipelined →
    shownHistory trace = history → (jobCookies trace).length = count → d.display = true →
    flushes trace = readies trace

theorem acknowledged_released {pipelined : Bool} {count : Nat} {history : List Visible}
    (released : count ≤ (reportedCookies (releaseKind pipelined) history).length) :
    Acknowledged pipelined count history := by
  intro trace d reached kind seen jobs alive
  obtain ⟨⟨_, flags, _⟩, _, _, _⟩ := display_invariant reached
  have source := flags.source
  have acks := flags.acks alive
  have all : (jobBlits trace).length ≤ (releases d.pipelined trace).length := by
    rw [jobBlits_length, jobs, releases, kind, seen]
    exact released
  rw [List.drop_eq_nil_of_le all] at source
  cases held : d.sourceHeld with
  | true => simp [held] at source
  | false =>
      rw [held] at acks
      exact acks

theorem worker_takes_for_good {back : List JobEvent} {w : JobWorker}
    (reached : workerMachine.Reaches Machine.Always back w) (path : workerMachine.Path back w)
    (moves : path.Often JobWorkerMoves) (takes : path.Often JobTakeCalled) :
    ∃ i, ∀ j, i ≤ j → (acceptedJobs back).length ≤ (takenResults (path.trace j)).length := by
  obtain ⟨i, all⟩ := path_takes_all path reached moves takes
  refine ⟨i, fun j later => path.stable
    (fun trace _ => (acceptedJobs back).length ≤ (takenResults trace).length) (fun k kept => ?_)
    later all⟩
  simp only [Machine.Path.trace, takenResults, List.filterMap_append, List.length_append]
    at kept ⊢
  omega

end SpiDisplay

/-- One acknowledgement for each flush, after the release of its frame; a blit has none. -/
theorem display_acknowledges_flushes (reached : displayMachine.Reaches DisplayContract trace d) :
    Guarded (DisplaySafe d.pipelined) trace ∧
    (d.display = true → flushes trace = readies trace + d.sourceHeld.toNat ∧
      (d.sourceHeld = true ↔ false ∈ (jobBlits trace).drop (releases d.pipelined trace).length)) ∧
    (∀ collects next events, DisplayContract trace d (.waitFlush collects) →
      d.perform (.waitFlush collects) = some (next, events) → d.pendingBlit = false →
      flushes (trace ++ events) = readies (trace ++ events)) ∧
    (∃ lost ≤ 1, (.closeCalled ∉ trace → lost = 0) ∧
      (jobBlits trace).count true = reportedBlits trace + d.pendingBlit.toNat + lost) ∧
    (d.pending = decide (d.running ≠ 0) ∧
      d.running + (completions trace).length = (jobCookies trace).length ∧
      (d.stats.accepted < uint32Max →
        d.stats.accepted = d.stats.completed + d.stats.failed + d.running)) ∧
    (∀ back p, pipelineMachine.Reaches Machine.Always back p →
      (∀ before, back.filterMap PipeEvent.visible = shownHistory before →
        ∀ n < (releases true before).length, .published n ∈ back) ∧
      (back.filterMap PipeEvent.visible = shownHistory trace →
        ∀ path : pipelineMachine.Path back p, path.Often WorkerMoves → path.Often TakeCalled →
          ∃ i, ∀ j, i ≤ j → SpiDisplay.Acknowledged true (jobCookies trace).length
            ((path.trace j).filterMap PipeEvent.visible))) ∧
    (∀ back w, workerMachine.Reaches Machine.Always back w →
      (∀ before, back.filterMap JobEvent.visible = shownHistory before →
        (releases false before).length ≤ (finishedResults back).length) ∧
      (back.filterMap JobEvent.visible = shownHistory trace →
        ∀ path : workerMachine.Path back w, path.Often JobWorkerMoves →
          path.Often JobTakeCalled → ∃ i, ∀ j, i ≤ j → SpiDisplay.Acknowledged false
            (jobCookies trace).length ((path.trace j).filterMap JobEvent.visible))) := by
  have invariant := SpiDisplay.display_invariant reached
  have queue := invariant.audited.queue
  have flags := invariant.audited.flags
  refine ⟨invariant.audited.guarded, fun alive => ⟨flags.acks alive, ?_⟩, ?_, ?_,
    ⟨invariant.modes.settled, queue.count, ?_⟩, fun back p runs => ⟨fun before same n released =>
      SpiDisplay.releases_published runs same released, ?_⟩,
    fun back w runs => ⟨fun before same => SpiDisplay.releases_finished runs same, ?_⟩⟩
  · have source := flags.source
    rw [← List.count_pos_iff, source]
    cases d.sourceHeld <;> simp
  · intro collects next events contract moved free
    have waited := moved
    simp only [SpiDisplay.perform] at waited
    split at waited
    · cases waited
    · split at waited
      · rename_i alive
        have shown : SpiDisplay.Shown d.pipelined trace events := fun before after same =>
          contract.answers next events before after moved same
        obtain ⟨after, same, empty⟩ := invariant.waitFlush waited shown
        have acks := after.audited.flags.acks (same.trans alive)
        rw [empty free] at acks
        exact acks
      · cases waited
  · obtain ⟨lost, total, one, closed⟩ := invariant.blits
    refine ⟨lost, one, fun unclosed => ?_, total⟩
    by_contra some
    exact unclosed (closed (by omega)).1
  · intro below
    obtain ⟨accepted, completed, failed⟩ := invariant.counted
    have split := results_split (completedResults trace)
    have count := queue.count
    rw [completedResults_length] at split
    omega
  · intro same path moves takes
    obtain ⟨i, all⟩ := SpiDisplay.path_releases_all runs path moves takes
    refine ⟨i, fun j later => SpiDisplay.acknowledged_released ?_⟩
    have accepted : (jobCookies trace).length = (acceptedList back).length := by
      rw [jobCookies, ← same, pipe_acceptedCookies, List.length_map]
    rw [releaseKind, if_pos rfl, pipe_reportedCookies, List.length_map, accepted]
    exact all j later
  · intro same path moves takes
    obtain ⟨i, all⟩ := SpiDisplay.worker_takes_for_good runs path moves takes
    refine ⟨i, fun j later => SpiDisplay.acknowledged_released ?_⟩
    have accepted : (jobCookies trace).length = (acceptedJobs back).length := by
      rw [jobCookies, ← same, job_acceptedCookies, List.length_map]
    rw [releaseKind, if_neg (by simp), job_reportedCookies, List.length_map, accepted]
    exact all j later

/-! ## One job on the worker -/

def sampleFrame : Rgb565Frame :=
  { data := 4096, capacity := 64, stride := 8, width := 4, height := 4 }

/-- The worker accepts a job; then it runs it, and the result is taken. -/
def sampleJob : List JobAction :=
  [.producer (.submit ⟨sampleFrame, 0, 0⟩), .producer (.resume true), .producer (.resume true),
    .worker .ok 1, .worker .ok 1, .worker .ok 1, .worker .ok 1, .worker .ok 1, .producer .take,
    .producer (.resume true)]

def sampleHistory : List Visible :=
  [.accepted 0, .reported .completed 0 .ok { submitMs := 1, drainMs := 1 }]

theorem backEnd_executes (actions : List JobAction) {history : List Visible}
    (shows : (workerMachine.execute JobWorker.created actions).map
      (fun last => last.2.filterMap JobEvent.visible) = some history) : BackEnd false history := by
  obtain ⟨⟨w, trace⟩, executed, same⟩ := Option.map_eq_some_iff.mp shows
  exact ⟨trace, w, (Machine.Reaches.start rfl).execute executed, same⟩

theorem sample_begun : BackEnd false [] := backEnd_executes [] rfl

theorem sample_accepted : BackEnd false [.accepted 0] :=
  backEnd_executes (sampleJob.take 3) (by decide)

theorem sample_done : BackEnd false sampleHistory :=
  backEnd_executes sampleJob (by decide)

namespace SpiDisplay

theorem Shown.nil {pipelined : Bool} (shown : BackEnd pipelined (shownHistory trace)) :
    Shown pipelined trace [] := by
  intro before after same
  obtain ⟨rfl, _⟩ := List.append_eq_nil_iff.mp same.symm
  simpa using shown

theorem Shown.cons {pipelined : Bool} {event : DisplayEvent}
    (shown : BackEnd pipelined (shownHistory trace))
    (rest : Shown pipelined (trace ++ [event]) events) : Shown pipelined trace (event :: events) := by
  intro before after same
  cases before with
  | nil => simpa using shown
  | cons first others =>
      obtain ⟨rfl, tail⟩ := List.cons.inj same
      have later := rest others after tail
      rwa [List.append_assoc] at later

theorem Shown.contract {call : DisplayCall} (moved : d.perform call = some (next, events))
    (shown : Shown d.pipelined trace events)
    (answered : ∀ last active collects answer, call = .flush last active collects answer →
      flushes trace = readies trace) : DisplayContract trace d call :=
  ⟨answered, fun _ _ before after result same => by
    obtain ⟨rfl, rfl⟩ := Prod.ext_iff.mp (Option.some.inj (moved.symm.trans result))
    exact shown before after same⟩

end SpiDisplay

/-- The worker's result, and nothing. -/
def sampleAnswer (done : Bool) : CollectAnswer where
  events := []
  done := if done then some {
    result := .ok
    timing := { submitMs := 1, drainMs := 1 }
    now := 5 } else none

def sampleDisplay : SpiDisplay := SpiDisplay.create 4096 none 0 false

def claimedDisplay : SpiDisplay := (sampleDisplay.claimBlit (sampleAnswer false)).2.1

def blittingDisplay : SpiDisplay :=
  (claimedDisplay.blitFrame (some sampleFrame) 0 { result := .ok, jobTick := 1, acceptTick := 1 }).2.1

/-- `close` collects a blit's result, and `blitTake` does not report it any more. -/
theorem display_close_takes_blit : ∃ trace d,
    displayMachine.Reaches DisplayContract trace d ∧ (jobBlits trace).count true = 1 ∧
      (completions trace).length = 1 ∧ reportedBlits trace = 0 ∧ d.freed = false ∧
      ∀ answer, (d.blitTake answer).1 = none := by
  have start : displayMachine.Reaches DisplayContract [] sampleDisplay :=
    .start ⟨4096, none, 0, false, rfl⟩
  have claims : sampleDisplay.perform (.claimBlit (sampleAnswer false)) =
      some (claimedDisplay, []) := rfl
  have claimed := start.step (SpiDisplay.Shown.contract claims (.nil sample_begun) nofun) claims
  have blits : claimedDisplay.perform (.blit (some sampleFrame) 0
      { result := .ok, jobTick := 1, acceptTick := 1 }) =
      some (blittingDisplay, [.submitted true 0 sampleFrame 0]) := rfl
  have blitting := claimed.step
    (SpiDisplay.Shown.contract blits (.cons sample_begun (.nil sample_accepted)) nofun) blits
  have closes : blittingDisplay.perform (.close (sampleAnswer true) false) =
      some ((blittingDisplay.close (sampleAnswer true) false).2.1, [.closeCalled, .stopped,
        .collected .completed 0 .ok { submitMs := 1, drainMs := 1 }]) := rfl
  have closing := blitting.step (SpiDisplay.Shown.contract closes
    (.cons sample_accepted (.cons sample_accepted (.cons sample_accepted (.nil sample_done))))
    nofun) closes
  exact ⟨_, _, closing, rfl, rfl, rfl, rfl, fun _ => rfl⟩

def flushedDisplay : SpiDisplay :=
  ((sampleDisplay.flush true (some { address := 4096, frame := sampleFrame }) []
    { result := .ok, jobTick := 1, acceptTick := 1 }).getD (sampleDisplay, [])).1

theorem display_acknowledges_flushes_polled : ∃ trace d,
    displayMachine.Reaches DisplayContract trace d ∧
      trace = [.flushed, .submitted false 0 sampleFrame 0,
        .collected .completed 0 .ok { submitMs := 1, drainMs := 1 }, .ready] ∧
      flushes trace = readies trace + d.sourceHeld.toNat := by
  have start : displayMachine.Reaches DisplayContract [] sampleDisplay :=
    .start ⟨4096, none, 0, false, rfl⟩
  have drawn : sampleDisplay.perform (.flush true
      (some { address := 4096, frame := sampleFrame }) []
      { result := .ok, jobTick := 1, acceptTick := 1 }) =
      some (flushedDisplay, [.flushed, .submitted false 0 sampleFrame 0]) := rfl
  have flushed := start.step (SpiDisplay.Shown.contract drawn
    (.cons sample_begun (.cons sample_begun (.nil sample_accepted))) fun _ _ _ _ _ => rfl) drawn
  have polls : flushedDisplay.perform (.poll (sampleAnswer true)) =
      some ((flushedDisplay.poll (sampleAnswer true)).2.1,
        [.collected .completed 0 .ok { submitMs := 1, drainMs := 1 }, .ready]) := rfl
  have polled := flushed.step (SpiDisplay.Shown.contract polls
    (.cons sample_accepted (.cons sample_done (.nil sample_done))) nofun) polls
  exact ⟨_, _, polled, rfl, ((display_acknowledges_flushes polled).2.1 rfl).1⟩

end LvglAic.Spi
