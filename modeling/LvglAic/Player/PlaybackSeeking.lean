import LvglAic.Player.PlaybackClosing

/-! # No stale frame after an accepted seek

A seek closes publication under the lock that accepts it.  Only the worker
reopens the mailbox, after it found every slot EMPTY and reopened the session,
so what is published later was acquired from the new session.
-/

namespace LvglAic.Player

/-- A seek was accepted and the session was not opened since. -/
def Unopened (trace : List PlaybackEvent) : Prop :=
  ∃ before after, trace = before ++ .seeked true :: after ∧ .frame (.opened true) ∉ after

/-- The lease was acquired before the session was reopened for an accepted seek. -/
def Stale (trace : List PlaybackEvent) (lease : Nat) : Prop :=
  ∃ before after, trace = before ++ .frame (.acquired lease) :: after ∧
    (.seeked true ∈ after ∨ Unopened before)

section
variable {trace events : List PlaybackEvent} {lease : Nat}

theorem Unopened.append (unopened : Unopened (trace ++ events)) (quiet : .seeked true ∉ events) :
    Unopened trace ∧ .frame (.opened true) ∉ events := by
  obtain ⟨before, after, same, closed⟩ := unopened
  rcases List.append_eq_append_iff.mp same with ⟨rest, rfl, rfl⟩ | ⟨rest, rfl, tail⟩
  · exact absurd (by simp) quiet
  · cases rest with
    | nil =>
        rw [List.nil_append] at tail
        exact absurd (tail ▸ List.mem_cons_self) quiet
    | cons first rest =>
        rw [List.cons_append] at tail
        obtain ⟨rfl, rfl⟩ := List.cons.inj tail
        simp only [List.mem_append, not_or] at closed
        exact ⟨⟨before, rest, rfl, closed.1⟩, closed.2⟩

theorem Stale.acquired (stale : Stale trace lease) : .frame (.acquired lease) ∈ trace := by
  obtain ⟨before, after, rfl, _⟩ := stale
  simp

/-- While no accepted seek is unopened, only a new seek makes a lease stale. -/
theorem Stale.append (stale : Stale (trace ++ events) lease) (opened : ¬Unopened trace)
    (quiet : .seeked true ∉ events) : Stale trace lease := by
  obtain ⟨before, after, same, old⟩ := stale
  rcases List.append_eq_append_iff.mp same with ⟨rest, rfl, rfl⟩ | ⟨rest, rfl, tail⟩
  · simp only [List.mem_append, List.mem_cons, not_or] at quiet
    exact absurd ((old.resolve_left quiet.2.2).append quiet.1).1 opened
  · cases rest with
    | nil =>
        rw [List.nil_append] at tail
        rw [List.append_nil] at opened
        refine absurd (old.resolve_left fun member => quiet ?_) opened
        rw [← tail]
        exact List.mem_cons_of_mem _ member
    | cons first rest =>
        rw [List.cons_append] at tail
        obtain ⟨rfl, rfl⟩ := List.cons.inj tail
        refine ⟨before, rest, rfl, old.imp_left fun member => ?_⟩
        exact (List.mem_append.mp member).resolve_right quiet

end

/-! ## Where leases come from -/

namespace Custody

variable {events : List FrameEvent} {c next : Custody}

theorem Move.holds_from (move : Move c events next) : c.issued ≤ next.issued ∧
    ∀ lease, next.holds lease → c.holds lease ∨ .acquired lease ∈ events ∧ c.issued < lease := by
  cases move with
  | acquire =>
      refine ⟨Nat.le_succ _, fun lease holds => holds.imp_right ?_⟩
      rintro rfl
      exact ⟨by simp, Nat.lt_succ_self _⟩
  | handBack => exact ⟨Nat.le_refl _, fun lease holds => .inl holds.1⟩
  | put => exact ⟨Nat.le_refl _, fun lease holds => .inl holds.1⟩
  | _ => exact ⟨Nat.le_refl _, fun lease holds => .inl holds⟩

/-- A lease is held because it was held before or because it is new. -/
theorem Moves.holds_from (moves : Moves c events next) : c.issued ≤ next.issued ∧
    ∀ lease, next.holds lease → c.holds lease ∨ .acquired lease ∈ events ∧ c.issued < lease := by
  induction moves with
  | none => exact ⟨Nat.le_refl _, fun lease holds => .inl holds⟩
  | more move _ ih =>
      obtain ⟨first, origin⟩ := move.holds_from
      obtain ⟨rest, later⟩ := ih
      refine ⟨Nat.le_trans first rest, fun lease holds => ?_⟩
      rcases later lease holds with held | ⟨acquired, new⟩
      · exact (origin lease held).imp_right fun found =>
          ⟨List.mem_append_left _ found.1, found.2⟩
      · exact .inr ⟨List.mem_append_right _ acquired, Nat.lt_of_le_of_lt first new⟩

end Custody

theorem MailboxStep.holds_from {trace events : List FrameEvent} {f next : Frames} {lease : Nat}
    (step : MailboxStep trace f next events) (control : f.Control)
    (sound : Custody.Sound trace f.custody) (holds : next.session.Holds lease) :
    f.session.Holds lease ∨ .acquired lease ∈ events ∧ f.session.nextTicket < lease := by
  rcases step with ⟨rfl, _⟩ | ⟨action, allowed, moved⟩
  · exact .inl holds
  · exact (framesMachine_custody control sound allowed moved).holds_from.2 lease holds

namespace Frames

variable {f next : Frames} {events : List FrameEvent}

/-- A call in progress leaves `closing` alone. -/
theorem resume_closing {answers : FrameAnswers}
    (moved : f.stepWorker .resume answers = some (next, events)) :
    next.closing = f.closing := by
  unfold stepWorker at moved
  split at moved
  case h_15 => cases moved
  all_goals try contradiction
  all_goals obtain ⟨rfl, rfl⟩ := Prod.ext_iff.mp (Option.some.inj moved)
  case h_7 =>
    unfold stepPin
    dsimp only
    split
    · rfl
    · split <;> rfl
  case h_8 =>
    unfold stepReject
    dsimp only
    split <;> rfl
  case h_9 =>
    unfold stepPublish
    dsimp only
    split <;> rfl
  case h_10 =>
    unfold stepPromote
    rcases promote_cases f with same | ⟨_, _, _, _, same⟩ <;> rw [same] <;> rfl
  case h_11 =>
    unfold stepDrainSlot nextSlot
    split
    · rfl
    · split <;> rfl
  case h_12 =>
    unfold stepDrainPin
    dsimp only
    split <;> rfl
  case h_14 =>
    unfold stepDrainStore nextSlot
    dsimp only
    split <;> rfl
  all_goals rfl

@[grind =] theorem drain_closing : f.drain.1.closing = f.closing := by
  unfold drain
  split <;> rfl

@[grind =] theorem submit_closing {lease : Nat} : (f.submit lease).1.closing = f.closing := by
  rcases submit_cases f lease with ⟨same, _⟩ | ⟨_, _, same, _⟩ | ⟨_, _, _, _, _, _, _, _, same⟩ <;>
    rw [same] <;> rfl

/-- The worker puts nothing on screen. -/
theorem stepWorker_unshown {call : WorkerCall} {answers : FrameAnswers} {lease : Nat} {pts : Int}
    (moved : f.stepWorker call answers = some (next, events)) : .polled lease pts ∉ events := by
  unfold stepWorker at moved
  split at moved
  case h_15 => cases moved
  all_goals obtain ⟨rfl, rfl⟩ := Prod.ext_iff.mp (Option.some.inj moved)
  case h_1 =>
    cases ‹SessionCall›
    case acquire =>
      simp only [callSession]
      split <;> simp
    all_goals simp [callSession]
  case h_2 =>
    rcases submit_cases f ‹Nat› with ⟨same, _⟩ | ⟨_, _, same, _⟩ | ⟨_, _, _, _, _, _, _, _, same⟩ <;>
      rw [same] <;> simp
  case h_3 =>
    unfold drain
    split <;> simp
  case h_7 =>
    unfold stepPin
    dsimp only
    split
    · simp
    · split <;> simp
  case h_8 =>
    unfold stepReject
    dsimp only
    split <;> simp
  case h_9 =>
    unfold stepPublish
    dsimp only
    split <;> simp
  case h_11 =>
    unfold stepDrainSlot nextSlot
    split
    · simp
    · split <;> simp
  case h_12 =>
    unfold stepDrainPin
    dsimp only
    split
    · simp
    · split <;> simp
  case h_13 => simp [stepDrainFault]
  case h_14 =>
    unfold stepDrainStore nextSlot
    dsimp only
    split <;> split <;> simp
  all_goals simp

end Frames

/-! ## The account of the accepted seeks -/

/-- The events that the account is about. -/
@[grind] def PlaybackEvent.accounts : PlaybackEvent → Bool
  | .seeked true | .seekCompleted | .closeRequested | .faulted => true
  | _ => false

namespace PlaybackPc

/-- The worker is serving a seek. -/
@[grind] def seeks : PlaybackPc → Bool
  | .opening true | .openAudio true | .openEvents true | .openStatus true | .seekRelease | .seekIdle
  | .seekClose | .seekCancel | .seekSession | .seekReopen | .seekDone => true
  | _ => false

/-- The session is open for the seek, and the mailbox is not. -/
@[grind] def reopening : PlaybackPc → Bool
  | .openAudio true | .openEvents true | .openStatus true | .seekSession | .seekReopen => true
  | _ => false

/-- The local variables of the loop are current. -/
@[grind] def loops : PlaybackPc → Bool
  | .drain | .draining => true
  | _ => false

end PlaybackPc

namespace Playback

/-- The worker serves a seek, or will once its drain is over. -/
@[grind] def serving (p : Playback) : Bool := p.pc.seeks || (p.locals.seeking && p.pc.loops)

end Playback

/-- Accepted seeks against completed ones. -/
structure Account (trace : List PlaybackEvent) (p : Playback) : Prop where
  wanted : p.serving = true → p.status.seekPending = true ∨ p.closing = true
  pending : p.status.seekPending = true ∨ p.serving = true →
    trace.count (.seeked true) = trace.count .seekCompleted + 1 ∧
      p.status.seeksCompleted < Session.uint64Max
  settled : p.closing = false → p.status.seekPending = false →
    trace.count (.seeked true) = trace.count .seekCompleted
  completed : p.status.seeksCompleted = trace.count .seekCompleted
  least : trace.count .seekCompleted ≤ trace.count (.seeked true)
  most : trace.count (.seeked true) ≤ trace.count .seekCompleted + 1
  closing : p.closing = true ↔ .closeRequested ∈ trace ∨ .faulted ∈ trace

namespace Playback

variable {trace events : List PlaybackEvent} {p next : Playback} {answers : PlaybackAnswers}

/-- A step that accepts and completes no seek, and is neither a close nor a fault. -/
structure Steady (p next : Playback) (events : List PlaybackEvent) : Prop where
  closing : next.closing = p.closing
  pending : next.status.seekPending = p.status.seekPending
  completed : next.status.seeksCompleted = p.status.seeksCompleted
  serving : next.serving = true → p.serving = true ∨ p.status.seekPending = true
  quiet : ∀ event ∈ events, event.accounts = false

theorem Steady.account (steady : Steady p next events) (account : Account trace p) :
    Account (trace ++ events) next := by
  obtain ⟨closing, pending, completed, serving, quiet⟩ := steady
  have absent : ∀ event : PlaybackEvent, event.accounts = true → event ∉ events := by
    intro event kind member
    rw [quiet event member] at kind
    cases kind
  have accepted : (trace ++ events).count (.seeked true) = trace.count (.seeked true) := by
    rw [List.count_append, List.count_eq_zero_of_not_mem (absent _ rfl), Nat.add_zero]
  have counted : (trace ++ events).count .seekCompleted = trace.count .seekCompleted := by
    rw [List.count_append, List.count_eq_zero_of_not_mem (absent _ rfl), Nat.add_zero]
  constructor
  · rw [pending, closing]
    exact fun served => (serving served).elim account.wanted .inl
  · rw [pending, accepted, counted, completed]
    exact fun busy => account.pending (busy.elim .inl fun served => (serving served).symm)
  · rw [pending, closing, accepted, counted]
    exact account.settled
  · rw [completed, counted]
    exact account.completed
  · rw [accepted, counted]
    exact account.least
  · rw [accepted, counted]
    exact account.most
  · rw [closing, account.closing]
    simp [absent .closeRequested rfl, absent .faulted rfl]

@[grind →] theorem frame_map_accounts {emitted : List FrameEvent} {event : PlaybackEvent}
    (member : event ∈ emitted.map PlaybackEvent.frame) : event.accounts = false := by
  obtain ⟨frame, _, rfl⟩ := List.mem_map.mp member
  rfl

@[grind →] theorem call_accounts {call : SessionCall} {sdk : Sdk} {event : PlaybackEvent}
    (member : event ∈ (p.call call sdk).2) : event.accounts = false := frame_map_accounts member

theorem worker_steady (moved : p.stepWorker answers = some (next, events))
    (others : (∀ after, p.pc ≠ .faultStatus after) ∧ p.pc ≠ .seekDone) : Steady p next events := by
  cases pc : p.pc <;> simp only [stepWorker, pc] at moved
  case faultStatus | seekDone => simp_all
  case returned => cases moved
  case draining =>
    obtain ⟨step, _, same⟩ := Option.map_eq_some_iff.mp moved
    obtain ⟨rfl, rfl⟩ := Prod.ext_iff.mp same
    unfold afterDrain dispatch
    constructor <;> grind
  case submitting =>
    obtain ⟨step, _, same⟩ := Option.map_eq_some_iff.mp moved
    obtain ⟨rfl, rfl⟩ := Prod.ext_iff.mp same
    unfold afterSubmit
    constructor <;> grind
  all_goals
    obtain ⟨rfl, rfl⟩ := Prod.ext_iff.mp (Option.some.inj moved)
    clear moved others
  case opening =>
    unfold stepOpening
    constructor <;> grind
  case openAudio =>
    unfold stepOpenAudio
    constructor <;> grind
  case openEvents =>
    unfold stepOpenEvents
    constructor <;> grind
  case openStatus =>
    unfold stepOpenStatus
    constructor <;> grind
  case faultFrames =>
    unfold stepFaultFrames
    constructor <;> grind
  case top =>
    unfold stepTop
    constructor <;> grind
  case drain =>
    unfold afterDrain dispatch
    constructor <;> grind
  case closeFrames =>
    unfold stepCloseFrames
    constructor <;> grind
  case closeRelease =>
    unfold stepCloseRelease
    constructor <;> grind
  case closeIdle =>
    unfold stepCloseIdle
    constructor <;> grind
  case closeSession =>
    unfold closeSession
    constructor <;> grind
  case closeAudio =>
    unfold stepCloseAudio
    constructor <;> grind
  case closeFinish =>
    unfold stepCloseFinish
    constructor <;> grind
  case closeCheck =>
    constructor <;> grind
  case seekRelease =>
    unfold stepSeekRelease
    constructor <;> grind
  case seekIdle =>
    unfold stepSeekIdle
    constructor <;> grind
  case seekClose =>
    unfold closeSession
    constructor <;> grind
  case seekCancel =>
    constructor <;> grind
  case seekSession =>
    unfold stepSeekSession
    constructor <;> grind
  case seekReopen =>
    unfold stepSeekReopen
    constructor <;> grind
  case snapshot =>
    unfold stepSnapshot
    constructor <;> grind
  case position =>
    unfold stepPosition afterVolume
    constructor <;> grind
  case volumeCall =>
    unfold stepVolumeCall
    constructor <;> grind
  case volumeStore =>
    unfold stepVolumeStore afterVolume
    constructor <;> grind
  case startCall =>
    unfold stepStartCall
    constructor <;> grind
  case terminal =>
    unfold stepTerminal report
    constructor <;> grind
  case pauseCall =>
    unfold stepPauseCall
    constructor <;> grind
  case playing =>
    unfold stepPlaying report
    constructor <;> grind
  case blocked =>
    unfold stepBlocked
    constructor <;> grind
  case acquire =>
    unfold stepAcquire
    constructor <;> grind
  case received =>
    unfold stepReceived
    constructor <;> grind
  case submit =>
    unfold afterSubmit
    constructor <;> grind
  case refused =>
    unfold stepRefused
    constructor <;> grind
  case queued =>
    unfold stepQueued
    constructor <;> grind

theorem fault_account {after : AfterFault} (account : Account trace p) :
    Account (trace ++ [.faulted]) (p.stepFaultStatus after) := by
  have kept : (trace ++ [PlaybackEvent.faulted]).count (.seeked true) =
      trace.count (.seeked true) ∧
      (trace ++ [PlaybackEvent.faulted]).count .seekCompleted = trace.count .seekCompleted := by
    simp [List.count_append]
  obtain ⟨wanted, pending, settled, completed, least, most, closing⟩ := account
  unfold stepFaultStatus
  constructor <;> grind

/-- The completion of the one outstanding seek. -/
theorem seekDone_account (account : Account trace p) (pc : p.pc = .seekDone) :
    Account (trace ++ [.seekCompleted]) p.stepSeekDone := by
  have counts : (trace ++ [PlaybackEvent.seekCompleted]).count (.seeked true) =
      trace.count (.seeked true) ∧
      (trace ++ [PlaybackEvent.seekCompleted]).count .seekCompleted =
        trace.count .seekCompleted + 1 := by
    simp [List.count_append]
  have serving : p.serving = true := by simp [serving, pc, PlaybackPc.seeks]
  obtain ⟨outstanding, bounded⟩ := account.pending (.inr serving)
  have wraps : (p.status.seeksCompleted + 1) % 2 ^ 64 = p.status.seeksCompleted + 1 := by
    rw [Session.uint64Max] at bounded
    omega
  have completed := account.completed
  have closing := account.closing
  constructor <;> grind [stepSeekDone]

theorem worker_account (account : Account trace p)
    (moved : p.stepWorker answers = some (next, events)) : Account (trace ++ events) next := by
  cases pc : p.pc
  case faultStatus =>
    simp only [stepWorker, pc] at moved
    obtain ⟨rfl, rfl⟩ := Prod.ext_iff.mp (Option.some.inj moved)
    exact fault_account account
  case seekDone =>
    simp only [stepWorker, pc] at moved
    obtain ⟨rfl, rfl⟩ := Prod.ext_iff.mp (Option.some.inj moved)
    exact seekDone_account account pc
  all_goals exact (worker_steady moved (by simp [pc])).account account

theorem seekable_true {target : Nat} (accepted : p.seekable target = true) :
    p.closing = false ∧ p.status.finished = false ∧ p.status.seekPending = false ∧
      p.status.state ≠ .opening ∧ p.status.seeksCompleted < Session.uint64Max := by
  simp only [seekable, accepts, Bool.and_eq_true, Bool.not_eq_true', decide_eq_true_eq] at accepted
  grind

theorem ui_account (account : Account trace p) (link : Link trace p)
    (move : UiMove p next events) : Account (trace ++ events) next := by
  obtain ⟨⟨pc, locals, _, _, _, _, _, _⟩, _⟩ := ui_kept link move
  have serving : next.serving = p.serving := by simp only [Playback.serving, pc, locals]
  cases move with
  | seek target ui accepted =>
      obtain ⟨opened, _, idle, _, bounded⟩ := seekable_true accepted
      have counts : (trace ++ [PlaybackEvent.seeked true, .frame .closed]).count (.seeked true) =
          trace.count (.seeked true) + 1 ∧
          (trace ++ [PlaybackEvent.seeked true, .frame .closed]).count .seekCompleted =
            trace.count .seekCompleted := by
        simp [List.count_append]
      obtain ⟨wanted, pending, settled, completed, least, most, closing⟩ := account
      have even := settled opened idle
      constructor <;> grind
  | close ui =>
      have counts : (trace ++ [PlaybackEvent.closeRequested]).count (.seeked true) =
          trace.count (.seeked true) ∧
          (trace ++ [PlaybackEvent.closeRequested]).count .seekCompleted =
            trace.count .seekCompleted := by
        simp [List.count_append]
      obtain ⟨wanted, pending, settled, completed, least, most, closing⟩ := account
      constructor <;> grind [Playback.close]
  | refuse event kind =>
      refine Steady.account ⟨rfl, rfl, rfl, .inl, ?_⟩ account
      intro found member
      obtain rfl := List.mem_singleton.mp member
      simp only [refusals, List.mem_cons, List.not_mem_nil, or_false] at kind
      rcases kind with rfl | rfl | rfl | rfl | rfl | rfl | rfl <;> rfl
  | releaseImage =>
      exact Steady.account (p := p) ⟨rfl, rfl, rfl, .inl, fun _ => frame_map_accounts⟩ account
  | take | create =>
      exact Steady.account (p := p) ⟨rfl, rfl, rfl, .inl, fun _ => frame_map_accounts⟩ account
  | _ => exact Steady.account (p := p) ⟨rfl, rfl, rfl, .inl, by simp [PlaybackEvent.accounts]⟩ account

/-! ## Publication after a seek -/

/-- Only the last step of a seek opens publication. -/
theorem worker_shut (moved : p.stepWorker answers = some (next, events))
    (reopens : p.pc ≠ .seekReopen) (shut : p.frames.closing = true) :
    next.frames.closing = true := by
  cases pc : p.pc <;> simp only [stepWorker, pc] at moved
  case seekReopen => exact absurd pc reopens
  case returned => cases moved
  case draining | submitting =>
    obtain ⟨step, stepped, same⟩ := Option.map_eq_some_iff.mp moved
    obtain ⟨rfl, rfl⟩ := Prod.ext_iff.mp same
    simpa [Frames.resume_closing stepped] using shut
  all_goals obtain ⟨rfl, rfl⟩ := Prod.ext_iff.mp (Option.some.inj moved)
  case drain => simpa [Frames.drain_closing] using shut
  case submit => simpa [Frames.submit_closing] using shut
  case opening =>
    unfold stepOpening
    grind
  case openAudio =>
    unfold stepOpenAudio
    grind
  case openEvents =>
    unfold stepOpenEvents
    grind
  case openStatus =>
    unfold stepOpenStatus
    grind
  case faultStatus =>
    unfold stepFaultStatus
    grind
  case faultFrames =>
    unfold stepFaultFrames
    grind
  case top =>
    unfold stepTop
    grind
  case closeFrames =>
    unfold stepCloseFrames
    grind
  case closeRelease =>
    unfold stepCloseRelease
    grind
  case closeIdle =>
    unfold stepCloseIdle
    grind
  case closeSession =>
    unfold closeSession
    grind
  case closeAudio =>
    unfold stepCloseAudio
    grind
  case closeFinish =>
    unfold stepCloseFinish
    grind
  case closeCheck =>
    grind
  case seekRelease =>
    unfold stepSeekRelease
    grind
  case seekIdle =>
    unfold stepSeekIdle
    grind
  case seekClose =>
    unfold closeSession
    grind
  case seekCancel =>
    grind
  case seekSession =>
    unfold stepSeekSession
    grind
  case seekDone =>
    unfold stepSeekDone
    grind
  case snapshot =>
    unfold stepSnapshot
    grind
  case position =>
    unfold stepPosition afterVolume
    grind
  case volumeCall =>
    unfold stepVolumeCall
    grind
  case volumeStore =>
    unfold stepVolumeStore afterVolume
    grind
  case startCall =>
    unfold stepStartCall
    grind
  case terminal =>
    unfold stepTerminal report
    grind
  case pauseCall =>
    unfold stepPauseCall
    grind
  case playing =>
    unfold stepPlaying report
    grind
  case blocked =>
    unfold stepBlocked
    grind
  case acquire =>
    unfold stepAcquire
    grind
  case received =>
    unfold stepReceived
    grind
  case refused =>
    unfold stepRefused
    grind
  case queued =>
    unfold stepQueued
    grind

theorem holding_same {s t : Session} (same : Session.SameLeases s t) (empty : s.holding = false) :
    t.holding = false := by
  rw [Session.holding_false] at empty ⊢
  intro index
  rw [Bool.eq_false_iff]
  intro held
  obtain ⟨found, kept, _⟩ := (same.holds (t.tickets index)).mp ⟨index, held, rfl⟩
  rw [empty found] at kept
  cases kept

/-- A session that opened holds nothing. -/
theorem open_holding {s : Session} {uri : List UInt8} {sdk : Sdk}
    (opened : (s.open uri sdk).1 = true) : (s.open uri sdk).2.holding = false := by
  refine holding_same Session.open_sameLeases ?_
  by_contra held
  have busy : s.holding = true := by simpa using held
  simp [Session.open, busy] at opened

/-- How the worker gets to the states in which a seek reopens the mailbox. -/
theorem worker_reopening (moved : p.stepWorker answers = some (next, events))
    (reopening : next.pc.reopening = true) :
    (p.pc.reopening = true ∧ Session.SameLeases p.session next.session) ∨
      (.frame (.opened true) ∈ events ∧ next.session.holding = false) := by
  cases pc : p.pc <;> simp only [stepWorker, pc] at moved
  case returned => cases moved
  case draining =>
    obtain ⟨step, stepped, same⟩ := Option.map_eq_some_iff.mp moved
    obtain ⟨rfl, rfl⟩ := Prod.ext_iff.mp same
    unfold afterDrain dispatch at reopening
    grind
  case submitting =>
    obtain ⟨step, stepped, same⟩ := Option.map_eq_some_iff.mp moved
    obtain ⟨rfl, rfl⟩ := Prod.ext_iff.mp same
    unfold afterSubmit at reopening
    grind
  all_goals
    obtain ⟨rfl, rfl⟩ := Prod.ext_iff.mp (Option.some.inj moved)
    clear moved
  case opening seeking =>
    refine .inr ?_
    have opened : (p.session.open p.uri answers.frame.sdk).1 = true := by
      unfold stepOpening at reopening
      grind
    refine ⟨?_, open_holding opened⟩
    have emitted : p.frames.session.open p.uri answers.frame.sdk = p.session.open p.uri
      answers.frame.sdk := rfl
    simp [stepOpening, Playback.call, Frames.callSession, emitted, opened]
  case openAudio seeking =>
    refine .inl ⟨?_, ?_⟩
    · unfold stepOpenAudio at reopening
      grind
    · unfold stepOpenAudio
      split <;> exact .refl _
  case openEvents seeking =>
    refine .inl ⟨?_, ?_⟩
    · unfold stepOpenEvents at reopening
      grind
    · unfold stepOpenEvents
      split
      · exact .refl _
      · dsimp only
        split
        · exact .refl _
        · split
          · exact .refl _
          · exact Session.allocator_sameLeases
  case openStatus seeking =>
    refine .inl ⟨?_, .refl _⟩
    unfold stepOpenStatus at reopening
    grind
  case seekSession => exact .inl ⟨rfl, Session.seek_sameLeases⟩
  case faultStatus =>
    unfold stepFaultStatus at reopening
    grind
  case faultFrames =>
    unfold stepFaultFrames at reopening
    grind
  case top =>
    unfold stepTop at reopening
    grind
  case drain =>
    unfold afterDrain dispatch at reopening
    grind
  case closeFrames =>
    unfold stepCloseFrames at reopening
    grind
  case closeRelease =>
    unfold stepCloseRelease at reopening
    grind
  case closeIdle =>
    unfold stepCloseIdle at reopening
    grind
  case closeSession =>
    unfold closeSession at reopening
    grind
  case closeAudio =>
    unfold stepCloseAudio at reopening
    grind
  case closeFinish =>
    unfold stepCloseFinish at reopening
    grind
  case closeCheck =>
    grind
  case seekRelease =>
    unfold stepSeekRelease at reopening
    grind
  case seekIdle =>
    unfold stepSeekIdle at reopening
    grind
  case seekClose =>
    unfold closeSession at reopening
    grind
  case seekCancel =>
    grind
  case seekReopen =>
    unfold stepSeekReopen at reopening
    grind
  case seekDone =>
    unfold stepSeekDone at reopening
    grind
  case snapshot =>
    unfold stepSnapshot at reopening
    grind
  case position =>
    unfold stepPosition afterVolume at reopening
    grind
  case volumeCall =>
    unfold stepVolumeCall at reopening
    grind
  case volumeStore =>
    unfold stepVolumeStore afterVolume at reopening
    grind
  case startCall =>
    unfold stepStartCall at reopening
    grind
  case terminal =>
    unfold stepTerminal report at reopening
    grind
  case pauseCall =>
    unfold stepPauseCall at reopening
    grind
  case playing =>
    unfold stepPlaying report at reopening
    grind
  case blocked =>
    unfold stepBlocked at reopening
    grind
  case acquire =>
    unfold stepAcquire at reopening
    grind
  case received =>
    unfold stepReceived at reopening
    grind
  case submit =>
    unfold afterSubmit at reopening
    grind
  case refused =>
    unfold stepRefused at reopening
    grind
  case queued =>
    unfold stepQueued at reopening
    grind

end Playback

/-- What is published, and what the worker reopens, is not stale. -/
structure Fresh (trace : List PlaybackEvent) (p : Playback) : Prop where
  published : p.frames.closing = false →
    ¬Unopened trace ∧ ∀ lease, p.session.Holds lease → ¬Stale trace lease
  reopening : p.pc.reopening = true → ¬Unopened trace ∧ p.session.holding = false
  begun : (p.status.state = .opening ∧ (p.pc = .opening false ∨ ∃ after, p.pc = .faultStatus after)) ∨
    .frame (.opened true) ∈ trace ∨ p.closing = true

namespace Playback

variable {trace events : List PlaybackEvent} {p next : Playback} {answers : PlaybackAnswers}

/-- While publication stays open, what is held stays fresh. -/
theorem published_step (fresh : Fresh trace p) (control : p.frames.Control)
    (sound : Custody.Sound (framesTrace trace) p.frames.custody)
    (mailbox : MailboxStep (framesTrace trace) p.frames next.frames (framesTrace events))
    (quiet : .seeked true ∉ events) (opened : p.frames.closing = false) :
    ¬Unopened (trace ++ events) ∧
      ∀ lease, next.session.Holds lease → ¬Stale (trace ++ events) lease := by
  obtain ⟨open_, clean⟩ := fresh.published opened
  refine ⟨fun unopened => open_ (unopened.append quiet).1, fun lease holds stale => ?_⟩
  have old := stale.append open_ quiet
  rcases mailbox.holds_from control sound holds with held | ⟨_, new⟩
  · exact clean lease held old
  · exact absurd (sound.acquired_issued (mem_framesTrace.mpr old.acquired)) (Nat.not_le.mpr new)

theorem worker_quiet (moved : p.stepWorker answers = some (next, events)) :
    .seeked true ∉ events := by
  intro member
  cases pc : p.pc
  case faultStatus =>
    simp only [stepWorker, pc] at moved
    obtain ⟨rfl, rfl⟩ := Prod.ext_iff.mp (Option.some.inj moved)
    simp at member
  case seekDone =>
    simp only [stepWorker, pc] at moved
    obtain ⟨rfl, rfl⟩ := Prod.ext_iff.mp (Option.some.inj moved)
    simp at member
  all_goals
    have kind := (worker_steady moved (by simp [pc])).quiet _ member
    cases kind

/-- The first opening of the session ends in an open session or in a fault. -/
theorem worker_begun (begun : (p.status.state = .opening ∧
      (p.pc = .opening false ∨ ∃ after, p.pc = .faultStatus after)) ∨
      .frame (.opened true) ∈ trace ∨ p.closing = true)
    (moved : p.stepWorker answers = some (next, events)) :
    (next.status.state = .opening ∧
      (next.pc = .opening false ∨ ∃ after, next.pc = .faultStatus after)) ∨
      .frame (.opened true) ∈ trace ++ events ∨ next.closing = true := by
  rcases begun with ⟨state, pc | ⟨after, pc⟩⟩ | opened | closing
  · simp only [stepWorker, pc] at moved
    obtain ⟨rfl, rfl⟩ := Prod.ext_iff.mp (Option.some.inj moved)
    cases opened : (p.session.open p.uri answers.frame.sdk).1 with
    | false => exact .inl ⟨by simpa [stepOpening] using state, .inr ⟨.top, by simp [stepOpening, opened]⟩⟩
    | true =>
        have emitted : p.frames.session.open p.uri answers.frame.sdk = p.session.open p.uri
          answers.frame.sdk := rfl
        refine .inr (.inl ?_)
        simp [stepOpening, Playback.call, Frames.callSession, emitted, opened]
  · simp only [stepWorker, pc] at moved
    obtain ⟨rfl, rfl⟩ := Prod.ext_iff.mp (Option.some.inj moved)
    exact .inr (.inr rfl)
  · exact .inr (.inl (List.mem_append_left _ opened))
  · refine .inr (.inr ?_)
    cases pc : p.pc
    case faultStatus =>
      simp only [stepWorker, pc] at moved
      obtain ⟨rfl, rfl⟩ := Prod.ext_iff.mp (Option.some.inj moved)
      rfl
    case seekDone =>
      simp only [stepWorker, pc] at moved
      obtain ⟨rfl, rfl⟩ := Prod.ext_iff.mp (Option.some.inj moved)
      exact closing
    all_goals exact (worker_steady moved (by simp [pc])).closing.trans closing

theorem worker_fresh (fresh : Fresh trace p) (control : p.frames.Control) (link : Link trace p)
    (live : p.frames.freed = false) (sound : Custody.Sound (framesTrace trace) p.frames.custody)
    (moved : p.stepWorker answers = some (next, events)) : Fresh (trace ++ events) next := by
  have quiet := worker_quiet moved
  refine ⟨fun opened => ?_, fun reopening => ?_, worker_begun fresh.begun moved⟩
  · by_cases reopens : p.pc = .seekReopen
    · obtain ⟨clean, empty⟩ := fresh.reopening (by rw [reopens]; rfl)
      refine ⟨fun unopened => clean (unopened.append quiet).1, fun lease holds => ?_⟩
      simp only [stepWorker, reopens] at moved
      obtain ⟨rfl, rfl⟩ := Prod.ext_iff.mp (Option.some.inj moved)
      obtain ⟨index, held, _⟩ : p.session.Holds lease := by
        have same : (p.stepSeekReopen).1.session = p.session := by
          unfold stepSeekReopen
          dsimp only
          split <;> exact Frames.reopen_session
        rw [← same]
        exact holds
      rw [Session.holding_false.mp empty index] at held
      cases held
    · have before : p.frames.closing = false := by
        rw [Bool.eq_false_iff]
        intro shut
        rw [worker_shut moved reopens shut] at opened
        cases opened
      exact published_step fresh control sound (worker_mailbox live link moved) quiet before
  · rcases worker_reopening moved reopening with ⟨before, same⟩ | ⟨opened, empty⟩
    · obtain ⟨clean, empty⟩ := fresh.reopening before
      exact ⟨fun unopened => clean (unopened.append quiet).1, holding_same same empty⟩
    · exact ⟨fun unopened => (unopened.append quiet).2 opened, empty⟩

theorem ui_fresh (fresh : Fresh trace p) (control : p.frames.Control) (link : Link trace p)
    (live : p.frames.freed = false) (account : Account trace p)
    (sound : Custody.Sound (framesTrace trace) p.frames.custody)
    (move : UiMove p next events) : Fresh (trace ++ events) next := by
  obtain ⟨⟨pc, _, _, session, _, _, _, _⟩, _⟩ := ui_kept link move
  have kept : next.session = p.session := session
  by_cases seeks : .seeked true ∈ events
  · cases move with
    | seek target ui accepted =>
        obtain ⟨opened, _, idle, state, _⟩ := seekable_true accepted
        refine ⟨by simp, fun reopening => ?_, .inr ?_⟩
        · have serving : p.serving = true := by
            revert reopening
            show p.pc.reopening = true → _
            unfold serving
            cases p.pc <;> simp only [PlaybackPc.reopening, PlaybackPc.seeks, Bool.false_eq_true,
              false_imp_iff, Bool.true_or, implies_true]
            all_goals
              rename_i seeking
              cases seeking <;> simp [PlaybackPc.reopening, PlaybackPc.seeks]
          have pending := account.wanted serving
          rw [idle, opened] at pending
          simp at pending
        · refine (fresh.begun.resolve_left fun first => state first.1).imp_left ?_
          exact List.mem_append_left _
    | refuse event kind =>
        obtain rfl := List.mem_singleton.mp seeks
        simp [refusals] at kind
    | releaseImage | take | create =>
        have kind := frame_map_accounts seeks
        cases kind
    | _ => simp at seeks
  · refine ⟨fun opened => ?_, fun reopening => ?_, ?_⟩
    · have before : p.frames.closing = false := by
        rw [Bool.eq_false_iff]
        intro shut
        rw [ui_shut move shut] at opened
        cases opened
      exact published_step fresh control sound (ui_mailbox live link move) seeks before
    · rw [pc] at reopening
      obtain ⟨clean, empty⟩ := fresh.reopening reopening
      rw [kept]
      exact ⟨fun unopened => clean (unopened.append seeks).1, empty⟩
    · rcases fresh.begun with ⟨state, stage⟩ | opened | closing
      · cases move with
        | close => exact .inr (.inr rfl)
        | seek => simp at seeks
        | _ => exact .inl ⟨state, stage⟩
      · exact .inr (.inl (List.mem_append_left _ opened))
      · refine .inr (.inr ?_)
        cases move <;> first | exact closing | rfl

theorem call_unshown {call : SessionCall} {sdk : Sdk} {lease : Nat} {pts : Int} :
    .frame (.polled lease pts) ∉ (p.call call sdk).2 := by
  rw [← mem_framesTrace, call_trace]
  cases call
  case acquire =>
    simp only [Frames.callSession]
    split <;> simp
  all_goals simp [Frames.callSession]

theorem worker_unshown {lease : Nat} {pts : Int} (link : Link trace p)
    (moved : p.stepWorker answers = some (next, events)) :
    .frame (.polled lease pts) ∉ events := by
  have called := @call_unshown p
  have idle := link.idle
  cases pc : p.pc <;> simp only [stepWorker, pc] at moved
  case returned => cases moved
  case draining | submitting =>
    obtain ⟨step, stepped, same⟩ := Option.map_eq_some_iff.mp moved
    obtain ⟨rfl, rfl⟩ := Prod.ext_iff.mp same
    rw [← mem_framesTrace]
    simpa using Frames.stepWorker_unshown stepped
  all_goals
    obtain ⟨rfl, rfl⟩ := Prod.ext_iff.mp (Option.some.inj moved)
    clear moved
    replace idle := idle (by simp [pc]) (by simp [pc])
  case drain =>
    rw [← mem_framesTrace, afterDrain_trace]
    have drained : p.frames.stepWorker .drain answers.frame = some p.frames.drain := by
      simp only [Frames.stepWorker, idle]
    exact Frames.stepWorker_unshown drained
  case submit =>
    rw [← mem_framesTrace, afterSubmit_trace]
    have begun : p.frames.stepWorker (.submit p.locals.pending) answers.frame =
        some (p.frames.submit p.locals.pending) := by
      simp only [Frames.stepWorker, idle]
    exact Frames.stepWorker_unshown begun
  case opening =>
    unfold stepOpening
    grind
  case openEvents =>
    unfold stepOpenEvents
    grind
  case closeRelease =>
    unfold stepCloseRelease
    grind
  case closeIdle =>
    unfold stepCloseIdle
    grind
  case closeSession =>
    unfold closeSession
    grind
  case seekRelease =>
    unfold stepSeekRelease
    grind
  case seekIdle =>
    unfold stepSeekIdle
    grind
  case seekClose =>
    unfold closeSession
    grind
  case seekSession =>
    unfold stepSeekSession
    grind
  case seekReopen =>
    unfold stepSeekReopen
    grind
  case acquire =>
    unfold stepAcquire
    grind
  all_goals simp

end Playback

/-! ## The run -/

/-- What an answer requires of the events before it. -/
def SeekSafe (before : List PlaybackEvent) : PlaybackEvent → Prop
  | .frame (.polled lease _) => ¬Stale before lease
  | .frame (.sessionClosed true) => ∀ lease, .frame (.acquired lease) ∈ before →
      .frame (.put lease true) ∈ before ∨ .frame (.handedBack lease true) ∈ before
  | .seeked true => .frame (.opened true) ∈ before ∧
      before.count (.seeked true) = before.count .seekCompleted
  | .seekCompleted => before.count (.seeked true) = before.count .seekCompleted + 1
  | _ => True

/-- `SeekSafe` of every event but the closing of the session. -/
def SeekGuard (before : List PlaybackEvent) (event : PlaybackEvent) : Prop :=
  event ≠ .frame (.sessionClosed true) → SeekSafe before event

/-- An event that `SeekGuard` asks nothing of. -/
def PlaybackEvent.unguarded : PlaybackEvent → Bool
  | .frame (.polled _ _) | .seeked true | .seekCompleted => false
  | _ => true

section
variable {trace events : List PlaybackEvent} {p next : Playback} {answers : PlaybackAnswers}

theorem unguarded_continues (plain : ∀ event ∈ events, event.unguarded = true) :
    Guarded.Continues SeekGuard trace events := by
  refine .plain fun event member before other => ?_
  have kind := plain event member
  unfold SeekSafe
  split <;> first | trivial | cases kind | exact absurd rfl other

theorem worker_guarded (link : Link trace p) (account : Account trace p)
    (moved : p.stepWorker answers = some (next, events)) :
    Guarded.Continues SeekGuard trace events := by
  by_cases pc : p.pc = .seekDone
  · simp only [Playback.stepWorker, pc] at moved
    obtain ⟨rfl, rfl⟩ := Prod.ext_iff.mp (Option.some.inj moved)
    refine ⟨fun _ => ?_, trivial⟩
    exact (account.pending (.inr (by simp [Playback.serving, pc, PlaybackPc.seeks]))).1
  · refine unguarded_continues fun event member => ?_
    have unshown : ∀ lease pts, .frame (.polled lease pts) ∉ events :=
      fun _ _ => Playback.worker_unshown link moved
    have unseeked := Playback.worker_quiet moved
    have uncompleted : .seekCompleted ∉ events := by
      intro completed
      cases stage : p.pc
      case seekDone => exact pc stage
      case faultStatus =>
        simp only [Playback.stepWorker, stage] at moved
        obtain ⟨rfl, rfl⟩ := Prod.ext_iff.mp (Option.some.inj moved)
        simp at completed
      all_goals
        have kind := (Playback.worker_steady moved (by simp [stage])).quiet _ completed
        cases kind
    unfold PlaybackEvent.unguarded
    split
    · exact absurd member (unshown _ _)
    · exact absurd member unseeked
    · exact absurd member uncompleted
    · rfl

theorem unguarded_frame {emitted : List FrameEvent}
    (unshown : ∀ lease pts, .polled lease pts ∉ emitted) :
    Guarded.Continues SeekGuard trace (emitted.map .frame) := by
  refine unguarded_continues fun event member => ?_
  obtain ⟨frame, inside, rfl⟩ := List.mem_map.mp member
  unfold PlaybackEvent.unguarded
  split
  · rename_i same
    cases same
    exact absurd inside (unshown _ _)
  · rename_i same
    cases same
  · rename_i same
    cases same
  · rfl

/-- A shown frame's lease is held, and publication is open. -/
theorem create_guarded {ready : Bool} {created : Frames × List FrameEvent} (fresh : Fresh trace p)
    (control : p.frames.Control) (sound : Custody.Sound (framesTrace trace) p.frames.custody)
    (stepped : p.frames.stepUi (.resume ready) = some created) :
    Guarded.Continues SeekGuard trace (created.2.map .frame) := by
  unfold Frames.stepUi at stepped
  split at stepped
  case h_8 slot ready pc _ =>
    rcases Frames.stepCreate_cases p.frames slot ready with failed | ⟨opened, _, shown⟩
    · rw [failed] at stepped
      rw [← Option.some.inj stepped]
      exact unguarded_frame (by simp)
    · rw [shown] at stepped
      rw [← Option.some.inj stepped]
      refine ⟨fun _ => ?_, trivial⟩
      have state := (control.publishes slot).mp (by rw [pc]; rfl)
      have occupied : p.frames.custody.occupant slot = some (p.frames.slots slot).lease :=
        Frames.custody_occupant.mpr ⟨by simp [state], rfl⟩
      refine (fresh.published opened).2 _ ((sound.leases.occupied _ _ occupied).resolve_right ?_)
      intro stored
      have returns : p.frames.worker.returns = some slot := by
        rw [Frames.custody_storing] at stored
        unfold WorkerPc.stores at stored
        split at stored
        · rename_i storing
          rw [storing]
          exact stored
        · cases stored
      have releasing := ((control.returns slot).mp returns).1
      rw [state] at releasing
      cases releasing
  case h_9 =>
    rw [← Option.some.inj stepped]
    exact unguarded_frame (by simp [Frames.stepFail])
  all_goals simp_all

theorem ui_guarded (fresh : Fresh trace p) (account : Account trace p) (control : p.frames.Control)
    (sound : Custody.Sound (framesTrace trace) p.frames.custody)
    (move : p.UiMove next events) : Guarded.Continues SeekGuard trace events := by
  cases move with
  | seek target ui accepted =>
      obtain ⟨opened, _, idle, state, _⟩ := Playback.seekable_true accepted
      refine ⟨fun _ => ⟨?_, account.settled opened idle⟩, fun _ => trivial, trivial⟩
      refine (fresh.begun.resolve_left fun first => state first.1).resolve_right ?_
      simp [opened]
  | create ready created ui stepped => exact create_guarded fresh control sound stepped
  | take ui =>
      refine unguarded_frame fun lease pts => ?_
      rcases Frames.poll_cases p.frames false with failed | ⟨_, _, _, _, polled⟩
      · simp [failed]
      · simp [polled]
  | releaseImage slot released ui gone =>
      refine unguarded_frame fun lease pts => ?_
      unfold Frames.releaseImage at gone
      split at gone
      · rw [← Option.some.inj gone]
        simp
      · cases gone
  | refuse event kind =>
      refine unguarded_continues fun found member => ?_
      obtain rfl := List.mem_singleton.mp member
      simp only [Playback.refusals, List.mem_cons, List.not_mem_nil, or_false] at kind
      rcases kind with rfl | rfl | rfl | rfl | rfl | rfl | rfl <;> rfl
  | _ => exact unguarded_continues (by simp [PlaybackEvent.unguarded])

/-- The account and the freshness hold in every run. -/
theorem playback_fresh (reached : playbackMachine.Reaches Machine.Always trace p) :
    Guarded SeekGuard trace ∧ Account trace p ∧ Fresh trace p := by
  induction reached with
  | start initial =>
      obtain ⟨uri, extraFrames, owner, rfl, _⟩ := initial
      refine ⟨.nil, ⟨by simp [Playback.prepared, Playback.serving, PlaybackPc.seeks,
        PlaybackPc.loops], by simp [Playback.prepared, Playback.serving, PlaybackPc.seeks,
        PlaybackPc.loops], fun _ _ => rfl, rfl, Nat.le_refl _, Nat.zero_le _,
        by simp [Playback.prepared]⟩, ⟨fun _ => ⟨?_, fun lease _ => ?_⟩, by
        simp [Playback.prepared, PlaybackPc.reopening], .inl ⟨rfl, .inl rfl⟩⟩⟩
      · rintro ⟨before, after, same, _⟩
        simp at same
      · rintro ⟨before, after, same, _⟩
        simp at same
  | step reached _ moved ih =>
      obtain ⟨guarded, account, fresh⟩ := ih
      obtain ⟨control, sound⟩ := playback_sound reached
      have link := (playback_mailbox reached).1
      obtain ⟨live, ⟨answers, worker⟩ | ui | ⟨_, rfl, owner, _, rfl⟩⟩ := playbackMachine_step moved
      · exact ⟨guarded.append (worker_guarded link account worker),
          Playback.worker_account account worker,
          Playback.worker_fresh fresh control link live sound worker⟩
      · exact ⟨guarded.append (ui_guarded fresh account control sound ui),
          Playback.ui_account account link ui,
          Playback.ui_fresh fresh control link live account sound ui⟩
      · rw [List.append_nil]
        exact ⟨guarded, ⟨account.wanted, account.pending, account.settled, account.completed,
          account.least, account.most, account.closing⟩,
          ⟨fresh.published, fresh.reopening, fresh.begun⟩⟩

/-- After an accepted seek no image of an older lease is polled, the old leases
are back before their session closes, and the seek is counted at most once, and
exactly once unless a close or a fault came between. -/
theorem playback_seeks_fresh (reached : playbackMachine.Reaches Machine.Always trace p) :
    Guarded SeekSafe trace ∧ p.status.seeksCompleted = trace.count .seekCompleted ∧
      trace.count .seekCompleted ≤ trace.count (.seeked true) ∧
      (.closeRequested ∉ trace → .faulted ∉ trace →
        trace.count (.seeked true) = trace.count .seekCompleted + p.status.seekPending.toNat) := by
  obtain ⟨guarded, account, _⟩ := playback_fresh reached
  have sound := (playback_sound reached).2
  refine ⟨fun before event after same => ?_, account.completed, account.least,
    fun unclosed unfaulted => ?_⟩
  · by_cases closed : event = .frame (.sessionClosed true)
    · subst closed
      intro lease acquired
      have split : framesTrace trace =
          framesTrace before ++ .sessionClosed true :: framesTrace after := by
        rw [same, framesTrace_append, framesTrace_frame]
      have back := sound.guarded _ _ _ split lease (mem_framesTrace.mpr acquired)
      simpa only [mem_framesTrace] using back
    · exact guarded before event after same closed
  · have running : p.closing = false := by
      rw [Bool.eq_false_iff, ne_eq, account.closing]
      exact not_or.mpr ⟨unclosed, unfaulted⟩
    cases pending : p.status.seekPending with
    | false => exact account.settled running pending
    | true => exact (account.pending (.inl pending)).1

end

/-- A frame is queued, a seek discards it, and the next frame is shown. -/
def seekingRun : List PlaybackAction :=
  [.ui .start] ++ .replicate 27 (.worker (generousPlayback 1)) ++ [.ui (.seek 50)] ++
    .replicate 50 (.worker (generousPlayback 2)) ++ [.ui .poll, .ui (.resume true), .ui (.resume true)]

theorem playback_seeks_fresh_shown : ∃ p trace,
    playbackMachine.execute (.prepared [1] 3 .free) seekingRun = some (p, trace) ∧
      .seeked true ∈ trace ∧ .frame (.polled 2 40) ∈ trace ∧ Guarded SeekSafe trace := by
  obtain ⟨⟨p, trace⟩, executed⟩ := Option.isSome_iff_exists.mp
    (show (playbackMachine.execute (.prepared [1] 3 .free) seekingRun).isSome = true by decide)
  have facts : (playbackMachine.execute (.prepared [1] 3 .free) seekingRun).map
      (fun result => (decide (PlaybackEvent.seeked true ∈ result.2),
        decide (PlaybackEvent.frame (.polled 2 40) ∈ result.2))) = some (true, true) := by decide
  rw [executed] at facts
  simp only [Option.map_some, Option.some.injEq, Prod.mk.injEq, decide_eq_true_eq] at facts
  have initial : playbackMachine.Initial (.prepared [1] 3 .free) :=
    ⟨_, _, _, rfl, by decide, by decide, by decide, by decide, by decide⟩
  have reached := (Machine.Reaches.start initial).execute executed
  exact ⟨p, trace, executed, facts.1, facts.2, (playback_seeks_fresh reached).1⟩

end LvglAic.Player
