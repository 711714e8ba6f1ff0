import LvglAic.Player.Frames

/-! # The SDK calls of a session (`lv_aic_player_session.c`)

Each session function makes the calls listed here, in this order, each with the
answer `Sdk` holds for it.  Runs of any calls with any answers form the machine.
-/

namespace LvglAic.Player

/-- A call of the SDK with its answer, or what the session made of one: `acquired`
names the new ticket and its frame, `quarantined` a frame that is already held. -/
inductive SessionEvent where
  | create (result : Bool)
  | setUri (result : Bool)
  | prepareSync (result : Bool)
  | mediaInfo (result : Option MediaInfo)
  | allocator (result : Bool)
  | frameNum (extraFrames : Nat) (result : Bool)
  | start (result : Bool)
  | pause (result : Bool)
  | play (result : Bool)
  | getFrame (result : Option MppFrame)
  | acquired (lease : Nat) (frame : MppFrame)
  | quarantined
  | putFrame (lease : Nat) (frame : MppFrame) (result : Bool)
  | seek (target : Nat) (result : Bool)
  | volume (volume : Int) (result : Bool)
  | stop (result : Bool)
  | destroy (result : Bool)
deriving DecidableEq, Repr

namespace Session

def prepareCalls (sdk : Sdk) : List SessionEvent :=
  .setUri sdk.setUri ::
    if !sdk.setUri then []
    else .prepareSync sdk.prepareSync ::
      if !sdk.prepareSync then [] else [.mediaInfo sdk.mediaInfo]

def stopCalls (s : Session) (sdk : Sdk) : List SessionEvent :=
  if s.holding || s.quarantined || !s.player then [] else [.stop sdk.stop]

def closeCalls (s : Session) (sdk : Sdk) : List SessionEvent :=
  s.stopCalls sdk ++
    if (s.stop sdk).1 && (s.stop sdk).2.player then [.destroy sdk.destroy] else []

def openCalls (s : Session) (uri : List UInt8) (sdk : Sdk) : List SessionEvent :=
  if s.player || s.holding || s.quarantined || uri.isEmpty || 128 ≤ uri.length then []
  else
    let s := { s.cleared with uri, player := sdk.create }
    .create sdk.create ::
      if !s.player then []
      else prepareCalls sdk ++
        if (s.prepare sdk).1 then [] else (s.prepare sdk).2.closeCalls sdk

def allocatorCalls (s : Session) (extraFrames : Nat) (sdk : Sdk) : List SessionEvent :=
  if !s.usable || s.started || s.holding || extraFrames = 0 || leases < extraFrames then []
  else .allocator sdk.allocator ::
    if sdk.allocator then [.frameNum extraFrames sdk.frameNum] else []

def startCalls (s : Session) (sdk : Sdk) : List SessionEvent :=
  if !s.usable || s.started then []
  else if s.prepared then [.start sdk.start]
  else prepareCalls sdk ++ if (s.prepare sdk).1 then [.start sdk.start] else []

def pauseCalls (s : Session) (paused : Bool) (sdk : Sdk) : List SessionEvent :=
  if !s.usable || !s.started || s.paused = paused then []
  else if paused then [.pause sdk.pause] else [.play sdk.play]

def acquireCalls (s : Session) (sdk : Sdk) : List SessionEvent :=
  if !s.usable || !s.started || s.paused || !s.info.hasVideo then []
  else
    match firstIndex fun index => !s.held index with
    | none => []
    | some _ =>
        if s.nextTicket = uint64Max then []
        else .getFrame sdk.getFrame ::
          match sdk.getFrame with
          | none => []
          | some next =>
              if (firstIndex fun index => s.held index && (s.frames index).id == next.id).isSome then
                [.quarantined]
              else [.acquired (s.nextTicket + 1) next]

def releaseCalls (s : Session) (lease : Nat) (sdk : Sdk) : List SessionEvent :=
  if !s.player || s.quarantined || lease = 0 then []
  else
    match firstIndex fun index => s.held index && s.tickets index == lease with
    | none => []
    | some slot => [.putFrame lease (s.frames slot) sdk.putFrame]

def seekCalls (s : Session) (target : Nat) (sdk : Sdk) : List SessionEvent :=
  if !s.usable || !s.prepared || s.holding || !s.info.seekable || 2 ^ 63 - 1 < target ||
      (0 < s.info.duration && s.info.duration < target) then []
  else .seek target sdk.seek ::
    if sdk.seek && s.started && s.paused then [.pause sdk.pause] else []

def volumeCalls (s : Session) (volume : Int) (sdk : Sdk) : List SessionEvent :=
  if s.usable && 0 ≤ volume && volume ≤ 100 then [.volume volume sdk.volume] else []

/-- One call of the session. -/
def perform (s : Session) (call : SessionCall) (sdk : Sdk) : Session × List SessionEvent :=
  match call with
  | .open uri => ((s.open uri sdk).2, s.openCalls uri sdk)
  | .allocator extraFrames => ((s.allocator extraFrames sdk).2, s.allocatorCalls extraFrames sdk)
  | .start => ((s.start sdk).2, s.startCalls sdk)
  | .pause paused => ((s.pause paused sdk).2, s.pauseCalls paused sdk)
  | .acquire => ((s.acquire sdk).2, s.acquireCalls sdk)
  | .release lease => ((s.release lease sdk).2, s.releaseCalls lease sdk)
  | .seek target => ((s.seek target sdk).2, s.seekCalls target sdk)
  | .volume volume => (s, s.volumeCalls volume sdk)
  | .stop => ((s.stop sdk).2, s.stopCalls sdk)
  | .close => ((s.close sdk).2, s.closeCalls sdk)

end Session

/-- One session object, from its zero-initialized storage. -/
def sessionMachine : Machine Session (SessionCall × Sdk) SessionEvent where
  Initial s := s = Session.zero
  step s action := some (s.perform action.1 action.2)

/-! ## What a call asks of the calls before it -/

/-- The ticket was handed out with this frame, and no put of it succeeded. -/
def Outstanding (trace : List SessionEvent) (lease : Nat) (frame : MppFrame) : Prop :=
  .acquired lease frame ∈ trace ∧ ∀ other, .putFrame lease other true ∉ trace

def SessionSafe (before : List SessionEvent) : SessionEvent → Prop
  | .acquired lease frame => 0 < lease ∧
      (∀ other held, .acquired other held ∈ before → other < lease) ∧
      ∀ other held, Outstanding before other held → held.id ≠ frame.id
  | .putFrame lease frame _ => Outstanding before lease frame ∧ .quarantined ∉ before
  | .seek _ _ | .stop _ | .destroy _ =>
      (∀ lease frame, ¬Outstanding before lease frame) ∧ .quarantined ∉ before
  | _ => True

/-- Events that move no frame. -/
def SessionEvent.still : SessionEvent → Bool
  | .getFrame (some _) | .acquired _ _ | .quarantined | .putFrame _ _ _ => false
  | _ => true

/-- Events that `SessionSafe` asks nothing of. -/
def SessionEvent.free : SessionEvent → Bool
  | .acquired _ _ | .putFrame _ _ _ | .seek _ _ | .stop _ | .destroy _ => false
  | _ => true

namespace Session

variable {s next : Session} {sdk : Sdk} {trace events : List SessionEvent}

/-- A call that leaves every held record alone. -/
structure SameHeld (s next : Session) : Prop where
  held : ∀ index, next.held index = s.held index
  records : ∀ index, s.held index = true →
    next.tickets index = s.tickets index ∧ next.frames index = s.frames index
  nextTicket : next.nextTicket = s.nextTicket
  quarantined : next.quarantined = s.quarantined

theorem SameHeld.refl (s : Session) : SameHeld s s :=
  ⟨fun _ => rfl, fun _ _ => ⟨rfl, rfl⟩, rfl, rfl⟩

theorem SameHeld.trans {middle : Session} (first : SameHeld s middle)
    (second : SameHeld middle next) : SameHeld s next where
  held := fun index => (second.held index).trans (first.held index)
  records := fun index held => by
    obtain ⟨ticket, frame⟩ := first.records index held
    obtain ⟨later, shown⟩ := second.records index ((first.held index).trans held)
    exact ⟨later.trans ticket, shown.trans frame⟩
  nextTicket := second.nextTicket.trans first.nextTicket
  quarantined := second.quarantined.trans first.quarantined

theorem SameHeld.of_fields (held : next.held = s.held) (tickets : next.tickets = s.tickets)
    (frames : next.frames = s.frames) (nextTicket : next.nextTicket = s.nextTicket)
    (quarantined : next.quarantined = s.quarantined) : SameHeld s next :=
  ⟨fun index => by rw [held], fun index _ => ⟨by rw [tickets], by rw [frames]⟩, nextTicket,
    quarantined⟩

theorem cleared_sameHeld (empty : s.holding = false) (sane : s.quarantined = false) :
    SameHeld s s.cleared where
  held := fun index => (holding_false.mp empty index).symm
  records := fun index held => by
    rw [holding_false.mp empty index] at held
    cases held
  nextTicket := rfl
  quarantined := sane.symm

theorem prepare_sameHeld : SameHeld s (s.prepare sdk).2 := by
  unfold prepare
  split
  · split
    · exact .of_fields rfl rfl rfl rfl rfl
    · split <;> exact .of_fields rfl rfl rfl rfl rfl
  · exact .of_fields rfl rfl rfl rfl rfl

theorem stop_sameHeld : SameHeld s (s.stop sdk).2 := by
  unfold stop
  split
  · exact .refl s
  · split
    · exact .refl s
    · split <;> exact .of_fields rfl rfl rfl rfl rfl

theorem stop_idle (stopped : (s.stop sdk).1 = true) : s.holding = false ∧ s.quarantined = false := by
  unfold stop at stopped
  split at stopped
  · cases stopped
  · rename_i idle
    simpa only [Bool.or_eq_true, not_or, Bool.not_eq_true] using idle

theorem close_sameHeld : SameHeld s (s.close sdk).2 := by
  have stopped : SameHeld s (s.stop sdk).2 := stop_sameHeld
  unfold close
  dsimp only
  split
  · exact stopped
  · rename_i succeeded
    have idle : s.holding = false ∧ s.quarantined = false := stop_idle (by simpa using succeeded)
    split
    · exact stopped.trans (.of_fields rfl rfl rfl rfl rfl)
    · exact stopped.trans (cleared_sameHeld (stop_holding (by simpa using succeeded))
        (stopped.quarantined.trans idle.2))

theorem open_sameHeld {uri : List UInt8} : SameHeld s (s.open uri sdk).2 := by
  unfold «open»
  split
  · exact .refl s
  · rename_i idle
    simp only [Bool.or_eq_true, not_or, Bool.not_eq_true] at idle
    have fresh : SameHeld s { s.cleared with uri, player := sdk.create } :=
      (cleared_sameHeld idle.1.1.1.2 idle.1.1.2).trans (.of_fields rfl rfl rfl rfl rfl)
    dsimp only
    split
    · exact fresh
    · split
      · exact fresh.trans (prepare_sameHeld.trans close_sameHeld)
      · exact fresh.trans prepare_sameHeld

theorem allocator_sameHeld {extraFrames : Nat} : SameHeld s (s.allocator extraFrames sdk).2 := by
  unfold allocator
  split
  · exact .refl s
  · split <;> exact .of_fields rfl rfl rfl rfl rfl

theorem begin_sameHeld : SameHeld s (s.begin sdk).2 := by
  unfold begin
  split <;> exact .of_fields rfl rfl rfl rfl rfl

theorem start_sameHeld : SameHeld s (s.start sdk).2 := by
  unfold start
  split
  · exact .refl s
  · split
    · exact .refl s
    · split
      · exact begin_sameHeld
      · dsimp only
        split
        · exact prepare_sameHeld
        · exact prepare_sameHeld.trans begin_sameHeld

theorem pause_sameHeld {paused : Bool} : SameHeld s (s.pause paused sdk).2 := by
  unfold pause
  generalize (if paused = true then sdk.pause else sdk.play) = moved
  split
  · exact .refl s
  · split
    · exact .refl s
    · split <;> exact .of_fields rfl rfl rfl rfl rfl

theorem seek_sameHeld {target : Nat} : SameHeld s (s.seek target sdk).2 := by
  unfold seek
  split
  · exact .refl s
  · split
    · exact .of_fields rfl rfl rfl rfl rfl
    · split <;> exact .of_fields rfl rfl rfl rfl rfl

/-- Calls that move no frame, and that seek, stop or destroy only an idle session. -/
structure Careful (s : Session) (events : List SessionEvent) : Prop where
  still : ∀ event ∈ events, event.still = true
  free : (∀ event ∈ events, event.free = true) ∨ s.holding = false ∧ s.quarantined = false

theorem Careful.nil : Careful s [] := ⟨by simp, .inl (by simp)⟩

theorem prepareCalls_free : ∀ event ∈ prepareCalls sdk, event.still = true ∧ event.free = true := by
  unfold prepareCalls
  split
  · simp [SessionEvent.still, SessionEvent.free]
  · split <;> simp [SessionEvent.still, SessionEvent.free]

theorem stopCalls_careful : Careful s (s.stopCalls sdk) := by
  unfold stopCalls
  split
  · exact .nil
  · rename_i idle
    simp only [Bool.or_eq_true, not_or, Bool.not_eq_true] at idle
    exact ⟨by simp [SessionEvent.still], .inr idle.1⟩

theorem closeCalls_careful : Careful s (s.closeCalls sdk) := by
  have stopping : Careful s (s.stopCalls sdk) := stopCalls_careful
  obtain ⟨still, free⟩ := stopping
  unfold closeCalls
  split
  · rename_i stopped
    refine ⟨?_, .inr (stop_idle (Bool.and_eq_true_iff.mp stopped).1)⟩
    intro event member
    rcases List.mem_append.mp member with earlier | last
    · exact still event earlier
    · rw [List.mem_singleton.mp last]
      rfl
  · rw [List.append_nil]
    exact ⟨still, free⟩

theorem openCalls_careful {uri : List UInt8} : Careful s (s.openCalls uri sdk) := by
  unfold openCalls
  split
  · exact .nil
  · rename_i idle
    simp only [Bool.or_eq_true, not_or, Bool.not_eq_true] at idle
    refine ⟨?_, .inr ⟨idle.1.1.1.2, idle.1.1.2⟩⟩
    intro event member
    rcases List.mem_cons.mp member with rfl | member
    · rfl
    · dsimp only at member
      split at member
      · cases member
      · rcases List.mem_append.mp member with earlier | last
        · exact (prepareCalls_free event earlier).1
        · split at last
          · cases last
          · exact closeCalls_careful.still event last

theorem allocatorCalls_careful {extraFrames : Nat} :
    Careful s (s.allocatorCalls extraFrames sdk) := by
  unfold allocatorCalls
  split
  · exact .nil
  · split <;>
      exact ⟨by simp [SessionEvent.still], .inl (by simp [SessionEvent.free])⟩

theorem startCalls_careful : Careful s (s.startCalls sdk) := by
  have both : ∀ event ∈ s.startCalls sdk, event.still = true ∧ event.free = true := by
    unfold startCalls
    split
    · simp
    · split
      · simp [SessionEvent.still, SessionEvent.free]
      · intro event member
        rcases List.mem_append.mp member with earlier | last
        · exact prepareCalls_free event earlier
        · split at last
          · rw [List.mem_singleton.mp last]
            exact ⟨rfl, rfl⟩
          · cases last
  exact ⟨fun event member => (both event member).1, .inl fun event member => (both event member).2⟩

theorem pauseCalls_careful {paused : Bool} : Careful s (s.pauseCalls paused sdk) := by
  unfold pauseCalls
  split
  · exact .nil
  · split <;> exact ⟨by simp [SessionEvent.still], .inl (by simp [SessionEvent.free])⟩

theorem seekCalls_careful {target : Nat} : Careful s (s.seekCalls target sdk) := by
  unfold seekCalls
  split
  · exact .nil
  · rename_i idle
    simp only [usable, Bool.or_eq_true, Bool.not_eq_true', not_or, Bool.not_eq_true,
      Bool.not_eq_false, Bool.and_eq_true] at idle
    refine ⟨?_, .inr ⟨idle.1.1.1.2, idle.1.1.1.1.1.2⟩⟩
    split <;> simp [SessionEvent.still]

theorem volumeCalls_careful {volume : Int} : Careful s (s.volumeCalls volume sdk) := by
  unfold volumeCalls
  split
  · exact ⟨by simp [SessionEvent.still], .inl (by simp [SessionEvent.free])⟩
  · exact .nil

/-- Every call but `acquire` and `release` leaves the frames alone. -/
theorem perform_careful {call : SessionCall} (acquires : call ≠ .acquire)
    (releases : ∀ lease, call ≠ .release lease) :
    SameHeld s (s.perform call sdk).1 ∧ Careful s (s.perform call sdk).2 := by
  cases call with
  | «open» => exact ⟨open_sameHeld, openCalls_careful⟩
  | allocator => exact ⟨allocator_sameHeld, allocatorCalls_careful⟩
  | start => exact ⟨start_sameHeld, startCalls_careful⟩
  | pause => exact ⟨pause_sameHeld, pauseCalls_careful⟩
  | acquire => exact absurd rfl acquires
  | release lease => exact absurd rfl (releases lease)
  | seek => exact ⟨seek_sameHeld, seekCalls_careful⟩
  | volume => exact ⟨.refl s, volumeCalls_careful⟩
  | stop => exact ⟨stop_sameHeld, stopCalls_careful⟩
  | close => exact ⟨close_sameHeld, closeCalls_careful⟩

/-- What `acquire` can do. -/
theorem acquire_cases (s : Session) (sdk : Sdk) :
    (s.acquire sdk = (none, s) ∧ (s.acquireCalls sdk = [] ∨ s.acquireCalls sdk = [.getFrame none])) ∨
    (∃ frame, s.acquire sdk = (none, { s with quarantined := true, faulted := true }) ∧
      s.acquireCalls sdk = [.getFrame (some frame), .quarantined]) ∨
    ∃ frame slot, s.held slot = false ∧
      (∀ index, s.held index = true → (s.frames index).id ≠ frame.id) ∧
      s.acquire sdk = (some (s.nextTicket + 1, slot),
        { s with
          frames := Function.update s.frames slot frame
          held := Function.update s.held slot true
          nextTicket := s.nextTicket + 1
          tickets := Function.update s.tickets slot (s.nextTicket + 1) }) ∧
      s.acquireCalls sdk = [.getFrame (some frame), .acquired (s.nextTicket + 1) frame] := by
  by_cases closed : (!s.usable || !s.started || s.paused || !s.info.hasVideo) = true
  · exact .inl ⟨by rw [acquire, if_pos closed], .inl (by rw [acquireCalls, if_pos closed])⟩
  cases found : firstIndex fun index => !s.held index with
  | none =>
      exact .inl ⟨by simp only [acquire, if_neg closed, found],
        .inl (by simp only [acquireCalls, if_neg closed, found])⟩
  | some slot =>
      by_cases spent : s.nextTicket = uint64Max
      · exact .inl ⟨by simp only [acquire, if_neg closed, found, if_pos spent],
          .inl (by simp only [acquireCalls, if_neg closed, found, if_pos spent])⟩
      cases given : sdk.getFrame with
      | none =>
          exact .inl ⟨by simp only [acquire, if_neg closed, found, if_neg spent, given],
            .inr (by simp only [acquireCalls, if_neg closed, found, if_neg spent, given])⟩
      | some frame =>
          by_cases known :
              (firstIndex fun index => s.held index && (s.frames index).id == frame.id).isSome = true
          · refine .inr (.inl ⟨frame, ?_, ?_⟩)
            · simp only [acquire, if_neg closed, found, if_neg spent, given, if_pos known]
            · simp only [acquireCalls, if_neg closed, found, if_neg spent, given, if_pos known]
          · refine .inr (.inr ⟨frame, slot, by simpa using firstIndex_some found, ?_, ?_, ?_⟩)
            · intro index held same
              rw [Bool.not_eq_true, Option.isSome_eq_false_iff, Option.isNone_iff_eq_none,
                firstIndex_none] at known
              simpa [held, same] using known index
            · simp only [acquire, if_neg closed, found, if_neg spent, given, if_neg known]
            · simp only [acquireCalls, if_neg closed, found, if_neg spent, given, if_neg known]

/-- A ticket that `acquire` returns is announced with the frame it leases. -/
theorem acquire_announces {lease : Nat} {slot : LeaseIndex}
    (acquired : (s.acquire sdk).1 = some (lease, slot)) :
    .acquired lease ((s.acquire sdk).2.frames slot) ∈ s.acquireCalls sdk := by
  rcases s.acquire_cases sdk with ⟨same, _⟩ | ⟨frame, same, _⟩ | ⟨frame, chosen, _, _, same, calls⟩ <;>
    rw [same] at acquired ⊢
  · cases acquired
  · cases acquired
  · obtain ⟨rfl, rfl⟩ := Prod.ext_iff.mp (Option.some.inj acquired)
    simp [calls]

/-- What `release` can do. -/
theorem release_cases (s : Session) (lease : Nat) (sdk : Sdk) :
    s.perform (.release lease) sdk = (s, []) ∨
    ∃ slot, s.held slot = true ∧ s.tickets slot = lease ∧ s.quarantined = false ∧
      (s.perform (.release lease) sdk =
          ({ s with faulted := true }, [.putFrame lease (s.frames slot) false]) ∨
        s.perform (.release lease) sdk =
          ({ s with held := Function.update s.held slot false },
            [.putFrame lease (s.frames slot) true])) := by
  by_cases closed : (!s.player || s.quarantined || decide (lease = 0)) = true
  · exact .inl (by simp only [perform, release, releaseCalls, if_pos closed])
  cases found : firstIndex fun index => s.held index && s.tickets index == lease with
  | none => exact .inl (by simp only [perform, release, releaseCalls, if_neg closed, found])
  | some slot =>
      have matched := firstIndex_some found
      simp only [Bool.and_eq_true, beq_iff_eq] at matched
      have sane : s.quarantined = false := by
        simp only [Bool.or_eq_true, not_or, Bool.not_eq_true] at closed
        exact closed.1.2
      refine .inr ⟨slot, matched.1, matched.2, sane, ?_⟩
      simp only [perform, release, releaseCalls, if_neg closed, found]
      cases sdk.putFrame
      · exact .inl rfl
      · exact .inr rfl

end Session

/-! ## The ledger of frames -/

section
variable {s next : Session} {sdk : Sdk} {trace events : List SessionEvent} {lease : Nat}
  {frame : MppFrame}

/-- The held records are exactly the outstanding frames. -/
structure FrameLedger (trace : List SessionEvent) (s : Session) : Prop where
  held : ∀ index, s.held index = true → Outstanding trace (s.tickets index) (s.frames index)
  outstanding : ∀ lease frame, Outstanding trace lease frame →
    ∃ index, s.held index = true ∧ s.tickets index = lease ∧ s.frames index = frame
  issued : ∀ lease frame, .acquired lease frame ∈ trace → lease ≤ s.nextTicket
  returned : ∀ lease frame result, .putFrame lease frame result ∈ trace → lease ≤ s.nextTicket
  distinct : ∀ i j, s.held i = true → s.held j = true → s.tickets i = s.tickets j → i = j
  ids : ∀ i j, s.held i = true → s.held j = true → (s.frames i).id = (s.frames j).id → i = j
  marked : s.quarantined = true ↔ .quarantined ∈ trace
  guarded : Guarded SessionSafe trace

theorem outstanding_still (still : ∀ event ∈ events, event.still = true) :
    Outstanding (trace ++ events) lease frame ↔ Outstanding trace lease frame := by
  have absent : ∀ event : SessionEvent, event.still = false → event ∉ events := by
    intro event kind member
    rw [still event member] at kind
    cases kind
  unfold Outstanding
  simp only [List.mem_append, absent (.acquired lease frame) rfl, or_false,
    fun other => absent (.putFrame lease other true) rfl]

/-- Events that move no frame may follow an idle trace. -/
theorem still_continues (still : ∀ event ∈ events, event.still = true)
    (idle : (∀ lease frame, ¬Outstanding trace lease frame) ∧ .quarantined ∉ trace) :
    Guarded.Continues SessionSafe trace events := by
  induction events generalizing trace with
  | nil => trivial
  | cons event rest ih =>
      have first := still event List.mem_cons_self
      have alone : ∀ found ∈ [event], found.still = true := by simpa using first
      refine ⟨?_, ih (fun other member => still other (List.mem_cons_of_mem _ member))
        ⟨fun lease frame out => idle.1 lease frame ((outstanding_still alone).mp out), ?_⟩⟩
      · cases event <;> first | exact idle | trivial
      · rw [List.mem_append, List.mem_singleton, not_or]
        refine ⟨idle.2, ?_⟩
        rintro rfl
        cases first

theorem free_continues (free : ∀ event ∈ events, event.free = true) :
    Guarded.Continues SessionSafe trace events := by
  refine .plain fun event member before => ?_
  have kind := free event member
  cases event <;> trivial

/-- A call that moves no frame. -/
theorem FrameLedger.same (ledger : FrameLedger trace s) (same : Session.SameHeld s next)
    (careful : Session.Careful s events) : FrameLedger (trace ++ events) next := by
  obtain ⟨held, outstanding, issued, returned, distinct, ids, marked, guarded⟩ := ledger
  obtain ⟨still, free⟩ := careful
  have absent : ∀ event : SessionEvent, event.still = false → event ∉ events := by
    intro event kind member
    rw [still event member] at kind
    cases kind
  have back : ∀ index, next.held index = true → s.held index = true :=
    fun index kept => (same.held index).symm.trans kept
  constructor
  · intro index kept
    obtain ⟨ticket, shown⟩ := same.records index (back index kept)
    rw [ticket, shown, outstanding_still still]
    exact held index (back index kept)
  · intro lease frame out
    obtain ⟨index, kept, rfl, rfl⟩ := outstanding lease frame ((outstanding_still still).mp out)
    exact ⟨index, (same.held index).trans kept, same.records index kept⟩
  · intro lease frame member
    rw [same.nextTicket]
    exact issued lease frame ((List.mem_append.mp member).resolve_right (absent _ rfl))
  · intro lease frame result member
    rw [same.nextTicket]
    exact returned lease frame result ((List.mem_append.mp member).resolve_right (absent _ rfl))
  · intro i j left right tickets
    rw [(same.records i (back i left)).1, (same.records j (back j right)).1] at tickets
    exact distinct i j (back i left) (back j right) tickets
  · intro i j left right equal
    rw [(same.records i (back i left)).2, (same.records j (back j right)).2] at equal
    exact ids i j (back i left) (back j right) equal
  · rw [same.quarantined, marked, List.mem_append, or_iff_left (absent _ rfl)]
  · refine guarded.append (free.elim free_continues fun idle => still_continues still ?_)
    refine ⟨fun lease frame out => ?_, fun member => ?_⟩
    · obtain ⟨index, kept, _⟩ := outstanding lease frame out
      rw [Session.holding_false.mp idle.1 index] at kept
      cases kept
    · rw [marked.mpr member] at idle
      cases idle.2

theorem outstanding_put {result : Bool} {other : Nat} {shown : MppFrame} :
    Outstanding (trace ++ [.putFrame other shown result]) lease frame ↔
      Outstanding trace lease frame ∧ ¬(lease = other ∧ result = true) := by
  unfold Outstanding
  constructor
  · rintro ⟨acquired, unput⟩
    refine ⟨⟨by simpa using acquired, fun found member => unput found (by simp [member])⟩, ?_⟩
    rintro ⟨rfl, rfl⟩
    exact unput shown (by simp)
  · rintro ⟨⟨acquired, unput⟩, apart⟩
    refine ⟨by simp [acquired], fun found member => ?_⟩
    rcases List.mem_append.mp member with earlier | last
    · exact unput found earlier
    · simp only [List.mem_singleton, SessionEvent.putFrame.injEq] at last
      exact apart ⟨last.1, last.2.2.symm⟩

/-- Putting a held frame back, whether the SDK takes it or not. -/
theorem FrameLedger.put {index : LeaseIndex} (ledger : FrameLedger trace s)
    (kept : s.held index = true) (sane : s.quarantined = false) :
    FrameLedger (trace ++ [.putFrame (s.tickets index) (s.frames index) false])
        { s with faulted := true } ∧
      FrameLedger (trace ++ [.putFrame (s.tickets index) (s.frames index) true])
        { s with held := Function.update s.held index false } := by
  obtain ⟨held, outstanding, issued, returned, distinct, ids, marked, guarded⟩ := ledger
  have clean : .quarantined ∉ trace := by
    rw [← marked, sane]
    simp
  have out := held index kept
  have safe : ∀ result, Guarded SessionSafe
      (trace ++ [.putFrame (s.tickets index) (s.frames index) result]) :=
    fun result => guarded.snoc ⟨out, clean⟩
  have bounds : ∀ result lease shown answer,
      .putFrame lease shown answer ∈
        trace ++ [SessionEvent.putFrame (s.tickets index) (s.frames index) result] →
      lease ≤ s.nextTicket := by
    intro result lease shown answer member
    rcases List.mem_append.mp member with earlier | last
    · exact returned lease shown answer earlier
    · simp only [List.mem_singleton, SessionEvent.putFrame.injEq] at last
      rw [last.1]
      exact issued _ _ out.1
  refine ⟨⟨fun i on => outstanding_put.mpr ⟨held i on, by simp⟩,
    fun lease frame live => outstanding lease frame (outstanding_put.mp live).1,
    fun lease frame member => issued lease frame (by simpa using member), bounds false, distinct,
    ids, by simpa using marked, safe false⟩, ?_⟩
  have on : ∀ i, Function.update s.held index false i = true ↔ i ≠ index ∧ s.held i = true := by
    intro i
    by_cases same : i = index <;> simp [same]
  constructor
  · intro i still
    obtain ⟨apart, before⟩ := (on i).mp still
    exact outstanding_put.mpr ⟨held i before,
      fun equal => apart (distinct i index before kept equal.1)⟩
  · intro lease frame live
    obtain ⟨before, apart⟩ := outstanding_put.mp live
    obtain ⟨i, holds, rfl, rfl⟩ := outstanding lease frame before
    exact ⟨i, (on i).mpr ⟨by rintro rfl; exact apart ⟨rfl, rfl⟩, holds⟩, rfl, rfl⟩
  · exact fun lease frame member => issued lease frame (by simpa using member)
  · exact bounds true
  · exact fun i j left right => distinct i j ((on i).mp left).2 ((on j).mp right).2
  · exact fun i j left right => ids i j ((on i).mp left).2 ((on j).mp right).2
  · simpa using marked
  · exact safe true

/-- A new frame under the next ticket. -/
theorem FrameLedger.acquire {slot : LeaseIndex} (ledger : FrameLedger trace s)
    (empty : s.held slot = false)
    (unique : ∀ index, s.held index = true → (s.frames index).id ≠ frame.id) :
    FrameLedger (trace ++ [.getFrame (some frame), .acquired (s.nextTicket + 1) frame])
      { s with
        frames := Function.update s.frames slot frame
        held := Function.update s.held slot true
        nextTicket := s.nextTicket + 1
        tickets := Function.update s.tickets slot (s.nextTicket + 1) } := by
  obtain ⟨held, outstanding, issued, returned, distinct, ids, marked, guarded⟩ := ledger
  have live : ∀ lease shown,
      Outstanding (trace ++ [.getFrame (some frame), .acquired (s.nextTicket + 1) frame]) lease shown ↔
        Outstanding trace lease shown ∨ lease = s.nextTicket + 1 ∧ shown = frame := by
    intro lease shown
    unfold Outstanding
    simp only [List.mem_append, List.mem_cons, List.not_mem_nil, or_false, reduceCtorEq, false_or,
      SessionEvent.acquired.injEq]
    constructor
    · rintro ⟨acquired | new, unput⟩
      · exact .inl ⟨acquired, unput⟩
      · exact .inr new
    · rintro (⟨acquired, unput⟩ | ⟨rfl, rfl⟩)
      · exact ⟨.inl acquired, unput⟩
      · exact ⟨.inr ⟨rfl, rfl⟩, fun other member =>
          absurd (returned _ _ _ member) (Nat.not_succ_le_self _)⟩
  have fresh : ∀ index, s.held index = true → s.tickets index ≤ s.nextTicket :=
    fun index on => issued _ _ (held index on).1
  constructor
  · intro index on
    by_cases same : index = slot
    · subst same
      exact (live _ _).mpr (.inr (by simp))
    · simp only [ne_eq, same, not_false_eq_true, Function.update_of_ne] at on ⊢
      exact (live _ _).mpr (.inl (held index on))
  · intro lease shown out
    rcases (live lease shown).mp out with before | ⟨rfl, rfl⟩
    · obtain ⟨index, on, rfl, rfl⟩ := outstanding lease shown before
      have apart : index ≠ slot := by
        rintro rfl
        rw [empty] at on
        cases on
      exact ⟨index, by simp [apart, on], by simp [apart], by simp [apart]⟩
    · exact ⟨slot, by simp, by simp, by simp⟩
  · intro lease shown member
    simp only [List.mem_append, List.mem_cons, List.not_mem_nil, or_false, reduceCtorEq, false_or,
      SessionEvent.acquired.injEq] at member
    rcases member with earlier | ⟨rfl, _⟩
    · exact Nat.le_succ_of_le (issued lease shown earlier)
    · exact Nat.le_refl _
  · intro lease shown result member
    simp only [List.mem_append, List.mem_cons, List.not_mem_nil, or_false, reduceCtorEq] at member
    exact Nat.le_succ_of_le (returned lease shown result member)
  · intro i j left right tickets
    simp only [Function.update_apply] at left right tickets
    have bound := fresh
    have apart := distinct i j
    grind
  · intro i j left right same
    simp only [Function.update_apply] at left right same
    have apart := ids i j
    have other := unique
    grind
  · simpa using marked
  · refine guarded.append ⟨trivial, ⟨Nat.succ_pos _, fun other shown member => ?_,
      fun other shown out => ?_⟩, trivial⟩
    · exact Nat.lt_succ_of_le (issued other shown (by simpa using member))
    · obtain ⟨index, on, rfl, rfl⟩ := outstanding other shown (by simpa [Outstanding] using out)
      exact unique index on

/-- A frame that is already held. -/
theorem FrameLedger.quarantine (ledger : FrameLedger trace s) :
    FrameLedger (trace ++ [.getFrame (some frame), .quarantined])
      { s with quarantined := true, faulted := true } := by
  obtain ⟨held, outstanding, issued, returned, distinct, ids, marked, guarded⟩ := ledger
  have live : ∀ lease shown,
      Outstanding (trace ++ [.getFrame (some frame), .quarantined]) lease shown ↔
        Outstanding trace lease shown := by
    intro lease shown
    simp [Outstanding]
  refine ⟨fun index on => (live _ _).mpr (held index on),
    fun lease shown out => outstanding lease shown ((live _ _).mp out),
    fun lease shown member => issued lease shown (by simpa using member),
    fun lease shown result member => returned lease shown result (by simpa using member), distinct,
    ids, by simp, guarded.append ⟨trivial, trivial, trivial⟩⟩

/-- An id that is already held is answered by quarantine, and by nothing else. -/
def Answered (trace : List SessionEvent) : Prop :=
  ∀ before frame after lease held, trace = before ++ .getFrame (some frame) :: after →
    Outstanding before lease held → held.id = frame.id → ∃ rest, after = .quarantined :: rest

theorem Answered.append (answered : Answered trace)
    (new : ∀ before frame after lease held, events = before ++ .getFrame (some frame) :: after →
      Outstanding (trace ++ before) lease held → held.id = frame.id →
      ∃ rest, after = .quarantined :: rest) :
    Answered (trace ++ events) := by
  intro before frame after lease held same out equal
  rcases List.append_eq_append_iff.mp same with ⟨middle, rfl, tail⟩ | ⟨middle, split, tail⟩
  · exact new middle frame after lease held tail out equal
  · cases middle with
    | nil =>
        rw [List.append_nil] at split
        subst split
        exact new [] frame after lease held tail.symm (by simpa using out) equal
    | cons event rest =>
        obtain ⟨rfl, rfl⟩ := List.cons_eq_cons.mp tail
        obtain ⟨more, rfl⟩ := answered before frame rest lease held split out equal
        exact ⟨more ++ events, rfl⟩

theorem Answered.still (answered : Answered trace)
    (still : ∀ event ∈ events, event.still = true) : Answered (trace ++ events) := by
  refine answered.append fun before frame after lease held same _ _ => ?_
  subst same
  exact nomatch still (.getFrame (some frame)) (by simp)

/-- One call of a session keeps its ledger. -/
theorem ledger_perform (call : SessionCall) (ledger : FrameLedger trace s)
    (answered : Answered trace) :
    FrameLedger (trace ++ (s.perform call sdk).2) (s.perform call sdk).1 ∧
      Answered (trace ++ (s.perform call sdk).2) := by
  by_cases acquires : call = .acquire
  · subst acquires
    show FrameLedger (trace ++ s.acquireCalls sdk) (s.acquire sdk).2 ∧
      Answered (trace ++ s.acquireCalls sdk)
    rcases s.acquire_cases sdk with ⟨same, calls | calls⟩ | ⟨frame, same, calls⟩ |
      ⟨frame, slot, empty, unique, same, calls⟩ <;> rw [same, calls]
    · simpa using ⟨ledger, answered⟩
    · have still : ∀ event ∈ [SessionEvent.getFrame none], event.still = true := by
        simp [SessionEvent.still]
      exact ⟨ledger.same (.refl s) ⟨still, .inl (by simp [SessionEvent.free])⟩,
        answered.still still⟩
    · refine ⟨ledger.quarantine, answered.append fun before shown after lease held split _ _ => ?_⟩
      cases before with
      | nil => exact ⟨[], (List.cons_eq_cons.mp split).2.symm⟩
      | cons event rest => cases rest <;> simp at split
    · refine ⟨ledger.acquire empty unique,
        answered.append fun before shown after lease held split out equal => ?_⟩
      cases before with
      | nil =>
          obtain ⟨index, on, rfl, rfl⟩ := ledger.outstanding lease held (by simpa using out)
          simp only [List.nil_append, List.cons.injEq, SessionEvent.getFrame.injEq,
            Option.some.injEq] at split
          rw [← split.1] at equal
          exact absurd equal (unique index on)
      | cons event rest => cases rest <;> simp at split
  by_cases releases : ∃ lease, call = .release lease
  · obtain ⟨lease, rfl⟩ := releases
    have put : ∀ result : MppFrame × Bool,
        Answered (trace ++ [.putFrame lease result.1 result.2]) := by
      refine fun result => answered.append fun before shown after other held split _ _ => ?_
      cases before <;> simp at split
    rcases Session.release_cases s lease sdk with same | ⟨slot, kept, rfl, sane, same | same⟩ <;>
      rw [same]
    · simpa using ⟨ledger, answered⟩
    · exact ⟨(ledger.put kept sane).1, put (_, false)⟩
    · exact ⟨(ledger.put kept sane).2, put (_, true)⟩
  have both : Session.SameHeld s (s.perform call sdk).1 ∧ Session.Careful s (s.perform call sdk).2 :=
    Session.perform_careful acquires fun lease same => releases ⟨lease, same⟩
  exact ⟨ledger.same both.1 both.2, answered.still both.2.still⟩

theorem session_ledger (reached : sessionMachine.Reaches Machine.Always trace s) :
    FrameLedger trace s ∧ Answered trace := by
  refine reached.invariant (fun trace s => FrameLedger trace s ∧ Answered trace) ?_ ?_
  · rintro _ rfl
    refine ⟨⟨?_, ?_, ?_, ?_, ?_, ?_, ?_, .nil⟩, ?_⟩
    all_goals simp [Session.zero, Outstanding, Answered]
  · rintro trace before ⟨call, sdk⟩ after events ⟨ledger, answered⟩ _ moved
    obtain ⟨rfl, rfl⟩ := Prod.ext_iff.mp (Option.some.inj moved)
    exact ledger_perform call ledger answered

/-- Once a held id came back, the SDK gets no frame, no seek, no stop and no destroy. -/
def SessionEvent.touches : SessionEvent → Bool
  | .putFrame _ _ _ | .seek _ _ | .stop _ | .destroy _ => true
  | _ => false

theorem quarantined_untouched {rest : List SessionEvent} {event : SessionEvent}
    (guarded : Guarded SessionSafe (trace ++ .quarantined :: rest)) (member : event ∈ rest) :
    event.touches = false := by
  obtain ⟨before, after, rfl⟩ := List.append_of_mem member
  have safe := guarded (trace ++ .quarantined :: before) event after (by simp)
  have marked : .quarantined ∈ trace ++ SessionEvent.quarantined :: before := by simp
  cases event <;> first | rfl | exact absurd marked safe.2

/-- No run of a session recycles a frame it holds, whatever its SDK answers. -/
theorem session_recycles_no_held_frame (reached : sessionMachine.Reaches Machine.Always trace s) :
    Guarded SessionSafe trace ∧
    (∀ i j, s.held i = true → s.held j = true → (s.frames i).id = (s.frames j).id → i = j) ∧
    (∀ lease frame, Outstanding trace lease frame ↔
      ∃ index, s.held index = true ∧ s.tickets index = lease ∧ s.frames index = frame) ∧
    (∀ sdk lease slot, (s.acquire sdk).1 = some (lease, slot) →
      .acquired lease ((s.acquire sdk).2.frames slot) ∈ s.acquireCalls sdk) ∧
    ∀ before frame after lease held, trace = before ++ .getFrame (some frame) :: after →
      Outstanding before lease held → held.id = frame.id →
      s.quarantined = true ∧ ∃ rest, after = .quarantined :: rest ∧
        ∀ event ∈ rest, event.touches = false := by
  obtain ⟨ledger, answered⟩ := session_ledger reached
  refine ⟨ledger.guarded, ledger.ids, fun lease frame => ⟨ledger.outstanding lease frame, ?_⟩,
    fun _ _ _ => Session.acquire_announces, ?_⟩
  · rintro ⟨index, on, rfl, rfl⟩
    exact ledger.held index on
  · intro before frame after lease held split out equal
    obtain ⟨rest, rfl⟩ := answered before frame after lease held split out equal
    refine ⟨ledger.marked.mpr (by simp [split]), rest, rfl, fun event member => ?_⟩
    have split' : trace = (before ++ [.getFrame (some frame)]) ++ .quarantined :: rest := by
      simp [split]
    exact quarantined_untouched (split' ▸ ledger.guarded) member

end

/-- An SDK that plays a video and gives out frame 5. -/
def playingSdk : Sdk where
  create := true
  setUri := true
  prepareSync := true
  mediaInfo := some ⟨true, false, 320, 240, true, 0⟩
  allocator := true
  frameNum := true
  start := true
  pause := true
  play := true
  getFrame := some { id := 5, pts := 0, flagError := false, flagEos := false }
  putFrame := true
  seek := true
  volume := true
  stop := true
  destroy := true

/-- The frame is returned, leased again, and then given out a second time. -/
def duplicateActions : List (SessionCall × Sdk) :=
  [(.open [47, 118], playingSdk), (.start, playingSdk), (.acquire, playingSdk),
    (.release 1, playingSdk), (.acquire, playingSdk), (.acquire, playingSdk),
    (.release 2, playingSdk), (.close, playingSdk)]

theorem session_recycles_no_held_frame_shown :
    ∃ trace s, sessionMachine.Reaches Machine.Always trace s ∧
      (.quarantined ∈ trace ∧ Guarded SessionSafe trace) ∧
      trace.getLast? = some .quarantined := by
  obtain ⟨⟨s, trace⟩, executed⟩ : ∃ last, sessionMachine.execute Session.zero duplicateActions =
      some last := Option.isSome_iff_exists.mp (by decide)
  have shown : (sessionMachine.execute Session.zero duplicateActions).map
      (fun last => last.2.getLast?) = some (some .quarantined) := by decide
  rw [executed] at shown
  have final : trace.getLast? = some .quarantined := Option.some.inj shown
  have reached : sessionMachine.Reaches Machine.Always trace s :=
    (Machine.Reaches.start rfl).execute executed
  exact ⟨trace, s, reached,
    ⟨List.mem_of_getLast? final, (session_recycles_no_held_frame reached).1⟩, final⟩

end LvglAic.Player
