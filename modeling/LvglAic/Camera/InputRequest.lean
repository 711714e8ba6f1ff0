import LvglAic.Machine.Progress
import LvglAic.Camera.CaptureConservation

/-! # The life of a request for another input -/

namespace LvglAic.Camera

/-- Where a request for an input is, as its events tell. -/
inductive Request where
  | idle
  | waiting
  | driving
  | decided (ok : Bool)
deriving DecidableEq, Repr

/-- A request is accepted, called and answered, and leaves once: to APPLIED or FAILED as
the driver answered, or to CANCELLED before it was called. -/
def Request.next : Request → CameraEvent → Option Request
  | .idle, .accepted => some .waiting
  | .waiting, .called => some .driving
  | .waiting, .cancelled => some .idle
  | .driving, .returned ok => some (.decided ok)
  | .decided true, .applied => some .idle
  | .decided false, .failed => some .idle
  | _, .accepted | _, .called | _, .cancelled | _, .returned _ | _, .applied | _, .failed => none
  | request, _ => some request

/-- The request after a trace that keeps to its life. -/
def requestAfter (trace : List CameraEvent) : Option Request := trace.foldlM Request.next .idle

theorem requestAfter_snoc {trace : List CameraEvent} {event : CameraEvent} :
    requestAfter (trace ++ [event]) = (requestAfter trace).bind (·.next event) := by
  rw [requestAfter, List.foldlM_append]
  simp only [List.foldlM_cons, List.foldlM_nil, bind_pure]
  rfl

/-- An event about no request and no frame. -/
def CameraEvent.plain : CameraEvent → Bool
  | .queued _ => true
  | _ => false

/-- An event about a request. -/
def CameraEvent.requests : CameraEvent → Bool
  | .accepted | .called | .cancelled | .returned _ | .applied | .failed => true
  | _ => false

theorem Request.next_other {request : Request} {event : CameraEvent}
    (other : event.requests = false) : request.next event = some request := by
  cases event with
  | accepted | called | cancelled | returned ok | applied | failed => cases other
  | _ =>
      cases request with
      | decided ok => cases ok <;> rfl
      | _ => rfl

theorem requestAfter_other {trace told : List CameraEvent}
    (other : ∀ event ∈ told, event.requests = false) :
    requestAfter (trace ++ told) = requestAfter trace := by
  induction told generalizing trace with
  | nil => rw [List.append_nil]
  | cons event rest ih =>
      rw [← List.singleton_append, ← List.append_assoc,
        ih fun e member => other e (List.mem_cons_of_mem _ member), requestAfter_snoc]
      cases requestAfter trace with
      | none => rfl
      | some request => exact Request.next_other (other event List.mem_cons_self)

/-- What the worker's place tells of a pending request. -/
def WorkerPc.request : WorkerPc → Request
  | .driving _ _ => .driving
  | .driven ok _ _ => .decided ok
  | _ => .waiting

/-- The worker is in a round that closes. -/
def WorkerPc.closes : WorkerPc → Bool
  | .returning _ r | .give _ r | .given _ r => r.closing
  | .close | .closed | .stopped => true
  | _ => false

def WorkerPc.viewed : WorkerPc → Option Nat
  | .scanning i | .decoding i _ | .decoded i _ _ | .publishing i => some i
  | _ => none

/-- The slot, the generation and whether the decoder has run, while a frame is decoded. -/
def WorkerPc.decodes : WorkerPc → Option (Nat × Nat × Bool)
  | .decoding i generation => some (i, generation, false)
  | .decoded i generation _ => some (i, generation, true)
  | _ => none

/-- A part of a step that neither requests nor frames nor results depend on. -/
structure Plain (c t : Capture) : Prop where
  delivered : t.vin.delivered = c.vin.delivered
  ready : ∀ i, (t.slot i).state = .ready → (c.slot i).state = .ready
  frame : ∀ i, (t.slot i).frame = (c.slot i).frame
  polling : ∀ i, t.ui.slot = some i → c.ui.slot = some i
  input : t.input.state = c.input.state
  inflight : t.inflight = c.inflight
  closing : t.closing = c.closing
  barcode : t.barcode = c.barcode
  build : t.barcodeBuild = c.barcodeBuild
  request : t.worker.request = c.worker.request
  hand : ∀ i, t.worker.inHand = some i → c.worker.inHand = some i
  viewed : ∀ i, t.worker.viewed = some i → c.worker.viewed = some i
  decodes : ∀ d, t.worker.decodes = some d → c.worker.decodes = some d
  closes : t.worker.closes = true → c.worker.closes = true ∨ c.closing = true
  log : ∃ told, t.log = c.log ++ told ∧ ∀ event ∈ told, event.plain = true

namespace Plain

variable {c t u : Capture} {i : Nat} {a : Answer} {r : Round}

theorem refl : Plain c c :=
  ⟨rfl, fun _ => id, fun _ => rfl, fun _ => id, rfl, rfl, rfl, rfl, rfl, rfl, fun _ => id,
    fun _ => id, fun _ => id, .inl, [], (List.append_nil _).symm, nofun⟩

theorem trans (first : Plain c t) (second : Plain t u) : Plain c u := by
  obtain ⟨told, log, plain⟩ := first.log
  obtain ⟨more, next, also⟩ := second.log
  refine ⟨second.delivered.trans first.delivered, fun i ready => first.ready i (second.ready i ready),
    fun i => (second.frame i).trans (first.frame i),
    fun i polling => first.polling i (second.polling i polling), second.input.trans first.input,
    second.inflight.trans first.inflight, second.closing.trans first.closing,
    second.barcode.trans first.barcode, second.build.trans first.build,
    second.request.trans first.request, fun i hand => first.hand i (second.hand i hand),
    fun i viewed => first.viewed i (second.viewed i viewed),
    fun d decodes => first.decodes d (second.decodes d decodes), fun closes => ?_, told ++ more,
    by rw [next, log, List.append_assoc], fun event member => ?_⟩
  · rcases second.closes closes with earlier | shut
    · exact first.closes earlier
    · exact .inr (first.closing ▸ shut)
  · rcases List.mem_append.mp member with early | late
    · exact plain event early
    · exact also event late

/-- The worker goes to a place that has nothing in hand. -/
theorem goTo {next : WorkerPc} (request : next.request = c.worker.request)
    (hand : next.inHand = none) (closes : next.closes = true →
      c.worker.closes = true ∨ c.closing = true) : Plain c (c.goTo next) := by
  have viewed : next.viewed = none := by
    cases next <;> first | rfl | cases hand
  have decodes : next.decodes = none := by
    cases next <;> first | rfl | cases hand
  refine ⟨rfl, fun _ => id, fun _ => rfl, fun _ => id, rfl, rfl, rfl, rfl, rfl, request, ?_, ?_, ?_,
    closes, [], (List.append_nil _).symm, nofun⟩
  · intro i held
    change next.inHand = some i at held
    rw [hand] at held
    cases held
  · intro i shown
    change next.viewed = some i at shown
    rw [viewed] at shown
    cases shown
  · intro d decoding
    change next.decodes = some d at decoding
    rw [decodes] at decoding
    cases decoding

theorem tell {event : CameraEvent} (plain : event.plain = true) : Plain c (c.tell event) :=
  ⟨rfl, fun _ => id, fun _ => rfl, fun _ => id, rfl, rfl, rfl, rfl, rfl, rfl, fun _ => id,
    fun _ => id, fun _ => id, .inl, [event], rfl, by simpa using plain⟩

theorem withVin {vin : VinSession} (delivered : vin.delivered = c.vin.delivered) :
    Plain c (c.withVin vin) :=
  ⟨delivered, fun _ => id, fun _ => rfl, fun _ => id, rfl, rfl, rfl, rfl, rfl, rfl, fun _ => id,
    fun _ => id, fun _ => id, .inl, [], (List.append_nil _).symm, nofun⟩

theorem setState {state : CaptureState} : Plain c (c.setState state) :=
  ⟨rfl, fun _ => id, fun _ => rfl, fun _ => id, rfl, rfl, rfl, rfl, rfl, rfl, fun _ => id,
    fun _ => id, fun _ => id, .inl, [], (List.append_nil _).symm, nofun⟩

theorem setSlot {st : SlotState} (unready : st ≠ .ready) : Plain c (c.setSlot i st) := by
  refine ⟨rfl, fun j ready => ?_, fun j => ?_, fun _ => id, rfl, rfl, rfl, rfl, rfl, rfl,
    fun _ => id, fun _ => id, fun _ => id, .inl, [], (List.append_nil _).symm, nofun⟩
  · rw [Capture.setSlot_state] at ready
    split at ready
    · exact absurd ready unready
    · exact ready
  · change (Function.update c.slot i _ j).frame = _
    rw [Function.update_apply]
    split
    · rename_i same
      rw [same]
    · rfl

theorem returnReady : Plain c c.returnReady := by
  refine ⟨rfl, fun j ready => ?_, fun j => ?_, fun _ => id, rfl, rfl, rfl, rfl, rfl, rfl,
    fun _ => id, fun _ => id, fun _ => id, .inl, [], (List.append_nil _).symm, nofun⟩
  · rw [Capture.returnReady_state] at ready
    split at ready
    · cases ready
    · exact ready
  · simp only [Capture.returnReady]
    split <;> rfl

/-! ## Calls -/

theorem start : Plain c c.start := by
  unfold Capture.start
  split
  · exact .refl
  · exact ⟨rfl, fun _ => id, fun _ => rfl, fun _ => id, rfl, rfl, rfl, rfl, rfl, rfl, fun _ => id,
      fun _ => id, fun _ => id, .inl, [], (List.append_nil _).symm, nofun⟩

theorem pause {paused : Bool} : Plain c (c.pause paused) :=
  ⟨rfl, fun _ => id, fun _ => rfl, fun _ => id, rfl, rfl, rfl, rfl, rfl, rfl, fun _ => id,
    fun _ => id, fun _ => id, .inl, [], (List.append_nil _).symm, nofun⟩

/-- The UI thread leaves its call. -/
theorem leave {ui : UiPc} (left : ∀ i, ui.slot = some i → c.ui.slot = some i) :
    Plain c { c with ui := ui } :=
  ⟨rfl, fun _ => id, fun _ => rfl, left, rfl, rfl, rfl, rfl, rfl, rfl, fun _ => id,
    fun _ => id, fun _ => id, .inl, [], (List.append_nil _).symm, nofun⟩

theorem refuse : Plain c (c.refuse i) := by
  have back : Plain c (c.setSlot i .toReturn) := .setSlot nofun
  exact back.trans (.leave nofun)

theorem releaseSlot : Plain c (c.releaseSlot i) := by
  refine ⟨rfl, fun j ready => ?_, fun j => ?_, fun _ => id, rfl, rfl, rfl, rfl, rfl, rfl,
    fun _ => id, fun _ => id, fun _ => id, .inl, [], (List.append_nil _).symm, nofun⟩
  · change (Function.update c.slot i _ j).state = .ready at ready
    rw [Function.update_apply] at ready
    split at ready
    · cases ready
    · exact ready
  · change (Function.update c.slot i _ j).frame = _
    rw [Function.update_apply]
    split
    · rename_i same
      rw [same]
    · rfl

/-! ## The worker -/

theorem workTop (pc : c.worker = .top) : Plain c c.workTop := by
  have back : Plain c (if c.closing then c.returnReady else c) := by
    split
    · exact .returnReady
    · exact .refl
  have worker : (if c.closing then c.returnReady else c).worker = .top := by
    split <;> exact pc
  have closing : (if c.closing then c.returnReady else c).closing = c.closing := by
    split <;> rfl
  refine back.trans (.goTo (by rw [worker]; rfl) rfl fun closes => .inr ?_)
  rw [closing]
  exact closes

/-- The worker goes on from a place where it calls for nothing. -/
theorem onward {next : WorkerPc} (waits : c.worker.request = .waiting)
    (plain : next.request = .waiting ∧ next.inHand = none)
    (closes : next.closes = true → c.worker.closes = true ∨ c.closing = true) :
    Plain c (c.goTo next) :=
  .goTo (plain.1.trans waits.symm) plain.2 closes

theorem branch {ok : Bool} {vin : VinSession} {first second : WorkerPc}
    (delivered : vin.delivered = c.vin.delivered) (waits : c.worker.request = .waiting)
    (one : first.request = .waiting ∧ first.inHand = none ∧
      (first.closes = true → c.worker.closes = true))
    (two : second.request = .waiting ∧ second.inHand = none ∧ second.closes = false) :
    Plain c ((c.withVin vin).goTo (if ok then first else second)) := by
  have moved : Plain c (c.withVin vin) := .withVin delivered
  cases ok with
  | true => exact moved.trans (.onward waits ⟨one.1, one.2.1⟩ fun closes => .inl (one.2.2 closes))
  | false =>
      refine moved.trans (.onward waits ⟨two.1, two.2.1⟩ fun closes => ?_)
      rw [if_neg (by simp), two.2.2] at closes
      cases closes

theorem workReturning (pc : c.worker = .returning i r) : Plain c (c.workReturning i r) := by
  have waits : c.worker.request = .waiting := by
    rw [pc]
    rfl
  have closes : r.closing = true → c.worker.closes = true ∨ c.closing = true := by
    intro closing
    rw [pc]
    exact .inl closing
  unfold Capture.workReturning
  split
  · split
    · exact .onward waits ⟨rfl, rfl⟩ closes
    · exact .onward waits ⟨rfl, rfl⟩ closes
  split
  · rename_i closing
    exact .onward waits ⟨rfl, rfl⟩ fun _ => closes closing
  · exact .onward waits ⟨rfl, rfl⟩ nofun

theorem vinRelease_delivered {v : VinSession} {ok : Bool} :
    (vinRelease v i ok).2.delivered = v.delivered := by
  unfold vinRelease
  split
  · rfl
  split <;> rfl

theorem vinStop_delivered {v : VinSession} {ok : Bool} :
    (vinStop v ok).2.delivered = v.delivered := by
  unfold vinStop
  split
  · rfl
  split
  · rfl
  split <;> rfl

theorem vinClose_delivered {v : VinSession} {ok : Bool} :
    (vinClose v ok).2.delivered = v.delivered := by
  unfold vinClose
  dsimp only
  split
  · exact vinStop_delivered
  · rfl

theorem vinOpen_delivered {v : VinSession} {ok : Bool} {slots buffers : Nat} :
    (vinOpen v slots ok buffers).2.delivered = v.delivered := by
  unfold vinOpen
  split
  · rfl
  split <;> rfl

theorem vinStart_delivered {v : VinSession} {ok : Bool} {taken : Nat} :
    (vinStart v taken ok).2.delivered = v.delivered := by
  unfold vinStart
  split
  · rfl
  dsimp only
  split
  · rfl
  split <;> rfl

theorem vinPause_delivered {v : VinSession} {ok : Bool} :
    (vinPause v ok).2.delivered = v.delivered := by
  unfold vinPause
  split
  · rfl
  split <;> rfl

theorem vinResume_delivered {v : VinSession} {ok : Bool} :
    (vinResume v ok).2.delivered = v.delivered := by
  unfold vinResume
  split
  · rfl
  split <;> rfl

theorem workGive (pc : c.worker = .give i r) : Plain c (c.workGive i r a) := by
  have asked : Plain c ((c.withVin (vinRelease c.vin i a.ok).2).tell (.queued i)) :=
    (Plain.withVin vinRelease_delivered).trans (.tell rfl)
  have waits : c.worker.request = .waiting := by
    rw [pc]
    rfl
  unfold Capture.workGive
  dsimp only
  split
  · refine asked.trans (.onward waits ⟨rfl, rfl⟩ fun closes => .inl ?_)
    change c.worker.closes = true
    rw [pc]
    exact closes
  · exact asked.trans (.onward waits ⟨rfl, rfl⟩ nofun)

theorem workGiven (pc : c.worker = .given i r) :
    Plain c ((c.setSlot i .empty).goTo (.returning (i + 1) r)) := by
  have cleared : Plain c (c.setSlot i .empty) := .setSlot nofun
  refine cleared.trans (.onward ?_ ⟨rfl, rfl⟩ fun closes => .inl ?_)
  · change c.worker.request = .waiting
    rw [pc]
    rfl
  · change c.worker.closes = true
    rw [pc]
    exact closes

theorem workClose (pc : c.worker = .close) : Plain c (c.workClose a) := by
  refine .branch vinClose_delivered (by rw [pc]; rfl) ⟨rfl, rfl, fun _ => ?_⟩ ⟨rfl, rfl, rfl⟩
  rw [pc]
  rfl

theorem workClosed (pc : c.worker = .closed) : Plain c c.workClosed := by
  have state : Plain c (c.setState (if c.state ≠ .fault then .closed else c.state)) := .setState
  have stopped : Plain c ((c.setState (if c.state ≠ .fault then .closed else c.state)).goTo
      .stopped) := by
    refine state.trans (.onward ?_ ⟨rfl, rfl⟩ fun _ => .inl ?_)
    · change c.worker.request = .waiting
      rw [pc]
      rfl
    · change c.worker.closes = true
      rw [pc]
      rfl
  exact ⟨stopped.delivered, stopped.ready, stopped.frame, stopped.polling, stopped.input,
    stopped.inflight, stopped.closing, stopped.barcode, stopped.build, stopped.request,
    stopped.hand, stopped.viewed, stopped.decodes, stopped.closes, stopped.log⟩

theorem workOpening (pc : c.worker = .opening) :
    Plain c ((c.withVin (vinOpen c.vin c.slots a.ok a.value).2).goTo
      (if (vinOpen c.vin c.slots a.ok a.value).1 then .top else .fault)) :=
  .branch vinOpen_delivered (by rw [pc]; rfl) ⟨rfl, rfl, nofun⟩ ⟨rfl, rfl, rfl⟩

theorem workStarting (pc : c.worker = .starting r) : Plain c (c.workStarting r a) := by
  have waits : c.worker.request = .waiting := by
    rw [pc]
    rfl
  unfold Capture.workStarting
  split
  · exact .onward waits ⟨rfl, rfl⟩ nofun
  split
  · have state : Plain c (c.setState (if c.closing then c.state else .ready)) := .setState
    exact state.trans (.onward waits ⟨rfl, rfl⟩ nofun)
  · dsimp only
    exact .branch vinStart_delivered waits ⟨rfl, rfl, nofun⟩ ⟨rfl, rfl, rfl⟩

theorem workPausing (pc : c.worker = .pausing r) : Plain c (c.workPausing r a) := by
  have waits : c.worker.request = .waiting := by
    rw [pc]
    rfl
  unfold Capture.workPausing
  split
  · exact .onward waits ⟨rfl, rfl⟩ nofun
  · dsimp only
    refine .branch ?_ waits ⟨rfl, rfl, nofun⟩ ⟨rfl, rfl, rfl⟩
    split
    · exact vinPause_delivered
    · exact vinResume_delivered

theorem workRunning (pc : c.worker = .running r) : Plain c (c.workRunning r) := by
  have state : Plain c (c.setState (if c.closing then c.state else if r.paused then .paused
      else .running)) := .setState
  have waits : c.worker.request = .waiting := by
    rw [pc]
    rfl
  refine state.trans (.onward waits ?_ ?_)
  · split <;> exact ⟨rfl, rfl⟩
  · split <;> nofun

theorem refusing (pc : c.worker = .refusing i) :
    Plain c ((c.setSlot i .toReturn).goTo .fault) := by
  have back : Plain c (c.setSlot i .toReturn) := .setSlot nofun
  refine back.trans (.onward ?_ ⟨rfl, rfl⟩ nofun)
  change c.worker.request = .waiting
  rw [pc]
  rfl

end Plain

end LvglAic.Camera
