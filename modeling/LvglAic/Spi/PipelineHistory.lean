import LvglAic.Spi.PipelineLedger

namespace LvglAic.Spi

/-! # What a trace says about the frames

The trace alone determines which frames were accepted, released and completed,
which transfer the session still owes, and which transfers were verified. -/

def acceptedList (trace : List PipeEvent) : List (Nat × Nat) :=
  trace.filterMap fun
    | .accepted ticket cookie => some (ticket, cookie)
    | _ => none

/-- Ticket and cookie of every event of one kind the producer took, in order. -/
def takenList (kind : EventKind) (trace : List PipeEvent) : List (Nat × Nat) :=
  trace.filterMap fun
    | .took report => if report.kind = kind then some (report.ticket, report.cookie) else none
    | _ => none

/-- The session's view: the last accepted transfer nobody has verified. -/
def observeSession (owed : Option Nat) : PipeEvent → Option Nat
  | .sessionSubmit ticket .ok _ => some ticket
  | .sessionSubmit _ _ true => none
  | .sessionDrain .ok => none
  | _ => owed

def owedTransfer (trace : List PipeEvent) : Option Nat := trace.foldl observeSession none

/-- A receipt or a successful drain verifies the outstanding transfer. -/
def PipeEvent.verifies : PipeEvent → Bool
  | .sessionSubmit _ _ receipt => receipt
  | .sessionDrain result => result == .ok
  | _ => false

def VerifiedIn (trace : List PipeEvent) (ticket : Nat) : Prop :=
  ∃ before event after, trace = before ++ event :: after ∧
    owedTransfer before = some ticket ∧ event.verifies = true

/-- The frame reached the session. -/
def SubmittedIn (trace : List PipeEvent) (ticket : Nat) : Prop :=
  ∃ result receipt, .sessionSubmit ticket result receipt ∈ trace

/-- A frame completes with OK only after its own submit returned OK and its
transfer was verified, and with anything but FAULT only after it reached the
session. -/
def Outcome (trace : List PipeEvent) (ticket : Nat) (result : SpiResult) : Prop :=
  (result = .ok → (∃ receipt, .sessionSubmit ticket .ok receipt ∈ trace) ∧
    VerifiedIn trace ticket) ∧
  (result ≠ .fault → SubmittedIn trace ticket)

/-- What each event requires of the events before it. -/
def PipeSafe (before : List PipeEvent) : PipeEvent → Prop
  | .readFrame ticket => .published ticket ∉ before
  | .wrote ticket .submitted | .wrote ticket .submitMs => .published ticket ∉ before
  | .wrote ticket .completed | .wrote ticket .drainMs => .finished ticket ∉ before
  | .sessionSubmit _ _ _ | .sessionDrain _ => .faultSet ∉ before
  | .took report =>
      match report.kind with
      | .sourceReleased => .published report.ticket ∈ before
      | .completed => .finished report.ticket ∈ before ∧
          (report.ticket, report.cookie) ∈ takenList .sourceReleased before ∧
          Outcome before report.ticket report.result
  | .closed => takenList .completed before = acceptedList before
  | _ => True

section
variable {trace events : List PipeEvent} {ticket : Nat}

@[simp] theorem acceptedList_append :
    acceptedList (trace ++ events) = acceptedList trace ++ acceptedList events :=
  List.filterMap_append

@[simp] theorem takenList_append {kind : EventKind} :
    takenList kind (trace ++ events) = takenList kind trace ++ takenList kind events :=
  List.filterMap_append

@[simp] theorem owedTransfer_append :
    owedTransfer (trace ++ events) = events.foldl observeSession (owedTransfer trace) :=
  List.foldl_append

theorem VerifiedIn.append (verified : VerifiedIn trace ticket) :
    VerifiedIn (trace ++ events) ticket := by
  obtain ⟨before, event, after, rfl, owed, verifies⟩ := verified
  exact ⟨before, event, after ++ events, by simp, owed, verifies⟩

theorem VerifiedIn.last {event : PipeEvent} (owed : owedTransfer trace = some ticket)
    (verifies : event.verifies = true) : VerifiedIn (trace ++ event :: events) ticket :=
  ⟨trace, event, events, rfl, owed, verifies⟩

theorem SubmittedIn.append (submitted : SubmittedIn trace ticket) :
    SubmittedIn (trace ++ events) ticket := by
  obtain ⟨result, receipt, member⟩ := submitted
  exact ⟨result, receipt, List.mem_append_left _ member⟩

theorem Outcome.append {result : SpiResult} (outcome : Outcome trace ticket result) :
    Outcome (trace ++ events) ticket result :=
  ⟨fun succeeded => ⟨(outcome.1 succeeded).1.imp fun _ member => List.mem_append_left _ member,
      (outcome.1 succeeded).2.append⟩,
    fun answered => (outcome.2 answered).append⟩

/-- An outstanding transfer's own session submit returned OK. -/
theorem owedTransfer_submitted (owed : owedTransfer trace = some ticket) :
    ∃ receipt, .sessionSubmit ticket .ok receipt ∈ trace := by
  induction trace using List.reverseRecOn with
  | nil => simp [owedTransfer] at owed
  | append_singleton trace event ih =>
      rw [owedTransfer_append] at owed
      have earlier : owedTransfer trace = some ticket →
          ∃ receipt, .sessionSubmit ticket .ok receipt ∈ trace ++ [event] := by
        intro kept
        obtain ⟨receipt, member⟩ := ih kept
        exact ⟨receipt, List.mem_append_left _ member⟩
      cases event with
      | sessionSubmit submitted result receipt =>
          cases result with
          | ok =>
              simp only [List.foldl_cons, List.foldl_nil, observeSession,
                Option.some.injEq] at owed
              subst owed
              exact ⟨receipt, by simp⟩
          | invalid | busy | fault =>
              cases receipt with
              | true => simp [observeSession] at owed
              | false => exact earlier owed
      | sessionDrain result =>
          cases result with
          | ok => simp [observeSession] at owed
          | invalid | busy | fault => exact earlier owed
      | _ => exact earlier owed

theorem VerifiedIn.submitted (verified : VerifiedIn trace ticket) :
    ∃ receipt, .sessionSubmit ticket .ok receipt ∈ trace := by
  obtain ⟨before, event, after, rfl, owed, _⟩ := verified
  obtain ⟨receipt, member⟩ := owedTransfer_submitted owed
  exact ⟨receipt, List.mem_append_left _ member⟩

theorem Outcome.verified {result : SpiResult}
    (verified : result = .ok → VerifiedIn trace ticket)
    (submitted : result ≠ .fault → SubmittedIn trace ticket) : Outcome trace ticket result :=
  ⟨fun succeeded => ⟨(verified succeeded).submitted, verified succeeded⟩, submitted⟩

end

/-! ## Agreement of trace, ledger and pipeline -/

/-- Ticket and cookie of the first `count` accepted frames. -/
def Ledger.deliveries (q : Ledger) (count : Nat) : List (Nat × Nat) :=
  (List.range count).map fun n => (n, (q.frames n).cookie)

theorem Ledger.deliveries_edit {q : Ledger} {n count : Nat} {slot : PipeSlot}
    (cookie : slot.cookie = (q.frames n).cookie) :
    (q.edit n slot).deliveries count = q.deliveries count := by
  apply List.map_congr_left
  intro m _
  by_cases same : m = n
  · subst same
    rw [Ledger.edit_same, cookie]
  · rw [Ledger.edit_other q n slot same]

theorem Ledger.deliveries_succ (q : Ledger) (count : Nat) :
    q.deliveries (count + 1) = q.deliveries count ++ [(count, (q.frames count).cookie)] := by
  simp [deliveries, List.range_succ]

theorem Ledger.deliveries_prefix (q : Ledger) {fewer more : Nat} (le : fewer ≤ more) :
    q.deliveries fewer <+: q.deliveries more := by
  refine List.IsPrefix.map _ ?_
  obtain ⟨extra, rfl⟩ := Nat.exists_eq_add_of_le le
  exact ⟨_, List.range_add.symm⟩

structure Delivered (trace : List PipeEvent) (q : Ledger) : Prop where
  accepted : acceptedList trace = q.deliveries q.accepted
  released : takenList .sourceReleased trace = q.deliveries q.released
  completed : takenList .completed trace = q.deliveries q.taken

/-- Which handover stores have happened. -/
structure HandedOver (trace : List PipeEvent) (running : Bool) (q : Ledger) : Prop where
  published : ∀ n, .published n ∈ trace ↔ n < q.begun ∧ ¬(running = true ∧ q.begun = n + 1)
  finished : ∀ n, .finished n ∈ trace ↔
    n < q.begun ∧ ¬(running = true ∧ q.begun = n + 1) ∧ q.active ≠ some n

/-- What the finished frames and the active one owe to the session. -/
structure Accounted (trace : List PipeEvent) (fault : Bool) (q : Ledger) : Prop where
  faulted : fault = true ↔ .faultSet ∈ trace
  outcome : ∀ n, n < q.accepted → (q.frames n).state = .done →
    Outcome trace n (q.frames n).completed
  submitted : ∀ n, q.active = some n → SubmittedIn trace n

/-- The session's outstanding transfer, as far as the worker relies on it. -/
def Owed (trace : List PipeEvent) (p : Pipeline) (q : Ledger) : Prop :=
  match p.worker with
  | .receipt _ _ result received =>
      (∀ n, q.begun = n + 1 → (result ≠ .fault → SubmittedIn trace n) ∧
        (result = .ok → owedTransfer trace = some n)) ∧
      ∀ m, q.active = some m → (received = true → VerifiedIn trace m) ∧
        (received = false → result = .invalid → owedTransfer trace = some m)
  | .check _ _ result =>
      (∀ n, q.begun = n + 1 → (result ≠ .fault → SubmittedIn trace n) ∧
        (result = .ok → owedTransfer trace = some n)) ∧
      ∀ m, q.active = some m → result = .invalid → owedTransfer trace = some m
  | .quarantine _ _ => True
  | .publish _ _ result =>
      (∀ n, q.begun = n + 1 → (result ≠ .fault → SubmittedIn trace n) ∧
        (result = .ok → q.active = none ∧ owedTransfer trace = some n)) ∧
      ∀ m, q.active = some m → owedTransfer trace = some m
  | .drainFault _ _ => True
  | .drainStore _ _ result => ∀ m, q.active = some m → result = .ok → VerifiedIn trace m
  | _ => ∀ m, q.active = some m → owedTransfer trace = some m

/-- A set fault leaves the session alone: no transfer stays active, and the
frame in progress ends with FAULT. -/
def Quiescent (p : Pipeline) : Prop :=
  p.fault = true →
    match p.worker with
    | .submit _ _ | .drain _ _ => False
    | .quarantine _ _ => True
    | .receipt _ _ result _ | .check _ _ result | .publish _ _ result =>
        p.active = none ∧ result = .fault
    | _ => p.active = none

structure Explained (trace : List PipeEvent) (p : Pipeline) (q : Ledger) : Prop where
  guarded : Guarded PipeSafe trace
  delivered : Delivered trace q
  handedOver : HandedOver trace p.worker.running q
  accounted : Accounted trace p.fault q
  owed : Owed trace p q
  quiescent : Quiescent p

structure PipeInvariant (trace : List PipeEvent) (p : Pipeline) (q : Ledger) : Prop where
  tracks : Tracks p q
  explained : Explained trace p q

end LvglAic.Spi
