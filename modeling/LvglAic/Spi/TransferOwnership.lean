import LvglAic.Spi.Transfer

namespace LvglAic.Spi

/-! # Buffer ownership of the transfer session

The abstract view of a transfer is the DMA engine's: which region an accepted
or attempted start handed over and no successful wait has returned, and
whether the transport became uncertain.  Both are read off the trace alone. -/

structure Region where
  address : Nat
  bytes : Nat
deriving DecidableEq, Repr

def Region.Disjoint (left right : Region) : Prop :=
  left.address + left.bytes ≤ right.address ∨ right.address + right.bytes ≤ left.address

def observeDma (region : Option Region) : TransferEvent → Option Region
  | .start pixels bytes _ => some ⟨pixels, bytes⟩
  | .wait true => none
  | .wait false | .convert _ _ _ | .free => region

/-- The region of a started transfer that no successful wait has verified. -/
def outstanding (trace : List TransferEvent) : Option Region := trace.foldl observeDma none

def TransferEvent.faults : TransferEvent → Bool
  | .start _ _ accepted => !accepted
  | .wait completed => !completed
  | .convert _ _ result => result == .fault
  | .free => false

def faulted (trace : List TransferEvent) : Bool := trace.any TransferEvent.faults

@[simp] theorem outstanding_append (trace events : List TransferEvent) :
    outstanding (trace ++ events) = events.foldl observeDma (outstanding trace) :=
  List.foldl_append

@[simp] theorem faulted_append (trace events : List TransferEvent) :
    faulted (trace ++ events) = (faulted trace || faulted events) :=
  List.any_append

@[simp] theorem faulted_nil : faulted [] = false := rfl

@[simp] theorem faulted_singleton (event : TransferEvent) : faulted [event] = event.faults := by
  simp [faulted]

/-- What the engine's owner may do after `before`: convert only outside the
outstanding region, start and free only when nothing is outstanding, wait only
for an outstanding transfer, and nothing at all after a fault. -/
def DmaSafe (before : List TransferEvent) (event : TransferEvent) : Prop :=
  faulted before = false ∧
    match event with
    | .convert output capacity _ =>
        ∀ region, outstanding before = some region → Region.Disjoint ⟨output, capacity⟩ region
    | .start _ _ _ => outstanding before = none
    | .wait _ => outstanding before ≠ none
    | .free => outstanding before = none

/-- Two successful waits are separated by a start: no transfer is verified twice. -/
theorem start_between_waits {trace before between after : List TransferEvent} {completed : Bool}
    (guarded : Guarded DmaSafe trace)
    (split : trace = before ++ .wait true :: (between ++ .wait completed :: after)) :
    ∃ pixels bytes accepted, .start pixels bytes accepted ∈ between := by
  by_contra absent
  have quiet : ∀ events : List TransferEvent,
      (∀ pixels bytes accepted, .start pixels bytes accepted ∉ events) →
      events.foldl observeDma none = none := by
    intro events
    induction events with
    | nil => intro _; rfl
    | cons event rest ih =>
        intro missing
        have head : observeDma none event = none := by
          cases event with
          | start pixels bytes accepted => exact absurd (by simp) (missing pixels bytes accepted)
          | wait completed => cases completed <;> rfl
          | convert => rfl
          | free => rfl
        rw [List.foldl_cons, head]
        exact ih fun pixels bytes accepted member =>
          missing pixels bytes accepted (List.mem_cons_of_mem _ member)
  have waited := (guarded (before ++ .wait true :: between) (.wait completed) after
    (by simp [split])).2
  apply waited
  rw [outstanding_append, List.foldl_cons]
  exact quiet between fun pixels bytes accepted member =>
    absent ⟨pixels, bytes, accepted, member⟩

/-! ## The session refines the engine's view -/

/-- What create and the two setters establish and no later call changes. -/
structure Transfer.Layout (s : Transfer) : Prop where
  bytes : 0 < s.frameBytes
  room : s.frameBytes ≤ s.capacity
  backRoom : s.back ≠ 0 → s.frameBytes ≤ s.backCapacity
  separate : s.back ≠ 0 →
    s.tx + s.capacity ≤ s.back ∨ s.back + s.backCapacity ≤ s.tx

/-- The session's `pending`, `active` and `fault` agree with what its trace
says about the engine. -/
structure Tracked (trace : List TransferEvent) (s : Transfer) : Prop where
  layout : s.Layout
  guarded : Guarded DmaSafe trace
  faultAgrees : faulted trace = s.fault
  outstandingAgrees : outstanding trace =
    if s.pending then some ⟨s.active, s.frameBytes⟩ else none
  activeOwned : s.pending = true → s.active = s.tx ∨ (s.back ≠ 0 ∧ s.active = s.back)

variable {trace : List TransferEvent} {s : Transfer} {answers : Callbacks}

theorem Transfer.Layout.back_ne_tx (layout : s.Layout) (backed : s.back ≠ 0) :
    s.back ≠ s.tx := by
  have apart := layout.separate backed
  have room := layout.room
  have backRoom := layout.backRoom backed
  have bytes := layout.bytes
  omega

/-- The conversion target and the pending transfer's frame never overlap. -/
theorem Tracked.output_disjoint (tracked : Tracked trace s) (ready : s.back ≠ 0 ∨ s.pending = false)
    (region : Region) (pending : outstanding trace = some region) :
    Region.Disjoint ⟨s.output, s.outputCapacity⟩ region := by
  rw [tracked.outstandingAgrees] at pending
  cases busy : s.pending with
  | false => simp [busy] at pending
  | true =>
      simp only [busy, if_true, Option.some.injEq] at pending
      obtain rfl := pending.symm
      have backed : s.back ≠ 0 := ready.resolve_right (by simp [busy])
      have layout := tracked.layout
      have apart := layout.separate backed
      have room := layout.room
      have backRoom := layout.backRoom backed
      have different := layout.back_ne_tx backed
      by_cases front : s.active = s.tx
      · have output : s.output = s.back := by simp [Transfer.output, backed, busy, front]
        simp only [Transfer.outputCapacity, output, if_neg different, Region.Disjoint, front]
        omega
      · have output : s.output = s.tx := by simp [Transfer.output, front]
        have rear := (tracked.activeOwned busy).resolve_left front
        simp only [Transfer.outputCapacity, output, if_true, Region.Disjoint, rear.2]
        omega

theorem Tracked.finish (tracked : Tracked trace s) :
    Tracked (trace ++ (s.finish answers).events) (s.finish answers).transfer := by
  unfold Transfer.finish
  split
  · simpa using tracked
  · rename_i clean
    have sound : s.fault = false := by simpa using clean
    split
    · rename_i pending
      have waits : ∀ completed, DmaSafe trace (.wait completed) := fun completed =>
        ⟨by rw [tracked.faultAgrees, sound], by simp [tracked.outstandingAgrees, pending]⟩
      split
      · exact {
          layout := ⟨tracked.layout.bytes, tracked.layout.room, tracked.layout.backRoom,
            tracked.layout.separate⟩
          guarded := tracked.guarded.snoc (waits true)
          faultAgrees := by simp [tracked.faultAgrees, TransferEvent.faults]
          outstandingAgrees := by simp [observeDma]
          activeOwned := by simp }
      · exact {
          layout := ⟨tracked.layout.bytes, tracked.layout.room, tracked.layout.backRoom,
            tracked.layout.separate⟩
          guarded := tracked.guarded.snoc (waits false)
          faultAgrees := by simp [TransferEvent.faults]
          outstandingAgrees := by
            simp [observeDma, tracked.outstandingAgrees, pending, Transfer.frameBytes]
          activeOwned := tracked.activeOwned }
    · simpa using tracked

/-- A successful `finish` leaves nothing unverified. -/
theorem Transfer.finish_ok (finished : (s.finish answers).result = .ok) :
    (s.finish answers).transfer.pending = false ∧ (s.finish answers).transfer.fault = false := by
  unfold Transfer.finish at *
  by_cases fault : s.fault = true
  · simp [fault] at finished
  · cases pending : s.pending <;> cases wait : answers.wait <;> simp_all

theorem Transfer.finish_buffers :
    (s.finish answers).transfer.back = s.back ∧ (s.finish answers).transfer.tx = s.tx := by
  unfold Transfer.finish
  split
  · simp
  · split <;> (try split) <;> simp

theorem Transfer.output_owned : s.output = s.tx ∨ (s.back ≠ 0 ∧ s.output = s.back) := by
  unfold Transfer.output
  split
  · rename_i chosen
    exact .inr ⟨chosen.1, rfl⟩
  · exact .inl rfl

theorem Tracked.convert (tracked : Tracked trace s) (clean : s.fault = false)
    (ready : s.back ≠ 0 ∨ s.pending = false) :
    Tracked (trace ++ (s.convert answers s.output s.outputCapacity).events)
      (s.convert answers s.output s.outputCapacity).transfer := by
  have safe : ∀ result, DmaSafe trace (.convert s.output s.outputCapacity result) := fun result =>
    ⟨by rw [tracked.faultAgrees, clean], tracked.output_disjoint ready⟩
  unfold Transfer.convert
  generalize (if s.transform ≠ 0 then answers.transform
    else if answers.pack then SpiResult.ok else .invalid) = answer
  by_cases failed : answer = .fault
  · simp only [failed, if_true]
    exact {
      layout := ⟨tracked.layout.bytes, tracked.layout.room, tracked.layout.backRoom,
        tracked.layout.separate⟩
      guarded := tracked.guarded.snoc (safe .fault)
      faultAgrees := by simp [TransferEvent.faults]
      outstandingAgrees := by
        simp [observeDma, tracked.outstandingAgrees, Transfer.frameBytes]
      activeOwned := tracked.activeOwned }
  · simp only [if_neg failed]
    exact {
      layout := tracked.layout
      guarded := tracked.guarded.snoc (safe answer)
      faultAgrees := by simp [tracked.faultAgrees, TransferEvent.faults, failed]
      outstandingAgrees := by simp [observeDma, tracked.outstandingAgrees]
      activeOwned := tracked.activeOwned }

theorem Transfer.convert_ok {output capacity : Nat}
    (converted : (s.convert answers output capacity).result = .ok) :
    (s.convert answers output capacity).transfer = s := by
  simp only [Transfer.convert] at converted ⊢
  simp [converted]

theorem Tracked.launch {output : Nat} (tracked : Tracked trace s) (clean : s.fault = false)
    (verified : s.pending = false) (owned : output = s.tx ∨ (s.back ≠ 0 ∧ output = s.back)) :
    Tracked (trace ++ (s.launch answers output).events) (s.launch answers output).transfer where
  layout := ⟨tracked.layout.bytes, tracked.layout.room, tracked.layout.backRoom,
    tracked.layout.separate⟩
  guarded := tracked.guarded.snoc
    ⟨by rw [tracked.faultAgrees, clean], by simp [tracked.outstandingAgrees, verified]⟩
  faultAgrees := by simp [Transfer.launch, tracked.faultAgrees, clean, TransferEvent.faults]
  outstandingAgrees := by simp [Transfer.launch, observeDma, Transfer.frameBytes]
  activeOwned := fun _ => owned

theorem Tracked.flags (busy started : Bool) (tracked : Tracked trace s) :
    Tracked trace { s with busy, started } where
  layout := ⟨tracked.layout.bytes, tracked.layout.room, tracked.layout.backRoom,
    tracked.layout.separate⟩
  guarded := tracked.guarded
  faultAgrees := tracked.faultAgrees
  outstandingAgrees := tracked.outstandingAgrees
  activeOwned := tracked.activeOwned

theorem Tracked.andThen {reply : Reply} (next : Transfer → Reply)
    (tracked : Tracked (trace ++ reply.events) reply.transfer)
    (following : reply.result = .ok →
      Tracked (trace ++ reply.events ++ (next reply.transfer).events)
        (next reply.transfer).transfer) :
    Tracked (trace ++ (reply.andThen next).events) (reply.andThen next).transfer := by
  unfold Reply.andThen
  split
  · rename_i succeeded
    simpa only [List.append_assoc] using following succeeded
  · exact tracked

theorem Reply.andThen_ok {reply : Reply} {next : Transfer → Reply}
    (succeeded : (reply.andThen next).result = .ok) :
    reply.result = .ok ∧ (next reply.transfer).result = .ok ∧
      (reply.andThen next).transfer = (next reply.transfer).transfer := by
  unfold Reply.andThen at *
  split
  · rename_i first
    exact ⟨first, by simpa [first] using succeeded, rfl⟩
  · rename_i failed
    rw [if_neg failed] at succeeded
    exact absurd succeeded failed

/-- After a successful preparation the output buffer is not the pending one. -/
theorem Transfer.prepare_ok (prepared : (s.prepare answers).result = .ok) :
    (s.prepare answers).transfer.fault = false ∧
      ((s.prepare answers).transfer.back ≠ 0 ∨ (s.prepare answers).transfer.pending = false) := by
  unfold Transfer.prepare at *
  by_cases backed : s.back ≠ 0
  · rw [if_pos backed] at prepared ⊢
    refine ⟨?_, .inl backed⟩
    cases fault : s.fault <;> simp_all
  · rw [if_neg backed] at prepared ⊢
    have finished := Transfer.finish_ok prepared
    exact ⟨finished.2, .inr finished.1⟩

theorem Tracked.prepare (answers : Callbacks) (tracked : Tracked trace s) :
    Tracked (trace ++ (s.prepare answers).events) (s.prepare answers).transfer := by
  unfold Transfer.prepare
  split
  · simpa using tracked
  · exact tracked.finish

theorem Tracked.verify (tracked : Tracked trace s) :
    Tracked (trace ++ (s.verify answers).events) (s.verify answers).transfer := by
  unfold Transfer.verify
  split
  · exact tracked.finish
  · simpa using tracked

theorem Transfer.verify_ok (clean : s.fault = false) (ready : s.back ≠ 0 ∨ s.pending = false)
    (verified : (s.verify answers).result = .ok) :
    (s.verify answers).transfer.fault = false ∧ (s.verify answers).transfer.pending = false ∧
      (s.verify answers).transfer.tx = s.tx ∧ (s.verify answers).transfer.back = s.back := by
  unfold Transfer.verify at *
  by_cases backed : s.back ≠ 0
  · rw [if_pos backed] at verified ⊢
    have finished := Transfer.finish_ok verified
    have buffers : (s.finish answers).transfer.back = s.back ∧
        (s.finish answers).transfer.tx = s.tx := Transfer.finish_buffers
    exact ⟨finished.2, finished.1, buffers.2, buffers.1⟩
  · rw [if_neg backed]
    exact ⟨clean, ready.resolve_left backed, rfl, rfl⟩

/-- Whatever the callbacks answer, one submit keeps session and engine in
agreement, and every effect it has on the transport is a safe one. -/
theorem Tracked.submitEx (answers : Callbacks) (tracked : Tracked trace s) :
    Tracked (trace ++ (s.submitEx answers).events) (s.submitEx answers).transfer := by
  unfold Transfer.submitEx
  split
  · simpa using tracked
  · have opened : Tracked trace { s with busy := true, started := true } := tracked.flags _ _
    generalize { s with busy := true, started := true } = t at opened ⊢
    have prepared := opened.prepare answers
    have writable : (t.prepare answers).result = .ok → _ := Transfer.prepare_ok
    generalize t.prepare answers = ready at prepared writable ⊢
    dsimp only
    have converted := prepared.andThen (·.convert answers ready.transfer.output
      ready.transfer.outputCapacity) fun succeeded =>
        prepared.convert (writable succeeded).1 (writable succeeded).2
    have unchanged : ∀ capacity, (ready.andThen (·.convert answers ready.transfer.output
        capacity)).result = .ok → ready.result = .ok ∧
        (ready.andThen (·.convert answers ready.transfer.output capacity)).transfer =
          ready.transfer := by
      intro capacity succeeded
      obtain ⟨first, second, same⟩ := Reply.andThen_ok succeeded
      exact ⟨first, same.trans (Transfer.convert_ok second)⟩
    have verified := converted.andThen (·.verify answers) fun _ => converted.verify
    have launched := verified.andThen (·.launch answers ready.transfer.output)
      fun succeeded => by
        obtain ⟨packed, checked, same⟩ := Reply.andThen_ok succeeded
        obtain ⟨begun, kept⟩ := unchanged _ packed
        rw [kept] at same checked
        obtain ⟨clean, idle, sameTx, sameBack⟩ :=
          Transfer.verify_ok (writable begun).1 (writable begun).2 checked
        refine verified.launch (by rw [same]; exact clean) (by rw [same]; exact idle) ?_
        rw [same, sameTx, sameBack]
        exact Transfer.output_owned
    exact launched.flags _ _

theorem Tracked.drain (answers : Callbacks) (tracked : Tracked trace s) :
    Tracked (trace ++ (s.drain answers).events) (s.drain answers).transfer := by
  unfold Transfer.drain
  split
  · simpa using tracked
  · exact (Tracked.finish (tracked.flags true s.started)).flags _ _

theorem Transfer.drain_ok (drained : (s.drain answers).result = .ok) :
    (s.drain answers).transfer.pending = false ∧ (s.drain answers).transfer.fault = false := by
  unfold Transfer.drain at *
  split
  · rename_i busy
    simp [busy] at drained
  · rename_i idle
    rw [if_neg idle] at drained
    exact Transfer.finish_ok (s := { s with busy := true }) drained

theorem Tracked.close (answers : Callbacks) (tracked : Tracked trace s) :
    Tracked (trace ++ (s.close answers).events) (s.close answers).transfer := by
  have drained := tracked.drain answers
  unfold Transfer.close
  dsimp only
  split
  · rename_i succeeded
    obtain ⟨idle, clean⟩ := Transfer.drain_ok succeeded
    have clear : outstanding (trace ++ (s.drain answers).events) = none := by
      rw [drained.outstandingAgrees, idle]
      rfl
    rw [← List.append_assoc]
    exact {
      layout := drained.layout
      guarded := drained.guarded.snoc ⟨by rw [drained.faultAgrees, clean], clear⟩
      faultAgrees := by
        rw [faulted_append, drained.faultAgrees, faulted_singleton]
        simp [TransferEvent.faults]
      outstandingAgrees := by
        rw [outstanding_append, drained.outstandingAgrees]
        rfl
      activeOwned := drained.activeOwned }
  · exact drained

theorem Tracked.setTransform {transform context : Nat} (tracked : Tracked trace s) :
    Tracked trace (s.setTransform transform context).2 := by
  unfold Transfer.setTransform
  split
  · exact tracked
  · exact {
      layout := ⟨tracked.layout.bytes, tracked.layout.room, tracked.layout.backRoom,
        tracked.layout.separate⟩
      guarded := tracked.guarded
      faultAgrees := tracked.faultAgrees
      outstandingAgrees := tracked.outstandingAgrees
      activeOwned := tracked.activeOwned }

/-- The setter's overlap test is what separates the two frames. -/
theorem Tracked.setBackBuffer {uintptrMax pixels capacity : Nat} (tracked : Tracked trace s) :
    Tracked trace (s.setBackBuffer uintptrMax pixels capacity).2 := by
  unfold Transfer.setBackBuffer
  split
  · exact tracked
  · rename_i configurable
    split
    · exact tracked
    · rename_i fits
      simp only [not_or, ne_eq, Decidable.not_not] at configurable fits
      have activeTx : s.pending = true → s.active = s.tx := fun busy =>
        (tracked.activeOwned busy).resolve_right fun rear => rear.1 configurable.2.2.2.2
      exact {
        layout := {
          bytes := tracked.layout.bytes
          room := tracked.layout.room
          backRoom := fun _ => by
            have enough := fits.1
            simp only [Transfer.frameBytes] at enough ⊢
            omega
          separate := fun _ => by
            have apart := fits.2.2.2
            dsimp only
            omega }
        guarded := tracked.guarded
        faultAgrees := tracked.faultAgrees
        outstandingAgrees := tracked.outstandingAgrees
        activeOwned := fun busy => .inl (activeTx busy) }

theorem transferCreate_tracked {uintptrMax tx capacity width height : Nat} {swap hasOps : Bool}
    (created : transferCreate uintptrMax tx capacity width height swap hasOps = some s) :
    Tracked [] s := by
  unfold transferCreate at created
  split at created
  · cases created
  · split at created
    · cases created
    · rename_i shape room
      simp only [not_or] at shape room
      cases created
      have wide : 0 < width := by omega
      have tall : 0 < height := by omega
      exact {
        layout := {
          bytes := by
            have area := Nat.mul_pos wide tall
            simp only [Transfer.frameBytes]
            omega
          room := by simp only [Transfer.frameBytes]; omega
          backRoom := fun backed => absurd rfl backed
          separate := fun backed => absurd rfl backed }
        guarded := .nil
        faultAgrees := rfl
        outstandingAgrees := rfl
        activeOwned := fun pending => by simp at pending }

theorem transferCreate_idle {uintptrMax tx capacity width height : Nat} {swap hasOps : Bool}
    (created : transferCreate uintptrMax tx capacity width height swap hasOps = some s) :
    s.busy = false := by
  unfold transferCreate at created
  split at created
  · cases created
  · split at created
    · cases created
    · cases created
      rfl

/-- The state of a handle agrees with its trace; a freed context leaves only
the safety of what was done before. -/
def HandleTracked (trace : List TransferEvent) : Handle → Prop
  | .live s => Tracked trace s ∧ s.busy = false
  | .freed => Guarded DmaSafe trace

theorem Transfer.setTransform_idle {transform context : Nat} (idle : s.busy = false) :
    (s.setTransform transform context).2.busy = false := by
  unfold Transfer.setTransform
  split <;> exact idle

theorem Transfer.setBackBuffer_idle {uintptrMax pixels capacity : Nat} (idle : s.busy = false) :
    (s.setBackBuffer uintptrMax pixels capacity).2.busy = false := by
  unfold Transfer.setBackBuffer
  split
  · exact idle
  · split <;> exact idle

theorem Transfer.drain_idle (idle : s.busy = false) : (s.drain answers).transfer.busy = false := by
  simp [Transfer.drain, idle]

theorem Tracked.call (uintptrMax : Nat) (call : TransferCall) (tracked : Tracked trace s)
    (idle : s.busy = false) :
    HandleTracked (trace ++ (s.call uintptrMax call).2.2) (s.call uintptrMax call).2.1 := by
  cases call with
  | setTransform transform context =>
      have configured : HandleTracked trace (.live (s.setTransform transform context).2) :=
        ⟨tracked.setTransform, Transfer.setTransform_idle idle⟩
      simpa only [Transfer.call, List.append_nil] using configured
  | setBackBuffer pixels capacity =>
      have configured : HandleTracked trace
          (.live (s.setBackBuffer uintptrMax pixels capacity).2) :=
        ⟨tracked.setBackBuffer, Transfer.setBackBuffer_idle idle⟩
      simpa only [Transfer.call, List.append_nil] using configured
  | submitEx answers => exact ⟨tracked.submitEx answers, by simp [Transfer.submitEx, idle]⟩
  | drain answers => exact ⟨tracked.drain answers, Transfer.drain_idle idle⟩
  | close answers =>
      have closed := tracked.close answers
      simp only [Transfer.call]
      split
      · exact closed.guarded
      · refine ⟨closed, ?_⟩
        simp only [Transfer.close]
        split <;> exact Transfer.drain_idle idle

theorem transferMachine_tracked {uintptrMax : Nat} {handle : Handle}
    (reached : (transferMachine uintptrMax).Reaches Machine.Always trace handle) :
    HandleTracked trace handle := by
  refine reached.invariant HandleTracked ?_ ?_
  · rintro _ ⟨_, _, _, _, _, _, created, made, rfl⟩
    exact ⟨transferCreate_tracked made, transferCreate_idle made⟩
  · intro trace before call after events tracked _ moved
    cases before with
    | freed => simp [transferMachine] at moved
    | live s =>
        simp only [transferMachine, Option.some.injEq] at moved
        have called := tracked.1.call uintptrMax call tracked.2
        rw [moved] at called
        exact called

/-! ## Receipts and faults of single calls -/

/-- The receipt of a reply reports exactly a successful wait among its effects. -/
def Reply.Receipted (reply : Reply) : Prop :=
  reply.receipt = true ↔ .wait true ∈ reply.events

theorem Transfer.finish_receipted : (s.finish answers).Receipted := by
  unfold Transfer.finish Reply.Receipted
  split
  · simp
  · split <;> (try split) <;> simp

theorem Reply.Receipted.andThen {reply : Reply} {next : Transfer → Reply}
    (first : reply.Receipted) (second : ∀ t, (next t).Receipted) :
    (reply.andThen next).Receipted := by
  unfold Reply.Receipted Reply.andThen at *
  split
  · simp only [Bool.or_eq_true, List.mem_append, first, second reply.transfer]
  · exact first

/-- `previous_completed` is set exactly by the call whose own wait succeeded. -/
theorem Transfer.submitEx_receipted : (s.submitEx answers).Receipted := by
  have prepared : ∀ t : Transfer, (t.prepare answers).Receipted := by
    intro t
    unfold Transfer.prepare
    split
    · simp [Reply.Receipted]
    · exact Transfer.finish_receipted
  have converted : ∀ t : Transfer, ∀ output capacity,
      (t.convert answers output capacity).Receipted := by
    simp [Transfer.convert, Reply.Receipted]
  have verified : ∀ t : Transfer, (t.verify answers).Receipted := by
    intro t
    unfold Transfer.verify
    split
    · exact Transfer.finish_receipted
    · simp [Reply.Receipted]
  have launched : ∀ t : Transfer, ∀ output, (t.launch answers output).Receipted := by
    simp [Transfer.launch, Reply.Receipted]
  unfold Transfer.submitEx
  split
  · simp [Reply.Receipted]
  · exact (((prepared _).andThen fun t => converted t _ _).andThen verified).andThen
      fun t => launched t _

/-- A refused call: a setter returns false, an operation returns FAULT without
a receipt. -/
def TransferReturn.Refused : TransferReturn → Prop
  | .configured accepted => accepted = false
  | .result code receipt => code = .fault ∧ receipt = false

theorem Transfer.call_faulted (uintptrMax : Nat) (fault : s.fault = true) (idle : s.busy = false)
    (call : TransferCall) :
    (s.call uintptrMax call).1.Refused ∧ (s.call uintptrMax call).2.2 = [] ∧
      ∃ after, (s.call uintptrMax call).2.1 = .live after := by
  cases call with
  | setTransform transform context =>
      simp [Transfer.call, Transfer.setTransform, TransferReturn.Refused, fault]
  | setBackBuffer pixels capacity =>
      simp [Transfer.call, Transfer.setBackBuffer, TransferReturn.Refused, fault]
  | submitEx answers =>
      have refused : ∀ t : Transfer, t.fault = true →
          t.prepare answers = { result := .fault, transfer := t } := by
        intro t set
        simp [Transfer.prepare, Transfer.finish, set]
      simp [Transfer.call, Transfer.submitEx, TransferReturn.Refused, Reply.andThen, idle,
        refused { s with busy := true, started := true } fault]
  | drain answers =>
      simp [Transfer.call, Transfer.drain, TransferReturn.Refused, Transfer.finish, fault, idle]
  | close answers =>
      simp [Transfer.call, Transfer.close, Transfer.drain, TransferReturn.Refused,
        Transfer.finish, fault, idle]

/-- A call's own wait verified the transfer that was outstanding when it began. -/
def VerifiedBy (trace events : List TransferEvent) : Prop :=
  ∃ before after region, events = before ++ .wait true :: after ∧
    outstanding trace = some region ∧ outstanding (trace ++ before) = some region

/-- No start among the effects. -/
def Quiet (events : List TransferEvent) : Prop :=
  ∀ pixels bytes accepted, .start pixels bytes accepted ∉ events

theorem Quiet.append {left right : List TransferEvent} (first : Quiet left) (second : Quiet right) :
    Quiet (left ++ right) := by
  intro pixels bytes accepted member
  rcases List.mem_append.mp member with earlier | later
  · exact first pixels bytes accepted earlier
  · exact second pixels bytes accepted later

/-- Without a start an outstanding region stays, or a wait clears it. -/
theorem Quiet.observe {events : List TransferEvent} (region : Region) (quiet : Quiet events) :
    events.foldl observeDma none = none ∧
      (events.foldl observeDma (some region) = some region ∨
        events.foldl observeDma (some region) = none) := by
  induction events with
  | nil => exact ⟨rfl, .inl rfl⟩
  | cons event rest ih =>
      have tail : Quiet rest := fun pixels bytes accepted member =>
        quiet pixels bytes accepted (List.mem_cons_of_mem _ member)
      obtain ⟨clear, kept⟩ := ih tail
      cases event with
      | start pixels bytes accepted => exact absurd (by simp) (quiet pixels bytes accepted)
      | wait completed =>
          cases completed with
          | true => exact ⟨clear, .inr clear⟩
          | false => exact ⟨clear, kept⟩
      | convert => exact ⟨clear, kept⟩
      | free => exact ⟨clear, kept⟩

theorem Transfer.finish_quiet : Quiet (s.finish answers).events := by
  unfold Transfer.finish Quiet
  split
  · simp
  · split <;> (try split) <;> simp

theorem Quiet.andThen {reply : Reply} (next : Transfer → Reply)
    (first : Quiet reply.events) (second : ∀ t, Quiet (next t).events) :
    Quiet (reply.andThen next).events := by
  unfold Reply.andThen
  split
  · exact first.append (second reply.transfer)
  · exact first

/-- A submit's start, if any, is its last effect. -/
theorem Transfer.submitEx_events (s : Transfer) (answers : Callbacks) : ∃ quiet, Quiet quiet ∧
    ((s.submitEx answers).events = quiet ∨
      ∃ pixels bytes accepted,
        (s.submitEx answers).events = quiet ++ [.start pixels bytes accepted]) := by
  have prepared : ∀ t : Transfer, Quiet (t.prepare answers).events := by
    intro t
    unfold Transfer.prepare
    split
    · simp [Quiet]
    · exact Transfer.finish_quiet
  have verified : ∀ t : Transfer, Quiet (t.verify answers).events := by
    intro t
    unfold Transfer.verify
    split
    · exact Transfer.finish_quiet
    · simp [Quiet]
  have converted : ∀ t : Transfer, ∀ output capacity,
      Quiet (t.convert answers output capacity).events := by
    simp [Quiet, Transfer.convert]
  unfold Transfer.submitEx
  split
  · exact ⟨[], by simp [Quiet], .inl rfl⟩
  · generalize { s with busy := true, started := true } = t
    generalize source : t.prepare answers = ready
    have silent : Quiet ready.events := source ▸ prepared t
    refine ⟨_, (silent.andThen (·.convert answers ready.transfer.output
      ready.transfer.outputCapacity) fun t => converted t _ _).andThen _ verified, ?_⟩
    dsimp only
    generalize Reply.andThen (Reply.andThen ready _) _ = clear
    unfold Reply.andThen
    split
    · exact .inr ⟨_, _, _, rfl⟩
    · exact .inl rfl

/-- Nothing is started before a wait of the same submit. -/
theorem Transfer.submitEx_quiet_before_wait {before after : List TransferEvent} {completed : Bool}
    (split : (s.submitEx answers).events = before ++ .wait completed :: after) : Quiet before := by
  obtain ⟨quiet, silent, shape⟩ := Transfer.submitEx_events s answers
  have covered : ∃ rest, quiet = before ++ rest := by
    rcases shape with same | ⟨pixels, bytes, accepted, same⟩
    · exact ⟨_, same.symm.trans split⟩
    · rcases List.eq_nil_or_concat after with rfl | ⟨rest, last, rfl⟩
      · obtain ⟨_, impossible⟩ := List.append_inj' (same.symm.trans split) rfl
        simp at impossible
      · have regrouped : quiet ++ [.start pixels bytes accepted] =
            (before ++ .wait completed :: rest) ++ [last] := by
          simpa using same.symm.trans split
        exact ⟨_, (List.append_inj' regrouped rfl).1⟩
  obtain ⟨rest, rfl⟩ := covered
  exact fun pixels bytes accepted member =>
    silent pixels bytes accepted (List.mem_append_left _ member)

/-- The receipt is set exactly when the call verified the previous transfer. -/
theorem Tracked.submitEx_receipt (tracked : Tracked trace s) :
    (s.submitEx answers).receipt = true ↔ VerifiedBy trace (s.submitEx answers).events := by
  constructor
  · intro received
    obtain ⟨before, after, split⟩ :=
      List.append_of_mem (Transfer.submitEx_receipted.mp received)
    have guard := (tracked.submitEx answers).guarded (trace ++ before) (.wait true)
      after (by rw [split, List.append_assoc])
    have quiet := Transfer.submitEx_quiet_before_wait split
    have waited := guard.2
    cases pending : outstanding trace with
    | none =>
        rw [outstanding_append, pending] at waited
        exact absurd (quiet.observe ⟨0, 0⟩).1 waited
    | some region =>
        refine ⟨before, after, region, split, pending, ?_⟩
        rw [outstanding_append, pending] at waited ⊢
        exact ((quiet.observe region).2).resolve_right waited
  · rintro ⟨before, after, _, split, _⟩
    refine Transfer.submitEx_receipted.mpr ?_
    rw [split]
    exact List.mem_append_right _ List.mem_cons_self

theorem Transfer.finish_keeps_context : .free ∉ (s.finish answers).events := by
  unfold Transfer.finish
  split
  · simp
  · split <;> (try split) <;> simp

theorem Transfer.close_frees :
    .free ∈ (s.close answers).events ↔ (s.close answers).result = .ok := by
  have kept : .free ∉ (s.drain answers).events := by
    unfold Transfer.drain
    split
    · simp
    · exact Transfer.finish_keeps_context
  unfold Transfer.close
  dsimp only
  split
  · rename_i drained
    simp [drained]
  · rename_i failed
    simp [kept, failed]

/-- The transfer session never touches a buffer that DMA may own, for every
sequence of calls and every answer of the conversion and the transport. -/
theorem transfer_respects_dma {uintptrMax : Nat} {handle : Handle}
    (reached : (transferMachine uintptrMax).Reaches Machine.Always trace handle) :
    Guarded DmaSafe trace ∧
    (∀ before between after completed,
      trace = before ++ .wait true :: (between ++ .wait completed :: after) →
      ∃ pixels bytes accepted, .start pixels bytes accepted ∈ between) ∧
    ∀ s, handle = .live s →
      (∀ answers, (s.submitEx answers).receipt = true ↔
        VerifiedBy trace (s.submitEx answers).events) ∧
      (∀ answers, .free ∈ (s.close answers).events ↔ (s.close answers).result = .ok) ∧
      (faulted trace = true → ∀ call, (s.call uintptrMax call).1.Refused ∧
        (s.call uintptrMax call).2.2 = []) := by
  have tracked := transferMachine_tracked reached
  have guarded : Guarded DmaSafe trace := by
    cases handle with
    | live s => exact tracked.1.guarded
    | freed => exact tracked
  refine ⟨guarded, fun before between after completed => start_between_waits guarded, ?_⟩
  rintro s rfl
  obtain ⟨tracked, idle⟩ := tracked
  refine ⟨fun answers => tracked.submitEx_receipt, fun answers => Transfer.close_frees, ?_⟩
  intro fault call
  have refused := Transfer.call_faulted uintptrMax
    (tracked.faultAgrees.symm.trans fault) idle call
  exact ⟨refused.1, refused.2.1⟩

/-- A 2x2 session with its frames at 4096 and 8192. -/
def overlapSession : Transfer :=
  { tx := 4096, back := 0, active := 0, capacity := 64, backCapacity := 0, width := 2, height := 2
    transform := 0, transformContext := 0, swap := false
    pending := false, busy := false, fault := false, started := false }

/-- Two submits through both buffers, a rejected conversion and a close. -/
def overlapCalls : List TransferCall :=
  let answers : Callbacks := { transform := .ok, pack := true, wait := true, start := true }
  [.setBackBuffer 8192 64, .submitEx answers, .submitEx answers,
    .submitEx { answers with pack := false }, .close answers]

theorem transfer_respects_dma_overlap :
    (transferMachine 4294967295).execute (.live overlapSession) overlapCalls = some (.freed,
      [.convert 4096 64 .ok, .start 4096 8 true, .convert 8192 64 .ok, .wait true,
        .start 8192 8 true, .convert 4096 64 .invalid, .wait true, .free]) ∧
    Guarded DmaSafe [.convert 4096 64 .ok, .start 4096 8 true, .convert 8192 64 .ok, .wait true,
      .start 8192 8 true, .convert 4096 64 .invalid, .wait true, .free] := by
  have executed : (transferMachine 4294967295).execute (.live overlapSession) overlapCalls =
      some (.freed, [.convert 4096 64 .ok, .start 4096 8 true, .convert 8192 64 .ok, .wait true,
        .start 8192 8 true, .convert 4096 64 .invalid, .wait true, .free]) := by decide
  have begun : (transferMachine 4294967295).Reaches Machine.Always [] (.live overlapSession) :=
    .start ⟨4096, 64, 2, 2, false, true, overlapSession, by decide, rfl⟩
  exact ⟨executed, (transfer_respects_dma (begun.execute executed)).1⟩

end LvglAic.Spi
