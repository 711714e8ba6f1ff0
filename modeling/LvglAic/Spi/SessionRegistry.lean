import LvglAic.Machine.SoleOwners
import LvglAic.Spi.Session

/-! # The session registry keeps sessions apart

Whatever the threads do, registered sessions have buses of their own and their buffers
share no byte; a failed call gives back what it took, and a block goes after its session.
-/

namespace LvglAic.Spi

/-! ## What the events tell -/

/-- The sessions after an effect. -/
def Effect.apply (sessions : List Session) : Effect → List Session
  | .allocated _ | .freed _ => sessions
  | .registered x => x :: sessions
  | .owned id => sessions.map fun x => if x.id = id then { x with ownsTx := true } else x
  | .backed id back transfer => sessions.map fun x =>
      if x.id = id then { x with back := back, transfer := some transfer } else x
  | .settled id transfer ge => sessions.map fun x =>
      if x.id = id then { x with transfer := transfer, ge := ge } else x
  | .unlinked id => sessions.eraseP fun x => x.id = id

def SessionEvent.apply (sessions : List Session) : SessionEvent → List Session
  | .effect _ done => done.apply sessions
  | _ => sessions

/-- The registered sessions, from the events alone. -/
def registered (trace : List SessionEvent) : List Session := trace.foldl SessionEvent.apply []

def SessionEvent.thread : SessionEvent → Nat
  | .called t _ | .effect t _ | .returned t _ => t

/-- What a thread did since its last call began, and for which session. -/
structure Account where
  own : Option Nat
  effects : List Effect
deriving DecidableEq

def Account.observe (t : Nat) (account : Account) : SessionEvent → Account
  | .called u own => if u = t then ⟨own, []⟩ else account
  | .effect u effect =>
      if u = t then { account with effects := account.effects ++ [effect] } else account
  | .returned _ _ => account

def account (t : Nat) (trace : List SessionEvent) : Account :=
  trace.foldl (Account.observe t) ⟨none, []⟩

/-- A failed call freed the block it had taken and did no more, or it did nothing but to the
transfer and the GE converter of its own session. -/
def Account.Undone (account : Account) : Prop :=
  (∃ block : Span, account.effects = [.allocated block, .freed block.base]) ∨
    ∀ effect ∈ account.effects, ∃ id transfer ge,
      account.own = some id ∧ effect = .settled id transfer ge

/-- A block that is freed is of no registered session; a call that fails is undone. -/
def RegistryGuard (before : List SessionEvent) : SessionEvent → Prop
  | .effect _ (.freed address) => ∀ x ∈ registered before, address ∉ x.owned
  | .returned t false => (account t before).Undone
  | _ => True

/-- The thread is between the test-and-set and the release of the busy flag. -/
def Progress.holds : Progress → Bool
  | .openTaken _ _ _ | .enableTaken _ _ | .closeTaken _ => true
  | _ => false

structure RegistrySafe (trace : List SessionEvent) (s : Registry) : Prop where
  buses : (s.sessions.map Session.bus).Nodup
  spans : (s.sessions.flatMap Session.spans).Pairwise Span.Apart
  bounded : ∀ span ∈ s.sessions.flatMap Session.spans,
    0 < span.bytes ∧ span.base + span.bytes ≤ 2 ^ 32
  told : s.sessions = registered trace
  order : Guarded RegistryGuard trace
  sections : ∀ t u, (s.threads t).holds = true → (s.threads u).holds = true → t = u
  lock : s.busy = true ↔ ∃ t, (s.threads t).holds = true

section
variable {trace events : List SessionEvent} {t : Nat} {event : SessionEvent}

theorem registered_append :
    registered (trace ++ events) = events.foldl SessionEvent.apply (registered trace) :=
  List.foldl_append

theorem account_append :
    account t (trace ++ events) = events.foldl (Account.observe t) (account t trace) :=
  List.foldl_append

theorem Account.observe_other {account : Account} (other : event.thread ≠ t) :
    account.observe t event = account := by
  cases event with
  | called u own => exact if_neg other
  | effect u effect => exact if_neg other
  | returned u success => rfl

theorem account_other (others : ∀ event ∈ events, event.thread ≠ t) :
    account t (trace ++ events) = account t trace := by
  induction events generalizing trace with
  | nil => rw [List.append_nil]
  | cons event rest ih =>
      rw [List.append_cons, ih fun found member => others found (List.mem_cons_of_mem _ member),
        account_append, List.foldl_cons, List.foldl_nil,
        Account.observe_other (others event List.mem_cons_self)]

end

/-! ## Transfers keep their back buffer -/

section
variable {x : Transfer} {answers : Callbacks}

theorem Reply.andThen_back {reply : Reply} {next : Transfer → Reply} {back : Nat}
    (first : reply.transfer.back = back)
    (following : (next reply.transfer).transfer.back = reply.transfer.back) :
    (reply.andThen next).transfer.back = back := by
  unfold Reply.andThen
  split
  · exact following.trans first
  · exact first

theorem Transfer.finish_back : (x.finish answers).transfer.back = x.back := by
  unfold Transfer.finish
  split
  · rfl
  · split
    · split <;> rfl
    · rfl

theorem Transfer.convert_back {output capacity : Nat} :
    (x.convert answers output capacity).transfer.back = x.back := by
  unfold Transfer.convert
  dsimp only
  split <;> split <;> rfl

theorem Transfer.submitEx_back : (x.submitEx answers).transfer.back = x.back := by
  unfold Transfer.submitEx
  split
  · rfl
  · dsimp only
    refine Reply.andThen_back (Reply.andThen_back (Reply.andThen_back ?_ ?_) ?_) rfl
    · unfold Transfer.prepare
      split
      · rfl
      · exact Transfer.finish_back
    · exact Transfer.convert_back
    · unfold Transfer.verify
      split
      · exact Transfer.finish_back
      · rfl

theorem Transfer.drain_back : (x.drain answers).transfer.back = x.back := by
  unfold Transfer.drain
  split
  · rfl
  · exact Transfer.finish_back

theorem Transfer.close_back : (x.close answers).transfer.back = x.back := by
  unfold Transfer.close
  dsimp only
  split <;> exact Transfer.drain_back

theorem Transfer.setTransform_back {transform context : Nat} :
    (x.setTransform transform context).2.back = x.back := by
  unfold Transfer.setTransform
  split <;> rfl

/-- A back buffer is accepted once. -/
theorem Transfer.setBackBuffer_back {uintptrMax pixels capacity : Nat}
    (accepted : (x.setBackBuffer uintptrMax pixels capacity).1 = true) :
    x.back = 0 ∧ (x.setBackBuffer uintptrMax pixels capacity).2.back = pixels := by
  unfold Transfer.setBackBuffer at accepted ⊢
  split at accepted
  · exact absurd accepted Bool.false_ne_true
  · rename_i first
    split at accepted
    · exact absurd accepted Bool.false_ne_true
    · rename_i second
      rw [if_neg first, if_neg second]
      simp only [not_or, not_not] at first
      exact ⟨first.2.2.2.2, rfl⟩

theorem transferCreate_back {uintptrMax tx capacity width height : Nat} {swap hasOps : Bool}
    (created : transferCreate uintptrMax tx capacity width height swap hasOps = some x) :
    x.back = 0 := by
  unfold transferCreate at created
  split at created
  · exact absurd created.symm (Option.some_ne_none _)
  · split at created
    · exact absurd created.symm (Option.some_ne_none _)
    · cases Option.some.inj created
      rfl

end

/-! ## Lists of sessions -/

theorem Span.Apart.symm {a b : Span} (apart : Span.Apart a b) : Span.Apart b a := Or.symm apart

theorem Session.covers_false {x : Session} {address span : Nat}
    (free : x.covers address span = false) : ∀ r ∈ x.spans, Span.Apart r ⟨address, span⟩ := by
  simp only [Session.covers, overlaps, Bool.or_eq_false_iff, Bool.and_eq_false_iff,
    decide_eq_false_iff_not, not_lt, ne_eq, not_not] at free
  intro r member
  rcases List.mem_cons.mp member with rfl | second
  · exact free.1
  · split at second
    · rename_i backed
      rw [List.mem_singleton.mp second]
      exact free.2.resolve_left backed
    · exact absurd second List.not_mem_nil

/-- What the registry keeps of its sessions. -/
structure Sound (sessions : List Session) (made : Nat) : Prop where
  ids : (sessions.map Session.id).Nodup
  made : ∀ x ∈ sessions, x.id < made
  buses : (sessions.map Session.bus).Nodup
  spans : (sessions.flatMap Session.spans).Pairwise Span.Apart
  sized : ∀ x ∈ sessions, x.config.tx ≠ 0 ∧ 0 < x.cacheBytes ∧
    ∀ span ∈ x.spans, span.base + span.bytes ≤ 2 ^ 32
  backs : ∀ x ∈ sessions, ∀ transfer, x.transfer = some transfer → transfer.back = x.back

section
variable {sessions : List Session} {made id : Nat} {x y : Session} {write : Session → Session}

theorem Sound.unique (sound : Sound sessions made) (member : x ∈ sessions) (also : y ∈ sessions)
    (same : x.id = y.id) : x = y :=
  List.inj_on_of_nodup_map sound.ids member also same

/-- Writing one session keeps every view of the list that does not see the write. -/
theorem map_write {View : Type} (view : Session → View)
    (unseen : ∀ x ∈ sessions, x.id = id → view (write x) = view x) :
    (sessions.map fun x => if x.id = id then write x else x).map view = sessions.map view := by
  rw [List.map_map]
  refine List.map_congr_left fun x member => ?_
  rw [Function.comp_apply]
  split
  · rename_i same
    exact unseen x member same
  · rfl

theorem flatMap_write {View : Type} (view : Session → List View)
    (unseen : ∀ x ∈ sessions, x.id = id → view (write x) = view x) :
    (sessions.map fun x => if x.id = id then write x else x).flatMap view =
      sessions.flatMap view := by
  rw [List.flatMap_def, List.flatMap_def, map_write view unseen]

theorem mem_write (member : y ∈ sessions.map fun x => if x.id = id then write x else x) :
    (y ∈ sessions ∧ y.id ≠ id) ∨ ∃ x ∈ sessions, x.id = id ∧ y = write x := by
  obtain ⟨x, inside, rfl⟩ := List.mem_map.mp member
  by_cases same : x.id = id
  · rw [if_pos same]
    exact .inr ⟨x, inside, same, rfl⟩
  · rw [if_neg same]
    exact .inl ⟨inside, same⟩

/-- A write to what the registry does not look at. -/
theorem Sound.rewritten (sound : Sound sessions made)
    (ids : ∀ x, (write x).id = x.id) (buses : ∀ x, (write x).bus = x.bus)
    (spans : ∀ x, (write x).spans = x.spans)
    (sized : ∀ x, (write x).config = x.config ∧ (write x).cacheBytes = x.cacheBytes)
    (backs : ∀ x ∈ sessions, x.id = id → ∀ transfer, (write x).transfer = some transfer →
      transfer.back = (write x).back) :
    Sound (sessions.map fun x => if x.id = id then write x else x) made where
  ids := by
    rw [map_write Session.id fun x _ _ => ids x]
    exact sound.ids
  made := by
    intro y member
    rcases mem_write member with ⟨before, _⟩ | ⟨x, before, _, rfl⟩
    · exact sound.made y before
    · rw [ids]
      exact sound.made x before
  buses := by
    rw [map_write Session.bus fun x _ _ => buses x]
    exact sound.buses
  spans := by
    rw [flatMap_write Session.spans fun x _ _ => spans x]
    exact sound.spans
  sized := by
    intro y member
    rcases mem_write member with ⟨before, _⟩ | ⟨x, before, _, rfl⟩
    · exact sound.sized y before
    · rw [(sized x).1, (sized x).2, spans]
      exact sound.sized x before
  backs := by
    intro y member
    rcases mem_write member with ⟨before, _⟩ | ⟨x, before, same, rfl⟩
    · exact sound.backs y before
    · exact backs x before same

end

end LvglAic.Spi
