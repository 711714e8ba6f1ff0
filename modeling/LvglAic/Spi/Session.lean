import LvglAic.Spi.Transfer

/-! # The SPI session registry (`lv_aic_spi_session.c`)

Threads open, extend and close sessions.  What they share is the list of sessions, its
busy flag and the block allocator; a thread takes the flag in one step and does its
section, with the release, in the next.  A session's address is written as its number.
-/

namespace LvglAic.Spi

/-- `lv_aic_spi_session_config_t`, as far as the claims of a session depend on it. -/
structure SessionConfig where
  device : Nat
  tx : Nat
  capacity : Nat
  width : Nat
  height : Nat
  prefixBytes : Nat
  prefixLines : Nat
  dataLines : Nat
  swapBytes : Bool
deriving DecidableEq, Repr

/-- The width of a pointer, and where memory begins for the DMA of the chip. -/
structure Platform where
  uintptrMax : Nat
  ramBase : Nat
deriving DecidableEq, Repr

def lines (value : Nat) : Bool := value = 1 || value = 2 || value = 4

/-- The frame rounded up to cache lines. -/
def SessionConfig.span (c : SessionConfig) : Nat := (c.width * c.height * 2 + 63) / 64 * 64

def Platform.reaches (p : Platform) (address span : Nat) : Bool :=
  address % 64 = 0 && address ≤ 0xffffffff && span ≤ 0xffffffff + 1 - address &&
    p.ramBase ≤ address

/-- The checks of `lv_aic_spi_session_open` before the registry; `complete` says that the bus
has every operation. -/
def SessionConfig.accepted (p : Platform) (c : SessionConfig) (bus : Nat) (complete : Bool) :
    Bool :=
  c.device ≠ 0 && c.tx ≠ 0 && c.width ≠ 0 && c.height ≠ 0 && c.width ≤ 4096 &&
    c.height ≤ 4096 && lines c.dataLines && c.prefixBytes ≤ 4 &&
    (if c.prefixBytes ≠ 0 then lines c.prefixLines else c.prefixLines = 0) &&
    c.span ≤ c.capacity && p.reaches c.tx c.span && bus ≠ 0 && complete

/-- `struct lv_aic_spi_session`; the context of its GE converter is only there or not. -/
structure Session where
  id : Nat
  config : SessionConfig
  bus : Nat
  cacheBytes : Nat
  ownsTx : Bool
  back : Nat
  transfer : Option Transfer
  ge : Bool
deriving DecidableEq, Repr

/-- Bytes from `base` on. -/
structure Span where
  base : Nat
  bytes : Nat
deriving DecidableEq, Repr

def Span.Apart (a b : Span) : Prop := a.base + a.bytes ≤ b.base ∨ b.base + b.bytes ≤ a.base

/-- What a session claims: its transmit buffer and, once it has one, its back buffer. -/
def Session.spans (x : Session) : List Span :=
  ⟨x.config.tx, x.cacheBytes⟩ :: if x.back ≠ 0 then [⟨x.back, x.cacheBytes⟩] else []

/-- The blocks that close frees, in its order. -/
def Session.owned (x : Session) : List Nat :=
  (if x.back ≠ 0 then [x.back] else []) ++ if x.ownsTx then [x.config.tx] else []

def overlaps (address span other bytes : Nat) : Bool :=
  address < other + bytes && other < address + span

/-- The transmit or the back buffer of `p` overlaps the bytes from `address` on. -/
def Session.covers (p : Session) (address span : Nat) : Bool :=
  overlaps address span p.config.tx p.cacheBytes ||
    (p.back ≠ 0 && overlaps address span p.back p.cacheBytes)

/-- What `rt_spi_get_transfer_status` and the allocations of a session answer. -/
structure OpenAnswers where
  terminal : Bool
  session : Bool
  transfer : Bool
deriving DecidableEq, Repr

/-- The section of `lv_aic_spi_session_open`: the new session, unless it fails. -/
def openSection (p : Platform) (sessions : List Session) (id : Nat) (c : SessionConfig)
    (bus : Nat) (answers : OpenAnswers) : Option Session :=
  if sessions.any fun other => other.bus = bus || other.covers c.tx c.span then none
  else if !answers.terminal || !answers.session then none
  else
    match transferCreate p.uintptrMax c.tx c.capacity c.width c.height c.swapBytes true with
    | none => none
    | some transfer =>
        if answers.transfer then some ⟨id, c, bus, c.span, false, 0, some transfer, false⟩
        else none

/-- The section of `lv_aic_spi_session_enable_overlap`: the transfer with its back buffer,
unless it fails. -/
def overlapSection (p : Platform) (sessions : List Session) (x : Session) (back : Nat) :
    Option Transfer :=
  if sessions.any fun other => other.covers back x.cacheBytes then none
  else
    match x.transfer with
    | none => none
    | some transfer =>
        let (valid, after) := transfer.setBackBuffer p.uintptrMax back x.cacheBytes
        if valid then some after else none

/-- What `lv_aic_spi_session_close` does before the registry: whether it goes on, and the
transfer and the GE converter that are left. -/
def Session.settle (x : Session) (answers : Callbacks) (ge : SpiResult) :
    Bool × Option Transfer × Bool :=
  let left : Bool × Option Transfer :=
    match x.transfer with
    | none => (true, none)
    | some transfer =>
        let reply := transfer.close answers
        if reply.result = .ok then (true, none) else (false, some reply.transfer)
  if !left.1 then (false, left.2, x.ge)
  else if x.ge && ge ≠ .ok then (false, left.2, true)
  else (true, left.2, false)

/-- Where a thread is in its call. -/
inductive Progress where
  | idle
  | opening (c : SessionConfig) (bus : Nat) (owned : Bool)
  | openTaken (c : SessionConfig) (bus : Nat) (owned : Bool)
  | opened (id tx : Nat) (owned : Bool)
  | openFailed (tx : Nat) (owned : Bool)
  | enabling (id back : Nat)
  | enableTaken (id back : Nat)
  | enabled (id : Nat)
  | enableFailed (id back : Nat)
  | closing (id : Nat)
  | closeTaken (id : Nat)
  | unlinked (x : Session)
deriving DecidableEq, Repr

/-- `sessions` with its busy flag, the numbers used for sessions, the threads, and the blocks
that the CMA allocator has handed out. -/
structure Registry where
  sessions : List Session
  busy : Bool
  made : Nat
  threads : Nat → Progress
  blocks : List Span

/-- What a call does to what it shares. -/
inductive Effect where
  | allocated (block : Span)
  | freed (address : Nat)
  | registered (x : Session)
  | owned (id : Nat)
  | backed (id back : Nat) (transfer : Transfer)
  | settled (id : Nat) (transfer : Option Transfer) (ge : Bool)
  | unlinked (id : Nat)
deriving DecidableEq, Repr

/-- A call begins, for a session or for none; it acts; it returns, with success or not. -/
inductive SessionEvent where
  | called (thread : Nat) (own : Option Nat)
  | effect (thread : Nat) (effect : Effect)
  | returned (thread : Nat) (success : Bool)
deriving DecidableEq, Repr

namespace Registry

def empty : Registry := ⟨[], false, 0, fun _ => .idle, []⟩

def session (s : Registry) (id : Nat) : Option Session := s.sessions.find? fun x => x.id = id

def set (s : Registry) (t : Nat) (progress : Progress) : Registry :=
  { s with threads := Function.update s.threads t progress }

/-- Writes a session through its address. -/
def change (s : Registry) (id : Nat) (write : Session → Session) : Registry :=
  { s with sessions := s.sessions.map fun x => if x.id = id then write x else x }

def free (s : Registry) (address : Nat) : Registry :=
  { s with blocks := s.blocks.filter fun b => b.base ≠ address }

def sessionOpen (p : Platform) (s : Registry) (t : Nat) (c : SessionConfig) (bus : Nat)
    (complete : Bool) : Registry × List SessionEvent :=
  if c.accepted p bus complete then (s.set t (.opening c bus false), [.called t none])
  else (s, [.called t none, .returned t false])

/-- `block` is what the allocator gives, null when it fails. -/
def sessionOpenOwned (p : Platform) (s : Registry) (t : Nat) (c : SessionConfig)
    (budget block bus : Nat) (complete : Bool) : Registry × List SessionEvent :=
  if c.tx ≠ 0 || c.capacity ≠ 0 || c.width = 0 || c.height = 0 || c.width > 4096 ||
      c.height > 4096 || c.span > budget || block = 0 then
    (s, [.called t none, .returned t false])
  else
    let taken := { s with blocks := ⟨block, c.span⟩ :: s.blocks }
    let given := { c with tx := block, capacity := c.span }
    (taken.set t (if given.accepted p bus complete then .opening given bus true
        else .openFailed block true),
      [.called t none, .effect t (.allocated ⟨block, c.span⟩)])

def sessionEnableOverlap (p : Platform) (s : Registry) (t : Nat) (x : Session)
    (budget block : Nat) : Registry × List SessionEvent :=
  if x.transfer.isNone || x.back ≠ 0 || x.cacheBytes > budget || block = 0 then
    (s, [.called t (some x.id), .returned t false])
  else
    let taken := { s with blocks := ⟨block, x.cacheBytes⟩ :: s.blocks }
    (taken.set t (if p.reaches block x.cacheBytes then .enabling x.id block
        else .enableFailed x.id block),
      [.called t (some x.id), .effect t (.allocated ⟨block, x.cacheBytes⟩)])

/-- Close drains the transfer and the GE converter before it asks for the registry. -/
def sessionClose (s : Registry) (t : Nat) (x : Session) (answers : Callbacks) (ge : SpiResult) :
    Registry × List SessionEvent :=
  let (ready, transfer, left) := x.settle answers ge
  let after := s.change x.id fun x => { x with transfer := transfer, ge := left }
  let events := [.called t (some x.id), .effect t (.settled x.id transfer left)]
  if ready then (after.set t (.closing x.id), events) else (after, events ++ [.returned t false])

/-- `lv_aic_spi_session_submit_ex`, `lv_aic_spi_session_drain` and
`lv_aic_spi_session_enable_ge2d` only write the session they are called on. -/
def sessionTransfer (s : Registry) (t : Nat) (x : Session) (after : Transfer) (ge : Bool) :
    Registry × List SessionEvent :=
  (s.change x.id fun x => { x with transfer := some after, ge := ge },
    [.called t (some x.id), .effect t (.settled x.id (some after) ge)])

/-- The test-and-set of the busy flag. -/
def takeRegistry (s : Registry) (t : Nat) : Option (Registry × List SessionEvent) :=
  match s.threads t with
  | .opening c bus owned =>
      if s.busy then some (s.set t (.openFailed c.tx owned), [])
      else some ({ s with busy := true }.set t (.openTaken c bus owned), [])
  | .enabling id back =>
      if s.busy then some (s.set t (.enableFailed id back), [])
      else some ({ s with busy := true }.set t (.enableTaken id back), [])
  | .closing id =>
      if s.busy then some (s.set t .idle, [.returned t false])
      else some ({ s with busy := true }.set t (.closeTaken id), [])
  | _ => none

/-- A section, up to the release of the busy flag. -/
def criticalSection (p : Platform) (s : Registry) (t : Nat) (answers : OpenAnswers) :
    Option (Registry × List SessionEvent) :=
  let left := { s with busy := false }
  match s.threads t with
  | .openTaken c bus owned =>
      match openSection p s.sessions s.made c bus answers with
      | none => some (left.set t (.openFailed c.tx owned), [])
      | some x =>
          some ({ left with sessions := x :: s.sessions, made := s.made + 1 }.set t
            (.opened x.id c.tx owned), [.effect t (.registered x)])
  | .enableTaken id back =>
      match s.session id with
      | none => none
      | some x =>
          match overlapSection p s.sessions x back with
          | none => some (left.set t (.enableFailed id back), [])
          | some transfer =>
              some ((left.change id fun x => { x with back := back, transfer := some transfer }).set
                t (.enabled id), [.effect t (.backed id back transfer)])
  | .closeTaken id =>
      match s.session id with
      | none => none
      | some x =>
          some ({ left with sessions := s.sessions.eraseP fun other => other.id = id }.set t
            (.unlinked x), [.effect t (.unlinked id)])
  | _ => none

/-- What is left of a call after the registry, up to its return. -/
def finishCall (s : Registry) (t : Nat) : Option (Registry × List SessionEvent) :=
  match s.threads t with
  | .opened id _ owned =>
      if owned then
        some ((s.change id fun x => { x with ownsTx := true }).set t .idle,
          [.effect t (.owned id), .returned t true])
      else some (s.set t .idle, [.returned t true])
  | .openFailed tx owned =>
      if owned then some ((s.free tx).set t .idle, [.effect t (.freed tx), .returned t false])
      else some (s.set t .idle, [.returned t false])
  | .enabled _ => some (s.set t .idle, [.returned t true])
  | .enableFailed _ back =>
      some ((s.free back).set t .idle, [.effect t (.freed back), .returned t false])
  | .unlinked x =>
      some ((x.owned.foldl free s).set t .idle,
        (x.owned.map fun address => .effect t (.freed address)) ++ [.returned t true])
  | _ => none

end Registry

/-- A step of a thread, with what it reads and what the calls in it answer. -/
inductive SessionAct where
  | openSession (c : SessionConfig) (bus : Nat) (complete : Bool)
  | openOwned (c : SessionConfig) (budget block bus : Nat) (complete : Bool)
  | enableOverlap (id budget block : Nat)
  | submit (id : Nat) (answers : Callbacks)
  | drain (id : Nat) (answers : Callbacks)
  | enableGe2d (id transform context : Nat)
  | close (id : Nat) (answers : Callbacks) (ge : SpiResult)
  | take
  | criticalSection (answers : OpenAnswers)
  | finish
deriving DecidableEq, Repr

/-- A call on a session that exists begins on a thread that is in none. -/
def Registry.begin (s : Registry) (t id : Nat)
    (call : Session → Option (Registry × List SessionEvent)) :
    Option (Registry × List SessionEvent) :=
  if s.threads t ≠ .idle then none else (s.session id).bind call

def sessionMachine (p : Platform) : Machine Registry (Nat × SessionAct) SessionEvent where
  Initial s := s = Registry.empty
  step s action :=
    let t := action.1
    match action.2 with
    | .openSession c bus complete =>
        if s.threads t ≠ .idle then none else some (s.sessionOpen p t c bus complete)
    | .openOwned c budget block bus complete =>
        if s.threads t ≠ .idle then none
        else some (s.sessionOpenOwned p t c budget block bus complete)
    | .enableOverlap id budget block =>
        s.begin t id fun x => some (s.sessionEnableOverlap p t x budget block)
    | .submit id answers =>
        s.begin t id fun x => x.transfer.bind fun transfer =>
          some (s.sessionTransfer t x (transfer.submitEx answers).transfer x.ge)
    | .drain id answers =>
        s.begin t id fun x => x.transfer.bind fun transfer =>
          some (s.sessionTransfer t x (transfer.drain answers).transfer x.ge)
    | .enableGe2d id transform context =>
        s.begin t id fun x => x.transfer.bind fun transfer =>
          let set := transfer.setTransform transform context
          if x.ge || !set.1 then none else some (s.sessionTransfer t x set.2 true)
    | .close id answers ge => s.begin t id fun x => some (s.sessionClose t x answers ge)
    | .take => s.takeRegistry t
    | .criticalSection answers => s.criticalSection p t answers
    | .finish => s.finishCall t

/-! ## What callers and the allocator promise -/

/-- The session that a call in progress works on. -/
def Progress.session : Progress → Option Nat
  | .opened id _ _ | .enabling id _ | .enableTaken id _ | .enabled id | .enableFailed id _ |
    .closing id | .closeTaken id => some id
  | _ => none

/-- The session that a call in progress has for itself: its handle is not out yet, or it is
being closed. -/
def Progress.reserves : Progress → Option Nat
  | .opened id _ _ | .closing id | .closeTaken id => some id
  | _ => none

/-- A new block is apart from every block that is out. -/
def Registry.Fresh (s : Registry) (block bytes : Nat) : Prop :=
  block ≠ 0 → ∀ b ∈ s.blocks, Span.Apart b ⟨block, bytes⟩

/-- Its handle is out, and nobody closes it. -/
def Registry.Usable (s : Registry) (id : Nat) : Prop :=
  ∀ t, (s.threads t).reserves ≠ some id

/-- Blocks are disjoint from those that are out; nobody uses a session that is being closed. -/
def SessionAllowed (_ : List SessionEvent) (s : Registry) (action : Nat × SessionAct) : Prop :=
  match action.2 with
  | .openOwned c _ block _ _ => s.Fresh block c.span
  | .enableOverlap id _ block =>
      s.Usable id ∧ ∀ x, s.session id = some x → s.Fresh block x.cacheBytes
  | .submit id _ | .drain id _ | .enableGe2d id _ _ => s.Usable id
  | .close id _ _ => ∀ t, (s.threads t).session ≠ some id
  | _ => True

end LvglAic.Spi
