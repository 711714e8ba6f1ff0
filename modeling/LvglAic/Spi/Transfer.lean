import LvglAic.Machine.Run

/-! # The SPI transfer session (`lv_aic_spi_transfer.c`)

Pointers are addresses, null is zero.  The transport callbacks and the frame
conversion are answered by the environment: every operation takes the answers
its callbacks give, and returns the effects it had on the transport.
-/

namespace LvglAic.Spi

/-- `lv_aic_spi_result_t`. -/
inductive SpiResult where
  | ok
  | invalid
  | busy
  | fault
deriving DecidableEq, Repr

/-- `struct lv_aic_spi_transfer`. -/
structure Transfer where
  tx : Nat
  back : Nat
  active : Nat
  capacity : Nat
  backCapacity : Nat
  width : Nat
  height : Nat
  transform : Nat
  transformContext : Nat
  swap : Bool
  pending : Bool
  busy : Bool
  fault : Bool
  started : Bool
deriving DecidableEq, Repr

/-- What a transfer does to the transport and to its pixel storage. -/
inductive TransferEvent where
  | convert (output capacity : Nat) (result : SpiResult)
  | start (pixels bytes : Nat) (accepted : Bool)
  | wait (completed : Bool)
  | free
deriving DecidableEq, Repr

/-- The answers of `s->transform`, `lv_aic_spi_pack_rgb565`, `ops.wait` and
`ops.start` during one call; each is asked at most once. -/
structure Callbacks where
  transform : SpiResult
  pack : Bool
  wait : Bool
  start : Bool
deriving DecidableEq, Repr

/-- The outcome of a call: its result, the `previous_completed` receipt, the
session afterwards and the effects in order. -/
structure Reply where
  result : SpiResult
  receipt : Bool := false
  transfer : Transfer
  events : List TransferEvent := []
deriving DecidableEq, Repr

/-- Continue only after `LV_AIC_SPI_OK`, accumulating receipt and effects. -/
def Reply.andThen (reply : Reply) (next : Transfer → Reply) : Reply :=
  if reply.result = .ok then
    let following := next reply.transfer
    { result := following.result
      receipt := reply.receipt || following.receipt
      transfer := following.transfer
      events := reply.events ++ following.events }
  else reply

/-- Bytes of one packed frame, `(size_t)width*height*2`. -/
def Transfer.frameBytes (s : Transfer) : Nat := s.width * s.height * 2

def transferCreate (uintptrMax tx capacity width height : Nat) (swap : Bool) (hasOps : Bool) :
    Option Transfer :=
  if tx = 0 ∨ hasOps = false ∨ width = 0 ∨ height = 0 ∨ width > 4096 ∨ height > 4096 then none
  else if capacity < width * height * 2 ∨ width * height * 2 > uintptrMax - tx then none
  else some {
    tx, back := 0, active := 0, capacity, backCapacity := 0, width, height
    transform := 0, transformContext := 0, swap
    pending := false, busy := false, fault := false, started := false }

def Transfer.setTransform (s : Transfer) (transform context : Nat) : Bool × Transfer :=
  if transform = 0 ∨ s.busy = true ∨ s.started = true ∨ s.transform ≠ 0 ∨ s.fault = true then
    (false, s)
  else (true, { s with transform, transformContext := context })

def Transfer.setBackBuffer (uintptrMax : Nat) (s : Transfer) (pixels capacity : Nat) :
    Bool × Transfer :=
  if pixels = 0 ∨ s.busy = true ∨ s.started = true ∨ s.fault = true ∨ s.back ≠ 0 then (false, s)
  else if capacity < s.frameBytes ∨ capacity > uintptrMax - pixels ∨
      s.capacity > uintptrMax - s.tx ∨
      (pixels < s.tx + s.capacity ∧ s.tx < pixels + capacity) then (false, s)
  else (true, { s with back := pixels, backCapacity := capacity })

def Transfer.finish (s : Transfer) (answers : Callbacks) : Reply :=
  if s.fault then { result := .fault, transfer := s }
  else if s.pending then
    if answers.wait then
      { result := .ok, receipt := true, transfer := { s with pending := false }
        events := [.wait true] }
    else { result := .fault, transfer := { s with fault := true }, events := [.wait false] }
  else { result := .ok, transfer := s }

/-- With a back buffer, the buffer that does not carry the pending transfer. -/
def Transfer.output (s : Transfer) : Nat :=
  if s.back ≠ 0 ∧ s.pending = true ∧ s.active = s.tx then s.back else s.tx

def Transfer.outputCapacity (s : Transfer) : Nat :=
  if s.output = s.tx then s.capacity else s.backCapacity

/-- The conversion of `lv_aic_spi_transfer_submit_ex`, with its result check. -/
def Transfer.convert (s : Transfer) (answers : Callbacks) (output capacity : Nat) : Reply :=
  let answer :=
    if s.transform ≠ 0 then answers.transform else if answers.pack then .ok else .invalid
  { result := answer
    transfer := if answer = .fault then { s with fault := true } else s
    events := [.convert output capacity answer] }

/-- `pending` is set before `ops.start`: a failed submission may have started DMA. -/
def Transfer.launch (s : Transfer) (answers : Callbacks) (output : Nat) : Reply :=
  { result := if answers.start then .ok else .fault
    transfer := { s with active := output, pending := true, fault := s.fault || !answers.start }
    events := [.start output s.frameBytes answers.start] }

/-- Before the conversion only a single-buffer session waits. -/
def Transfer.prepare (s : Transfer) (answers : Callbacks) : Reply :=
  if s.back ≠ 0 then { result := if s.fault then .fault else .ok, transfer := s }
  else s.finish answers

/-- After the conversion only a double-buffer session waits. -/
def Transfer.verify (s : Transfer) (answers : Callbacks) : Reply :=
  if s.back ≠ 0 then s.finish answers else { result := .ok, transfer := s }

/-- `lv_aic_spi_transfer_submit_ex`. -/
def Transfer.submitEx (s : Transfer) (answers : Callbacks) : Reply :=
  if s.busy then { result := .busy, transfer := s }
  else
    let ready := { s with busy := true, started := true }.prepare answers
    let output := ready.transfer.output
    let capacity := ready.transfer.outputCapacity
    let launched := ((ready.andThen (·.convert answers output capacity)).andThen
      (·.verify answers)).andThen (·.launch answers output)
    { launched with transfer := { launched.transfer with busy := false } }

/-- `lv_aic_spi_transfer_drain`. -/
def Transfer.drain (s : Transfer) (answers : Callbacks) : Reply :=
  if s.busy then { result := .busy, transfer := s }
  else
    let finished := { s with busy := true }.finish answers
    { finished with receipt := false, transfer := { finished.transfer with busy := false } }

/-- `lv_aic_spi_transfer_close`: the context is freed after a successful drain. -/
def Transfer.close (s : Transfer) (answers : Callbacks) : Reply :=
  let drained := s.drain answers
  if drained.result = .ok then { drained with events := drained.events ++ [.free] } else drained

/-- One call on a session handle. -/
inductive TransferCall where
  | setTransform (transform context : Nat)
  | setBackBuffer (pixels capacity : Nat)
  | submitEx (answers : Callbacks)
  | drain (answers : Callbacks)
  | close (answers : Callbacks)
deriving DecidableEq, Repr

/-- What a call returns: a `bool` of a setter or the result of an operation. -/
inductive TransferReturn where
  | configured (accepted : Bool)
  | result (result : SpiResult) (receipt : Bool)
deriving DecidableEq, Repr

/-- A live session, or a handle whose context `close` has freed. -/
inductive Handle where
  | live (transfer : Transfer)
  | freed
deriving DecidableEq, Repr

def Transfer.call (uintptrMax : Nat) (s : Transfer) :
    TransferCall → TransferReturn × Handle × List TransferEvent
  | .setTransform transform context =>
      let (accepted, after) := s.setTransform transform context
      (.configured accepted, .live after, [])
  | .setBackBuffer pixels capacity =>
      let (accepted, after) := s.setBackBuffer uintptrMax pixels capacity
      (.configured accepted, .live after, [])
  | .submitEx answers =>
      let reply := s.submitEx answers
      (.result reply.result reply.receipt, .live reply.transfer, reply.events)
  | .drain answers =>
      let reply := s.drain answers
      (.result reply.result reply.receipt, .live reply.transfer, reply.events)
  | .close answers =>
      let reply := s.close answers
      (.result reply.result reply.receipt,
        if reply.result = .ok then .freed else .live reply.transfer, reply.events)

/-- Any sequence of calls on a session that `lv_aic_spi_transfer_create` made. -/
def transferMachine (uintptrMax : Nat) : Machine Handle TransferCall TransferEvent where
  Initial handle := ∃ tx capacity width height swap hasOps created,
    transferCreate uintptrMax tx capacity width height swap hasOps = some created ∧
      handle = .live created
  step handle call :=
    match handle with
    | .live s => some ((s.call uintptrMax call).2)
    | .freed => none

end LvglAic.Spi
