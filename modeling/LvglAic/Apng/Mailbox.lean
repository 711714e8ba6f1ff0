import LvglAic.Machine.Run

/-! # The snapshot mailbox (`lv_aic_apng_frames.c`)

One publisher thread and one UI thread share the slots under a lock.  A step is
one critical section, or one pixel that the publisher writes without the lock.
The caller of a publication does not change its pixels before it returns.
-/

namespace LvglAic.Apng

inductive SlotState where
  | free
  | writing
  | ready
  | claimed
  | leased
deriving DecidableEq, Repr

structure Slot where
  pixels : Nat → UInt32
  sequence : Nat
  state : SlotState

/-- The arguments of `lv_aic_apng_frames_publish`; address 0 is `NULL`. -/
structure Source where
  rgba : Nat → UInt8
  address : Nat
  stride : Nat
  capacity : Nat
  sequence : Nat

/-- An image that a poll returned, with the sequence number it came with. -/
structure Image (count : Nat) where
  slot : Fin count
  sequence : Nat
deriving DecidableEq, Repr

inductive PublisherPc (count : Nat) where
  | idle
  | writing (slot : Fin count) (source : Source) (done : Nat)

/-- A poll between its two sections; `creating` is inside the image constructor. -/
inductive PollPc (count : Nat) where
  | idle
  | creating (slot : Fin count)
  | undoing (slot : Fin count)
deriving DecidableEq, Repr

inductive MailboxEvent (count : Nat) where
  | published (source : Source)
  | refused (source : Source)
  | polled (image : Image count)
  | pollFailed
  | released (image : Image count)

/-- `struct lv_aic_apng_frames`, the images not yet released, and both threads;
`base` is the address of the pixels, `addressMax` is `UINTPTR_MAX`. -/
structure Mailbox (count : Nat) where
  width : Nat
  height : Nat
  base : Nat
  addressMax : Nat
  lastSequence : Nat
  closed : Bool
  preserve : Bool
  slots : Fin count → Slot
  images : List (Image count)
  publisher : PublisherPc count
  ui : PollPc count

namespace Mailbox

variable {count : Nat}

/-- `lv_aic_apng_frames_create`; `overhead` is the size of the pool's metadata. -/
def create (count width height budget overhead base addressMax : Nat) : Option (Mailbox count) :=
  if width = 0 || height = 0 || 4096 < width || 4096 < height ||
      8 * 1024 * 1024 < width * height || count < 2 || 8 < count then none
  else if budget < overhead || (budget - overhead) / count < width * height * 4 then none
  else some {
    width := width
    height := height
    base := base
    addressMax := addressMax
    lastSequence := 0
    closed := false
    preserve := false
    slots := fun _ => { pixels := fun _ => 0, sequence := 0, state := .free }
    images := []
    publisher := .idle
    ui := .idle }

def setSlot (f : Mailbox count) (index : Fin count) (slot : Slot) : Mailbox count :=
  { f with slots := Function.update f.slots index slot }

def setState (f : Mailbox count) (index : Fin count) (state : SlotState) : Mailbox count :=
  f.setSlot index { f.slots index with state := state }

/-- The lowest slot in the state. -/
def firstSlot (f : Mailbox count) (state : SlotState) : Option (Fin count) :=
  (List.finRange count).find? fun index => (f.slots index).state == state

/-- `pending_locked` -/
def pending (f : Mailbox count) : Bool :=
  (List.finRange count).any fun index =>
    (f.slots index).state == .ready || (f.slots index).state == .claimed

/-- `lv_aic_apng_frames_blocked` -/
def blocked (f : Mailbox count) : Bool := f.preserve && f.pending

/-! ## The publisher -/

/-- The arguments describe a whole frame inside the address space. -/
def accepts (f : Mailbox count) (source : Source) : Bool :=
  source.address ≠ 0 && source.sequence ≠ 0 && f.width * 4 ≤ source.stride &&
    (f.height ≤ 1 || source.stride ≤ (f.addressMax - f.width * 4) / (f.height - 1)) &&
    (f.height - 1) * source.stride + f.width * 4 ≤ source.capacity &&
    source.capacity ≠ 0 && source.capacity - 1 ≤ f.addressMax - source.address

/-- The source lies in the pixels of the pool. -/
def overlaps (f : Mailbox count) (source : Source) : Bool :=
  if source.address ≤ f.base then f.base - source.address < source.capacity
  else source.address - f.base < f.width * f.height * 4 * count

/-- `publish` up to the end of its first section. -/
def publish (f : Mailbox count) (source : Source) : Mailbox count × List (MailboxEvent count) :=
  if !f.accepts source then (f, [.refused source])
  else if f.closed || source.sequence ≤ f.lastSequence then (f, [.refused source])
  else if f.preserve && f.pending then (f, [.refused source])
  else
    match (f.firstSlot .ready).or (f.firstSlot .free) with
    | none => (f, [.refused source])
    | some slot =>
        if f.overlaps source then (f, [.refused source])
        else ({ f.setState slot .writing with publisher := .writing slot source 0 }, [])

/-- The ARGB word of a pixel, counted row by row. -/
def argb (width : Nat) (source : Source) (pixel : Nat) : UInt32 :=
  let s := pixel / width * source.stride + pixel % width * 4
  (source.rgba (s + 3)).toUInt32 <<< 24 ||| (source.rgba s).toUInt32 <<< 16 |||
    (source.rgba (s + 1)).toUInt32 <<< 8 ||| (source.rgba (s + 2)).toUInt32

/-- The next pixel. -/
def writePixel (f : Mailbox count) (slot : Fin count) (source : Source) (done : Nat) :
    Mailbox count :=
  { f.setSlot slot { f.slots slot with
      pixels := Function.update (f.slots slot).pixels done (argb f.width source done) } with
    publisher := .writing slot source (done + 1) }

/-- The second section of `publish`. -/
def commit (f : Mailbox count) (slot : Fin count) (source : Source) :
    Mailbox count × List (MailboxEvent count) :=
  if f.closed then ({ f.setState slot .free with publisher := .idle }, [.refused source])
  else
    ({ f.setSlot slot { f.slots slot with sequence := source.sequence, state := .ready } with
        lastSequence := source.sequence, publisher := .idle }, [.published source])

def stepPublisher (f : Mailbox count) : Option (Mailbox count × List (MailboxEvent count)) :=
  match f.publisher with
  | .idle => none
  | .writing slot source done =>
      if done < f.width * f.height then some (f.writePixel slot source done, [])
      else some (f.commit slot source)

/-- READY slots become FREE, as in `close` and `discard`. -/
def dropReady (f : Mailbox count) : Mailbox count :=
  { f with slots := fun index =>
      if (f.slots index).state = .ready then { f.slots index with state := .free }
      else f.slots index }

/-! ## The UI thread -/

/-- `poll` up to the end of its first section. -/
def poll (f : Mailbox count) : Mailbox count × List (MailboxEvent count) :=
  if f.closed then (f, [.pollFailed])
  else
    match f.firstSlot .ready with
    | none => (f, [.pollFailed])
    | some slot => ({ f.setState slot .claimed with ui := .creating slot }, [])

/-- The image constructor; it retains the slot last, and cannot fail after that. -/
def createImage (f : Mailbox count) (slot : Fin count) (created : Bool) :
    Mailbox count × List (MailboxEvent count) :=
  if created && (f.slots slot).state == .claimed then
    ({ f.setState slot .leased with
        images := f.images ++ [{ slot := slot, sequence := (f.slots slot).sequence }]
        ui := .idle },
      [.polled { slot := slot, sequence := (f.slots slot).sequence }])
  else ({ f with ui := .undoing slot }, [])

def undo (f : Mailbox count) (slot : Fin count) : Mailbox count × List (MailboxEvent count) :=
  ({ f.setState slot (if f.preserve && !f.closed then .ready else .free) with ui := .idle },
    [.pollFailed])

/-- `lv_aic_apng_frames_close` -/
def close (f : Mailbox count) : Mailbox count := { f.dropReady with closed := true }

/-- `lv_aic_apng_frames_destroy`, as far as it returns. -/
def destroy (f : Mailbox count) : Bool :=
  (List.finRange count).all fun index => (f.close.slots index).state == .free

/-- `release`, the callback of an image. -/
def release (f : Mailbox count) (image : Image count) :
    Mailbox count × List (MailboxEvent count) :=
  ({ f.setState image.slot .free with images := f.images.erase image }, [.released image])

end Mailbox

inductive MailboxAction (count : Nat) where
  | publish (source : Source)
  | publisher
  | discard
  | poll
  | create (created : Bool)
  | undo
  | preserve (enabled : Bool)
  | close
  | release (image : Image count)

/-- The calls of a thread follow each other; an image is released once. -/
def Mailbox.step {count : Nat} (f : Mailbox count) :
    MailboxAction count → Option (Mailbox count × List (MailboxEvent count))
  | .publish source =>
      match f.publisher with
      | .idle => some (f.publish source)
      | .writing _ _ _ => none
  | .publisher => f.stepPublisher
  | .discard =>
      match f.publisher with
      | .idle => some (f.dropReady, [])
      | .writing _ _ _ => none
  | .poll => if f.ui = .idle then some f.poll else none
  | .create created =>
      match f.ui with
      | .creating slot => some (f.createImage slot created)
      | _ => none
  | .undo =>
      match f.ui with
      | .undoing slot => some (f.undo slot)
      | _ => none
  | .preserve enabled => if f.ui = .idle then some ({ f with preserve := enabled }, []) else none
  | .close => if f.ui = .idle then some (f.close, []) else none
  | .release image => if image ∈ f.images then some (f.release image) else none

/-- A mailbox that `lv_aic_apng_frames_create` made. -/
def mailboxMachine (count : Nat) : Machine (Mailbox count) (MailboxAction count) (MailboxEvent count)
    where
  Initial f := ∃ width height budget overhead base addressMax,
    Mailbox.create count width height budget overhead base addressMax = some f
  step := Mailbox.step

end LvglAic.Apng
