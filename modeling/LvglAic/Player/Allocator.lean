import LvglAic.Machine.Run

/-! # The CMA frame allocator (`lv_aic_player_allocator.c`)

Every call runs under the lock.  `aicos_malloc_align` answers with an address, 0
for `NULL`; a call emits what it obtains from it and gives back.
-/

namespace LvglAic.Player

def frameCount : Nat := 32

/-- `LINE` -/
def line : Nat := 32

def uint32Max : Nat := 2 ^ 32 - 1

def int32Max : Nat := 2 ^ 31 - 1

abbrev FrameIndex := Fin frameCount

abbrev Plane := Fin 3

/-- `enum mpp_pixel_format`; the decoder's other formats are refused. -/
inductive PixelFormat where
  | yuv420p
  | yuv422p
  | yuv444p
  | nv12
  | nv21
  | yuv400
  | rgb565
  | bgr565
  | rgb888
  | bgr888
  | argb8888
  | abgr8888
  | rgba8888
  | bgra8888
  | other (code : Nat)
deriving DecidableEq, Repr

inductive BufType where
  | dmaBufFd
  | phyAddr
deriving DecidableEq, Repr

structure Rect where
  x : Int
  y : Int
  width : Int
  height : Int
deriving DecidableEq, Repr

/-- `struct mpp_buf` -/
structure MppBuf where
  bufType : BufType
  phyAddr : Plane → Nat
  stride : Plane → Nat
  width : Int
  height : Int
  format : PixelFormat
  cropEn : Nat
  crop : Rect
  flags : Nat
deriving DecidableEq

def MppBuf.zero : MppBuf where
  bufType := .dmaBufFd
  phyAddr _ := 0
  stride _ := 0
  width := 0
  height := 0
  format := .other 0
  cropEn := 0
  crop := { x := 0, y := 0, width := 0, height := 0 }
  flags := 0

/-- `struct allocation` -/
structure Allocation where
  buf : MppBuf
  capacity : Plane → Nat
  ticket : Nat
  live : Bool
  retired : Bool
deriving DecidableEq

def Allocation.zero : Allocation where
  buf := .zero
  capacity _ := 0
  ticket := 0
  live := false
  retired := false

/-- A block of CMA memory. -/
structure Block where
  address : Nat
  size : Nat
deriving DecidableEq, Repr

/-- The memory of the planes. -/
def Allocation.blocks (r : Allocation) : List Block :=
  ((List.finRange 3).filter fun plane => r.capacity plane ≠ 0).map fun plane =>
    { address := r.buf.phyAddr plane, size := r.capacity plane }

/-- `struct lv_aic_player_allocator`, until it is destroyed. -/
structure Allocator where
  budget : Nat
  used : Nat
  nextTicket : Nat
  frames : FrameIndex → Allocation
  destroyed : Bool

inductive AllocatorEvent where
  | obtained (block : Block)
  | freed (address : Nat)
  | allocated (index : FrameIndex) (blocks : List Block)
  | sdkFreed (index : FrameIndex)
  | pinned (index : FrameIndex) (ticket : Nat)
  | unpinned (index : FrameIndex)
  | destroyed
deriving DecidableEq, Repr

/-! ## Layouts -/

/-- What `layout` reads off a format. -/
structure Sampling where
  planes : Nat
  bytes : Nat
  halfX : Bool
  halfY : Bool
deriving DecidableEq, Repr

def PixelFormat.sampling : PixelFormat → Option Sampling
  | .yuv420p => some { planes := 3, bytes := 1, halfX := true, halfY := true }
  | .yuv422p => some { planes := 3, bytes := 1, halfX := true, halfY := false }
  | .yuv444p => some { planes := 3, bytes := 1, halfX := false, halfY := false }
  | .nv12 | .nv21 => some { planes := 2, bytes := 1, halfX := true, halfY := true }
  | .yuv400 => some { planes := 1, bytes := 1, halfX := false, halfY := false }
  | .rgb565 | .bgr565 => some { planes := 1, bytes := 2, halfX := false, halfY := false }
  | .rgb888 | .bgr888 => some { planes := 1, bytes := 3, halfX := false, halfY := false }
  | .argb8888 | .abgr8888 | .rgba8888 | .bgra8888 =>
      some { planes := 1, bytes := 4, halfX := false, halfY := false }
  | .other _ => none

def Sampling.pitch (s : Sampling) (stride : Nat) (plane : Plane) : Nat :=
  if plane.val ≠ 0 && s.planes = 3 && s.halfX then stride / 2 else stride

def Sampling.rows (s : Sampling) (height : Nat) (plane : Plane) : Nat :=
  if plane.val ≠ 0 && s.halfY then height / 2 else height

/-- `size`, 0 for a plane that the format does not have. -/
def Sampling.size (s : Sampling) (stride height : Nat) (plane : Plane) : Nat :=
  if plane.val < s.planes then s.pitch stride plane * s.rows height plane else 0

/-- A size rounded up to whole lines. -/
def roundLine (size : Nat) : Nat := (size + line - 1) / line * line

/-- The frame that `layout` makes of one of the given width. -/
def layout (buf : MppBuf) (stride height : Int) (format : PixelFormat) :
    Option (MppBuf × (Plane → Nat)) :=
  if buf.width < 1 || 4096 < buf.width || height < 1 || 4096 < height || stride < 1 ||
      8 * 1024 * 1024 < buf.width * height then none
  else
    match format.sampling with
    | none => none
    | some s =>
        if stride.toNat < buf.width.toNat * s.bytes || (s.halfX && stride.toNat % 2 = 1) ||
            (s.halfY && height.toNat % 2 = 1) then none
        else if (List.finRange 3).any fun plane =>
            uint32Max - (line - 1) < s.size stride.toNat height.toNat plane then none
        else some
          ({ buf with
              bufType := .phyAddr
              format := format
              height := height
              stride := fun plane =>
                if plane.val < s.planes then s.pitch stride.toNat plane else buf.stride plane },
            fun plane => roundLine (s.size stride.toNat height.toNat plane))

/-! ## Calls -/

namespace Allocator

def create (budget : Nat) : Option Allocator :=
  if budget = 0 then none
  else some {
    budget := budget
    used := 0
    nextTicket := 0
    frames := fun _ => .zero
    destroyed := false }

/-- The lowest index that satisfies the test. -/
def firstFrame (test : FrameIndex → Bool) : Option FrameIndex :=
  (List.finRange frameCount).find? test

def setFrame (a : Allocator) (index : FrameIndex) (r : Allocation) : Allocator :=
  { a with frames := Function.update a.frames index r }

/-- Memory that the hardware cannot take. -/
def rejected (address capacity : Nat) : Bool :=
  address = 0 || address % line ≠ 0 || uint32Max < address || uint32Max - address + 1 < capacity

/-- The planes still to obtain, after the planes that were. -/
def obtain (capacity answers : Plane → Nat) :
    List Plane → List Plane → Bool × List AllocatorEvent
  | [], _ => (true, [])
  | plane :: rest, held =>
      if capacity plane = 0 then obtain capacity answers rest held
      else if rejected (answers plane) (capacity plane) then
        (false, (if answers plane = 0 then []
            else [.obtained { address := answers plane, size := capacity plane },
              .freed (answers plane)]) ++ held.map fun plane => .freed (answers plane))
      else
        let others := obtain capacity answers rest (held ++ [plane])
        (others.1, .obtained { address := answers plane, size := capacity plane } :: others.2)

/-- The record of a new allocation. -/
def newFrame (buf : MppBuf) (capacity answers : Plane → Nat) : Allocation where
  buf := { buf with phyAddr := fun plane => if capacity plane = 0 then 0 else answers plane }
  capacity := capacity
  ticket := 0
  live := true
  retired := false

/-- `allocate`: the frame it returns, if it succeeds. -/
def allocate (a : Allocator) (frame : Option MppBuf) (stride height : Int) (format : PixelFormat)
    (answers : Plane → Nat) : Option MppBuf × Allocator × List AllocatorEvent :=
  match frame with
  | none => (none, a, [])
  | some frame =>
      match layout { MppBuf.zero with width := frame.width } stride height format with
      | none => (none, a, [])
      | some (buf, capacity) =>
          match firstFrame fun index => !(a.frames index).live with
          | none => (none, a, [])
          | some slot =>
              let bytes := capacity 0 + capacity 1 + capacity 2
              if a.budget - a.used < bytes then (none, a, [])
              else
                let obtained := obtain capacity answers (List.finRange 3) []
                if !obtained.1 then (none, a, obtained.2)
                else
                  let next := newFrame buf capacity answers
                  (some { next.buf with
                      cropEn := frame.cropEn
                      crop := frame.crop
                      flags := frame.flags },
                    { a.setFrame slot next with used := a.used + bytes },
                    obtained.2 ++ [.allocated slot next.blocks])

def «matches» (r : Allocation) (frame : MppBuf) : Bool :=
  r.live && frame.bufType = .phyAddr &&
    (List.finRange 3).all (fun plane => r.buf.phyAddr plane = frame.phyAddr plane) &&
    r.buf.format = frame.format

def dispose (a : Allocator) (index : FrameIndex) : Allocator × List AllocatorEvent :=
  let r := a.frames index
  ({ a.setFrame index .zero with used := a.used - (r.capacity 0 + r.capacity 1 + r.capacity 2) },
    r.blocks.map fun block => .freed block.address)

/-- `free_frame`: whether it returns 0. -/
def freeFrame (a : Allocator) (frame : Option MppBuf) : Bool × Allocator × List AllocatorEvent :=
  match frame with
  | none => (false, a, [])
  | some frame =>
      match firstFrame fun index => «matches» (a.frames index) frame with
      | none => ((List.finRange 3).all (fun plane => frame.phyAddr plane = 0), a, [])
      | some index =>
          if (a.frames index).retired then (false, a, [])
          else if (a.frames index).ticket ≠ 0 then
            (true, a.setFrame index { a.frames index with retired := true }, [.sdkFreed index])
          else (true, (a.dispose index).1, .sdkFreed index :: (a.dispose index).2)

/-- The frame may be pinned on the record. -/
def pinnable (a : Allocator) (frame : MppBuf) (r : Allocation) : Bool :=
  «matches» r frame && !r.retired && r.ticket = 0 && a.nextTicket ≠ 2 ^ 64 - 1 &&
    frame.width ≤ r.buf.width && frame.height ≤ r.buf.height && frame.stride 0 ≤ int32Max &&
    match layout { MppBuf.zero with width := frame.width } (frame.stride 0) frame.height
      frame.format with
    | none => false
    | some (view, capacity) =>
        (List.finRange 3).all (fun plane => view.stride plane = frame.stride plane) &&
          (List.finRange 3).all (fun plane => capacity plane ≤ r.capacity plane)

/-- `lv_aic_player_allocator_acquire`: the capacities and the ticket. -/
def acquire (a : Allocator) (frame : Option MppBuf) :
    Option ((Plane → Nat) × Nat) × Allocator × List AllocatorEvent :=
  match frame with
  | none => (none, a, [])
  | some frame =>
      match firstFrame fun index => a.pinnable frame (a.frames index) with
      | none => (none, a, [])
      | some index =>
          let ticket := a.nextTicket + 1
          (some ((a.frames index).capacity, ticket),
            { a.setFrame index { a.frames index with ticket := ticket } with
              nextTicket := ticket },
            [.pinned index ticket])

def release (a : Allocator) (ticket : Nat) : Bool × Allocator × List AllocatorEvent :=
  if ticket = 0 then (false, a, [])
  else
    match firstFrame fun index => (a.frames index).ticket == ticket with
    | none => (false, a, [])
    | some index =>
        let unpinned := a.setFrame index { a.frames index with ticket := 0 }
        if (a.frames index).retired then
          (true, (unpinned.dispose index).1, .unpinned index :: (unpinned.dispose index).2)
        else (true, unpinned, [.unpinned index])

def destroy (a : Allocator) : Bool × Allocator × List AllocatorEvent :=
  if a.used ≠ 0 then (false, a, []) else (true, { a with destroyed := true }, [.destroyed])

end Allocator

inductive AllocatorCall where
  | allocate (frame : Option MppBuf) (stride height : Int) (format : PixelFormat)
      (answers : Plane → Nat)
  | freeFrame (frame : Option MppBuf)
  | acquire (frame : Option MppBuf)
  | release (ticket : Nat)
  | destroy

def Allocator.perform (a : Allocator) : AllocatorCall → Allocator × List AllocatorEvent
  | .allocate frame stride height format answers =>
      (a.allocate frame stride height format answers).2
  | .freeFrame frame => (a.freeFrame frame).2
  | .acquire frame => (a.acquire frame).2
  | .release ticket => (a.release ticket).2
  | .destroy => a.destroy.2

end LvglAic.Player
