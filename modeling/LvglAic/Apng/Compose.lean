import LvglAic.Apng.Document
import LvglAic.Machine.Paint
import LvglAic.Machine.Picture
import LvglAic.Machine.Run

/-! # The canvas of an animation (`lv_aic_apng_compose.c`)

The canvas, the scratch and the frame are buffers of a byte memory; a program that reads or
writes outside of them goes wrong.  Sizes are natural numbers where the checks keep them
from wrapping; the arithmetic of the colors wraps at 32 bits.
-/

namespace LvglAic.Apng

open LvglAic.Machine

structure ApngCanvas where
  pixels : ℕ
  scratch : ℕ
  stride : ℕ
  capacity : ℕ
  scratchCapacity : ℕ
  width : ℕ
  height : ℕ
  previous : ApngFrame
  havePrevious : Bool
deriving DecidableEq, Repr

/-- The bytes of an image in its buffer; `sizeMax` is the largest value of `size_t`. -/
def span (sizeMax width height stride capacity : ℕ) : Option ℕ :=
  if width = 0 || height = 0 || width > 4096 || height > 4096 || stride < width * 4 then none
  else if height > 1 && stride > (sizeMax - width * 4) / (height - 1) then none
  else if (height - 1) * stride + width * 4 ≤ capacity then
    some ((height - 1) * stride + width * 4)
  else none

def separate (sizeMax a an b bn : ℕ) : Bool :=
  if a = 0 || b = 0 || an > sizeMax - a || bn > sizeMax - b then false
  else if a < b then b - a ≥ an else a - b ≥ bn

namespace ApngCanvas

/-- The bytes of the canvas. -/
def bytes (c : ApngCanvas) : ℕ := (c.height - 1) * c.stride + c.width * 4

def scratchBytes (c : ApngCanvas) : ℕ := c.width * c.height * 4

def reset (c : ApngCanvas) (m : Memory) : Option (ApngCanvas × Memory) :=
  ((List.range c.height).foldlM
    (fun (m : Memory) y => m.fill c.pixels c.bytes (y * c.stride) (c.width * 4) 0) m).map
      fun after => ({ c with havePrevious := false }, after)

/-- The rectangle of a frame is cleared, restored or saved. -/
inductive RectangleOp where
  | clear
  | restore
  | save
deriving DecidableEq, Repr

def rectangleRow (c : ApngCanvas) (f : ApngFrame) (op : RectangleOp) (m : Memory) (y : ℕ) :
    Option Memory :=
  let row := (f.y + y) * c.stride + f.x * 4
  let saved := y * f.width * 4
  match op with
  | .clear => m.fill c.pixels c.bytes row (f.width * 4) 0
  | .restore => m.copy c.pixels c.bytes row c.scratch c.scratchBytes saved (f.width * 4)
  | .save => m.copy c.scratch c.scratchBytes saved c.pixels c.bytes row (f.width * 4)

def rectangle (c : ApngCanvas) (f : ApngFrame) (op : RectangleOp) (m : Memory) : Option Memory :=
  (List.range f.height).foldlM (c.rectangleRow f op) m

end ApngCanvas

def apngCanvasInit (sizeMax width height pixels stride capacity scratch scratchCapacity : ℕ)
    (m : Memory) : Option (Option (ApngCanvas × Memory)) :=
  match span sizeMax width height stride capacity with
  | none => some none
  | some bytes =>
      if scratchCapacity < width * height * 4 ||
          !separate sizeMax pixels bytes scratch (width * height * 4) then some none
      else
        (ApngCanvas.reset
          { pixels, scratch, stride, capacity, scratchCapacity, width, height, havePrevious := false,
            previous := ⟨0, 0, 0, 0, 0, 0, 0, 0, 0, 0, 0⟩ } m).map some

/-! ## Colors -/

structure Rgba (Channel : Type) where
  red : Channel
  green : Channel
  blue : Channel
  alpha : Channel
deriving DecidableEq, Repr

def Rgba.map {Channel Other : Type} (p : Rgba Channel) (f : Channel → Other) : Rgba Other :=
  ⟨f p.red, f p.green, f p.blue, f p.alpha⟩

/-- The byte of a pixel. -/
def Rgba.channel {Channel : Type} (p : Rgba Channel) (i : ℕ) : Channel :=
  match i with
  | 0 => p.red
  | 1 => p.green
  | 2 => p.blue
  | _ => p.alpha

def blendChannel (s d sa da inverse alpha : UInt32) : UInt8 :=
  ((s * sa * 255 + d * da * inverse + alpha / 2) / alpha).toUInt8

/-- What is written over a pixel, if anything is. -/
def blendPixel (s d : Rgba UInt8) : Option (Rgba UInt8) :=
  let sa := s.alpha.toUInt32
  let da := d.alpha.toUInt32
  let inverse := 255 - sa
  if sa = 0 then none
  else if sa = 255 then some s
  else
    let alpha := sa * 255 + da * inverse
    some ⟨blendChannel s.red.toUInt32 d.red.toUInt32 sa da inverse alpha,
      blendChannel s.green.toUInt32 d.green.toUInt32 sa da inverse alpha,
      blendChannel s.blue.toUInt32 d.blue.toUInt32 sa da inverse alpha,
      ((alpha + 127) / 255).toUInt8⟩

/-! ## Composing -/

/-- A pixel of a buffer; outside of it there is none. -/
def loadPixel (m : Memory) (base size start : ℕ) : Option (Rgba UInt8) :=
  if start + 4 ≤ size then
    some ⟨m (base + start), m (base + start + 1), m (base + start + 2), m (base + start + 3)⟩
  else none

def storePixel (m : Memory) (base size start : ℕ) (p : Rgba UInt8) : Option Memory :=
  if start + 4 ≤ size then
    some fun a => if base + start ≤ a ∧ a < base + start + 4 then p.channel (a - (base + start)) else m a
  else none

namespace ApngCanvas

def blendPlace (c : ApngCanvas) (rgba bytes src dst : ℕ) (m : Memory) (x : ℕ) : Option Memory := do
  let s ← loadPixel m rgba bytes (src + x * 4)
  let d ← loadPixel m c.pixels c.bytes (dst + x * 4)
  match blendPixel s d with
  | none => some m
  | some p => storePixel m c.pixels c.bytes (dst + x * 4) p

def drawRow (c : ApngCanvas) (f : ApngFrame) (rgba stride bytes : ℕ) (m : Memory) (y : ℕ) :
    Option Memory :=
  let src := y * stride
  let dst := (f.y + y) * c.stride + f.x * 4
  if f.blend = 0 then m.copy c.pixels c.bytes dst rgba bytes src (f.width * 4)
  else (List.range f.width).foldlM (c.blendPlace rgba bytes src dst) m

def undo (c : ApngCanvas) (m : Memory) : Option Memory :=
  if c.havePrevious then
    if c.previous.dispose = 1 then c.rectangle c.previous .clear m
    else if c.previous.dispose = 2 then c.rectangle c.previous .restore m
    else some m
  else some m

/-- The checks of a frame and its buffer, of which it takes so many bytes. -/
def composable (sizeMax : ℕ) (c : ApngCanvas) (f : ApngFrame) (rgba stride capacity : ℕ) : Option ℕ :=
  match span sizeMax f.width f.height stride capacity,
      span sizeMax c.width c.height c.stride c.capacity with
  | some bytes, some canvasBytes =>
      if f.x > c.width || f.y > c.height || f.width > c.width - f.x || f.height > c.height - f.y ||
          f.dispose > 2 || f.blend > 1 || c.scratchCapacity < c.width * c.height * 4 ||
          !separate sizeMax rgba bytes c.pixels canvasBytes ||
          !separate sizeMax rgba bytes c.scratch (c.width * c.height * 4) then none
      else some bytes
  | _, _ => none

/-- Whether the frame was composed, with the canvas and the memory then. -/
def compose (sizeMax : ℕ) (c : ApngCanvas) (f : ApngFrame) (rgba stride capacity : ℕ) (m : Memory) :
    Option (Bool × ApngCanvas × Memory) :=
  match c.composable sizeMax f rgba stride capacity with
  | none => some (false, c, m)
  | some bytes => do
      let m ← c.undo m
      let m ← (if f.dispose = 2 then c.rectangle f .save m else some m)
      let m ← (List.range f.height).foldlM (c.drawRow f rgba stride bytes) m
      some (true, { c with previous := f, havePrevious := true }, m)

end ApngCanvas

/-! ## The pictures -/

def loadedPixel (m : Memory) (a : ℕ) : Rgba ℕ :=
  ⟨(m a).toNat, (m (a + 1)).toNat, (m (a + 2)).toNat, (m (a + 3)).toNat⟩

/-- The picture in a buffer. -/
def pictureAt (m : Memory) (base width height stride : ℕ) : Picture (Rgba ℕ) :=
  ⟨width, height, fun x y => loadedPixel m (base + (y * stride + x * 4))⟩

def ApngCanvas.picture (c : ApngCanvas) (m : Memory) : Picture (Rgba ℕ) :=
  pictureAt m c.pixels c.width c.height c.stride

/-! ## The reference

A reference draws on pictures.  It keeps the whole picture from before the last frame. -/

def ApngFrame.covers (f : ApngFrame) (x y : ℕ) : Prop :=
  (f.x ≤ x ∧ x < f.x + f.width) ∧ f.y ≤ y ∧ y < f.y + f.height

instance (f : ApngFrame) (x y : ℕ) : Decidable (f.covers x y) := inferInstanceAs (Decidable (_ ∧ _))

def Rgba.clear : Rgba ℕ := ⟨0, 0, 0, 0⟩

/-- Straight alpha `OVER`, rounded to the nearest. -/
def Rgba.over (s d : Rgba ℕ) : Rgba ℕ :=
  let alpha := s.alpha * 255 + d.alpha * (255 - s.alpha)
  let blend := fun a b => (a * s.alpha * 255 + b * d.alpha * (255 - s.alpha) + alpha / 2) / alpha
  if alpha = 0 then d
  else ⟨blend s.red d.red, blend s.green d.green, blend s.blue d.blue, (alpha + 127) / 255⟩

structure Reference where
  shown : Picture (Rgba ℕ)
  undo : Option (ApngFrame × Picture (Rgba ℕ))

namespace Reference

def blank (width height : ℕ) : Reference := ⟨⟨width, height, fun _ _ => .clear⟩, none⟩

/-- The picture without the last frame, as its disposal asks. -/
def disposed (r : Reference) : Picture (Rgba ℕ) :=
  match r.undo with
  | none => r.shown
  | some (f, before) =>
      if f.dispose = 1 then
        ⟨r.shown.width, r.shown.height, fun x y =>
          if f.covers x y then .clear else r.shown.pixel x y⟩
      else if f.dispose = 2 then before
      else r.shown

def drawn (f : ApngFrame) (source onto : Picture (Rgba ℕ)) : Picture (Rgba ℕ) :=
  ⟨onto.width, onto.height, fun x y =>
    if f.covers x y then
      if f.blend = 0 then source.pixel (x - f.x) (y - f.y)
      else (source.pixel (x - f.x) (y - f.y)).over (onto.pixel x y)
    else onto.pixel x y⟩

def draw (r : Reference) (f : ApngFrame) (source : Picture (Rgba ℕ)) : Reference :=
  ⟨drawn f source r.disposed, some (f, r.disposed)⟩

def reset (r : Reference) : Reference := blank r.shown.width r.shown.height

end Reference

/-! ## The machine -/

inductive CanvasCall where
  | reset
  | compose (f : ApngFrame) (rgba stride capacity : ℕ)
  | supply (contents : Memory)

inductive CanvasEvent where
  | reset
  | drawn (f : ApngFrame) (source : Picture (Rgba ℕ))
  | refused

def Reference.after (r : Reference) : CanvasEvent → Reference
  | .reset => r.reset
  | .drawn f source => r.draw f source
  | .refused => r

structure CanvasState where
  canvas : ApngCanvas
  memory : Memory

/-- A caller may fill any memory that the canvas does not use. -/
def canvasMachine (sizeMax : ℕ) : LvglAic.Machine CanvasState CanvasCall CanvasEvent where
  Initial s := ∃ width height pixels stride capacity scratch scratchCapacity m,
    apngCanvasInit sizeMax width height pixels stride capacity scratch scratchCapacity m =
      some (some (s.canvas, s.memory))
  step s call :=
    match call with
    | .reset => (s.canvas.reset s.memory).map fun r => (⟨r.1, r.2⟩, [.reset])
    | .compose f rgba stride capacity =>
        (s.canvas.compose sizeMax f rgba stride capacity s.memory).map fun r =>
          (⟨r.2.1, r.2.2⟩,
            [if r.1 then .drawn f (pictureAt s.memory rgba f.width f.height stride) else .refused])
    | .supply contents => some (⟨s.canvas, contents⟩, [])

/-- The bytes of the pixels and of the scratch. -/
def ApngCanvas.Owns (c : ApngCanvas) (a : ℕ) : Prop :=
  (∃ y, y < c.height ∧ ∃ i, i < c.width * 4 ∧ a = c.pixels + (y * c.stride + i)) ∨
    c.scratch ≤ a ∧ a < c.scratch + c.scratchBytes

def CanvasContract (_ : List CanvasEvent) (s : CanvasState) : CanvasCall → Prop
  | .supply contents => ∀ a, s.canvas.Owns a → contents a = s.memory a
  | _ => True

end LvglAic.Apng
