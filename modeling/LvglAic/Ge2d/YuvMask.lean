import LvglAic.Ge2d.RotationScale
import LvglAic.Ge2d.Stripes
import LvglAic.Ge2d.TransformPlan

/-! # Bitmap masks of YUV draws (`lv_draw_aic_ge2d_yuv.c`)

`submit` builds one engine command from a clip of a frame; after it has run, the
mask is read at the source pixel that `yuvMaskSourceAt` computes for each
destination pixel.  The checks of formats, planes, addresses and blend styles only
refuse a draw and are left out.  The area of a transformed image is LVGL's and a
parameter.
-/

namespace LvglAic.Ge2d

open LvglAic.Machine

inductive YuvFormat where
  | i420
  | i422
  | i444
  | i400
  | nv12
  | nv21
  | yuy2
  | uyvy
  | nv16
  | nv61
  | yvyu
  | vyuy
deriving DecidableEq, Repr

def YuvFormat.toMpp : YuvFormat → MppPixelFormat
  | .i420 => .yuv420p
  | .i422 => .yuv422p
  | .i444 => .yuv444p
  | .i400 => .yuv400
  | .nv12 => .nv12
  | .nv21 => .nv21
  | .yuy2 => .yuyv
  | .uyvy => .uyvy
  | .nv16 => .nv16
  | .nv61 => .nv61
  | .yvyu => .yvyu
  | .vyuy => .vyuy

def YuvFormat.subX (format : YuvFormat) : Bool := format ≠ .i400 && format ≠ .i444

def YuvFormat.subY (format : YuvFormat) : Bool :=
  format = .i420 || format = .nv12 || format = .nv21

structure YuvFrame where
  format : YuvFormat
  width : UInt32
  height : UInt32
deriving DecidableEq, Repr

/-- The descriptor fields that `submit` reads. -/
structure YuvImageDsc extends ImageDsc where
  opa : UInt8
deriving DecidableEq, Repr

structure DrawTask where
  area : Area
  clipArea : Area
deriving DecidableEq, Repr

structure TargetLayer where
  bufArea : Area
  size : MppSize
  format : MppPixelFormat
deriving DecidableEq, Repr

/-- What the geometry of a frame must satisfy for the engine to read it. -/
def YuvFrame.allowed (frame : YuvFrame) : Bool :=
  1 ≤ frame.width.toNat && frame.width.toNat ≤ 4096 && 1 ≤ frame.height.toNat &&
    frame.height.toNat ≤ 4096 && frame.width.toNat * frame.height.toNat ≤ 8388608 &&
    !(frame.format.subX && frame.width.toNat % 2 = 1) &&
    !(frame.format.subY && frame.height.toNat % 2 = 1)

def ImageDsc.scaled (d : ImageDsc) : Bool := d.scaleX ≠ 256 || d.scaleY ≠ 256

def ImageDsc.allowed (d : ImageDsc) : Bool :=
  16 ≤ d.scaleX.toInt && d.scaleX.toInt ≤ 4096 && 16 ≤ d.scaleY.toInt &&
    d.scaleY.toInt ≤ 4096 && d.rotation.toInt.tmod 900 = 0 && d.skewX = 0 && d.skewY = 0 &&
    -4096 ≤ d.pivot.x.toInt && d.pivot.x.toInt ≤ 4096 && -4096 ≤ d.pivot.y.toInt &&
    d.pivot.y.toInt ≤ 4096

def Area.intersect (a b : Area) : Option Area :=
  let both : Area := {
    x1 := Int32.ofInt (max a.x1.toInt b.x1.toInt)
    y1 := Int32.ofInt (max a.y1.toInt b.y1.toInt)
    x2 := Int32.ofInt (min a.x2.toInt b.x2.toInt)
    y2 := Int32.ofInt (min a.y2.toInt b.y2.toInt) }
  if both.x1.toInt ≤ both.x2.toInt && both.y1.toInt ≤ both.y2.toInt then some both else none

/-- An area moved by a point, if it stays among the coordinates. -/
def Area.move (area : Area) (x y : Int32) : Option Area :=
  if Signed 31 (area.x1.toInt + x.toInt) ∧ Signed 31 (area.y1.toInt + y.toInt) ∧
      Signed 31 (area.x2.toInt + x.toInt) ∧ Signed 31 (area.y2.toInt + y.toInt) then
    some {
      x1 := Int32.ofInt (area.x1.toInt + x.toInt)
      y1 := Int32.ofInt (area.y1.toInt + y.toInt)
      x2 := Int32.ofInt (area.x2.toInt + x.toInt)
      y2 := Int32.ofInt (area.y2.toInt + y.toInt) }
  else none

/-- An area as seen from a point. -/
def Area.from (area : Area) (x y : Int32) : Area where
  x1 := Int32.ofInt (area.x1.toInt - x.toInt)
  y1 := Int32.ofInt (area.y1.toInt - y.toInt)
  x2 := Int32.ofInt (area.x2.toInt - x.toInt)
  y2 := Int32.ofInt (area.y2.toInt - y.toInt)

/-- The source of a command along one axis. -/
structure SourceAxis where
  start : Int32
  step : Int32
  phase : Int32
deriving DecidableEq, Repr

/-- The crop of a command before its alignment, with the luma steps and phases. -/
structure SourceCrop where
  crop : Area
  flags : MppRotation
  x : SourceAxis
  y : SourceAxis
deriving DecidableEq, Repr

/-- The crop of the scaled or unscaled, turned or upright draw of a clip. -/
def sourceCrop (frame : YuvFrame) (d : YuvImageDsc) (clip visible : Area) :
    Option (Option SourceCrop) :=
  if d.scaled then
    if d.rotation ≠ 0 then
      match rotationScaleCrop frame.width frame.height visible d.pivot d.rotation
          d.scaleX.toUInt32 d.scaleY.toUInt32 with
      | none => none
      | some none => some none
      | some (some c) => some (some {
          crop := c.src
          flags := c.flags
          x := ⟨c.src.x1, Int32.ofInt ((16777216 : ℤ).tdiv d.scaleX.toInt), c.phaseX⟩
          y := ⟨c.src.y1, Int32.ofInt ((16777216 : ℤ).tdiv d.scaleY.toInt), c.phaseY⟩ })
    else
      match scaleAxis frame.width.toInt32 visible.x1 (Int32.ofInt clip.width) d.pivot.x
          d.scaleX.toUInt32 with
      | none => none
      | some none => some none
      | some (some x) =>
          match scaleAxis frame.height.toInt32 visible.y1 (Int32.ofInt clip.height) d.pivot.y
              d.scaleY.toUInt32 with
          | none => none
          | some none => some none
          | some (some y) => some (some {
              crop := {
                x1 := x.crop
                y1 := y.crop
                x2 := Int32.ofInt (x.crop.toInt + x.extent.toInt - 1)
                y2 := Int32.ofInt (y.crop.toInt + y.extent.toInt - 1) }
              flags := .rotation0
              x := ⟨x.crop, x.step16, x.phase16⟩
              y := ⟨y.crop, y.step16, y.phase16⟩ })
  else
    match rotationCrop frame.width frame.height visible d.pivot d.rotation with
    | none => none
    | some none => some none
    | some (some (src, flags)) => some (some {
        crop := src
        flags := flags
        x := ⟨src.x1, 0, 0⟩
        y := ⟨src.y1, 0, 0⟩ })

def clearLow (value : Int32) : Int32 := Int32.ofInt (value.toInt / 2 * 2)

/-- Backs the crop up to a whole chroma sample and clears the low bits that the chroma
channel cannot follow. -/
def alignAxis (subsampled : Bool) (axis : SourceAxis) : SourceAxis :=
  if subsampled then
    if isOdd axis.start then
      { start := Int32.ofInt (axis.start.toInt - 1)
        step := clearLow axis.step
        phase := clearLow (Int32.ofInt (axis.phase.toInt + 65536)) }
    else
      { start := axis.start
        step := clearLow axis.step
        phase := clearLow axis.phase }
  else axis

def filterExtent (size start : ℤ) (outputs phase step : ℤ) (subsampled : Bool) : ℤ :=
  let last := phase + (outputs - 1) * step
  let needed := (last + 65535).tdiv 65536 + 2
  let needed :=
    if subsampled then
      let chroma := ((last.tdiv 2 + 65535).tdiv 65536 + 2) * 2
      ((if needed < chroma then chroma else needed) + 1) / 2 * 2
    else needed
  min needed (size - start)

def half (subsampled : Bool) (value : Int32) : Int32 :=
  if subsampled then Int32.ofInt (value.toInt / 2) else value

def MppRotation.code : MppRotation → UInt32
  | .rotation0 => 0
  | .rotation90 => 1
  | .rotation180 => 2
  | .rotation270 => 3

/-- The engine command of a clip, or nothing when the engine cannot take its sizes. -/
def yuvCommand (frame : YuvFrame) (d : YuvImageDsc) (layer : TargetLayer) (clip : Area)
    (source : SourceCrop) : Option (GeBitblt Unit UInt8) :=
  let subX := frame.format.subX
  let subY := frame.format.subY
  let x := if d.scaled then alignAxis subX source.x else source.x
  let y := if d.scaled then alignAxis subY source.y else source.y
  let turned := d.rotation.toInt.tmod 1800 ≠ 0
  let outX := if turned then clip.height else clip.width
  let outY := if turned then clip.width else clip.height
  let w := Int32.ofInt <|
    if d.scaled then
      filterExtent frame.width.toNat x.start.toInt outX x.phase.toInt x.step.toInt subX
    else source.crop.width
  let h := Int32.ofInt <|
    if d.scaled then
      filterExtent frame.height.toNat y.start.toInt outY y.phase.toInt y.step.toInt subY
    else source.crop.height
  let two := d.scaled && frame.format ≠ .i400
  if w.toInt < 8 || h.toInt < 8 || clip.width < 8 || clip.height < 8 ||
      (subX && (isOdd x.start || isOdd w)) || (subY && (isOdd y.start || isOdd h)) then none
  else
    let placed := clip.from layer.bufArea.x1 layer.bufArea.y1
    some {
      srcBuf := {
        size := ⟨frame.width.toInt32, frame.height.toInt32⟩
        cropEn := true
        crop := ⟨x.start, y.start, w, h⟩
        format := frame.format.toMpp
        other := () }
      dstBuf := {
        size := layer.size
        cropEn := true
        crop := ⟨placed.x1, placed.y1, Int32.ofInt placed.width, Int32.ofInt placed.height⟩
        format := layer.format
        other := () }
      flags := source.flags.code
      control := d.opa
      scalePhase := {
        scalePhaseEn := d.scaled
        scalerEn := d.scaled
        channelNum := if d.scaled then if frame.format = .i400 then 1 else 2 else 0
        dx16 := ![x.step, if two then half subX x.step else 0]
        dy16 := ![y.step, if two then half subY y.step else 0]
        hPhase16 := ![x.phase, if two then half subX x.phase else 0]
        vPhase16 := ![y.phase, if two then half subY y.phase else 0]
        inWCh1 := if two then half subX w else 0
        inHCh1 := if two then half subY h else 0 } }

inductive YuvDraw where
  | refused
  | nothing
  | drawn (command : GeBitblt Unit UInt8) (clip : Area)

/-- The command that draws the frame within a clip: the first half of `submit`. -/
def submitClip (frame : YuvFrame) (d : YuvImageDsc) (task : DrawTask) (layer : TargetLayer)
    (clip : Area) : Option YuvDraw :=
  match sourceCrop frame d clip (clip.from task.area.x1 task.area.y1) with
  | none => none
  | some none => some .refused
  | some (some source) =>
      match yuvCommand frame d layer clip source with
      | none => some .refused
      | some command =>
          if (stripeCount command).isSome then some (.drawn command clip) else some .refused

def submit (transformed : YuvFrame → YuvImageDsc → Area) (frame : YuvFrame) (d : YuvImageDsc)
    (task : DrawTask) (layer : TargetLayer) : Option YuvDraw :=
  if !d.allowed || !frame.allowed then some .refused
  else if d.opa.toNat ≤ 2 then some .nothing
  else
    match (transformed frame d).move task.area.x1 task.area.y1 with
    | none => some .refused
    | some moved =>
        match moved.intersect task.clipArea with
        | none => some .nothing
        | some seen =>
            match seen.intersect layer.bufArea with
            | none => some .nothing
            | some clip => submitClip frame d task layer clip

/-! ## The source pixel of a mask -/

def yuvFloorDivPos (numerator : ℤ) (denominator : UInt32) : ℤ :=
  if 0 ≤ numerator then numerator.tdiv denominator.toNat
  else -(-numerator + denominator.toNat - 1).tdiv denominator.toNat

def maskScale (scale : Int32) : UInt32 := if scale = 256 then 256 else scale.toUInt32

/-- The mask coordinate of an axis from the signed distance to the pivot. -/
def maskAxis (pivot : Int32) (distance : ℤ) (scale : UInt32) : ℤ :=
  pivot.toInt * 65536 + yuvFloorDivPos (distance * 256 * 65536) scale

def maskUpright (pivot : Int32) (distance : ℤ) (scale : UInt32) : ℤ :=
  pivot.toInt * 65536 + distance * (65536 * 256 : ℤ).tdiv scale.toNat

def yuvMaskScaled (d : YuvImageDsc) (flags : MppRotation) (px py : ℤ) : ℤ × ℤ :=
  let scaleX := maskScale d.scaleX
  let scaleY := maskScale d.scaleY
  let dx := px - d.pivot.x.toInt
  let dy := py - d.pivot.y.toInt
  match flags with
  | .rotation0 => (maskUpright d.pivot.x dx scaleX, maskUpright d.pivot.y dy scaleY)
  | .rotation90 => (maskAxis d.pivot.x dy scaleX, maskAxis d.pivot.y (-dx) scaleY)
  | .rotation180 => (maskAxis d.pivot.x (-dx) scaleX, maskAxis d.pivot.y (-dy) scaleY)
  | .rotation270 => (maskAxis d.pivot.x (-dy) scaleX, maskAxis d.pivot.y dx scaleY)

def yuvMaskUnscaled (d : YuvImageDsc) (flags : MppRotation) (px py : ℤ) : ℤ × ℤ :=
  match flags with
  | .rotation0 => (px, py)
  | .rotation90 =>
      (py - d.pivot.y.toInt + d.pivot.x.toInt, d.pivot.x.toInt - px + d.pivot.y.toInt)
  | .rotation180 => (2 * d.pivot.x.toInt - px, 2 * d.pivot.y.toInt - py)
  | .rotation270 =>
      (d.pivot.y.toInt - py + d.pivot.x.toInt, px - d.pivot.x.toInt + d.pivot.y.toInt)

def yuvMaskSourceLocal (d : YuvImageDsc) (frame : YuvFrame) (px py : ℤ) : Option (ℤ × ℤ) :=
  match rotationFlags d.rotation with
  | none => none
  | some flags =>
      if d.scaled then
        let p := yuvMaskScaled d flags px py
        if p.1 < 0 || p.2 < 0 || frame.width.toNat * 65536 ≤ p.1 ||
            frame.height.toNat * 65536 ≤ p.2 then none
        else some (p.1 / 65536, p.2 / 65536)
      else
        let p := yuvMaskUnscaled d flags px py
        if p.1 < 0 || p.2 < 0 || frame.width.toNat ≤ p.1 || frame.height.toNat ≤ p.2 then none
        else some p

def yuvMaskSourceAt (task : DrawTask) (d : YuvImageDsc) (frame : YuvFrame) (x y : ℤ) :
    Option (ℤ × ℤ) :=
  yuvMaskSourceLocal d frame (x - task.area.x1.toInt) (y - task.area.y1.toInt)

/-! ## Where the engine samples -/

def GeBitblt.lumaRowAt {Other Control : Type} (b : GeBitblt Other Control) (k : ℤ) : ℤ :=
  b.srcBuf.rect.y.toInt * 65536 + (b.scalePhase.vPhase16 0).toInt +
    k * (b.scalePhase.dy16 0).toInt

def turnOf (flags : UInt32) : MppRotation :=
  match mppRotation flags with
  | 0 => .rotation0
  | 1 => .rotation90
  | 2 => .rotation180
  | _ => .rotation270

/-- The luma coordinates of a destination pixel of a command. -/
def engineSample {Other Control : Type} (b : GeBitblt Other Control) (clip : Area) (p : ℤ × ℤ) :
    ℤ × ℤ :=
  (b.lumaAt (outputIndex (turnOf b.flags) clip p).1,
    b.lumaRowAt (outputIndex (turnOf b.flags) clip p).2)

def InsideFrame (frame : YuvFrame) (q : ℤ × ℤ) : Prop :=
  0 ≤ q.1 ∧ q.1 < frame.width.toNat * 65536 ∧ 0 ≤ q.2 ∧ q.2 < frame.height.toNat * 65536

/-! ## Where the two mappings part

The engine starts at the near edge of the clip, exactly for a rotated draw, and
advances by the truncated step.  The mask starts at the pivot and is exact for the
angles 90, 180 and 270.
-/

/-- What the truncated steps have lost after a distance, for an exact mapping. -/
def carried (exact : Bool) (scale : UInt32) (distance : ℤ) : ℤ :=
  if exact then pivotCarry scale distance else 0

/-- The mask coordinate of an axis, from the pivot. -/
def maskDistance (exact : Bool) (scale : UInt32) (distance : ℤ) : ℤ :=
  distance * stepOf scale + carried exact scale distance

/-- How far the engine lies behind the mask at output `i` of an axis. -/
def axisLoss (exact masked subsampled : Bool) (scale : UInt32) (near i : ℤ) : ℤ :=
  carried masked scale (near + i) - carried exact scale near +
    if subsampled then i * (stepOf scale % 2) + maskDistance exact scale near % 2 else 0

/-- The loss does not reach beyond the pixel of the mask coordinate. -/
def AxisKept (exact masked subsampled : Bool) (scale : UInt32) (near i : ℤ) : Prop :=
  axisLoss exact masked subsampled scale near i ≤
      maskDistance masked scale (near + i) % 65536 ∧
    maskDistance masked scale (near + i) % 65536 -
      axisLoss exact masked subsampled scale near i < 65536

/-- The condition on a destination pixel of a clip, both relative to the image. -/
def PixelKept (frame : YuvFrame) (d : YuvImageDsc) (flags : MppRotation) (dst : Area)
    (p : ℤ × ℤ) : Prop :=
  AxisKept (d.rotation ≠ 0) (flags ≠ .rotation0) frame.format.subX d.scaleX.toUInt32
      (nearDistance flags d.pivot dst).1 (outputIndex flags dst p).1 ∧
    AxisKept (d.rotation ≠ 0) (flags ≠ .rotation0) frame.format.subY d.scaleY.toUInt32
      (nearDistance flags d.pivot dst).2 (outputIndex flags dst p).2

section
variable {frame : YuvFrame} {d : YuvImageDsc} {task : DrawTask} {layer : TargetLayer}
  {clip dst : Area} {source : SourceCrop} {command : GeBitblt Unit UInt8}
  {flags : MppRotation} {scale : UInt32} {center : Int32} {axis : SourceAxis}
  {exact masked subsampled : Bool} {near outputs i : ℤ} {p : ℤ × ℤ} {size : ℕ}

theorem maskScale_eq (value : Int32) : maskScale value = value.toUInt32 := by
  unfold maskScale
  split
  · rename_i unscaled
    rw [unscaled]
    rfl
  · rfl

theorem turnOf_code : turnOf flags.code = flags := by
  cases flags <;> rfl

/-- An axis that starts at a known coordinate, inside the frame. -/
structure EngineAxis (size : ℕ) (center : Int32) (scale : UInt32) (exact : Bool)
    (near outputs : ℤ) (axis : SourceAxis) : Prop where
  allowed : 16 ≤ scale.toNat ∧ scale.toNat ≤ 4096
  step : axis.step.toInt = stepOf scale
  first : axis.start.toInt * 65536 + axis.phase.toInt =
    center.toInt * 65536 + maskDistance exact scale near
  start : 0 ≤ axis.start.toInt ∧ axis.start.toInt ≤ 4096
  phase : 0 ≤ axis.phase.toInt ∧ axis.phase.toInt < 65536
  last : center.toInt * 65536 + maskDistance exact scale near + (outputs - 1) * stepOf scale <
    size * 65536

def SourceAxis.at (axis : SourceAxis) (i : ℤ) : ℤ :=
  axis.start.toInt * 65536 + axis.phase.toInt + i * axis.step.toInt

theorem clearLow_toInt {value : Int32} : (clearLow value).toInt = value.toInt / 2 * 2 := by
  have low := Int32.le_toInt value
  have high := Int32.toInt_lt value
  exact toInt_ofInt ⟨by omega, by omega⟩

/-- Aligning the crop moves no sample; the cleared bits do. -/
theorem alignAxis_at (start : 0 ≤ axis.start.toInt ∧ axis.start.toInt ≤ 4096)
    (phase : 0 ≤ axis.phase.toInt ∧ axis.phase.toInt < 65536) :
    (alignAxis subsampled axis).at i = axis.at i -
      if subsampled then i * (axis.step.toInt % 2) + axis.phase.toInt % 2 else 0 := by
  have cleared : axis.step.toInt / 2 * 2 = axis.step.toInt - axis.step.toInt % 2 := by omega
  have moved : (Int32.ofInt (axis.phase.toInt + 65536)).toInt = axis.phase.toInt + 65536 :=
    toInt_ofInt ⟨by omega, by omega⟩
  have back : (Int32.ofInt (axis.start.toInt - 1)).toInt = axis.start.toInt - 1 :=
    toInt_ofInt ⟨by omega, by omega⟩
  unfold alignAxis SourceAxis.at
  cases subsampled with
  | false => simp only [Bool.false_eq_true, if_false, sub_zero]
  | true =>
      simp only [if_true]
      split
      · rw [back, clearLow_toInt, clearLow_toInt, moved, cleared]
        have whole : (axis.phase.toInt + 65536) / 2 * 2 =
            axis.phase.toInt + 65536 - axis.phase.toInt % 2 := by omega
        rw [whole]
        ring
      · rw [clearLow_toInt, clearLow_toInt, cleared]
        have whole : axis.phase.toInt / 2 * 2 = axis.phase.toInt - axis.phase.toInt % 2 := by omega
        rw [whole]
        ring

/-- The engine lies behind the mask by the loss. -/
theorem EngineAxis.at_eq (known : EngineAxis size center scale exact near outputs axis)
    (masked subsampled : Bool) (i : ℤ) :
    (alignAxis subsampled axis).at i =
      center.toInt * 65536 + maskDistance masked scale (near + i) -
        axisLoss exact masked subsampled scale near i := by
  have odd : axis.phase.toInt % 2 = maskDistance exact scale near % 2 := by
    have first := known.first
    omega
  rw [alignAxis_at known.start known.phase, SourceAxis.at, known.first, known.step, odd]
  unfold axisLoss maskDistance
  split <;> ring

theorem EngineAxis.inside (known : EngineAxis size center scale exact near outputs axis)
    (subsampled : Bool) (nonneg : 0 ≤ i) (below : i < outputs) :
    0 ≤ (alignAxis subsampled axis).at i ∧
      (alignAxis subsampled axis).at i < size * 65536 := by
  have positive := (stepOf_bounds known.allowed.1 known.allowed.2).1
  have first := known.first
  have start := known.start
  have phase := known.phase
  have last := known.last
  have later : i * stepOf scale ≤ (outputs - 1) * stepOf scale :=
    mul_le_mul_of_nonneg_right (by omega) (by omega)
  have forward : 0 ≤ i * (stepOf scale - stepOf scale % 2) := mul_nonneg nonneg (by omega)
  have lost : 0 ≤ i * (stepOf scale % 2) := mul_nonneg nonneg (by omega)
  have apart : i * (stepOf scale - stepOf scale % 2) =
    i * stepOf scale - i * (stepOf scale % 2) := mul_sub _ _ _
  rw [alignAxis_at start phase, SourceAxis.at, known.step]
  split <;> omega

/-- The two mappings meet in one pixel exactly when the loss stays in it. -/
theorem EngineAxis.pixel_iff (known : EngineAxis size center scale exact near outputs axis)
    (masked subsampled : Bool) (i : ℤ) :
    (alignAxis subsampled axis).at i / 65536 =
      (center.toInt * 65536 + maskDistance masked scale (near + i)) / 65536 ↔
    AxisKept exact masked subsampled scale near i := by
  rw [known.at_eq masked]
  unfold AxisKept
  omega

/-! ## What an accepted draw says of its clip -/

/-- The first area lies inside the second one. -/
structure Within (a b : Area) : Prop where
  left : b.x1.toInt ≤ a.x1.toInt
  top : b.y1.toInt ≤ a.y1.toInt
  right : a.x2.toInt ≤ b.x2.toInt
  bottom : a.y2.toInt ≤ b.y2.toInt

theorem Area.intersect_within {a b both : Area} (met : a.intersect b = some both) :
    Within both a ∧ both.Nonempty := by
  have lowX := Int32.le_toInt a.x1
  have highX := Int32.toInt_lt b.x1
  have lowY := Int32.le_toInt a.y1
  have highY := Int32.toInt_lt b.y1
  have endX := Int32.toInt_lt a.x2
  have endY := Int32.toInt_lt a.y2
  have startX := Int32.le_toInt b.x2
  have startY := Int32.le_toInt b.y2
  have firstX := Int32.toInt_lt a.x1
  have firstY := Int32.toInt_lt a.y1
  have lastX := Int32.le_toInt a.x2
  have lastY := Int32.le_toInt a.y2
  unfold Area.intersect at met
  dsimp only at met
  have x1 : (Int32.ofInt (max a.x1.toInt b.x1.toInt)).toInt = max a.x1.toInt b.x1.toInt :=
    toInt_ofInt ⟨by omega, by omega⟩
  have y1 : (Int32.ofInt (max a.y1.toInt b.y1.toInt)).toInt = max a.y1.toInt b.y1.toInt :=
    toInt_ofInt ⟨by omega, by omega⟩
  have x2 : (Int32.ofInt (min a.x2.toInt b.x2.toInt)).toInt = min a.x2.toInt b.x2.toInt :=
    toInt_ofInt ⟨by omega, by omega⟩
  have y2 : (Int32.ofInt (min a.y2.toInt b.y2.toInt)).toInt = min a.y2.toInt b.y2.toInt :=
    toInt_ofInt ⟨by omega, by omega⟩
  split at met
  · rename_i ordered
    simp only [Bool.and_eq_true, decide_eq_true_eq] at ordered
    cases Option.some.inj met
    refine ⟨⟨?_, ?_, ?_, ?_⟩, ordered.1, ordered.2⟩
    · rw [x1]
      exact le_max_left _ _
    · rw [y1]
      exact le_max_left _ _
    · rw [x2]
      exact min_le_left _ _
    · rw [y2]
      exact min_le_left _ _
  · contradiction

theorem Area.move_eq {area moved : Area} {x y : Int32} (fits : area.move x y = some moved) :
    moved.x1.toInt = area.x1.toInt + x.toInt ∧ moved.y1.toInt = area.y1.toInt + y.toInt ∧
      moved.x2.toInt = area.x2.toInt + x.toInt ∧ moved.y2.toInt = area.y2.toInt + y.toInt := by
  unfold Area.move at fits
  split at fits
  · rename_i signed
    cases Option.some.inj fits
    exact ⟨toInt_ofInt signed.1, toInt_ofInt signed.2.1, toInt_ofInt signed.2.2.1,
      toInt_ofInt signed.2.2.2⟩
  · contradiction

/-- A clip as seen from the origin of the task, which takes no bits from it. -/
structure Seen (clip : Area) (x y : Int32) (visible : Area) : Prop where
  left : visible.x1.toInt = clip.x1.toInt - x.toInt
  top : visible.y1.toInt = clip.y1.toInt - y.toInt
  right : visible.x2.toInt = clip.x2.toInt - x.toInt
  bottom : visible.y2.toInt = clip.y2.toInt - y.toInt

/-- What a drawn task has passed. -/
structure Drawn (frame : YuvFrame) (d : YuvImageDsc) (task : DrawTask) (layer : TargetLayer)
    (command : GeBitblt Unit UInt8) (clip : Area) : Prop where
  dscAllowed : d.allowed = true
  frameAllowed : frame.allowed = true
  nonempty : clip.Nonempty
  seen : Seen clip task.area.x1 task.area.y1 (clip.from task.area.x1 task.area.y1)
  command : ∃ source,
    sourceCrop frame d clip (clip.from task.area.x1 task.area.y1) = some (some source) ∧
      yuvCommand frame d layer clip source = some command

theorem submitClip_drawn {final : Area}
    (drawn : submitClip frame d task layer clip = some (.drawn command final)) :
    final = clip ∧ ∃ source,
      sourceCrop frame d clip (clip.from task.area.x1 task.area.y1) = some (some source) ∧
        yuvCommand frame d layer clip source = some command := by
  unfold submitClip at drawn
  split at drawn
  · contradiction
  · cases Option.some.inj drawn
  · rename_i source cropped
    split at drawn
    · cases Option.some.inj drawn
    · rename_i made built
      split at drawn
      · cases Option.some.inj drawn
        exact ⟨rfl, source, cropped, built⟩
      · cases Option.some.inj drawn

theorem submit_drawn {transformed : YuvFrame → YuvImageDsc → Area}
    (drawn : submit transformed frame d task layer = some (.drawn command clip)) :
    Drawn frame d task layer command clip := by
  unfold submit at drawn
  split at drawn
  · cases Option.some.inj drawn
  · rename_i guard
    simp only [Bool.or_eq_true, Bool.not_eq_true', not_or, Bool.not_eq_false] at guard
    split at drawn
    · cases Option.some.inj drawn
    · split at drawn
      · cases Option.some.inj drawn
      · rename_i moved shifted
        obtain ⟨x1, y1, x2, y2⟩ := Area.move_eq shifted
        split at drawn
        · cases Option.some.inj drawn
        · rename_i visible met
          obtain ⟨outer, _⟩ := Area.intersect_within met
          split at drawn
          · cases Option.some.inj drawn
          · rename_i final joined
            obtain ⟨inner, wide, high⟩ := Area.intersect_within joined
            obtain ⟨rfl, command⟩ := submitClip_drawn drawn
            refine ⟨guard.1, guard.2, ⟨wide, high⟩, ?_, command⟩
            have left := outer.left
            have top := outer.top
            have right := outer.right
            have bottom := outer.bottom
            have leftInner := inner.left
            have topInner := inner.top
            have rightInner := inner.right
            have bottomInner := inner.bottom
            have low1 := Int32.le_toInt (transformed frame d).x1
            have low2 := Int32.le_toInt (transformed frame d).y1
            have high1 := Int32.toInt_lt (transformed frame d).x2
            have high2 := Int32.toInt_lt (transformed frame d).y2
            exact ⟨toInt_ofInt ⟨by omega, by omega⟩, toInt_ofInt ⟨by omega, by omega⟩,
              toInt_ofInt ⟨by omega, by omega⟩, toInt_ofInt ⟨by omega, by omega⟩⟩

theorem ImageDsc.allowed_scales (allowed : d.allowed = true) :
    (16 ≤ d.scaleX.toInt ∧ d.scaleX.toInt ≤ 4096) ∧
      (16 ≤ d.scaleY.toInt ∧ d.scaleY.toInt ≤ 4096) := by
  simp only [ImageDsc.allowed, Bool.and_eq_true, decide_eq_true_eq] at allowed
  omega

theorem YuvFrame.allowed_sizes (allowed : frame.allowed = true) :
    (1 ≤ frame.width.toNat ∧ frame.width.toNat ≤ 4096) ∧
      (1 ≤ frame.height.toNat ∧ frame.height.toNat ≤ 4096) := by
  simp only [YuvFrame.allowed, Bool.and_eq_true, decide_eq_true_eq] at allowed
  omega

theorem stepOf_scale {value : Int32} (allowed : 16 ≤ value.toInt ∧ value.toInt ≤ 4096) :
    (Int32.ofInt ((16777216 : ℤ).tdiv value.toInt)).toInt = stepOf value.toUInt32 := by
  have same := toUInt32_toNat (show 0 ≤ value.toInt by omega)
  obtain ⟨low, high⟩ := stepOf_bounds (show 16 ≤ value.toUInt32.toNat by omega)
    (show value.toUInt32.toNat ≤ 4096 by omega)
  have quotient : (16777216 : ℤ).tdiv value.toInt = stepOf value.toUInt32 := by
    rw [stepOf, same]
    exact Int.tdiv_eq_ediv_of_nonneg (by decide)
  rw [quotient]
  exact toInt_ofInt ⟨by omega, by omega⟩

/-- A rotated axis starts at the exact coordinate of its near edge. -/
theorem CropAxis.engine {size : UInt32} {value first last phase : Int32}
    (allowed : 16 ≤ value.toInt ∧ value.toInt ≤ 4096) (small : size.toNat ≤ 4096)
    (some1 : 1 ≤ outputs)
    (known : CropAxis size (exactCoordinate center value.toUInt32 (center.toInt + near))
      (exactCoordinate center value.toUInt32 (center.toInt + (near + (outputs - 1)))) first last
      phase) :
    EngineAxis size.toNat center value.toUInt32 true near outputs
      ⟨first, Int32.ofInt ((16777216 : ℤ).tdiv value.toInt), phase⟩ := by
  have same := toUInt32_toNat (show 0 ≤ value.toInt by omega)
  have positive : (0 : ℤ) < value.toUInt32.toNat := by omega
  have nonneg := known.nonneg
  have inside := known.inside
  have start := known.first
  have rest := known.phase
  have apart : exactCoordinate center value.toUInt32 (center.toInt + near) =
      center.toInt * 65536 + maskDistance true value.toUInt32 near := by
    rw [exactCoordinate_add, exact_eq positive]
    rfl
  have advance : exactCoordinate center value.toUInt32 (center.toInt + (near + (outputs - 1))) =
      exactCoordinate center value.toUInt32 (center.toInt + near) +
        (outputs - 1) * stepOf value.toUInt32 +
        (carry 16777216 value.toUInt32.toNat (near + (outputs - 1)) -
          carry 16777216 value.toUInt32.toNat near) := by
    rw [exactCoordinate_add, exactCoordinate_add, exact_add _ _ _ positive, stepOf]
    ring
  have gained : carry 16777216 (value.toUInt32.toNat : ℤ) near ≤
      carry 16777216 value.toUInt32.toNat (near + (outputs - 1)) :=
    carry_mono positive (by omega)
  have climbed : 0 ≤ (outputs - 1) * stepOf value.toUInt32 :=
    mul_nonneg (by omega) (Int.ediv_nonneg (by decide) positive.le)
  exact {
    allowed := by omega
    step := stepOf_scale allowed
    first := by
      rw [← apart]
      dsimp only
      omega
    start := by
      dsimp only
      omega
    phase := by
      dsimp only
      omega
    last := by omega }

/-- An upright axis starts at the coordinate that its steps from the pivot reach. -/
theorem ClipAxis.engine {size destStart destSize value : Int32} {axis : ScaleAxis}
    (allowed : 16 ≤ value.toInt ∧ value.toInt ≤ 4096) (small : size.toInt ≤ 4096)
    (bounds : InBounds size destStart destSize center value.toUInt32)
    (known : ClipAxis size destStart destSize center value.toUInt32 axis)
    (starts : near = destStart.toInt - center.toInt) (counts : outputs = destSize.toInt) :
    EngineAxis size.toInt.toNat center value.toUInt32 false near outputs
      ⟨axis.crop, axis.step16, axis.phase16⟩ := by
  have same := toUInt32_toNat (show 0 ≤ value.toInt by omega)
  have nonneg := bounds.first
  have last := bounds.last
  have forward := bounds.forward
  have sized := bounds.source
  have start := known.crop
  have rest := known.phase
  have apart : scaledCoordinate center value.toUInt32 destStart.toInt =
      center.toInt * 65536 + maskDistance false value.toUInt32 near := by
    rw [starts, scaledCoordinate, maskDistance, carried, if_neg Bool.false_ne_true]
    ring
  have reached : lastCoordinate destStart destSize center value.toUInt32 =
      scaledCoordinate center value.toUInt32 destStart.toInt +
        (outputs - 1) * stepOf value.toUInt32 := by
    rw [lastCoordinate, scaledCoordinate_add, counts]
  exact {
    allowed := by omega
    step := known.step
    first := by
      rw [← apart]
      dsimp only
      omega
    start := by
      dsimp only
      omega
    phase := by
      dsimp only
      omega
    last := by omega }

/-- Both source axes of a scaled crop. -/
structure EngineCrop (frame : YuvFrame) (d : YuvImageDsc) (visible : Area) (source : SourceCrop) :
    Prop where
  flags : rotationFlags d.rotation = some source.flags
  x : EngineAxis frame.width.toNat d.pivot.x d.scaleX.toUInt32 (d.rotation ≠ 0)
    (nearDistance source.flags d.pivot visible).1 (outputCounts source.flags visible).1 source.x
  y : EngineAxis frame.height.toNat d.pivot.y d.scaleY.toUInt32 (d.rotation ≠ 0)
    (nearDistance source.flags d.pivot visible).2 (outputCounts source.flags visible).2 source.y

theorem outputCounts_pos (flags : MppRotation) (width : 4 ≤ dst.width) (height : 4 ≤ dst.height) :
    1 ≤ (outputCounts flags dst).1 ∧ 1 ≤ (outputCounts flags dst).2 := by
  unfold outputCounts
  split <;> omega

theorem sourceCrop_turned (allowed : d.allowed = true) (sized : frame.allowed = true)
    (scaled : d.scaled = true) (turned : d.rotation ≠ 0)
    (cropped : sourceCrop frame d clip dst = some (some source)) :
    EngineCrop frame d dst source := by
  obtain ⟨scaleX, scaleY⟩ := ImageDsc.allowed_scales allowed
  obtain ⟨wide, high⟩ := frame.allowed_sizes sized
  rw [sourceCrop, if_pos scaled, if_pos turned] at cropped
  split at cropped
  · contradiction
  · cases Option.some.inj cropped
  · rename_i c accepted
    cases Option.some.inj cropped
    obtain ⟨_, _, known⟩ := rotationScaleCrop_accepted accepted
    obtain ⟨across, down⟩ := known.axes
    obtain ⟨countX, countY⟩ := outputCounts_pos c.flags known.width.1 known.height.1
    refine ⟨known.flags, ?_, ?_⟩
    · rw [decide_eq_true turned]
      exact across.engine scaleX wide.2 countX
    · rw [decide_eq_true turned]
      exact down.engine scaleY high.2 countY

/-- The width of a clip that passed the scaler is not truncated. -/
theorem truncated_size {low high : Int32} (ordered : low.toInt ≤ high.toInt)
    (kept : 4 ≤ (Int32.ofInt (high.toInt - low.toInt + 1)).toInt) :
    (Int32.ofInt (high.toInt - low.toInt + 1)).toInt = high.toInt - low.toInt + 1 := by
  have lowest := Int32.le_toInt low
  have highest := Int32.toInt_lt high
  have least := Int32.le_toInt high
  have most := Int32.toInt_lt low
  by_cases small : high.toInt - low.toInt + 1 < 2 ^ 31
  · exact toInt_ofInt ⟨by omega, small⟩
  · rw [Int32.toInt_ofInt, Int.bmod_def] at kept
    norm_num at kept
    split at kept <;> omega

theorem sourceCrop_upright (allowed : d.allowed = true) (sized : frame.allowed = true)
    (scaled : d.scaled = true) (upright : d.rotation = 0) (nonempty : clip.Nonempty)
    (cropped : sourceCrop frame d clip (clip.from task.area.x1 task.area.y1) = some (some source))
    (seen : Seen clip task.area.x1 task.area.y1 (clip.from task.area.x1 task.area.y1)) :
    EngineCrop frame d (clip.from task.area.x1 task.area.y1) source := by
  obtain ⟨scaleX, scaleY⟩ := ImageDsc.allowed_scales allowed
  obtain ⟨wide, high⟩ := frame.allowed_sizes sized
  have width : frame.width.toInt32.toInt = frame.width.toNat := toInt32_toInt (by omega)
  have height : frame.height.toInt32.toInt = frame.height.toNat := toInt32_toInt (by omega)
  have left := seen.left
  have right := seen.right
  have top := seen.top
  have bottom := seen.bottom
  rw [sourceCrop, if_pos scaled, if_neg (not_not.mpr upright)] at cropped
  split at cropped
  · contradiction
  · cases Option.some.inj cropped
  · rename_i x acceptedX
    split at cropped
    · contradiction
    · cases Option.some.inj cropped
    · rename_i y acceptedY
      cases Option.some.inj cropped
      obtain ⟨boundsX, knownX⟩ := scaleAxis_accepted acceptedX
      obtain ⟨boundsY, knownY⟩ := scaleAxis_accepted acceptedY
      have destX := truncated_size nonempty.1 boundsX.dest
      have destY := truncated_size nonempty.2 boundsY.dest
      refine ⟨?_, ?_, ?_⟩
      · rw [upright]
        rfl
      · have counts : (outputCounts .rotation0 (clip.from task.area.x1 task.area.y1)).1 =
            (Int32.ofInt clip.width).toInt := by
          change (clip.from _ _).x2.toInt - (clip.from _ _).x1.toInt + 1 =
            (Int32.ofInt (clip.x2.toInt - clip.x1.toInt + 1)).toInt
          rw [destX]
          omega
        have axis := knownX.engine scaleX (by omega) boundsX rfl counts
        rw [width, Int.toNat_natCast] at axis
        rw [decide_eq_false (not_not.mpr upright)]
        exact axis
      · have counts : (outputCounts .rotation0 (clip.from task.area.x1 task.area.y1)).2 =
            (Int32.ofInt clip.height).toInt := by
          change (clip.from _ _).y2.toInt - (clip.from _ _).y1.toInt + 1 =
            (Int32.ofInt (clip.y2.toInt - clip.y1.toInt + 1)).toInt
          rw [destY]
          omega
        have axis := knownY.engine scaleY (by omega) boundsY rfl counts
        rw [height, Int.toNat_natCast] at axis
        rw [decide_eq_false (not_not.mpr upright)]
        exact axis

/-! ## The mask beside the engine -/

theorem maskAxis_eq {distance offset : ℤ} (positive : 0 < scale.toNat)
    (same : distance = offset) :
    maskAxis center distance scale = center.toInt * 65536 + maskDistance true scale offset := by
  have whole : (0 : ℤ) < scale.toNat := by omega
  have exact : distance * 16777216 / (scale.toNat : ℤ) =
    distance * (16777216 / (scale.toNat : ℤ)) + carry 16777216 scale.toNat distance :=
    exact_eq whole
  rw [maskAxis, yuvFloorDivPos, floorDiv_eq _ whole, mul_assoc, ← same]
  change center.toInt * 65536 + distance * 16777216 / (scale.toNat : ℤ) = _
  rw [exact]
  rfl

theorem maskUpright_eq {distance offset : ℤ} (same : distance = offset) :
    maskUpright center distance scale =
      center.toInt * 65536 + maskDistance false scale offset := by
  have step : (65536 * 256 : ℤ).tdiv scale.toNat = stepOf scale :=
    Int.tdiv_eq_ediv_of_nonneg (by decide)
  rw [maskUpright, maskDistance, step, ← same]
  exact congrArg (center.toInt * 65536 + ·) (add_zero _).symm

/-- The mask coordinates of a pixel, by its distance from the near edge of a clip. -/
theorem yuvMaskScaled_eq (flags : MppRotation) (dst : Area) (p : ℤ × ℤ)
    (allowed : d.allowed = true) :
    yuvMaskScaled d flags p.1 p.2 =
      (d.pivot.x.toInt * 65536 + maskDistance (flags ≠ .rotation0) d.scaleX.toUInt32
          ((nearDistance flags d.pivot dst).1 + (outputIndex flags dst p).1),
        d.pivot.y.toInt * 65536 + maskDistance (flags ≠ .rotation0) d.scaleY.toUInt32
          ((nearDistance flags d.pivot dst).2 + (outputIndex flags dst p).2)) := by
  obtain ⟨scaleX, scaleY⟩ := ImageDsc.allowed_scales allowed
  have sameX := toUInt32_toNat (show 0 ≤ d.scaleX.toInt by omega)
  have sameY := toUInt32_toNat (show 0 ≤ d.scaleY.toInt by omega)
  have positiveX : 0 < d.scaleX.toUInt32.toNat := by omega
  have positiveY : 0 < d.scaleY.toUInt32.toNat := by omega
  unfold yuvMaskScaled
  rw [maskScale_eq, maskScale_eq]
  cases flags with
  | rotation0 =>
      refine congrArg₂ Prod.mk (maskUpright_eq ?_) (maskUpright_eq ?_) <;>
        simp only [nearDistance, outputIndex] <;> omega
  | rotation90 =>
      refine congrArg₂ Prod.mk (maskAxis_eq positiveX ?_) (maskAxis_eq positiveY ?_) <;>
        simp only [nearDistance, outputIndex] <;> omega
  | rotation180 =>
      refine congrArg₂ Prod.mk (maskAxis_eq positiveX ?_) (maskAxis_eq positiveY ?_) <;>
        simp only [nearDistance, outputIndex] <;> omega
  | rotation270 =>
      refine congrArg₂ Prod.mk (maskAxis_eq positiveX ?_) (maskAxis_eq positiveY ?_) <;>
        simp only [nearDistance, outputIndex] <;> omega

/-- The command of a scaled clip reads its aligned source axes. -/
theorem yuvCommand_sample (scaled : d.scaled = true)
    (built : yuvCommand frame d layer clip source = some command) :
    engineSample command clip p =
      ((alignAxis frame.format.subX source.x).at (outputIndex source.flags clip p).1,
        (alignAxis frame.format.subY source.y).at (outputIndex source.flags clip p).2) := by
  unfold yuvCommand at built
  simp only [scaled, if_true] at built
  rw [Option.ite_none_left_eq_some] at built
  cases Option.some.inj built.2
  unfold engineSample
  rw [turnOf_code]
  rfl

theorem Seen.outputIndex_eq {x y : Int32} (seen : Seen clip x y dst) :
    outputIndex flags clip p = outputIndex flags dst (p.1 - x.toInt, p.2 - y.toInt) := by
  have left := seen.left
  have right := seen.right
  have top := seen.top
  have bottom := seen.bottom
  cases flags <;> simp only [outputIndex, Prod.mk.injEq] <;> omega

/-- The outputs of a clip are those of its pixels. -/
theorem outputIndex_bounds (flags : MppRotation) (member : p ∈ clip.pixels) {x y : Int32}
    (seen : Seen clip x y dst) :
    (0 ≤ (outputIndex flags clip p).1 ∧
      (outputIndex flags clip p).1 < (outputCounts flags dst).1) ∧
    (0 ≤ (outputIndex flags clip p).2 ∧
      (outputIndex flags clip p).2 < (outputCounts flags dst).2) := by
  obtain ⟨left, right, top, bottom⟩ := member
  have seenLeft := seen.left
  have seenRight := seen.right
  have seenTop := seen.top
  have seenBottom := seen.bottom
  cases flags <;>
    simp only [outputIndex, outputCounts, MppRotation.quarters, Area.width, Area.height] <;>
    norm_num <;> omega

end

/-- The mask of a scaled draw is read at the pixel that the engine samples exactly when, on both
source axes, what the engine has lost against the mask stays within the pixel. -/
theorem yuv_mask_indexed_iff {transformed : YuvFrame → YuvImageDsc → Area} {frame : YuvFrame}
    {d : YuvImageDsc} {task : DrawTask} {layer : TargetLayer} {command : GeBitblt Unit UInt8}
    {clip : Area} {flags : MppRotation} {p : ℤ × ℤ} (scaled : d.scaled = true)
    (known : rotationFlags d.rotation = some flags)
    (drawn : submit transformed frame d task layer = some (.drawn command clip))
    (member : p ∈ clip.pixels) :
    (InsideFrame frame (engineSample command clip p) →
      yuvMaskSourceAt task d frame p.1 p.2 = some ((engineSample command clip p).1 / 65536,
        (engineSample command clip p).2 / 65536)) ↔
    PixelKept frame d flags (clip.from task.area.x1 task.area.y1)
      (p.1 - task.area.x1.toInt, p.2 - task.area.y1.toInt) := by
  have passed := submit_drawn drawn
  obtain ⟨source, cropped, built⟩ := passed.command
  have seen := passed.seen
  have crop : EngineCrop frame d (clip.from task.area.x1 task.area.y1) source := by
    by_cases upright : d.rotation = 0
    · exact sourceCrop_upright passed.dscAllowed passed.frameAllowed scaled upright
        passed.nonempty cropped seen
    · exact sourceCrop_turned passed.dscAllowed passed.frameAllowed scaled upright cropped
  have turn : source.flags = flags := Option.some.inj (crop.flags.symm.trans known)
  obtain ⟨⟨nonnegX, belowX⟩, nonnegY, belowY⟩ := outputIndex_bounds flags member seen
  have flagsX := crop.x
  have flagsY := crop.y
  rw [turn] at flagsX flagsY
  have insideX := flagsX.inside frame.format.subX nonnegX belowX
  have insideY := flagsY.inside frame.format.subY nonnegY belowY
  have pixelX := flagsX.pixel_iff (flags ≠ .rotation0) frame.format.subX
    (outputIndex flags clip p).1
  have pixelY := flagsY.pixel_iff (flags ≠ .rotation0) frame.format.subY
    (outputIndex flags clip p).2
  have mask := yuvMaskScaled_eq flags (clip.from task.area.x1 task.area.y1)
    (p.1 - task.area.x1.toInt, p.2 - task.area.y1.toInt) passed.dscAllowed
  rw [← seen.outputIndex_eq] at mask
  rw [PixelKept, ← seen.outputIndex_eq, ← pixelX, ← pixelY, yuvCommand_sample scaled built, turn]
  unfold InsideFrame yuvMaskSourceAt yuvMaskSourceLocal
  rw [known]
  dsimp only at mask ⊢
  rw [if_pos scaled, mask]
  dsimp only
  generalize (alignAxis frame.format.subX source.x).at _ = x at *
  generalize (alignAxis frame.format.subY source.y).at _ = y at *
  generalize d.pivot.x.toInt * 65536 + _ = u at *
  generalize d.pivot.y.toInt * 65536 + _ = v at *
  constructor
  · intro follows
    have found := follows ⟨insideX.1, insideX.2, insideY.1, insideY.2⟩
    rw [Option.ite_none_left_eq_some, Option.some.injEq, Prod.mk.injEq] at found
    exact ⟨found.2.1.symm, found.2.2.symm⟩
  · rintro ⟨sameX, sameY⟩ _
    rw [Option.ite_none_left_eq_some, sameX, sameY]
    refine ⟨?_, rfl⟩
    simp only [Bool.or_eq_true, decide_eq_true_eq, not_or, not_lt, not_le]
    omega

/-- A 16 by 16 frame turned by 90 degrees and enlarged by 384/256. -/
def turnedDsc : YuvImageDsc where
  rotation := 900
  skewX := 0
  skewY := 0
  scaleX := 384
  scaleY := 384
  pivot := ⟨0, 0⟩
  opa := 255

def turnedFrame : YuvFrame := ⟨.i400, 16, 16⟩

def turnedClip : Area := ⟨-11, 0, 0, 11⟩

def turnedTask : DrawTask := ⟨⟨0, 0, 15, 15⟩, turnedClip⟩

def stagingLayer : TargetLayer := ⟨turnedClip, ⟨12, 12⟩, .argb8888⟩

/-- What LVGL answers for the frame above. -/
def turnedArea (_ : YuvFrame) (_ : YuvImageDsc) : Area := ⟨-24, 0, 0, 23⟩

def turnedCommand : GeBitblt Unit UInt8 where
  srcBuf :=
    { size := ⟨16, 16⟩, cropEn := true, crop := ⟨0, 0, 10, 10⟩, format := .yuv400, other := () }
  dstBuf :=
    { size := ⟨12, 12⟩, cropEn := true, crop := ⟨0, 0, 12, 12⟩, format := .argb8888, other := () }
  flags := 1
  control := 255
  scalePhase :=
    { scalePhaseEn := true
      scalerEn := true
      channelNum := 1
      dx16 := ![43690, 0]
      dy16 := ![43690, 0]
      hPhase16 := ![0, 0]
      vPhase16 := ![0, 0]
      inWCh1 := 0
      inHCh1 := 0 }

theorem yuv_mask_indexed_iff_turned :
    submit turnedArea turnedFrame turnedDsc turnedTask stagingLayer =
        some (.drawn turnedCommand turnedClip) ∧
      yuvMaskSourceAt turnedTask turnedDsc turnedFrame (-11) 0 =
        some ((engineSample turnedCommand turnedClip (-11, 0)).1 / 65536,
          (engineSample turnedCommand turnedClip (-11, 0)).2 / 65536) := by
  refine ⟨rfl, ?_⟩
  have turned : rotationFlags turnedDsc.rotation = some .rotation90 := by decide
  have drawn : submit turnedArea turnedFrame turnedDsc turnedTask stagingLayer =
    some (.drawn turnedCommand turnedClip) := rfl
  have member : (-11, 0) ∈ turnedClip.pixels := ⟨by decide, by decide, by decide, by decide⟩
  refine (yuv_mask_indexed_iff (by decide) turned drawn member).mpr ?_ ?_
  · exact ⟨⟨by decide, by decide⟩, by decide, by decide⟩
  · exact ⟨by decide, by decide, by decide, by decide⟩

/-- At the pixel (-11, 3) of the same draw the mask is read in another source column than the one
that the engine samples. -/
theorem yuv_mask_misses_sample :
    submit turnedArea turnedFrame turnedDsc turnedTask stagingLayer =
        some (.drawn turnedCommand turnedClip) ∧
      (-11, 3) ∈ turnedClip.pixels ∧
      InsideFrame turnedFrame (engineSample turnedCommand turnedClip (-11, 3)) ∧
      yuvMaskSourceAt turnedTask turnedDsc turnedFrame (-11) 3 ≠
        some ((engineSample turnedCommand turnedClip (-11, 3)).1 / 65536,
          (engineSample turnedCommand turnedClip (-11, 3)).2 / 65536) := by
  refine ⟨rfl, ?_, ?_, by decide⟩
  · exact ⟨by decide, by decide, by decide, by decide⟩
  · exact ⟨by decide, by decide, by decide, by decide⟩

end LvglAic.Ge2d
