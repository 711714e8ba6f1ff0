import LvglAic.Machine.Run

/-! # The video plane (`lv_aic_video_plane.c`)

Every call runs on the owner thread and takes the answers of the framebuffer,
of the graphics engine and of the CMA allocator.  An image is at most 4096
pixels wide and high, so no size wraps.
-/

namespace LvglAic.Video

/-- The MPP formats that the plane tells apart; `rgb` is ARGB8888 to BGRA4444. -/
inductive MppFormat where
  | rgb
  | yuv400
  | yuv420p
  | nv12
  | nv21
  | other
deriving DecidableEq, Repr

/-- `struct mpp_buf`; an unused plane has address 0. -/
structure MppBuf where
  format : MppFormat
  width : Nat
  height : Nat
  address : Fin 3 → Nat
  stride : Fin 3 → Nat

/-- `lv_aic_rgb_frame_t`, with the format that `lv_aic_pixel_format_to_mpp` gives. -/
structure RgbFrame where
  address : Nat
  width : Nat
  height : Nat
  stride : Nat
  capacity : Nat
  format : Option MppFormat

/-- What a source names.  `buffer` is the answer of `lv_aic_yuv_to_mpp` and
`layout` that of `lv_aic_yuv_layout`. -/
inductive VideoSource where
  | rgb (frame : RgbFrame)
  | yuv (buffer : Option MppBuf) (layout : Bool)
  | unknown

/-- `lv_aic_alpha_config.mode`; `unknown` is beyond `AICFB_MIXDER_ALPHA_MODE`. -/
inductive AlphaMode where
  | pixel
  | global
  | mixder
  | unknown
deriving DecidableEq, Repr

/-- `struct aicfb_alpha_config`; `ui` for the layer id of the UI. -/
structure AlphaConfig where
  ui : Bool
  enable : Nat
  mode : AlphaMode
  value : Nat
deriving DecidableEq, Repr

/-- The configuration that `enable_ui_alpha` applies. -/
def AlphaConfig.perPixel : AlphaConfig where
  ui := true
  enable := 1
  mode := .pixel
  value := 255

/-- What the hardware may be reading: a lease of a source, or a rotation copy. -/
inductive Resource where
  | lease (number : Nat)
  | copy (number : Nat)
deriving DecidableEq, Repr

/-- `reader_t`; `lease` for `rgb` or `yuv`, whichever is set. -/
structure Reader where
  lease : Option Nat
  copy : Option Nat
  bytes : Nat
deriving DecidableEq, Repr

namespace Reader

def empty : Reader where
  lease := none
  copy := none
  bytes := 0

def resources (r : Reader) : List Resource :=
  r.lease.toList.map .lease ++ r.copy.toList.map .copy

end Reader

/-- `struct aicfb_layer_data` of the video layer; `shown` owns its pixels. -/
structure LayerData where
  enable : Bool
  shown : List Resource
  x : Nat
  y : Nat
  width : Nat
  height : Nat
deriving DecidableEq, Repr

def LayerData.disabled : LayerData where
  enable := false
  shown := []
  x := 0
  y := 0
  width := 0
  height := 0

inductive PlaneEvent where
  | acquired (lease : Nat)
  | allocated (copy bytes budget : Nat)
  | rotated (touched : List Resource) (done : Bool)
  | layer (data : LayerData) (done : Bool)
  | vsync (done : Bool)
  | alphaSaved (config : AlphaConfig)
  | alpha (config : AlphaConfig) (done : Bool)
  | released (resource : Resource)
  | closed
deriving DecidableEq, Repr

/-- `struct lv_aic_video_plane`, the numbers of leases and copies so far, and the
build: `floor` is the lowest address, `geV11` for `AIC_GE_DRV_V11`, `useGe2d` for
`AIC_LVGL_USE_GE2D`.  `owned` holds until the plane is freed. -/
structure VideoPlane where
  screenWidth : Nat
  screenHeight : Nat
  screenArgb : Bool
  floor : Nat
  geV11 : Bool
  useGe2d : Bool
  ge : Bool
  geFault : Bool
  current : Reader
  pending : Reader
  savedAlpha : AlphaConfig
  alphaSaved : Bool
  alphaFault : Bool
  faulted : Bool
  submitted : Bool
  owned : Bool
  leases : Nat
  copies : Nat

/-- An update by ioctl and the two waits of `sync_scanout`. -/
structure UpdateAnswer where
  update : Bool
  first : Bool
  second : Bool
deriving DecidableEq, Repr

namespace UpdateAnswer

/-- `sync_scanout` -/
def sync (a : UpdateAnswer) : List PlaneEvent :=
  if a.first then [.vsync true, .vsync a.second] else [.vsync false]

/-- The update succeeds and both waits do. -/
def confirmed (a : UpdateAnswer) : Bool := a.update && a.first && a.second

/-- The update, then the waits unless it failed. -/
def events (a : UpdateAnswer) (issued : Bool → PlaneEvent) : List PlaneEvent :=
  if a.update then issued true :: a.sync else [issued false]

end UpdateAnswer

/-- `copy` is the address that the CMA allocator gives. -/
structure RotateAnswer where
  geOpen : Bool
  copy : Option Nat
  bitblt : Bool
  emit : Bool
  sync : Bool
deriving DecidableEq, Repr

def uint16Max : Nat := 2 ^ 16 - 1

def uint32Max : Nat := 2 ^ 32 - 1

/-- The checks of `acquire` once the image is leased. -/
def VideoSource.buffer (floor : Nat) : VideoSource → Option MppBuf
  | .rgb frame =>
      let span := frame.stride * frame.height
      if frame.address < floor || uint32Max < frame.address || frame.capacity < span ||
          uint32Max - frame.address + 1 < span || uint16Max < frame.stride then none
      else
        frame.format.map fun format => {
          format := format
          width := frame.width
          height := frame.height
          address := ![frame.address, 0, 0]
          stride := ![frame.stride, 0, 0] }
  | .yuv buffer layout => if layout then buffer else none
  | .unknown => none

/-- `release` -/
def Reader.releases (r : Reader) : List PlaneEvent := r.resources.map .released

namespace VideoPlane

def releasePending (p : VideoPlane) : VideoPlane × List PlaneEvent :=
  ({ p with pending := .empty }, p.pending.releases)

/-- The image is leased. -/
def lease (p : VideoPlane) : VideoPlane :=
  { p with leases := p.leases + 1, pending := { p.pending with lease := some p.leases } }

/-- `acquire` into `pending`. -/
def acquire (p : VideoPlane) (source : VideoSource) :
    Option MppBuf × VideoPlane × List PlaneEvent :=
  match source with
  | .unknown => (none, p.releasePending)
  | _ =>
      match source.buffer p.floor with
      | some buffer => (some buffer, p.lease, [.acquired p.leases])
      | none => (none, p.lease.releasePending.1, .acquired p.leases :: p.lease.releasePending.2)

/-- The padded size of the rotated copy. -/
def copyBytes (buffer : MppBuf) (degrees : Nat) : Nat :=
  let width := if degrees = 180 then buffer.width else buffer.height
  let height := if degrees = 180 then buffer.height else buffer.width
  (width * 4 + 63) / 64 * 64 * height

/-- The copy overlaps a plane of the source. -/
def overlaps (buffer : MppBuf) (address bytes : Nat) : Bool :=
  (List.finRange 3).any fun plane =>
    let halved := plane ≠ 0 && (buffer.format = .yuv420p || buffer.format = .nv12 ||
      buffer.format = .nv21)
    let rows := if halved then buffer.height / 2 else buffer.height
    buffer.address plane ≠ 0 && buffer.stride plane ≠ 0 &&
      address < buffer.address plane + buffer.stride plane * rows &&
      buffer.address plane < address + bytes

/-- `rotate_copy` -/
def rotateCopy (p : VideoPlane) (buffer : MppBuf) (degrees budget : Nat) (a : RotateAnswer) :
    Bool × VideoPlane × List PlaneEvent :=
  let bytes := copyBytes buffer degrees
  if buffer.width < 8 || buffer.height < 8 then (false, p, [])
  else if p.geV11 && buffer.format ≠ .rgb && buffer.format ≠ .yuv400 then (false, p, [])
  else if budget < bytes || budget - bytes < p.current.bytes then (false, p, [])
  else if !p.ge && !a.geOpen then (false, p, [])
  else
    match a.copy with
    | none => (false, { p with ge := true }, [])
    | some address =>
        let copied := { p with
          ge := true
          copies := p.copies + 1
          pending := { p.pending with copy := some p.copies, bytes := bytes } }
        let told := [.allocated p.copies bytes budget]
        if address < p.floor || uint32Max < address || uint32Max - address + 1 < bytes ||
            overlaps buffer address bytes then (false, copied, told)
        else if a.bitblt && a.emit && a.sync then
          (true, { copied with pending := { copied.pending with lease := none } },
            told ++ .rotated copied.pending.resources true ::
              copied.pending.lease.toList.map fun lease => .released (.lease lease))
        else
          (false, { copied with geFault := true },
            told ++ [.rotated copied.pending.resources false])

/-- The update of the layer in `present`. -/
def showLayer (p : VideoPlane) (x y width height : Nat) (a : UpdateAnswer) :
    Bool × VideoPlane × List PlaneEvent :=
  let layer : LayerData := {
    enable := true
    shown := p.pending.resources
    x := x
    y := y
    width := width
    height := height }
  let told := a.events (.layer layer)
  if a.confirmed then
    (true, { p with submitted := true, current := p.pending, pending := .empty },
      told ++ p.current.releases)
  else (false, { p with submitted := true, faulted := true }, told)

/-- `lv_aic_video_plane_present_rotated` -/
def present (p : VideoPlane) (source : VideoSource) (x y : Int) (width height degrees budget : Nat)
    (a : RotateAnswer) (u : UpdateAnswer) : Bool × VideoPlane × List PlaneEvent :=
  if p.faulted || p.alphaFault || p.geFault ||
      (degrees ≠ 0 && degrees ≠ 90 && degrees ≠ 180 && degrees ≠ 270) ||
      x < 0 || y < 0 || width = 0 || height = 0 ||
      p.screenWidth < x.toNat + width || p.screenHeight < y.toNat + height then (false, p, [])
  else
    match p.acquire source with
    | (none, failed) => (false, failed)
    | (some buffer, acquired, told) =>
        if degrees = 0 then
          let shown := acquired.showLayer x.toNat y.toNat width height u
          (shown.1, shown.2.1, told ++ shown.2.2)
        else if !p.useGe2d then
          (false, acquired.releasePending.1, told ++ acquired.releasePending.2)
        else
          let rotated := acquired.rotateCopy buffer degrees budget a
          if rotated.1 then
            let shown := rotated.2.1.showLayer x.toNat y.toNat width height u
            (shown.1, shown.2.1, told ++ rotated.2.2 ++ shown.2.2)
          else if rotated.2.1.geFault then (false, rotated.2.1, told ++ rotated.2.2)
          else
            (false, rotated.2.1.releasePending.1,
              told ++ rotated.2.2 ++ rotated.2.1.releasePending.2)

/-- `lv_aic_video_plane_enable_ui_alpha`; `read` is the configuration read. -/
def enableUiAlpha (p : VideoPlane) (read : Option AlphaConfig) (a : UpdateAnswer) :
    Bool × VideoPlane × List PlaneEvent :=
  if p.faulted || p.alphaFault || p.geFault then (false, p, [])
  else if p.alphaSaved then (true, p, [])
  else if p.submitted || !p.screenArgb then (false, p, [])
  else
    match read with
    | none => (false, p, [])
    | some old =>
        if !old.ui || 1 < old.enable || old.mode = .unknown || 255 < old.value then (false, p, [])
        else
          let saved := { p with savedAlpha := old, alphaSaved := true }
          let told := .alphaSaved old :: a.events (.alpha .perPixel)
          if a.confirmed then (true, saved, told) else (false, { saved with alphaFault := true }, told)

/-- `lv_aic_video_plane_hide` -/
def hide (p : VideoPlane) (a : UpdateAnswer) : Bool × VideoPlane × List PlaneEvent :=
  if p.geFault then (false, p, [])
  else if !p.submitted then (true, p, [])
  else
    let told := a.events (.layer .disabled)
    if a.confirmed then
      (true,
        { p with current := .empty, pending := .empty, submitted := false, faulted := false },
        told ++ p.current.releases ++ p.pending.releases)
    else (false, { p with faulted := true }, told)

/-- The restoration of the alpha configuration in `close`. -/
def restoreAlpha (p : VideoPlane) (a : UpdateAnswer) : Bool × VideoPlane × List PlaneEvent :=
  if !p.alphaSaved then (true, p, [])
  else
    let told := a.events (.alpha p.savedAlpha)
    if a.confirmed then (true, { p with alphaSaved := false, alphaFault := false }, told)
    else (false, { p with alphaFault := true }, told)

/-- `lv_aic_video_plane_close` -/
def close (p : VideoPlane) (a restore : UpdateAnswer) : Bool × VideoPlane × List PlaneEvent :=
  let hidden := p.hide a
  if !hidden.1 then (false, hidden.2)
  else
    let restored := hidden.2.1.restoreAlpha restore
    if !restored.1 then (false, restored.2.1, hidden.2.2 ++ restored.2.2)
    else (true, { restored.2.1 with owned := false }, hidden.2.2 ++ restored.2.2 ++ [.closed])

end VideoPlane

inductive PlaneCall where
  | enableUiAlpha (read : Option AlphaConfig) (a : UpdateAnswer)
  | present (source : VideoSource) (x y : Int) (width height degrees budget : Nat)
      (a : RotateAnswer) (u : UpdateAnswer)
  | hide (a : UpdateAnswer)
  | close (a restore : UpdateAnswer)

/-- A call on the plane that the caller still owns. -/
def VideoPlane.perform (p : VideoPlane) (call : PlaneCall) :
    Option (VideoPlane × List PlaneEvent) :=
  if !p.owned then none
  else
    match call with
    | .enableUiAlpha read a => some (p.enableUiAlpha read a).2
    | .present source x y width height degrees budget a u =>
        some (p.present source x y width height degrees budget a u).2
    | .hide a => some (p.hide a).2
    | .close a restore => some (p.close a restore).2

/-- `lv_aic_video_plane_open` returned a plane: the layer was not enabled. -/
def VideoPlane.opened (screenWidth screenHeight : Nat) (screenArgb : Bool) (floor : Nat)
    (geV11 useGe2d : Bool) : VideoPlane where
  screenWidth := screenWidth
  screenHeight := screenHeight
  screenArgb := screenArgb
  floor := floor
  geV11 := geV11
  useGe2d := useGe2d
  ge := false
  geFault := false
  current := .empty
  pending := .empty
  savedAlpha := { ui := false, enable := 0, mode := .pixel, value := 0 }
  alphaSaved := false
  alphaFault := false
  faulted := false
  submitted := false
  owned := true
  leases := 0
  copies := 0

def planeMachine : Machine VideoPlane PlaneCall PlaneEvent where
  Initial p := ∃ screenWidth screenHeight screenArgb floor geV11 useGe2d,
    p = VideoPlane.opened screenWidth screenHeight screenArgb floor geV11 useGe2d
  step := VideoPlane.perform

/-! ## What the hardware may read -/

/-- What an observer of the events knows: the resources that are held, those that
the display engine may scan out, those that a failed command of the graphics
engine left open, the copies alive with their sizes and the budget of the newest,
and how many leases and copies there were. -/
structure Scanout where
  held : List Resource
  showing : List Resource
  touched : List Resource
  confirming : Option (List Resource × Bool)
  copies : List (Nat × Nat)
  budget : Nat
  leased : Nat
  copied : Nat
deriving DecidableEq, Repr

namespace Scanout

def start : Scanout where
  held := []
  showing := []
  touched := []
  confirming := none
  copies := []
  budget := 0
  leased := 0
  copied := 0

/-- A layer that was issued may be scanned out at once; what was shown before it
is out of scanout after two waits in a row. -/
def step (o : Scanout) : PlaneEvent → Scanout
  | .acquired lease => { o with held := .lease lease :: o.held, leased := o.leased + 1 }
  | .allocated copy bytes budget =>
      { o with
        held := .copy copy :: o.held
        copies := (copy, bytes) :: o.copies
        budget := budget
        copied := o.copied + 1 }
  | .rotated touched done => if done then o else { o with touched := touched ++ o.touched }
  | .layer data done =>
      { o with
        showing := data.shown ++ o.showing
        confirming := if done then some (data.shown, false) else none }
  | .vsync done =>
      match o.confirming with
      | some (shown, once) =>
          if !done then { o with confirming := none }
          else if once then { o with showing := shown, confirming := none }
          else { o with confirming := some (shown, true) }
      | none => o
  | .released resource =>
      { o with
        held := o.held.erase resource
        copies := o.copies.filter fun copy => .copy copy.1 ≠ resource }
  | .alphaSaved _ => o
  | .alpha _ _ => { o with confirming := none }
  | .closed => o

end Scanout

def observe (trace : List PlaneEvent) : Scanout := trace.foldl Scanout.step .start

end LvglAic.Video
