import LvglAic.Ge2d.TransformPlan
import LvglAic.Ge2d.Stripes
import LvglAic.Image.YuvConvert

/-! # YUV frames in MPP buffers (`lv_aic_yuv_mpp.c`, `lv_aic_pixel_format.c`)

A buffer names physical addresses of 32 bits, a frame names pointers.  The two share
their strides and their formats; a crop of the buffer moves the planes of the frame.
-/

namespace LvglAic.Image

open LvglAic.Machine
open LvglAic.Ge2d (MppPixelFormat MppSize MppRect)

/-- Pointers hold every physical address. -/
structure Platform where
  sizeMax : ℕ
  wide : UInt32.size ≤ sizeMax + 1

def Platform.wrap (p : Platform) (value : ℕ) : ℕ := value % (p.sizeMax + 1)

inductive MppBufType where
  | dmaBufFd
  | phyAddr
  | other (code : UInt32)
deriving DecidableEq, Repr

structure MppBuf where
  bufType : MppBufType
  phyAddr : Fin 3 → UInt32
  stride : Fin 3 → UInt32
  size : MppSize
  cropEn : UInt32
  crop : MppRect
  format : MppPixelFormat
  flags : UInt32
deriving DecidableEq

def pixelFormatToMpp : ColorFormat → Option MppPixelFormat
  | .rgb565 => some .rgb565
  | .rgb888 => some .rgb888
  | .argb8888 => some .argb8888
  | .xrgb8888 => some .xrgb8888
  | .i420 => some .yuv420p
  | .i422 => some .yuv422p
  | .i444 => some .yuv444p
  | .i400 => some .yuv400
  | .nv12 => some .nv12
  | .nv21 => some .nv21
  | .yuy2 => some .yuyv
  | .uyvy => some .uyvy
  | _ => none

def pixelFormatFromMpp : MppPixelFormat → Option ColorFormat
  | .rgb565 => some .rgb565
  | .rgb888 => some .rgb888
  | .argb8888 => some .argb8888
  | .xrgb8888 => some .xrgb8888
  | .yuv420p => some .i420
  | .yuv422p => some .i422
  | .yuv444p => some .i444
  | .yuv400 => some .i400
  | .nv12 => some .nv12
  | .nv21 => some .nv21
  | .yuyv => some .yuy2
  | .uyvy => some .uyvy
  | _ => none

/-- The formats without a name in the graphics library are apart from the shared table. -/
def yuvFormatToMpp (format : ColorFormat) : Option MppPixelFormat :=
  if format = .nv16 then some .nv16
  else if format = .nv61 then some .nv61
  else if format = .yvyu then some .yvyu
  else if format = .vyuy then some .vyuy
  else pixelFormatToMpp format

def yuvFormatFromMpp (format : MppPixelFormat) : Option ColorFormat :=
  if format = .nv16 then some .nv16
  else if format = .nv61 then some .nv61
  else if format = .yvyu then some .yvyu
  else if format = .vyuy then some .vyuy
  else pixelFormatFromMpp format

/-- A loop over the planes of a layout, which leaves the others. -/
def eachPlane {Plane : Type} (count : ℕ) (old : Fin 3 → Plane) (step : Fin 3 → Option Plane) :
    Option (Fin 3 → Plane) := do
  let first ← (if 0 < count then step 0 else some (old 0) : Option Plane)
  let second ← (if 1 < count then step 1 else some (old 1) : Option Plane)
  let third ← (if 2 < count then step 2 else some (old 2) : Option Plane)
  some ![first, second, third]

/-- The address and the stride of a plane, if the engine can read its rows. -/
def planeToMpp (addressFloor : UInt32) (rows : ℕ) (plane : YuvPlane) : Option (UInt32 × UInt32) :=
  let span := plane.stride.toNat * rows
  if plane.data < addressFloor.toNat || plane.data > 2 ^ 32 - 1 ||
      plane.stride.toNat > 2 ^ 16 - 1 || span > plane.capacity ||
      span > 2 ^ 32 - 1 - plane.data + 1 then none
  else some (UInt32.ofNat plane.data, plane.stride)

/-- `spaces` are the flags of the color spaces. -/
def yuvToMpp (platform : Platform) (spaces : ℤ → UInt32) (frame : YuvFrame)
    (addressFloor : UInt32) : Option MppBuf := do
  if !yuvValidate platform.sizeMax frame then none
  else
    let format ← yuvFormatToMpp frame.format
    if (frame.format.subX && frame.width.toNat % 2 = 1) ||
        (frame.format.subY && frame.height.toNat % 2 = 1) then none
    else
      let layout ← yuvLayout frame.format frame.width frame.height
      if layout.planes = 3 && (frame.planes 1).stride ≠ (frame.planes 2).stride then none
      else
        let planes ← eachPlane layout.planes (fun _ => (0, 0)) fun i =>
          planeToMpp addressFloor (layout.rows i) (frame.planes i)
        some { bufType := .phyAddr, phyAddr := fun i => (planes i).1, stride := fun i => (planes i).2,
               size := ⟨frame.width.toInt32, frame.height.toInt32⟩, cropEn := 0,
               crop := ⟨0, 0, 0, 0⟩, format, flags := spaces frame.colorSpace }

def planeFromMpp (platform : Platform) (buffer : MppBuf) (capacity rowBytes rows : ℕ)
    (i : Fin 3) : Option YuvPlane :=
  let span := (rows - 1) * (buffer.stride i).toNat + rowBytes
  if span > 2 ^ 32 - 1 - (buffer.phyAddr i).toNat + 1 then none
  else some ⟨platform.wrap (buffer.phyAddr i).toNat, buffer.stride i, capacity⟩

def cropPlane (platform : Platform) (format : ColorFormat) (planes : ℕ) (crop : MppRect)
    (i : Fin 3) (plane : YuvPlane) : Option YuvPlane :=
  let y := crop.y.toInt.toNat
  let y := if i ≠ 0 && format.subY then y / 2 else y
  let x := crop.x.toInt.toNat
  let x := if i ≠ 0 && format.subX && planes = 3 then x / 2 else x
  let x := if format.packed then x * 2 else x
  let offset := platform.wrap (y * plane.stride.toNat + x)
  if offset ≥ plane.capacity then none
  else some ⟨platform.wrap (plane.data + offset), plane.stride, plane.capacity - offset⟩

/-- The checks of a crop against the frame of the whole buffer. -/
def cropRefused (frame : YuvFrame) (c : MppRect) : Bool :=
  c.x.toInt < 0 || c.y.toInt < 0 || c.width.toInt ≤ 0 || c.height.toInt ≤ 0 ||
    c.x.toInt + c.width.toInt > frame.width.toNat ||
    c.y.toInt + c.height.toInt > frame.height.toNat ||
    (frame.format.subX && c.x.toInt % 2 = 1) || (frame.format.subY && c.y.toInt % 2 = 1)

def cropFrame (platform : Platform) (layout : YuvLayout) (frame : YuvFrame) (c : MppRect) :
    Option YuvFrame := do
  if cropRefused frame c then none
  else
    let planes ← eachPlane layout.planes frame.planes fun i =>
      cropPlane platform frame.format layout.planes c i (frame.planes i)
    let result : YuvFrame :=
      { frame with planes, width := c.width.toUInt32, height := c.height.toUInt32 }
    if !yuvValidate platform.sizeMax result then none
    else some result

def frameOfMpp (platform : Platform) (buffer : MppBuf) (capacities : Fin 3 → ℕ) (space : ℤ) :
    Option YuvFrame := do
  if buffer.bufType ≠ .phyAddr || buffer.size.width.toInt ≤ 0 || buffer.size.height.toInt ≤ 0 then
    none
  else
    let format ← yuvFormatFromMpp buffer.format
    let width := buffer.size.width.toUInt32
    let height := buffer.size.height.toUInt32
    let layout ← yuvLayout format width height
    let planes ← eachPlane layout.planes (fun _ => ⟨0, 0, 0⟩) fun i =>
      planeFromMpp platform buffer (capacities i) (layout.rowBytes i) (layout.rows i) i
    let result : YuvFrame := { format, width, height, colorSpace := space, planes }
    if !yuvValidate platform.sizeMax result then none
    else if buffer.cropEn ≠ 0 then cropFrame platform layout result buffer.crop
    else some result

/-- Whether the buffer was accepted, and the output then. -/
def yuvFromMpp (platform : Platform) (buffer : MppBuf) (capacities : Fin 3 → ℕ) (space : ℤ)
    (output : YuvFrame) : Bool × YuvFrame :=
  match frameOfMpp platform buffer capacities space with
  | none => (false, output)
  | some result => (true, result)

/-! ## Planes -/

section
variable {platform : Platform} {value : ℕ}

theorem Platform.wrap_eq (small : value ≤ platform.sizeMax) : platform.wrap value = value :=
  Nat.mod_eq_of_lt (Nat.lt_succ_of_le small)

theorem Platform.wrap_word (word : UInt32) : platform.wrap word.toNat = word.toNat := by
  have below := word.toNat_lt
  have wide := platform.wide
  change 4294967296 ≤ _ at wide
  exact Platform.wrap_eq (by omega)

theorem eachPlane_some {Plane : Type} {count : ℕ} {old new : Fin 3 → Plane}
    {step : Fin 3 → Option Plane} :
    eachPlane count old step = some new ↔
      ∀ i : Fin 3, (if i.val < count then step i else some (old i)) = some (new i) := by
  unfold eachPlane
  simp only [Option.bind_eq_bind, Option.bind_eq_some_iff]
  constructor
  · rintro ⟨first, zero, second, one, third, two, same⟩ i
    cases Option.some.inj same
    fin_cases i
    · exact zero
    · exact one
    · exact two
  · intro steps
    refine ⟨new 0, steps 0, new 1, steps 1, new 2, steps 2, ?_⟩
    congr 1
    funext i
    fin_cases i <;> rfl

end

section
variable {platform : Platform} {f frame full view : YuvFrame} {layout inner : YuvLayout}
  {buffer : MppBuf} {capacities : Fin 3 → ℕ} {space : ℤ} {i : Fin 3} {c : MppRect} {x y : ℕ}

theorem yuvValidate_iff {sizeMax : ℕ} (laid : yuvLayout f.format f.width f.height = some layout) :
    yuvValidate sizeMax f = true ↔ (0 ≤ f.colorSpace ∧ f.colorSpace ≤ 3) ∧
      ∀ i : Fin 3, i.val < layout.planes →
        spanValid sizeMax (f.planes i) (layout.rowBytes i) (layout.rows i) = true := by
  unfold yuvValidate
  rw [laid]
  dsimp only
  by_cases known : f.colorSpace < 0 || f.colorSpace > 3
  · rw [if_pos known]
    simp only [Bool.or_eq_true, decide_eq_true_eq] at known
    refine iff_of_false Bool.false_ne_true ?_
    rintro ⟨bounds, _⟩
    omega
  · rw [if_neg known]
    simp only [Bool.or_eq_true, decide_eq_true_eq, not_or, not_lt] at known
    simp only [List.all_eq_true, List.mem_finRange, Bool.or_eq_true, decide_eq_true_eq,
      forall_true_left]
    constructor
    · intro all
      exact ⟨known, fun i plane => (all i).resolve_left (Nat.not_le.mpr plane)⟩
    · rintro ⟨_, spans⟩ i
      exact (Nat.lt_or_ge i layout.planes).symm.imp_right (spans i)

/-- The frame of the whole buffer, before a crop. -/
structure Whole (platform : Platform) (buffer : MppBuf) (capacities : Fin 3 → ℕ) (space : ℤ)
    (layout : YuvLayout) (frame : YuvFrame) : Prop where
  bufType : buffer.bufType = .phyAddr
  width : 0 < buffer.size.width.toInt
  height : 0 < buffer.size.height.toInt
  format : yuvFormatFromMpp buffer.format = some frame.format
  size : frame.width = buffer.size.width.toUInt32 ∧ frame.height = buffer.size.height.toUInt32
  space : frame.colorSpace = space
  laid : yuvLayout frame.format frame.width frame.height = some layout
  planes : ∀ i : Fin 3, (if i.val < layout.planes then
    planeFromMpp platform buffer (capacities i) (layout.rowBytes i) (layout.rows i) i
      else some ⟨0, 0, 0⟩) = some (frame.planes i)
  valid : yuvValidate platform.sizeMax frame = true

theorem Whole.frame_eq (whole : Whole platform buffer capacities space layout frame) :
    frameOfMpp platform buffer capacities space =
      if buffer.cropEn ≠ 0 then cropFrame platform layout frame buffer.crop else some frame := by
  obtain ⟨bufType, width, height, format, ⟨wide, high⟩, tint, laid, planes, valid⟩ := whole
  obtain ⟨form, frameWidth, frameHeight, color, all⟩ := frame
  subst wide high tint
  unfold frameOfMpp
  rw [if_neg (by
    simp only [bufType, ne_eq, not_true_eq_false, decide_false, Bool.false_or, Bool.or_eq_true,
      decide_eq_true_eq, not_or, not_le]
    exact ⟨width, height⟩)]
  simp only [Option.bind_eq_bind]
  rw [format, Option.bind_some, laid, Option.bind_some, eachPlane_some.mpr planes,
    Option.bind_some, if_neg (by rw [valid]; decide)]

theorem whole_of_frame (accepted : frameOfMpp platform buffer capacities space = some view) :
    ∃ layout frame, Whole platform buffer capacities space layout frame := by
  unfold frameOfMpp at accepted
  rw [Option.ite_none_left_eq_some] at accepted
  obtain ⟨sound, accepted⟩ := accepted
  simp only [Bool.or_eq_true, decide_eq_true_eq, not_or, not_le, ne_eq, not_not] at sound
  obtain ⟨⟨bufType, width⟩, height⟩ := sound
  simp only [Option.bind_eq_bind, Option.bind_eq_some_iff] at accepted
  obtain ⟨format, known, layout, laid, planes, read, accepted⟩ := accepted
  rw [Option.ite_none_left_eq_some] at accepted
  obtain ⟨valid, _⟩ := accepted
  simp only [Bool.not_eq_true', Bool.not_eq_false] at valid
  exact ⟨layout, _, bufType, width, height, known, ⟨rfl, rfl⟩, rfl, laid, eachPlane_some.mp read,
    valid⟩

/-! ## Crops -/

/-- A rectangle that is not empty, inside of the frame, and starts on a chroma cell. -/
structure CropInside (frame : YuvFrame) (c : MppRect) : Prop where
  nonempty : 0 < c.width.toInt ∧ 0 < c.height.toInt
  start : 0 ≤ c.x.toInt ∧ 0 ≤ c.y.toInt
  right : c.x.toInt + c.width.toInt ≤ frame.width.toNat
  bottom : c.y.toInt + c.height.toInt ≤ frame.height.toNat
  evenX : frame.format.subX = true → Even c.x.toInt
  evenY : frame.format.subY = true → Even c.y.toInt

theorem cropRefused_iff : cropRefused frame c = false ↔ CropInside frame c := by
  unfold cropRefused
  simp only [Bool.or_eq_false_iff, Bool.and_eq_false_imp, decide_eq_false_iff_not, not_lt, not_le]
  constructor
  · rintro ⟨⟨⟨⟨⟨⟨⟨left, top⟩, wide⟩, high⟩, right⟩, bottom⟩, evenX⟩, evenY⟩
    exact ⟨⟨wide, high⟩, ⟨left, top⟩, right, bottom,
      fun sub => Int.even_iff.mpr (Int.emod_two_ne_one.mp (evenX sub)),
      fun sub => Int.even_iff.mpr (Int.emod_two_ne_one.mp (evenY sub))⟩
  · rintro ⟨⟨wide, high⟩, ⟨left, top⟩, right, bottom, evenX, evenY⟩
    exact ⟨⟨⟨⟨⟨⟨⟨left, top⟩, wide⟩, high⟩, right⟩, bottom⟩,
      fun sub => Int.emod_two_ne_one.mpr (Int.even_iff.mp (evenX sub))⟩,
      fun sub => Int.emod_two_ne_one.mpr (Int.even_iff.mp (evenY sub))⟩

/-- The column and the line of a plane that a crop starts at. -/
def cropOrigin (format : ColorFormat) (c : MppRect) (i : Fin 3) : ℕ × ℕ :=
  let x := c.x.toInt.toNat
  let x := if i ≠ 0 && format.subX && format.planes = 3 then x / 2 else x
  (if format.packed then x * 2 else x,
    if i ≠ 0 && format.subY then c.y.toInt.toNat / 2 else c.y.toInt.toNat)

def cropOffset (frame : YuvFrame) (c : MppRect) (i : Fin 3) : ℕ :=
  (cropOrigin frame.format c i).2 * (frame.planes i).stride.toNat + (cropOrigin frame.format c i).1

/-- A smaller size has a layout. -/
theorem yuvLayout_smaller {format : ColorFormat} {w h w' h' : UInt32}
    (laid : yuvLayout format w h = some layout) (wide : 0 < w'.toNat) (left : w'.toNat ≤ w.toNat)
    (high : 0 < h'.toNat) (low : h'.toNat ≤ h.toNat) :
    ∃ inner, yuvLayout format w' h' = some inner := by
  unfold yuvLayout at laid ⊢
  dsimp only at laid ⊢
  rw [Option.ite_none_left_eq_some] at laid
  obtain ⟨sizes, shape⟩ := laid
  simp only [Bool.or_eq_true, decide_eq_true_eq, not_or, not_lt] at sizes
  have area := Nat.mul_le_mul left low
  rw [if_neg (by
    simp only [Bool.or_eq_true, decide_eq_true_eq, not_or, not_lt]
    omega)]
  cases format <;> first
    | exact ⟨_, rfl⟩
    | exact absurd shape.symm (Option.some_ne_none _)

theorem packed_subX {format : ColorFormat} (packed : format.packed = true) :
    format.subX = true := by
  revert packed
  cases format <;> simp [ColorFormat.packed, ColorFormat.subX]

/-- The rows of the crop, from its start on, are rows of the whole plane. -/
theorem cropOrigin_inside (laid : yuvLayout full.format full.width full.height = some layout)
    (cut : yuvLayout view.format view.width view.height = some inner)
    (format : view.format = full.format) (inside : CropInside full c)
    (width : (view.width.toNat : ℤ) = c.width.toInt)
    (height : (view.height.toNat : ℤ) = c.height.toInt) (plane : i.val < layout.planes) :
    (cropOrigin full.format c i).2 + inner.rows i ≤ layout.rows i ∧
      (cropOrigin full.format c i).1 + inner.rowBytes i ≤ layout.rowBytes i ∧
      0 < inner.rows i ∧ 0 < inner.rowBytes i := by
  obtain ⟨⟨wide, high⟩, ⟨left, top⟩, right, bottom, evenX, evenY⟩ := inside
  have planes := yuvLayout_planes laid
  have same : inner.planes = layout.planes := by
    rw [planes, yuvLayout_planes cut, format]
  obtain ⟨rows, bytes, chroma⟩ := yuvLayout_shape laid
  obtain ⟨innerRows, innerBytes, innerChroma⟩ := yuvLayout_shape cut
  rw [format] at innerBytes
  have columns : (c.x.toInt.toNat : ℤ) = c.x.toInt := Int.toNat_of_nonneg left
  have lines : (c.y.toInt.toNat : ℤ) = c.y.toInt := Int.toNat_of_nonneg top
  rw [← columns, Int.even_coe_nat, Nat.even_iff] at evenX
  rw [← lines, Int.even_coe_nat, Nat.even_iff] at evenY
  have across : c.x.toInt.toNat + view.width.toNat ≤ full.width.toNat := by omega
  have down : c.y.toInt.toNat + view.height.toNat ≤ full.height.toNat := by omega
  have filled : 0 < view.width.toNat ∧ 0 < view.height.toNat := by omega
  unfold cropOrigin
  generalize c.x.toInt.toNat = cx at evenX across ⊢
  generalize c.y.toInt.toNat = cy at evenY down ⊢
  clear columns lines right bottom width height left top wide high
  by_cases first : i = 0
  · subst first
    rw [rows, bytes, innerRows, innerBytes]
    simp only [ne_eq, not_true_eq_false, decide_false, Bool.false_and, Bool.false_eq_true, if_false]
    by_cases packed : full.format.packed = true
    · have even := evenX (packed_subX packed)
      rw [if_pos packed, if_pos packed, if_pos packed]
      omega
    · rw [if_neg packed, if_neg packed, if_neg packed]
      omega
  · obtain ⟨rowsEq, bytesEq⟩ := chroma i first plane
    obtain ⟨innerRowsEq, innerBytesEq⟩ := innerChroma i first (same ▸ plane)
    rw [format] at innerRowsEq innerBytesEq
    rw [same] at innerBytesEq
    rw [rowsEq, bytesEq, innerRowsEq, innerBytesEq, planes]
    rw [planes] at plane
    clear chroma innerChroma rows bytes innerRows innerBytes rowsEq bytesEq innerRowsEq innerBytesEq
    cases form : full.format <;>
      simp [form, first, ColorFormat.subX, ColorFormat.subY, ColorFormat.packed,
        ColorFormat.planes] at evenX evenY plane ⊢ <;> omega

/-- A part of the rows of a valid plane is a valid plane. -/
theorem spanValid_part {sizeMax row column rowBytes rows partBytes partRows : ℕ} {plane : YuvPlane}
    (valid : spanValid sizeMax plane rowBytes rows = true) (down : row + partRows ≤ rows)
    (across : column + partBytes ≤ rowBytes) (high : 0 < partRows) (wide : 0 < partBytes) :
    row * plane.stride.toNat + column < plane.capacity ∧
      plane.data + (row * plane.stride.toNat + column) ≤ sizeMax ∧
      spanValid sizeMax ⟨plane.data + (row * plane.stride.toNat + column), plane.stride,
        plane.capacity - (row * plane.stride.toNat + column)⟩ partBytes partRows = true := by
  obtain ⟨data, short, fits, room, last⟩ := spanValid_iff.mp valid
  have inside : row * plane.stride.toNat + column +
      ((partRows - 1) * plane.stride.toNat + partBytes) ≤
        (rows - 1) * plane.stride.toNat + rowBytes := by
    have lines : (row + (partRows - 1)) * plane.stride.toNat ≤ (rows - 1) * plane.stride.toNat :=
      Nat.mul_le_mul_right _ (by omega)
    rw [Nat.add_mul] at lines
    omega
  rw [spanValid_iff]
  dsimp only
  omega

/-- What a crop keeps and moves of the planes of the full frame. -/
structure Shifted (full view : YuvFrame) (c : MppRect) : Prop where
  format : view.format = full.format
  space : view.colorSpace = full.colorSpace
  width : (view.width.toNat : ℤ) = c.width.toInt
  height : (view.height.toNat : ℤ) = c.height.toInt
  plane : ∀ i : Fin 3, i.val < full.format.planes → view.planes i =
    ⟨(full.planes i).data + cropOffset full c i, (full.planes i).stride,
      (full.planes i).capacity - cropOffset full c i⟩
  within : ∀ i : Fin 3, i.val < full.format.planes → cropOffset full c i < (full.planes i).capacity

theorem cropPlane_eq (planes : layout.planes = full.format.planes)
    (data : (full.planes i).data + cropOffset full c i ≤ platform.sizeMax)
    (room : cropOffset full c i < (full.planes i).capacity) :
    cropPlane platform full.format layout.planes c i (full.planes i) =
      some ⟨(full.planes i).data + cropOffset full c i, (full.planes i).stride,
        (full.planes i).capacity - cropOffset full c i⟩ := by
  have offset : platform.wrap (cropOffset full c i) = cropOffset full c i :=
    Platform.wrap_eq (by omega)
  unfold cropPlane
  rw [planes]
  change (if platform.wrap (cropOffset full c i) ≥ (full.planes i).capacity then none else
    some (YuvPlane.mk (platform.wrap ((full.planes i).data + platform.wrap (cropOffset full c i)))
      _ ((full.planes i).capacity - platform.wrap (cropOffset full c i)))) = _
  rw [offset, Platform.wrap_eq data, if_neg (Nat.not_le.mpr room)]

/-- A crop is accepted when it lies inside, and moves the planes to where it starts. -/
theorem cropFrame_some (laid : yuvLayout full.format full.width full.height = some layout)
    (valid : yuvValidate platform.sizeMax full = true) (inside : CropInside full c) :
    ∃ view, cropFrame platform layout full c = some view ∧ Shifted full view c ∧
      yuvValidate platform.sizeMax view = true := by
  have planes := yuvLayout_planes laid
  obtain ⟨tint, spans⟩ := (yuvValidate_iff laid).mp valid
  have width := Ge2d.toUInt32_toNat (le_of_lt inside.nonempty.1)
  have height := Ge2d.toUInt32_toNat (le_of_lt inside.nonempty.2)
  have sizes := inside.nonempty
  have start := inside.start
  have right := inside.right
  have bottom := inside.bottom
  obtain ⟨inner, cut⟩ : ∃ inner, yuvLayout full.format c.width.toUInt32 c.height.toUInt32 =
      some inner := yuvLayout_smaller laid (by omega) (by omega) (by omega) (by omega)
  let view : YuvFrame :=
    { full with
      width := c.width.toUInt32
      height := c.height.toUInt32
      planes := fun i => if i.val < layout.planes then
        ⟨(full.planes i).data + cropOffset full c i, (full.planes i).stride,
          (full.planes i).capacity - cropOffset full c i⟩ else full.planes i }
  have moved : ∀ i : Fin 3, i.val < layout.planes →
      cropOffset full c i < (full.planes i).capacity ∧
        (full.planes i).data + cropOffset full c i ≤ platform.sizeMax ∧
        spanValid platform.sizeMax ⟨(full.planes i).data + cropOffset full c i,
          (full.planes i).stride, (full.planes i).capacity - cropOffset full c i⟩
          (inner.rowBytes i) (inner.rows i) = true := by
    intro i plane
    have cutView : yuvLayout view.format view.width view.height = some inner := cut
    obtain ⟨down, across, rows, bytes⟩ := cropOrigin_inside laid cutView rfl inside width height plane
    exact spanValid_part (spans i plane) down across rows bytes
  have same : inner.planes = layout.planes := (yuvLayout_planes (f := view) cut).trans planes.symm
  have sound : yuvValidate platform.sizeMax view = true := by
    refine (yuvValidate_iff (f := view) cut).mpr ⟨tint, ?_⟩
    intro i plane
    rw [same] at plane
    change spanValid _ (if i.val < layout.planes then _ else _) _ _ = true
    rw [if_pos plane]
    exact (moved i plane).2.2
  refine ⟨view, ?_, ⟨rfl, rfl, width, height, ?_, ?_⟩, sound⟩
  · have steps : eachPlane layout.planes full.planes (fun i =>
        cropPlane platform full.format layout.planes c i (full.planes i)) = some view.planes := by
      refine eachPlane_some.mpr ?_
      intro i
      change _ = some (if i.val < layout.planes then _ else _)
      split
      · rename_i plane
        exact cropPlane_eq planes (moved i plane).2.1 (moved i plane).1
      · rfl
    unfold cropFrame
    rw [if_neg (by rw [cropRefused_iff.mpr inside]; exact Bool.false_ne_true)]
    simp only [Option.bind_eq_bind]
    rw [steps, Option.bind_some]
    exact if_neg (by change ¬(!yuvValidate platform.sizeMax view) = true; rw [sound]; decide)
  · intro i plane
    exact if_pos (planes ▸ plane)
  · intro i plane
    exact (moved i (planes ▸ plane)).1

theorem ColorFormat.planes_pos (format : ColorFormat) : 0 < format.planes := by
  cases format <;> exact Nat.succ_pos _

theorem lumaPlace_shift (shifted : Shifted full view c) :
    full.lumaPlace (x + c.x.toInt.toNat) (y + c.y.toInt.toNat) =
      view.lumaPlace x y + cropOffset full c 0 := by
  have plane := shifted.plane 0 (ColorFormat.planes_pos _)
  unfold YuvFrame.lumaPlace cropOffset cropOrigin
  rw [plane, shifted.format]
  cases form : full.format <;> simp [ColorFormat.packed] <;> ring

/-- A cell of the crop is the cell of the full frame, moved by the cell it starts at. -/
theorem chromaPlace_shift (shifted : Shifted full view c) (inside : CropInside full c)
    (second : Bool) :
    full.chromaPlace (full.format.cell (x + c.x.toInt.toNat) (y + c.y.toInt.toNat)) second =
      (view.chromaPlace (view.format.cell x y) second).map fun place =>
        (place.1, place.2 + cropOffset full c place.1) := by
  obtain ⟨_, ⟨left, top⟩, _, _, evenX, evenY⟩ := inside
  have format := shifted.format
  have columns : (c.x.toInt.toNat : ℤ) = c.x.toInt := Int.toNat_of_nonneg left
  have lines : (c.y.toInt.toNat : ℤ) = c.y.toInt := Int.toNat_of_nonneg top
  rw [← columns, Int.even_coe_nat, Nat.even_iff] at evenX
  rw [← lines, Int.even_coe_nat, Nat.even_iff] at evenY
  have strides : ∀ i : Fin 3, i.val < full.format.planes →
      (view.planes i).stride = (full.planes i).stride := by
    intro i plane
    rw [shifted.plane i plane]
  have first := strides 0 (ColorFormat.planes_pos _)
  have next := strides 1
  have last := strides 2
  clear strides shifted
  unfold cropOffset cropOrigin YuvFrame.chromaPlace ColorFormat.cell
  rw [format]
  generalize c.x.toInt.toNat = cx at evenX ⊢
  generalize c.y.toInt.toNat = cy at evenY ⊢
  have halfY : cy % 2 = 0 → (y + cy) / 2 = y / 2 + cy / 2 := by omega
  cases form : full.format <;> cases second <;>
    simp [form, first, ColorFormat.subX, ColorFormat.subY, ColorFormat.packed, ColorFormat.planes]
      at evenX evenY next last ⊢
  case i420.false | i420.true =>
    simp only [next, last, halfY evenY, Nat.add_mul]
    omega
  case nv12.false | nv12.true | nv21.false | nv21.true =>
    simp only [next, halfY evenY, Nat.add_mul]
    omega
  case i422.false | i422.true | i444.false | i444.true =>
    simp only [next, last, Nat.add_mul]
    omega
  case nv16.false | nv16.true | nv61.false | nv61.true =>
    simp only [next, Nat.add_mul]
    omega
  case yuy2.false | yuy2.true | uyvy.false | uyvy.true | yvyu.false | yvyu.true | vyuy.false |
      vyuy.true =>
    simp only [Nat.add_mul]
    omega

theorem byte_shift {m : Memory} {offset : ℕ} (shifted : Shifted full view c)
    (plane : i.val < full.format.planes) :
    full.byte m i (offset + cropOffset full c i) = view.byte m i offset := by
  unfold YuvFrame.byte
  rw [shifted.plane i plane]
  congr 3
  ring

/-- The picture of a crop is the full picture from its start on. -/
theorem picture_shift (m : Memory) (shifted : Shifted full view c) (inside : CropInside full c) :
    view.picture m x y = full.picture m (x + c.x.toInt.toNat) (y + c.y.toInt.toNat) := by
  have chroma : ∀ second, full.chroma m (x + c.x.toInt.toNat) (y + c.y.toInt.toNat) second =
      view.chroma m x y second := by
    intro second
    unfold YuvFrame.chroma
    rw [chromaPlace_shift shifted inside second]
    cases found : view.chromaPlace (view.format.cell x y) second with
    | none => rfl
    | some place =>
        refine byte_shift shifted ?_
        rw [← shifted.format]
        rcases YuvFrame.chromaPlace_form found with ⟨_, plane, _⟩ | ⟨first, _, _⟩
        · exact plane
        · rw [first]
          exact ColorFormat.planes_pos _
  unfold YuvFrame.picture
  rw [lumaPlace_shift shifted, byte_shift shifted (ColorFormat.planes_pos _), chroma, chroma]

/-- The crop shows the full picture from its start on, out of the same memory. -/
structure ShiftedView (full view : YuvFrame) (c : MppRect) : Prop where
  format : view.format = full.format
  space : view.colorSpace = full.colorSpace
  width : (view.width.toNat : ℤ) = c.width.toInt
  height : (view.height.toNat : ℤ) = c.height.toInt
  samples : ∀ (m : Memory) (x y : ℕ), (x : ℤ) < c.width.toInt → (y : ℤ) < c.height.toInt →
    ∃ s, sample view m x y = some s ∧
      sample full m (x + c.x.toInt.toNat) (y + c.y.toInt.toNat) = some s
  span : ∀ i : Fin 3, i.val < full.format.planes → view.span i ≤ (view.planes i).capacity
  ends : ∀ i : Fin 3, i.val < full.format.planes →
    (view.planes i).data + (view.planes i).capacity =
      (full.planes i).data + (full.planes i).capacity

theorem view_of_shifted (laid : yuvLayout full.format full.width full.height = some layout)
    (valid : yuvValidate platform.sizeMax view = true) (shifted : Shifted full view c)
    (inside : CropInside full c) : ShiftedView full view c := by
  obtain ⟨inner, cut, spans⟩ := yuvValidate_some valid
  have width := shifted.width
  have height := shifted.height
  refine ⟨shifted.format, shifted.space, width, height, ?_, ?_, ?_⟩
  · intro m x y left low
    refine ⟨view.picture m x y, sample_eq cut (by omega) (by omega), ?_⟩
    rw [picture_shift m shifted inside]
    have start := inside.start
    have right := inside.right
    have bottom := inside.bottom
    exact sample_eq laid (by omega) (by omega)
  · intro i plane
    have planes : i.val < inner.planes := by
      rw [yuvLayout_planes cut, shifted.format]
      exact plane
    rw [YuvFrame.span_eq cut planes]
    exact (spanValid_iff.mp (spans i planes)).2.2.2.1
  · intro i plane
    have room := shifted.within i plane
    rw [shifted.plane i plane]
    dsimp only
    omega

/-- A crop of an accepted buffer is accepted exactly when it is a rectangle of whole cells
inside of it; it is then the full view from its start on. -/
theorem yuv_crop_shifts (platform : Platform) (buffer : MppBuf) (capacities : Fin 3 → ℕ)
    (space : ℤ) (crop : MppRect) (before output full : YuvFrame)
    (accepted : yuvFromMpp platform { buffer with cropEn := 0 } capacities space before =
      (true, full)) :
    ((full.width.toNat : ℤ) = buffer.size.width.toInt ∧
      (full.height.toNat : ℤ) = buffer.size.height.toInt) ∧
    ∃ ok view, yuvFromMpp platform { buffer with cropEn := 1, crop } capacities space output =
        (ok, view) ∧
      (ok = true ↔ CropInside full crop) ∧ (ok = false → view = output) ∧
      (ok = true → ShiftedView full view crop) := by
  unfold yuvFromMpp at accepted
  split at accepted
  · exact absurd (congrArg Prod.fst accepted) Bool.false_ne_true
  · rename_i result found
    obtain ⟨layout, frame, whole⟩ := whole_of_frame found
    rw [whole.frame_eq, if_neg (fun differs => differs rfl)] at found
    cases Option.some.inj found
    cases congrArg Prod.snd accepted
    have cropped : Whole platform { buffer with cropEn := 1, crop } capacities space layout full :=
      ⟨whole.bufType, whole.width, whole.height, whole.format, whole.size, whole.space, whole.laid,
        whole.planes, whole.valid⟩
    refine ⟨?_, ?_⟩
    · rw [whole.size.1, whole.size.2]
      exact ⟨Ge2d.toUInt32_toNat (le_of_lt whole.width), Ge2d.toUInt32_toNat (le_of_lt whole.height)⟩
    · unfold yuvFromMpp
      have enabled : (1 : UInt32) ≠ 0 := by decide
      rw [cropped.frame_eq, if_pos enabled]
      dsimp only
      by_cases inside : CropInside full crop
      · obtain ⟨view, cut, shifted, valid⟩ := cropFrame_some whole.laid whole.valid inside
        rw [cut]
        exact ⟨true, view, rfl, iff_of_true rfl inside, fun no => absurd no.symm Bool.false_ne_true,
          fun _ => view_of_shifted whole.laid valid shifted inside⟩
      · have refused : cropFrame platform layout full crop = none := by
          unfold cropFrame
          refine if_pos ?_
          cases check : cropRefused full crop with
          | true => rfl
          | false => exact absurd (cropRefused_iff.mp check) inside
        rw [refused]
        exact ⟨false, output, rfl, iff_of_false Bool.false_ne_true inside, fun _ => rfl,
          fun yes => absurd yes Bool.false_ne_true⟩

def smallPlanes : Fin 3 → UInt32 × UInt32 := ![(4096, 8), (8192, 8), (0, 0)]

/-- A buffer of a 4x4 NV12 picture. -/
def smallBuffer : MppBuf :=
  { bufType := .phyAddr, phyAddr := fun i => (smallPlanes i).1, stride := fun i => (smallPlanes i).2,
    size := ⟨4, 4⟩, cropEn := 0, crop := ⟨0, 0, 0, 0⟩, format := .nv12, flags := 0 }

def smallPlatform : Platform := ⟨2 ^ 32 - 1, by decide⟩

def smallFrame : YuvFrame :=
  { format := .nv12, width := 4, height := 4, colorSpace := 0,
    planes := ![⟨4096, 8, 32⟩, ⟨8192, 8, 16⟩, ⟨0, 0, 0⟩] }

theorem smallBuffer_accepted (output : YuvFrame) :
    yuvFromMpp smallPlatform smallBuffer ![32, 16, 0] 0 output = (true, smallFrame) := by
  have found : frameOfMpp smallPlatform smallBuffer ![32, 16, 0] 0 = some smallFrame := by
    decide +kernel
  unfold yuvFromMpp
  rw [found]

theorem yuv_crop_shifts_half :
    ∃ ok view, yuvFromMpp smallPlatform { smallBuffer with cropEn := 1, crop := ⟨2, 2, 2, 1⟩ }
        ![32, 16, 0] 0 smallFrame = (ok, view) ∧
      (ok = true ↔ CropInside smallFrame ⟨2, 2, 2, 1⟩) ∧ (ok = false → view = smallFrame) ∧
      (ok = true → ShiftedView smallFrame view ⟨2, 2, 2, 1⟩) :=
  (yuv_crop_shifts smallPlatform smallBuffer ![32, 16, 0] 0 ⟨2, 2, 2, 1⟩ smallFrame smallFrame
    smallFrame (smallBuffer_accepted smallFrame)).2

/-! ## Round trips -/

theorem yuvFormat_back {format : ColorFormat} {told : MppPixelFormat}
    (named : yuvFormatToMpp format = some told) : yuvFormatFromMpp told = some format := by
  unfold yuvFormatToMpp pixelFormatToMpp at named
  cases format <;> simp at named <;> subst named <;> rfl

theorem yuvFormat_forth {format : ColorFormat} {told : MppPixelFormat}
    (named : yuvFormatFromMpp told = some format) : yuvFormatToMpp format = some told := by
  unfold yuvFormatFromMpp pixelFormatFromMpp at named
  cases told <;> simp at named <;> subst named <;> rfl

theorem planeToMpp_some {addressFloor address stride : UInt32} {rows : ℕ} {plane : YuvPlane}
    (told : planeToMpp addressFloor rows plane = some (address, stride)) :
    address.toNat = plane.data ∧ stride = plane.stride ∧
      plane.stride.toNat * rows ≤ 2 ^ 32 - plane.data := by
  unfold planeToMpp at told
  rw [Option.ite_none_left_eq_some] at told
  obtain ⟨sound, told⟩ := told
  simp only [Bool.or_eq_true, decide_eq_true_eq, not_or, not_lt] at sound
  cases Option.some.inj told
  refine ⟨?_, rfl, by omega⟩
  change plane.data % 4294967296 = plane.data
  exact Nat.mod_eq_of_lt (by omega)

/-- What a buffer says of a frame that `lv_aic_yuv_to_mpp` has taken. -/
structure Told (platform : Platform) (frame : YuvFrame) (layout : YuvLayout) (buffer : MppBuf) :
    Prop where
  valid : yuvValidate platform.sizeMax frame = true
  laid : yuvLayout frame.format frame.width frame.height = some layout
  format : yuvFormatToMpp frame.format = some buffer.format
  bufType : buffer.bufType = .phyAddr
  whole : buffer.cropEn = 0
  size : buffer.size = ⟨frame.width.toInt32, frame.height.toInt32⟩
  planes : ∀ i : Fin 3, i.val < layout.planes →
    (buffer.phyAddr i).toNat = (frame.planes i).data ∧
      buffer.stride i = (frame.planes i).stride ∧
      (frame.planes i).stride.toNat * layout.rows i ≤ 2 ^ 32 - (frame.planes i).data

theorem yuvToMpp_some {spaces : ℤ → UInt32} {addressFloor : UInt32}
    (told : yuvToMpp platform spaces frame addressFloor = some buffer) :
    ∃ layout, Told platform frame layout buffer := by
  unfold yuvToMpp at told
  rw [Option.ite_none_left_eq_some] at told
  obtain ⟨valid, told⟩ := told
  simp only [Bool.not_eq_true', Bool.not_eq_false] at valid
  simp only [Option.bind_eq_bind, Option.bind_eq_some_iff] at told
  obtain ⟨format, named, told⟩ := told
  rw [Option.ite_none_left_eq_some] at told
  obtain ⟨_, told⟩ := told
  obtain ⟨layout, laid, told⟩ := Option.bind_eq_some_iff.mp told
  rw [Option.ite_none_left_eq_some] at told
  obtain ⟨_, told⟩ := told
  obtain ⟨planes, read, told⟩ := Option.bind_eq_some_iff.mp told
  cases Option.some.inj told
  refine ⟨layout, valid, laid, named, rfl, rfl, rfl, ?_⟩
  intro i plane
  have step := eachPlane_some.mp read i
  rw [if_pos plane] at step
  exact planeToMpp_some step

theorem yuvLayout_rows_pos (laid : yuvLayout f.format f.width f.height = some layout)
    (plane : i.val < layout.planes) : 0 < layout.rows i := by
  obtain ⟨_, high, _⟩ := yuvLayout_some laid
  obtain ⟨rows, _, chroma⟩ := yuvLayout_shape laid
  by_cases first : i = 0
  · rw [first, rows]
    exact high
  · rw [(chroma i first plane).1]
    split <;> omega

/-- The frame of a buffer that a frame was told to has its planes. -/
theorem Told.back (told : Told platform frame layout buffer) :
    Whole platform buffer (fun i => (frame.planes i).capacity) frame.colorSpace layout
      { frame with planes := fun i =>
          if i.val < layout.planes then frame.planes i else ⟨0, 0, 0⟩ } := by
  obtain ⟨valid, laid, format, bufType, _, size, planes⟩ := told
  obtain ⟨tint, spans⟩ := (yuvValidate_iff laid).mp valid
  obtain ⟨⟨wide, left⟩, high, low⟩ := yuvLayout_some laid
  refine ⟨bufType, ?_, ?_, yuvFormat_back format, ?_, rfl, laid, ?_, ?_⟩
  · rw [size, Ge2d.toInt32_toInt (by omega)]
    exact Int.natCast_pos.mpr wide
  · rw [size, Ge2d.toInt32_toInt (by omega)]
    exact Int.natCast_pos.mpr high
  · rw [size]
    exact ⟨(UInt32.toUInt32_toInt32 _).symm, (UInt32.toUInt32_toInt32 _).symm⟩
  · intro i
    dsimp only
    split
    · rename_i plane
      obtain ⟨address, stride, room⟩ := planes i plane
      obtain ⟨_, short, _, _, last⟩ := spanValid_iff.mp (spans i plane)
      have rows := yuvLayout_rows_pos laid plane
      have span : (layout.rows i - 1) * (frame.planes i).stride.toNat + layout.rowBytes i ≤
          (frame.planes i).stride.toNat * layout.rows i := by
        calc (layout.rows i - 1) * (frame.planes i).stride.toNat + layout.rowBytes i
            ≤ (layout.rows i - 1) * (frame.planes i).stride.toNat +
                (frame.planes i).stride.toNat := Nat.add_le_add_left short _
          _ = (frame.planes i).stride.toNat * layout.rows i := by
            rw [← Nat.succ_mul, Nat.succ_eq_add_one, Nat.sub_add_cancel rows, Nat.mul_comm]
      have below := (buffer.phyAddr i).toNat_lt
      unfold planeFromMpp
      rw [Platform.wrap_word, address, stride, if_neg (by omega)]
    · rfl
  · refine (yuvValidate_iff (f := { frame with planes := fun i =>
      if i.val < layout.planes then frame.planes i else ⟨0, 0, 0⟩ }) laid).mpr ⟨tint, ?_⟩
    intro i plane
    dsimp only
    rw [if_pos plane]
    exact spans i plane

theorem yuv_mpp_round_trip (platform : Platform) (spaces : ℤ → UInt32) :
    (∀ (frame output : YuvFrame) (addressFloor : UInt32) (buffer : MppBuf),
      yuvToMpp platform spaces frame addressFloor = some buffer →
      ∃ back, yuvFromMpp platform buffer (fun i => (frame.planes i).capacity) frame.colorSpace
          output = (true, back) ∧
        back.format = frame.format ∧ back.width = frame.width ∧ back.height = frame.height ∧
        back.colorSpace = frame.colorSpace ∧
        ∀ i : Fin 3, i.val < frame.format.planes → back.planes i = frame.planes i) ∧
    ∀ (buffer again : MppBuf) (capacities : Fin 3 → ℕ) (space : ℤ) (output frame : YuvFrame)
      (addressFloor : UInt32), buffer.cropEn = 0 →
      yuvFromMpp platform buffer capacities space output = (true, frame) →
      yuvToMpp platform spaces frame addressFloor = some again →
      again.format = buffer.format ∧ again.size = buffer.size ∧
        ∀ i : Fin 3, i.val < frame.format.planes →
          again.phyAddr i = buffer.phyAddr i ∧ again.stride i = buffer.stride i := by
  constructor
  · intro frame output addressFloor buffer told
    obtain ⟨layout, told⟩ := yuvToMpp_some told
    have whole := told.back
    refine ⟨{ frame with planes := fun i =>
      if i.val < layout.planes then frame.planes i else ⟨0, 0, 0⟩ }, ?_, rfl, rfl, rfl, rfl, ?_⟩
    · unfold yuvFromMpp
      rw [whole.frame_eq, if_neg (fun differs => differs told.whole)]
    · intro i plane
      rw [← yuvLayout_planes told.laid] at plane
      exact if_pos plane
  · intro buffer again capacities space output frame addressFloor uncropped accepted told
    unfold yuvFromMpp at accepted
    split at accepted
    · exact absurd (congrArg Prod.fst accepted) Bool.false_ne_true
    · rename_i result found
      obtain ⟨layout, first, whole⟩ := whole_of_frame found
      rw [whole.frame_eq, if_neg (fun differs => differs uncropped)] at found
      cases Option.some.inj found
      cases congrArg Prod.snd accepted
      obtain ⟨outer, told⟩ := yuvToMpp_some told
      cases Option.some.inj (whole.laid.symm.trans told.laid)
      refine ⟨?_, ?_, ?_⟩
      · have forth := yuvFormat_forth whole.format
        exact Option.some.inj (told.format.symm.trans forth)
      · rw [told.size, whole.size.1, whole.size.2, Int32.toInt32_toUInt32, Int32.toInt32_toUInt32]
      · intro i plane
        rw [← yuvLayout_planes whole.laid] at plane
        obtain ⟨address, stride, _⟩ := told.planes i plane
        have read := whole.planes i
        rw [if_pos plane] at read
        unfold planeFromMpp at read
        rw [Option.ite_none_left_eq_some] at read
        rw [← Option.some.inj read.2] at address stride
        dsimp only at address stride
        rw [Platform.wrap_word] at address
        exact ⟨UInt32.toNat_inj.mp address, stride⟩

theorem smallBuffer_told :
    yuvToMpp smallPlatform (fun _ => 0) smallFrame 4096 = some smallBuffer := rfl

theorem yuv_mpp_round_trip_small :
    (∃ back, yuvFromMpp smallPlatform smallBuffer (fun i => (smallFrame.planes i).capacity)
        smallFrame.colorSpace smallFrame = (true, back) ∧
      back.format = smallFrame.format ∧ back.width = smallFrame.width ∧
      back.height = smallFrame.height ∧ back.colorSpace = smallFrame.colorSpace ∧
      ∀ i : Fin 3, i.val < smallFrame.format.planes → back.planes i = smallFrame.planes i) ∧
    smallBuffer.format = smallBuffer.format ∧ smallBuffer.size = smallBuffer.size ∧
      ∀ i : Fin 3, i.val < smallFrame.format.planes →
        smallBuffer.phyAddr i = smallBuffer.phyAddr i ∧
          smallBuffer.stride i = smallBuffer.stride i :=
  ⟨(yuv_mpp_round_trip smallPlatform fun _ => 0).1 smallFrame smallFrame 4096 smallBuffer
      smallBuffer_told,
    (yuv_mpp_round_trip smallPlatform fun _ => 0).2 smallBuffer smallBuffer ![32, 16, 0] 0
      smallFrame smallFrame 4096 rfl (smallBuffer_accepted smallFrame) smallBuffer_told⟩

end

end LvglAic.Image
