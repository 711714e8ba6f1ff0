import LvglAic.Machine.Index

/-! # YUV frames (`lv_aic_yuv.c`)

A frame borrows the planes of a producer.  Its layout follows from the format and the
size; a plane is valid when the bytes of the layout lie inside its capacity.
-/

namespace LvglAic.Image

inductive ColorFormat where
  | rgb565
  | rgb888
  | xrgb8888
  | argb8888
  | i420
  | i422
  | i444
  | i400
  | nv12
  | nv21
  | nv16
  | nv61
  | yuy2
  | uyvy
  | yvyu
  | vyuy
  | other (code : UInt32)
deriving DecidableEq, Repr

structure YuvPlane where
  data : ℕ
  stride : UInt32
  capacity : ℕ
deriving DecidableEq, Repr

/-- The color space is an enumeration of the source, which may hold any integer. -/
structure YuvFrame where
  format : ColorFormat
  width : UInt32
  height : UInt32
  colorSpace : ℤ
  planes : Fin 3 → YuvPlane
deriving DecidableEq

structure YuvLayout where
  rowBytes : Fin 3 → ℕ
  rows : Fin 3 → ℕ
  planes : ℕ
deriving DecidableEq

def yuvLayout (format : ColorFormat) (width height : UInt32) : Option YuvLayout :=
  let w := width.toNat
  let h := height.toNat
  if w = 0 || h = 0 || w > 4096 || h > 4096 || w * h > 8 * 1024 * 1024 then none
  else
    match format with
    | .i420 => some ⟨![w, (w + 1) / 2, (w + 1) / 2], ![h, (h + 1) / 2, (h + 1) / 2], 3⟩
    | .i422 => some ⟨![w, (w + 1) / 2, (w + 1) / 2], ![h, h, h], 3⟩
    | .i444 => some ⟨![w, w, w], ![h, h, h], 3⟩
    | .nv12 | .nv21 => some ⟨![w, (w + 1) / 2 * 2, 0], ![h, (h + 1) / 2, 0], 2⟩
    | .nv16 | .nv61 => some ⟨![w, (w + 1) / 2 * 2, 0], ![h, h, 0], 2⟩
    | .yuy2 | .uyvy | .yvyu | .vyuy => some ⟨![(w + 1) / 2 * 4, 0, 0], ![h, 0, 0], 1⟩
    | .i400 => some ⟨![w, 0, 0], ![h, 0, 0], 1⟩
    | _ => none

/-- `sizeMax` is the largest value of `size_t` and of `uintptr_t`. -/
def spanValid (sizeMax : ℕ) (plane : YuvPlane) (rowBytes rows : ℕ) : Bool :=
  let bytes := (rows - 1) * plane.stride.toNat + rowBytes
  plane.data ≠ 0 && rowBytes ≤ plane.stride.toNat && bytes ≤ sizeMax && bytes ≤ plane.capacity &&
    plane.data ≤ sizeMax - bytes

def yuvValidate (sizeMax : ℕ) (frame : YuvFrame) : Bool :=
  if frame.colorSpace < 0 || frame.colorSpace > 3 then false
  else
    match yuvLayout frame.format frame.width frame.height with
    | none => false
    | some layout => (List.finRange 3).all fun i =>
        layout.planes ≤ i || spanValid sizeMax (frame.planes i) (layout.rowBytes i) (layout.rows i)

end LvglAic.Image
