import LvglAic.Machine.FixedPoint
import LvglAic.Machine.Scan

/-! # The header of a BMP image (`lv_aic_bmp_header.c`)

The header of a file of 16, 24 or 32 bits for a pixel says where its rows stand.  The rows
of an accepted header lie inside the file.
-/

namespace LvglAic.Image

open LvglAic.Machine

structure BmpHeader where
  width : ℕ
  height : ℕ
  offset : ℕ
  stride : ℕ
  bpp : ℕ
  topDown : Bool
  rgb555 : Bool
deriving DecidableEq, Repr

/-- The rows of the header lie inside a file of this size. -/
structure BmpHeader.Fits (h : BmpHeader) (fileSize : ℕ) : Prop where
  wide : 0 < h.width ∧ h.width ≤ 4096
  high : 0 < h.height ∧ h.height ≤ 4096
  deep : h.bpp = 16 ∨ h.bpp = 24 ∨ h.bpp = 32
  stride : h.stride = (h.width * h.bpp + 31) / 32 * 4
  inside : h.offset + h.stride * h.height ≤ fileSize
  behind : 54 ≤ h.offset
  widened : h.rgb555 → h.bpp = 16

section
variable {data : List UInt8} {fileSize start : ℕ} {h : BmpHeader}

end

end LvglAic.Image
