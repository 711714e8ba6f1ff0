import LvglAic.Image.BmpHeader
import LvglAic.Image.JpegHeader
import LvglAic.Image.YuvMpp

/-! # Decoding of BMP images (`lv_aic_mpp_decoder.c`)

The rows of the file are read into a frame that the decoder takes from the contiguous
memory.  Where the decoder gives up it releases what it took.
-/

namespace LvglAic.Image

open LvglAic.Machine
open LvglAic.Ge2d (MppPixelFormat)

def maxPixels : ℕ := 8 * 1024 * 1024

def alignUp (value align : ℕ) : ℕ :=
  if align = 0 then value else (value + align - 1) % 2 ^ 32 &&& (2 ^ 32 - 1 - (align - 1))

def asWord (value : ℤ) : ℕ := (value % 2 ^ 32).toNat

/-! ## Sessions -/

structure MppSession where
  allocationBase : Option ℕ
  cmaSize : ℕ
  stride : ℕ
  heapBuf : Bool
  width : ℕ
  height : ℕ
  colorFormat : ColorFormat
deriving DecidableEq, Repr

/-- What a decoder holds of the allocators. -/
inductive Resource where
  | session
  | cma (base size : ℕ)
  | heapBuf
deriving DecidableEq, Repr

/-- To give back what is not held is an error of the program. -/
def giveBack (r : Resource) (held : List Resource) : Outcome (List Resource) :=
  if r ∈ held then .value (held.erase r) else .stray

def sessionRelease (session : MppSession) (held : List Resource) : Outcome (List Resource) := do
  let held ← (if session.heapBuf then giveBack .heapBuf held else .value held : Outcome (List Resource))
  let held ← (match session.allocationBase with
    | some base => giveBack (.cma base session.cmaSize) held
    | none => .value held : Outcome (List Resource))
  giveBack .session held

def mppFormatFromLvgl (format : ColorFormat) : Option MppPixelFormat :=
  if format ≠ .rgb565 ∧ format ≠ .rgb888 ∧ format ≠ .argb8888 then none else pixelFormatToMpp format

def mppFormatLvglBpp : ColorFormat → ℕ
  | .rgb565 => 2
  | .rgb888 => 3
  | .argb8888 => 4
  | _ => 0

/-- What becomes of the decoded buffer in `lv_image_decoder_post_process`. -/
inductive PostProcess where
  | failed
  | same
  | copied
deriving DecidableEq, Repr

/-- The allocators, the file system and the graphics library around the decoder. -/
structure MppSystem (File : Type) where
  fs : FileSystem File
  cacheLine : ℕ
  sessionMemory : Bool
  cmaAlloc : ℕ → Option ℕ
  drawBufInit : Bool
  postProcess : PostProcess

section
variable {File : Type} (sys : MppSystem File)

/-- The frame is cleared; its width is the stride in bytes. -/
def allocExtFrame (session : MppSession) (width height : ℤ) (format : MppPixelFormat) (m : Memory) :
    Option (MppSession × ℕ × Memory) :=
  if width ≤ 0 ∨ height ≤ 0 then none
  else
    let bytes := asWord width * asWord height
    if session.allocationBase ≠ none ∨ bytes > maxPixels * 4 ∨ asWord height < session.height ∨
        asWord width < session.width * mppFormatLvglBpp session.colorFormat % 2 ^ 32 then none
    else if mppFormatFromLvgl session.colorFormat ≠ some format then none
    else
      let cmaSize := alignUp (bytes % 2 ^ 32) sys.cacheLine
      match sys.cmaAlloc cmaSize with
      | none => none
      | some base =>
          some ({ session with cmaSize, allocationBase := some base, stride := asWord width }, base,
            m.stores (Memory.placed base (List.replicate cmaSize 0)))

def BmpHeader.format (h : BmpHeader) : ColorFormat :=
  if h.bpp = 16 then .rgb565 else if h.bpp = 24 then .rgb888 else .argb8888

def BmpHeader.bytes (h : BmpHeader) : ℕ := h.width * (h.bpp / 8) % 2 ^ 32

def BmpHeader.outputStride (h : BmpHeader) : ℕ := alignUp h.bytes 8

def BmpHeader.sourceRow (h : BmpHeader) (y : ℕ) : ℕ :=
  if h.topDown then y else minus32 (minus32 h.height 1) y

def BmpHeader.sourceOffset (h : BmpHeader) (y : ℕ) : ℕ :=
  (h.offset + h.sourceRow y * h.stride % 2 ^ 32) % 2 ^ 32

def BmpHeader.rowOffset (h : BmpHeader) (y : ℕ) : ℕ := y * h.outputStride % 2 ^ 32

/-- Five bits of green become six. -/
def widenPixel (pixel : ℕ) : ℕ :=
  let green := (pixel >>> 5) &&& 31
  (((pixel &&& 0x7c00) <<< 1) ||| (((green <<< 1) ||| (green >>> 4)) <<< 5) ||| (pixel &&& 31)) % 2 ^ 16

def widenBody (base span row : ℕ) (m : Memory) (x : ℕ) : Outcome Memory := do
  let p ← m.read base span (row + 2 * x) 2
  let pixel := widenPixel ((p.getD 0 0).toNat ||| (p.getD 1 0).toNat <<< 8)
  m.write base span (row + 2 * x) [UInt8.ofNat pixel, UInt8.ofNat (pixel >>> 8)]

/-- One turn of the loop over the rows. -/
def bmpRow (h : BmpHeader) (base span : ℕ) (now : MppStream File × Memory) (y : ℕ) :
    Outcome (MppStream File × Memory) :=
  let (res, stream) := streamSeek sys.fs now.1 (h.sourceOffset y)
  if res ≠ .ok then .refused
  else do
    let (res, got, stream) ← streamRead sys.fs stream h.bytes
    let m ← now.2.write base span (h.rowOffset y) got
    if res ≠ .ok ∨ got.length ≠ h.bytes then .refused
    else do
      let m ← (if h.rgb555 then (List.range' 0 h.width).foldlM (widenBody base span (h.rowOffset y)) m
        else .value m : Outcome Memory)
      .value (stream, m)

/-! ## The decoder -/

/-- The session that is returned, the frame as it was decoded, and what is held afterwards. -/
structure BmpDecoded where
  result : Option MppSession
  memory : Memory
  held : List Resource

def decodeFailed (session : MppSession) (held : List Resource) (m : Memory) : Outcome BmpDecoded := do
  let held ← sessionRelease session held
  .value ⟨none, m, held⟩

def decodedBuffer (usePostProcess : Bool) (session : MppSession) (held : List Resource) (m : Memory) :
    Outcome BmpDecoded :=
  match session.allocationBase with
  | none => decodeFailed session held m
  | some base =>
      if session.stride = 0 then decodeFailed session held m
      else if ¬sys.drawBufInit then decodeFailed session held m
      else if usePostProcess then
        match sys.postProcess with
        | .failed => decodeFailed session held m
        | .copied => do
            let held ← giveBack (.cma base session.cmaSize) (.heapBuf :: held)
            .value ⟨some { session with allocationBase := none, cmaSize := 0, heapBuf := true }, m, held⟩
        | .same => .value ⟨some session, m, held⟩
      else .value ⟨some session, m, held⟩

end

/-! ## Sizes -/

theorem alignUp_eq {value k : ℕ} (power : k ≤ 31) (small : value + 2 ^ k ≤ 2 ^ 32) :
    alignUp value (2 ^ k) = (value + 2 ^ k - 1) / 2 ^ k * 2 ^ k := by
  have positive : 0 < 2 ^ k := Nat.two_pow_pos k
  unfold alignUp
  rw [if_neg (by omega), Nat.mod_eq_of_lt (by omega), and_clear (by omega) (by omega)]

namespace BmpHeader

variable {h : BmpHeader} {fileSize y : ℕ}

/-- No word of the row loop wraps, and the rows keep inside the file and inside the frame. -/
structure Rows (h : BmpHeader) (fileSize : ℕ) : Prop where
  bytes : h.bytes = h.width * (h.bpp / 8)
  some : 0 < h.bytes
  outputStride : h.outputStride = (h.bytes + 7) / 8 * 8
  sourceRow : ∀ y, y < h.height → h.sourceRow y = if h.topDown then y else h.height - 1 - y
  sourceOffset : ∀ y, y < h.height → h.sourceOffset y = h.offset + h.sourceRow y * h.stride
  source : ∀ y, y < h.height → h.sourceOffset y + h.bytes ≤ fileSize
  rowOffset : ∀ y, y < h.height → h.rowOffset y = y * h.outputStride
  row : ∀ y, y < h.height → h.rowOffset y + h.bytes ≤ h.outputStride * h.height
  total : h.outputStride * h.height ≤ 2 * fileSize

theorem Fits.rows (fits : h.Fits fileSize) (small : fileSize ≤ maxFileBytes) : Rows h fileSize := by
  have limit : maxFileBytes = 8388608 := rfl
  obtain ⟨wide, high, deep, strideEq, inside, _, _⟩ := fits
  have bytesEq : h.bytes = h.width * (h.bpp / 8) := by
    unfold bytes
    rcases deep with same | same | same
    · rw [same]
      omega
    · rw [same]
      omega
    · rw [same]
      omega
  have bytesSmall : 0 < h.bytes ∧ h.bytes ≤ 16384 ∧ h.bytes ≤ h.stride ∧ 4 ≤ h.stride := by
    rw [bytesEq, strideEq]
    rcases deep with same | same | same
    · rw [same]
      omega
    · rw [same]
      omega
    · rw [same]
      omega
  have strideOut : h.outputStride = (h.bytes + 7) / 8 * 8 := by
    unfold outputStride
    exact alignUp_eq (k := 3) (by decide) (by omega)
  have rowSmall : ∀ y, y < h.height → h.sourceRow y < h.height ∧
      h.sourceRow y = if h.topDown then y else h.height - 1 - y := by
    intro y below
    unfold sourceRow minus32
    split
    · exact ⟨below, rfl⟩
    · omega
  have sourceIn : ∀ y, y < h.height → h.sourceRow y * h.stride + h.bytes ≤ h.stride * h.height := by
    intro y below
    have last := (rowSmall y below).1
    calc h.sourceRow y * h.stride + h.bytes ≤ (h.sourceRow y + 1) * h.stride := by
          rw [Nat.add_mul]
          omega
      _ ≤ h.height * h.stride := Nat.mul_le_mul_right _ last
      _ = h.stride * h.height := Nat.mul_comm _ _
  have sourceEq : ∀ y, y < h.height → h.sourceOffset y = h.offset + h.sourceRow y * h.stride := by
    intro y below
    have room := sourceIn y below
    unfold sourceOffset
    rw [Nat.mod_eq_of_lt (by omega), Nat.mod_eq_of_lt (by omega)]
  have rowIn : ∀ y, y < h.height → y * h.outputStride + h.bytes ≤ h.outputStride * h.height := by
    intro y below
    calc y * h.outputStride + h.bytes ≤ (y + 1) * h.outputStride := by
          rw [Nat.add_mul]
          omega
      _ ≤ h.height * h.outputStride := Nat.mul_le_mul_right _ below
      _ = h.outputStride * h.height := Nat.mul_comm _ _
  have totalSmall : h.outputStride * h.height ≤ 2 * fileSize := by
    have twice : h.outputStride ≤ 2 * h.stride := by
      have aligned : h.stride % 4 = 0 := by omega
      omega
    calc h.outputStride * h.height ≤ 2 * h.stride * h.height := Nat.mul_le_mul_right _ twice
      _ = 2 * (h.stride * h.height) := Nat.mul_assoc _ _ _
      _ ≤ 2 * fileSize := by omega
  have rowEq : ∀ y, y < h.height → h.rowOffset y = y * h.outputStride := by
    intro y below
    have room := rowIn y below
    exact Nat.mod_eq_of_lt (by omega)
  refine ⟨bytesEq, bytesSmall.1, strideOut, fun y below => (rowSmall y below).2, sourceEq, ?_, rowEq,
    ?_, totalSmall⟩
  · intro y below
    have room := sourceIn y below
    rw [sourceEq y below]
    omega
  · intro y below
    rw [rowEq y below]
    exact rowIn y below

end BmpHeader

end LvglAic.Image
