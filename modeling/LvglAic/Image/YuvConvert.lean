import LvglAic.Machine.FixedPoint
import LvglAic.Image.YuvSample

/-! # YUV frames in RGB888 (`lv_aic_yuv.c`)

The processor converts a frame pixel by pixel.  A read or a write outside of the checked
spans, and a sum outside of 32 bits, have no value.
-/

namespace LvglAic.Image

open LvglAic.Machine

/-- A row of the Q16 table. -/
structure Coefficients where
  luma : ℤ
  redV : ℤ
  greenU : ℤ
  greenV : ℤ
  blueU : ℤ
deriving DecidableEq, Repr

def coefficients (colorSpace : ℤ) : Coefficients :=
  if colorSpace = 0 then ⟨76309, 104597, 25675, 53279, 132201⟩
  else if colorSpace = 1 then ⟨76309, 117489, 13975, 34925, 138438⟩
  else if colorSpace = 2 then ⟨65536, 91881, 22553, 46802, 116130⟩
  else ⟨65536, 103206, 12276, 30679, 121609⟩

def lumaOffset (colorSpace : ℤ) : ℤ := if colorSpace < 2 then 16 else 0

def channel (fixed : ℤ) : Option UInt8 :=
  if fixed ≤ 0 then some 0
  else if fixed ≥ 255 * 65536 then some 255
  else (checked 31 (fixed + 32768)).map fun rounded => UInt8.ofNat (rounded.tdiv 65536).toNat

def convertPixel (f : YuvFrame) (output stride span : ℕ) (m : Memory) (p : ℕ × ℕ) :
    Option Memory := do
  let c := coefficients f.colorSpace
  let dst := p.2 * stride + p.1 * 3
  let s ← sample f m p.1 p.2
  let base ← checked 31 ((s.luma - lumaOffset f.colorSpace) * c.luma)
  let u := s.u - 128
  let v := s.v - 128
  let blueU ← checked 31 (u * c.blueU)
  let blue ← checked 31 (base + blueU)
  let b ← channel blue
  let m ← m.put output span dst b
  let greenU ← checked 31 (u * c.greenU)
  let greenV ← checked 31 (v * c.greenV)
  let first ← checked 31 (base - greenU)
  let green ← checked 31 (first - greenV)
  let g ← channel green
  let m ← m.put output span (dst + 1) g
  let redV ← checked 31 (v * c.redV)
  let red ← checked 31 (base + redV)
  let r ← channel red
  m.put output span (dst + 2) r

def YuvFrame.overlaps (f : YuvFrame) (layout : YuvLayout) (output span : ℕ) : Bool :=
  (List.finRange 3).any fun i => i < layout.planes &&
    ((f.planes i).data < output + span && output < (f.planes i).data + f.span i)

/-- Whether the frame was converted, and the memory then. -/
def yuvToRgb888 (sizeMax : ℕ) (f : YuvFrame) (m : Memory) (output : ℕ) (stride : UInt32)
    (capacity : ℕ) : Option (Bool × Memory) :=
  let width := f.width.toNat
  let height := f.height.toNat
  if !yuvValidate sizeMax f || !spanValid sizeMax ⟨output, stride, capacity⟩ (width * 3) height then
    some (false, m)
  else
    match yuvLayout f.format f.width f.height with
    | none => some (false, m)
    | some layout =>
        let span := (height - 1) * stride.toNat + width * 3
        if f.overlaps layout output span then some (false, m)
        else ((pixels width height).foldlM (convertPixel f output stride.toNat span) m).map
          fun after => (true, after)

/-! ## The reference -/

/-- The Q16 value of a channel: blue, green, red. -/
def matrixValue (colorSpace : ℤ) (s : Sample) (k : ℕ) : ℤ :=
  let c := coefficients colorSpace
  let base := (s.luma - lumaOffset colorSpace) * c.luma
  if k = 0 then base + (s.u - 128) * c.blueU
  else if k = 1 then base - (s.u - 128) * c.greenU - (s.v - 128) * c.greenV
  else base + (s.v - 128) * c.redV

/-- The value rounded to nearest, inside of a byte. -/
def clampByte (fixed : ℤ) : ℤ := max 0 (min 255 ((fixed + 32768) / 65536))

def reference (f : YuvFrame) (m : Memory) (x y k : ℕ) : UInt8 :=
  UInt8.ofNat (clampByte (matrixValue f.colorSpace (f.picture m x y) k)).toNat

/-- The frame and the output are valid, and no plane meets the output. -/
structure Convertible (sizeMax : ℕ) (f : YuvFrame) (output : ℕ) (stride : UInt32)
    (capacity : ℕ) : Prop where
  frame : yuvValidate sizeMax f = true
  span : spanValid sizeMax ⟨output, stride, capacity⟩ (f.width.toNat * 3) f.height.toNat = true
  apart : ∀ i, i.val < f.format.planes →
    output + ((f.height.toNat - 1) * stride.toNat + f.width.toNat * 3) ≤ (f.planes i).data ∨
      (f.planes i).data + f.span i ≤ output

/-- Every pixel of the output has the reference's channels, and nothing else was written. -/
structure Converted (f : YuvFrame) (m : Memory) (output : ℕ) (stride : UInt32) (after : Memory) :
    Prop where
  pixel : ∀ x y k, x < f.width.toNat → y < f.height.toNat → k < 3 →
    after (output + (y * stride.toNat + (x * 3 + k))) = reference f m x y k
  rest : ∀ a, (∀ x y k, x < f.width.toNat → y < f.height.toNat → k < 3 →
    a ≠ output + (y * stride.toNat + (x * 3 + k))) → after a = m a

section
variable {sizeMax : ℕ} {f : YuvFrame} {m n : Memory} {layout : YuvLayout} {x y k : ℕ} {fixed : ℤ}

/-- Below the least and above the greatest byte the reference clamps as the code does. -/
theorem channel_eq (low : -2 ^ 30 ≤ fixed) (high : fixed ≤ 2 ^ 30) :
    channel fixed = some (UInt8.ofNat (clampByte fixed).toNat) := by
  unfold channel clampByte
  split
  · have zero : max 0 (min 255 ((fixed + 32768) / 65536)) = 0 := by omega
    rw [zero]
    rfl
  · split
    · have most : max 0 (min 255 ((fixed + 32768) / 65536)) = 255 := by omega
      rw [most]
      rfl
    · rw [checked_of_signed ⟨by omega, by omega⟩, Option.map_some,
        Int.tdiv_eq_ediv_of_nonneg (by omega)]
      have inside : max 0 (min 255 ((fixed + 32768) / 65536)) = (fixed + 32768) / 65536 := by omega
      rw [inside]

theorem YuvFrame.byte_bounds (i : Fin 3) (offset : ℕ) :
    0 ≤ f.byte m i offset ∧ f.byte m i offset ≤ 255 := by
  unfold YuvFrame.byte
  have most := (m ((f.planes i).data + offset)).toNat_lt
  omega

theorem YuvFrame.chroma_bounds (second : Bool) :
    0 ≤ f.chroma m x y second ∧ f.chroma m x y second ≤ 255 := by
  unfold YuvFrame.chroma
  split
  · omega
  · exact YuvFrame.byte_bounds _ _

/-- What a picture reads is in the planes. -/
theorem YuvFrame.picture_congr (laid : yuvLayout f.format f.width f.height = some layout)
    (left : x < f.width.toNat) (low : y < f.height.toNat)
    (same : ∀ i : Fin 3, i.val < f.format.planes → ∀ offset, offset < f.span i →
      n ((f.planes i).data + offset) = m ((f.planes i).data + offset)) :
    f.picture n x y = f.picture m x y := by
  obtain ⟨_, luma, chroma⟩ := YuvFrame.places_inside laid left low
  have inside : ∀ i offset, offset < f.span i → i.val < f.format.planes := by
    intro i offset below
    by_contra outside
    unfold YuvFrame.span at below
    rw [laid] at below
    dsimp only at below
    rw [if_neg (by rw [yuvLayout_planes laid]; exact outside)] at below
    exact Nat.not_lt_zero _ below
  have bytes : ∀ i offset, offset < f.span i → f.byte n i offset = f.byte m i offset := by
    intro i offset below
    unfold YuvFrame.byte
    rw [same i (inside i offset below) offset below]
  have chromas : ∀ second, f.chroma n x y second = f.chroma m x y second := by
    intro second
    unfold YuvFrame.chroma
    cases found : f.chromaPlace (f.format.cell x y) second with
    | none => rfl
    | some place => exact bytes place.1 place.2 (chroma second place found)
  unfold YuvFrame.picture
  rw [bytes 0 _ luma, chromas, chromas]

theorem coefficients_small (colorSpace : ℤ) :
    |(coefficients colorSpace).luma| ≤ 2 ^ 18 ∧ |(coefficients colorSpace).redV| ≤ 2 ^ 18 ∧
      |(coefficients colorSpace).greenU| ≤ 2 ^ 18 ∧ |(coefficients colorSpace).greenV| ≤ 2 ^ 18 ∧
      |(coefficients colorSpace).blueU| ≤ 2 ^ 18 := by
  unfold coefficients
  split
  · decide
  · split
    · decide
    · split <;> decide

/-- A byte, moved by at most half its range, times a coefficient. -/
theorem product_small {t c : ℤ} (low : -128 ≤ t) (high : t ≤ 255) (small : |c| ≤ 2 ^ 18) :
    -2 ^ 26 ≤ t * c ∧ t * c ≤ 2 ^ 26 := by
  have factor : |t| ≤ 2 ^ 8 := abs_le.mpr ⟨by omega, by omega⟩
  exact abs_le.mp (abs_mul_le factor small)

/-- One pixel: its three channels, and no sum outside of 32 bits. -/
theorem convertPixel_eq {output stride span : ℕ} {p : ℕ × ℕ} {s : Sample}
    (sampled : sample f m p.1 p.2 = some s) (luma : 0 ≤ s.luma ∧ s.luma ≤ 255)
    (u : 0 ≤ s.u ∧ s.u ≤ 255) (v : 0 ≤ s.v ∧ s.v ≤ 255)
    (inside : p.2 * stride + p.1 * 3 + 2 < span) :
    convertPixel f output stride span m p = some (m.stores ((List.range 3).map fun k =>
      (output + (p.2 * stride + (p.1 * 3 + k)),
        UInt8.ofNat (clampByte (matrixValue f.colorSpace s k)).toNat))) := by
  obtain ⟨lumaSmall, redV, greenU, greenV, blueU⟩ := coefficients_small f.colorSpace
  have offset : 0 ≤ lumaOffset f.colorSpace ∧ lumaOffset f.colorSpace ≤ 16 := by
    unfold lumaOffset
    split <;> omega
  have base := product_small (t := s.luma - lumaOffset f.colorSpace) (by omega) (by omega) lumaSmall
  have blues := product_small (t := s.u - 128) (by omega) (by omega) blueU
  have greens := product_small (t := s.u - 128) (by omega) (by omega) greenU
  have others := product_small (t := s.v - 128) (by omega) (by omega) greenV
  have reds := product_small (t := s.v - 128) (by omega) (by omega) redV
  unfold convertPixel
  simp only [Option.bind_eq_bind]
  rw [sampled, Option.bind_some, checked_of_signed ⟨by omega, by omega⟩,
    Option.bind_some, checked_of_signed ⟨by omega, by omega⟩, Option.bind_some,
    checked_of_signed ⟨by omega, by omega⟩, Option.bind_some, channel_eq (by omega) (by omega),
    Option.bind_some, Memory.put_eq (by omega), Option.bind_some,
    checked_of_signed ⟨by omega, by omega⟩, Option.bind_some,
    checked_of_signed ⟨by omega, by omega⟩, Option.bind_some,
    checked_of_signed ⟨by omega, by omega⟩, Option.bind_some,
    checked_of_signed ⟨by omega, by omega⟩, Option.bind_some, channel_eq (by omega) (by omega),
    Option.bind_some, Memory.put_eq (by omega), Option.bind_some,
    checked_of_signed ⟨by omega, by omega⟩, Option.bind_some,
    checked_of_signed ⟨by omega, by omega⟩, Option.bind_some, channel_eq (by omega) (by omega),
    Option.bind_some, Memory.put_eq (by omega)]
  rfl

/-- The writes of one pixel. -/
def pixelWrites (f : YuvFrame) (m : Memory) (output stride : ℕ) (p : ℕ × ℕ) : List (ℕ × UInt8) :=
  (List.range 3).map fun k =>
    (output + (p.2 * stride + (p.1 * 3 + k)), reference f m p.1 p.2 k)

theorem yuvValidate_some (valid : yuvValidate sizeMax f = true) :
    ∃ layout, yuvLayout f.format f.width f.height = some layout ∧ ∀ i : Fin 3, i < layout.planes →
      spanValid sizeMax (f.planes i) (layout.rowBytes i) (layout.rows i) = true := by
  unfold yuvValidate at valid
  split at valid
  · exact absurd valid Bool.false_ne_true
  · cases laid : yuvLayout f.format f.width f.height with
    | none => simp [laid] at valid
    | some layout =>
        rw [laid] at valid
        refine ⟨layout, rfl, ?_⟩
        intro i plane
        have all := List.all_eq_true.mp valid i (List.mem_finRange i)
        simpa [Nat.not_le.mpr plane] using all

theorem spanValid_iff {plane : YuvPlane} {rowBytes rows : ℕ} :
    spanValid sizeMax plane rowBytes rows = true ↔ plane.data ≠ 0 ∧
      rowBytes ≤ plane.stride.toNat ∧
      (rows - 1) * plane.stride.toNat + rowBytes ≤ sizeMax ∧
      (rows - 1) * plane.stride.toNat + rowBytes ≤ plane.capacity ∧
      plane.data ≤ sizeMax - ((rows - 1) * plane.stride.toNat + rowBytes) := by
  unfold spanValid
  simp only [Bool.and_eq_true, decide_eq_true_eq]
  tauto

theorem YuvFrame.overlaps_iff {output span : ℕ} (planes : layout.planes = f.format.planes) :
    f.overlaps layout output span = false ↔ ∀ i : Fin 3, i.val < f.format.planes →
      output + span ≤ (f.planes i).data ∨ (f.planes i).data + f.span i ≤ output := by
  unfold YuvFrame.overlaps
  rw [List.any_eq_false]
  constructor
  · intro none i plane
    have free := none i (List.mem_finRange i)
    rw [← planes] at plane
    simp only [plane, decide_true, Bool.true_and, Bool.and_eq_true, decide_eq_true_eq] at free
    omega
  · intro apart i _
    simp only [Bool.and_eq_true, decide_eq_true_eq, not_and, not_lt]
    intro plane before
    rw [planes] at plane
    have each := apart i plane
    omega

/-- What the pixels write is inside the rows of the output, each byte once. -/
theorem pixelWrites_place {output stride : ℕ} {w : ℕ × UInt8}
    (member : w ∈ (pixels f.width.toNat f.height.toNat).flatMap (pixelWrites f m output stride)) :
    ∃ x y k, x < f.width.toNat ∧ y < f.height.toNat ∧ k < 3 ∧
      w = (output + (y * stride + (x * 3 + k)), reference f m x y k) := by
  obtain ⟨p, inside, written⟩ := List.mem_flatMap.mp member
  obtain ⟨left, low⟩ := mem_pixels.mp inside
  obtain ⟨k, small, rfl⟩ := List.mem_map.mp written
  exact ⟨p.1, p.2, k, left, low, List.mem_range.mp small, rfl⟩

theorem converted_of_writes {output : ℕ} {stride : UInt32}
    (rows : f.width.toNat * 3 ≤ stride.toNat) :
    Converted f m output stride (m.stores ((pixels f.width.toNat f.height.toNat).flatMap
      (pixelWrites f m output stride.toNat))) where
  pixel := by
    intro x y k left low small
    apply Memory.stores_eq
    · exact List.mem_flatMap.mpr ⟨(x, y), mem_pixels.mpr ⟨left, low⟩,
        List.mem_map.mpr ⟨k, List.mem_range.mpr small, rfl⟩⟩
    · intro w member same
      obtain ⟨x', y', k', left', low', small', rfl⟩ := pixelWrites_place member
      have places : y' = y ∧ x' * 3 + k' = x * 3 + k :=
        row_unique (by omega) (by omega) (Nat.add_left_cancel same)
      obtain ⟨rfl, columns⟩ := places
      obtain ⟨rfl, rfl⟩ : x' = x ∧ k' = k := by omega
      rfl
  rest := by
    intro a outside
    apply Memory.stores_other
    rintro w member rfl
    obtain ⟨x, y, k, left, low, small, rfl⟩ := pixelWrites_place member
    exact outside x y k left low small rfl

/-- The loop of the conversion, whose output meets no plane. -/
theorem convert_loop {output : ℕ} {stride : UInt32}
    (laid : yuvLayout f.format f.width f.height = some layout)
    (apart : ∀ i : Fin 3, i.val < f.format.planes →
      output + ((f.height.toNat - 1) * stride.toNat + f.width.toNat * 3) ≤ (f.planes i).data ∨
        (f.planes i).data + f.span i ≤ output) :
    (pixels f.width.toNat f.height.toNat).foldlM (convertPixel f output stride.toNat
        ((f.height.toNat - 1) * stride.toNat + f.width.toNat * 3)) m =
      some (m.stores ((pixels f.width.toNat f.height.toNat).flatMap
        (pixelWrites f m output stride.toNat))) := by
  have within : ∀ x y k, x < f.width.toNat → y < f.height.toNat → k < 3 →
      y * stride.toNat + (x * 3 + k) <
        (f.height.toNat - 1) * stride.toNat + f.width.toNat * 3 :=
    fun x y k left low small => row_inside low (by omega)
  refine Memory.foldlM_stores (fun a => output ≤ a ∧
    a < output + ((f.height.toNat - 1) * stride.toNat + f.width.toNat * 3)) ?_ ?_
  · intro n same p inside
    obtain ⟨left, low⟩ := mem_pixels.mp inside
    have seen : f.picture n p.1 p.2 = f.picture m p.1 p.2 := by
      apply YuvFrame.picture_congr laid left low
      intro i plane offset below
      apply same
      have free := apart i plane
      omega
    have last := within p.1 p.2 2 left low (by decide)
    refine convertPixel_eq ((sample_eq laid left low).trans (congrArg some seen)) ?_ ?_ ?_
      (by omega)
    · exact YuvFrame.byte_bounds _ _
    · exact YuvFrame.chroma_bounds _
    · exact YuvFrame.chroma_bounds _
  · intro p inside w written
    obtain ⟨left, low⟩ := mem_pixels.mp inside
    obtain ⟨k, small, rfl⟩ := List.mem_map.mp written
    have place := within p.1 p.2 k left low (List.mem_range.mp small)
    exact ⟨Nat.le_add_right _ _, by omega⟩

/-- A frame that is accepted is converted; any other leaves the memory as it is. -/
theorem yuv_to_rgb888_exact (sizeMax : ℕ) (f : YuvFrame) (m : Memory) (output : ℕ)
    (stride : UInt32) (capacity : ℕ) :
    ∃ ok after, yuvToRgb888 sizeMax f m output stride capacity = some (ok, after) ∧
      (ok = true ↔ Convertible sizeMax f output stride capacity) ∧
      (ok = false → after = m) ∧ (ok = true → Converted f m output stride after) := by
  unfold yuvToRgb888
  dsimp only
  split
  · rename_i refused
    refine ⟨false, m, rfl, ?_, fun _ => rfl, fun yes => absurd yes Bool.false_ne_true⟩
    refine iff_of_false Bool.false_ne_true ?_
    rintro ⟨frame, span, _⟩
    rw [frame, span] at refused
    exact absurd refused Bool.false_ne_true
  · rename_i accepted
    simp only [Bool.or_eq_true, Bool.not_eq_true', not_or, Bool.not_eq_false] at accepted
    obtain ⟨frame, span⟩ := accepted
    obtain ⟨layout, laid, _⟩ := yuvValidate_some frame
    have overlap : f.overlaps layout output
        ((f.height.toNat - 1) * stride.toNat + f.width.toNat * 3) = false ↔ _ :=
      YuvFrame.overlaps_iff (yuvLayout_planes laid)
    rw [laid]
    dsimp only
    split
    · rename_i meets
      refine ⟨false, m, rfl, ?_, fun _ => rfl, fun yes => absurd yes Bool.false_ne_true⟩
      refine iff_of_false Bool.false_ne_true ?_
      rintro ⟨_, _, apart⟩
      rw [overlap.mpr apart] at meets
      exact absurd meets Bool.false_ne_true
    · rename_i free
      rw [Bool.not_eq_true] at free
      have apart := overlap.mp free
      have rows := (spanValid_iff.mp span).2.1
      rw [convert_loop laid apart]
      exact ⟨true, _, rfl, iff_of_true rfl ⟨frame, span, apart⟩,
        fun no => absurd no.symm Bool.false_ne_true, fun _ => converted_of_writes rows⟩

end

end LvglAic.Image
