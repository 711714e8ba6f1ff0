import LvglAic.Machine.FixedPoint
import LvglAic.Machine.Memory
import LvglAic.Machine.Picture
import LvglAic.Spi.Pipeline

/-! # RGB565 frames of the SPI display (`lv_aic_spi_frame.c`)

A frame is packed into an output without padding, turned clockwise, resized and with
its bytes exchanged.  The coordinates of the source are unsigned words.
-/

namespace LvglAic.Spi

open LvglAic.Machine

def Rgb565Frame.rowBytes (s : Rgb565Frame) : ℕ := s.width * 2

def Rgb565Frame.span (s : Rgb565Frame) : ℕ := s.stride * (s.height - 1) + s.rowBytes

/-- A read of the source; outside of its span there is none. -/
def Rgb565Frame.load (s : Rgb565Frame) (m : Memory) (offset : ℕ) : Option UInt8 :=
  if offset < s.span then some (m (s.data + offset)) else none

/-- Where the source has the pixel of the turned picture. -/
def sourcePlace (s : Rgb565Frame) (degrees rx ry : ℕ) : ℕ × ℕ :=
  match degrees with
  | 90 => (ry, minus32 (minus32 s.height 1) rx)
  | 180 => (minus32 (minus32 s.width 1) rx, minus32 (minus32 s.height 1) ry)
  | 270 => (minus32 (minus32 s.width 1) ry, rx)
  | _ => (rx, ry)

def packPixel (s : Rgb565Frame) (output bytes width height degrees : ℕ) (swapBytes : Bool)
    (m : Memory) (p : ℕ × ℕ) : Option Memory := do
  let rotated := degrees = 90 || degrees = 270
  let rw := if rotated then s.height else s.width
  let rh := if rotated then s.width else s.height
  let rx := p.1 * rw % 2 ^ 32 / width
  let ry := p.2 * rh % 2 ^ 32 / height
  let place := sourcePlace s degrees rx ry
  let pixel := place.2 * s.stride + place.1 * 2
  let offset := (p.2 * width + p.1) * 2
  let first ← s.load m (pixel + if swapBytes then 1 else 0)
  let m ← m.put output bytes offset first
  let second ← s.load m (pixel + if swapBytes then 0 else 1)
  m.put output bytes (offset + 1) second

/-- The sizes, the angle and the stride that the packing takes. -/
def Rgb565Frame.packable (s : Rgb565Frame) (sizeMax output capacity width height degrees : ℕ) :
    Bool :=
  let bytes := width * height * 2
  !(s.data = 0 || output = 0 || s.width = 0 || s.height = 0 || s.width > 4096 || s.height > 4096 ||
    width = 0 || height = 0 || width > 4096 || height > 4096 ||
    (degrees ≠ 0 && degrees ≠ 90 && degrees ≠ 180 && degrees ≠ 270) ||
    s.stride < s.width * 2) &&
  !(s.height > 1 && s.stride > (sizeMax - s.rowBytes) / (s.height - 1)) &&
  !(s.span > s.capacity || bytes > capacity || s.span > sizeMax - s.data ||
    bytes > sizeMax - output || (s.data < output + bytes && output < s.data + s.span))

/-- Whether the frame was packed, and the memory then.  `sizeMax` is the largest value of
`size_t` and of `uintptr_t`. -/
def packRgb565 (sizeMax : ℕ) (s : Rgb565Frame) (m : Memory)
    (output capacity width height degrees : ℕ) (swapBytes : Bool) : Option (Bool × Memory) :=
  if s.packable sizeMax output capacity width height degrees then
    ((pixels width height).foldlM
      (packPixel s output (width * height * 2) width height degrees swapBytes) m).map
        fun after => (true, after)
  else some (false, m)

/-! ## The picture of a frame -/

def Rgb565Frame.picture (s : Rgb565Frame) (m : Memory) : Picture (UInt8 × UInt8) :=
  ⟨s.width, s.height, fun x y =>
    (m (s.data + (y * s.stride + x * 2)), m (s.data + (y * s.stride + x * 2 + 1)))⟩

def exchange (swapBytes : Bool) (pixel : UInt8 × UInt8) : UInt8 × UInt8 :=
  if swapBytes then pixel.swap else pixel

/-- The picture that an output of the given size shows of a frame. -/
def Rgb565Frame.shown (s : Rgb565Frame) (m : Memory) (width height degrees : ℕ)
    (swapBytes : Bool) : Picture (UInt8 × UInt8) :=
  (((s.picture m).turns (degrees / 90)).resize width height).map (exchange swapBytes)

def packedFrame (output width height : ℕ) : Rgb565Frame :=
  { data := output, capacity := width * height * 2, stride := width * 2, width, height }

/-- The output shows the frame, and nothing else was written. -/
structure Packed (s : Rgb565Frame) (m : Memory) (output width height degrees : ℕ)
    (swapBytes : Bool) (after : Memory) : Prop where
  picture : ((packedFrame output width height).picture after).Agrees
    (s.shown m width height degrees swapBytes)
  rest : ∀ a, a < output ∨ output + width * height * 2 ≤ a → after a = m a

/-- Sizes, angle and spans are valid, and the output does not meet the source. -/
structure Packable (sizeMax : ℕ) (s : Rgb565Frame) (output capacity width height degrees : ℕ) :
    Prop where
  present : s.data ≠ 0 ∧ output ≠ 0
  source : 0 < s.width ∧ s.width ≤ 4096 ∧ 0 < s.height ∧ s.height ≤ 4096
  size : 0 < width ∧ width ≤ 4096 ∧ 0 < height ∧ height ≤ 4096
  angle : degrees = 0 ∨ degrees = 90 ∨ degrees = 180 ∨ degrees = 270
  stride : s.width * 2 ≤ s.stride
  span : s.span ≤ s.capacity ∧ s.span ≤ sizeMax - s.data ∧
    (1 < s.height → s.stride ≤ (sizeMax - s.rowBytes) / (s.height - 1))
  room : width * height * 2 ≤ capacity ∧ width * height * 2 ≤ sizeMax - output
  apart : output + width * height * 2 ≤ s.data ∨ s.data + s.span ≤ output

section
variable {sizeMax : ℕ} {s : Rgb565Frame} {m n : Memory}
  {output capacity width height degrees rx ry x y : ℕ} {swapBytes : Bool}

theorem packable_iff : s.packable sizeMax output capacity width height degrees = true ↔
    Packable sizeMax s output capacity width height degrees := by
  unfold Rgb565Frame.packable
  simp only [Bool.and_eq_true, Bool.not_eq_true', Bool.or_eq_false_iff, Bool.and_eq_false_imp,
    decide_eq_false_iff_not, decide_eq_true_eq, ne_eq, not_lt, not_not]
  constructor
  · rintro ⟨⟨sizes, wraps⟩, ⟨⟨⟨⟨span, bytes⟩, last⟩, lastByte⟩, apart⟩⟩
    obtain ⟨⟨⟨⟨⟨⟨⟨⟨⟨⟨⟨data, out⟩, wide⟩, high⟩, left⟩, low⟩, width⟩, height⟩, right⟩, bottom⟩, angle⟩,
      stride⟩ := sizes
    refine ⟨⟨data, out⟩, by omega, by omega, by omega, stride, ⟨span, last, wraps⟩,
      ⟨bytes, lastByte⟩, by omega⟩
  · rintro ⟨⟨data, out⟩, source, size, angle, stride, ⟨span, last, wraps⟩, ⟨bytes, lastByte⟩, apart⟩
    refine ⟨⟨⟨⟨⟨⟨⟨⟨⟨⟨⟨⟨⟨data, out⟩, ?_⟩, ?_⟩, ?_⟩, ?_⟩, ?_⟩, ?_⟩, ?_⟩, ?_⟩, ?_⟩, stride⟩, wraps⟩,
      ⟨⟨⟨span, bytes⟩, last⟩, lastByte⟩, ?_⟩
    all_goals omega

/-- The last place but `i` of a row or a column. -/
theorem minus32_mirror {size i : ℕ} (inside : i < size) (small : size ≤ 4096) :
    minus32 (minus32 size 1) i = size - 1 - i := by
  have last : minus32 size 1 = size - 1 := minus32_eq (by omega) (by omega)
  rw [last]
  exact minus32_eq (by omega) (by omega)

/-- The place of the source is inside of it, and has the pixel of the turned picture. -/
theorem sourcePlace_turns
    (source : 0 < s.width ∧ s.width ≤ 4096 ∧ 0 < s.height ∧ s.height ≤ 4096)
    (angle : degrees = 0 ∨ degrees = 90 ∨ degrees = 180 ∨ degrees = 270)
    (left : rx < ((s.picture m).turns (degrees / 90)).width)
    (low : ry < ((s.picture m).turns (degrees / 90)).height) :
    ((sourcePlace s degrees rx ry).1 < s.width ∧ (sourcePlace s degrees rx ry).2 < s.height) ∧
      ((s.picture m).turns (degrees / 90)).pixel rx ry =
        (s.picture m).pixel (sourcePlace s degrees rx ry).1 (sourcePlace s degrees rx ry).2 := by
  rcases angle with rfl | rfl | rfl | rfl
  · exact ⟨⟨left, low⟩, rfl⟩
  · change rx < s.height at left
    change ry < s.width at low
    have line := minus32_mirror left source.2.2.2
    change (ry < s.width ∧ minus32 (minus32 s.height 1) rx < s.height) ∧
      (s.picture m).pixel ry (s.height - 1 - rx) =
        (s.picture m).pixel ry (minus32 (minus32 s.height 1) rx)
    rw [line]
    exact ⟨⟨low, by omega⟩, rfl⟩
  · change rx < s.width at left
    change ry < s.height at low
    have column := minus32_mirror left source.2.1
    have line := minus32_mirror low source.2.2.2
    change (minus32 (minus32 s.width 1) rx < s.width ∧
      minus32 (minus32 s.height 1) ry < s.height) ∧
      (s.picture m).pixel (s.width - 1 - rx) (s.height - 1 - ry) =
        (s.picture m).pixel (minus32 (minus32 s.width 1) rx) (minus32 (minus32 s.height 1) ry)
    rw [column, line]
    exact ⟨⟨by omega, by omega⟩, rfl⟩
  · change rx < s.height at left
    change ry < s.width at low
    have column := minus32_mirror low source.2.1
    have line : s.height - 1 - (s.height - 1 - rx) = rx := by omega
    change (minus32 (minus32 s.width 1) ry < s.width ∧ rx < s.height) ∧
      (s.picture m).pixel (s.width - 1 - ry) (s.height - 1 - (s.height - 1 - rx)) =
        (s.picture m).pixel (minus32 (minus32 s.width 1) ry) rx
    rw [column, line]
    exact ⟨⟨by omega, left⟩, rfl⟩

/-- A nearest coordinate is inside of what it is taken from, and does not wrap. -/
theorem nearest_inside {place size full : ℕ} (inside : place < size) (small : size ≤ 4096)
    (source : 0 < full ∧ full ≤ 4096) :
    place * full % 2 ^ 32 / size = place * full / size ∧ place * full / size < full := by
  have product : place * full ≤ 4096 * 4096 := Nat.mul_le_mul (by omega) source.2
  refine ⟨by rw [Nat.mod_eq_of_lt (by omega)], ?_⟩
  rw [Nat.div_lt_iff_lt_mul (by omega), Nat.mul_comm]
  exact Nat.mul_lt_mul_of_pos_left inside source.1

theorem turns_size (angle : degrees = 0 ∨ degrees = 90 ∨ degrees = 180 ∨ degrees = 270) :
    ((s.picture m).turns (degrees / 90)).width =
        (if degrees = 90 || degrees = 270 then s.height else s.width) ∧
      ((s.picture m).turns (degrees / 90)).height =
        if degrees = 90 || degrees = 270 then s.width else s.height := by
  rcases angle with rfl | rfl | rfl | rfl <;> exact ⟨rfl, rfl⟩

theorem Rgb565Frame.load_eq {offset : ℕ} (inside : offset < s.span) :
    s.load m offset = some (m (s.data + offset)) := if_pos inside

/-- The writes of one pixel. -/
def packWrites (shown : Picture (UInt8 × UInt8)) (output width : ℕ) (p : ℕ × ℕ) :
    List (ℕ × UInt8) :=
  [(output + (p.2 * width + p.1) * 2, (shown.pixel p.1 p.2).1),
    (output + ((p.2 * width + p.1) * 2 + 1), (shown.pixel p.1 p.2).2)]

/-- One pixel, whatever of the output was written before it. -/
theorem packPixel_eq (packable : Packable sizeMax s output capacity width height degrees)
    (same : ∀ a, ¬(output ≤ a ∧ a < output + width * height * 2) → n a = m a)
    {p : ℕ × ℕ} (left : p.1 < width) (low : p.2 < height) :
    packPixel s output (width * height * 2) width height degrees swapBytes n p =
      some (n.stores (packWrites (s.shown m width height degrees swapBytes) output width p)) := by
  obtain ⟨_, source, size, angle, _, _, _, apart⟩ := packable
  obtain ⟨turnedWidth, turnedHeight⟩ : ((s.picture m).turns (degrees / 90)).width = _ ∧
    ((s.picture m).turns (degrees / 90)).height = _ := turns_size angle
  have full : (0 < ((s.picture m).turns (degrees / 90)).width ∧
      ((s.picture m).turns (degrees / 90)).width ≤ 4096) ∧
      0 < ((s.picture m).turns (degrees / 90)).height ∧
      ((s.picture m).turns (degrees / 90)).height ≤ 4096 := by
    rw [turnedWidth, turnedHeight]
    split <;> omega
  have across := nearest_inside left size.2.1 full.1
  have down := nearest_inside low size.2.2.2 full.2
  obtain ⟨inside, pixel⟩ := sourcePlace_turns source angle across.2 down.2
  unfold packPixel
  simp only [Option.bind_eq_bind]
  rw [← turnedWidth, ← turnedHeight, across.1, down.1]
  unfold packWrites Rgb565Frame.shown
  change _ = some (n.stores [(_, (exchange swapBytes
    (((s.picture m).turns (degrees / 90)).pixel _ _)).1), (_, (exchange swapBytes
    (((s.picture m).turns (degrees / 90)).pixel _ _)).2)])
  rw [pixel]
  generalize sourcePlace s degrees _ _ = place at inside ⊢
  have span : ∀ k, k < 2 → place.2 * s.stride + place.1 * 2 + k < s.span := by
    intro k small
    have row : place.2 * s.stride + (place.1 * 2 + k) < (s.height - 1) * s.stride + s.width * 2 :=
      row_inside inside.2 (by omega)
    unfold Rgb565Frame.span Rgb565Frame.rowBytes
    rw [Nat.mul_comm s.stride]
    omega
  have offset : (p.2 * width + p.1) * 2 + 1 < width * height * 2 := by
    have row : p.2 * width + p.1 < (height - 1) * width + width := row_inside low left
    have rows : (height - 1) * width + width = width * height := by
      rw [← Nat.succ_mul, Nat.succ_eq_add_one, Nat.sub_add_cancel (by omega), Nat.mul_comm]
    omega
  have read : ∀ (l : Memory) k, k < 2 →
      (∀ a, ¬(output ≤ a ∧ a < output + width * height * 2) → l a = m a) →
      s.load l (place.2 * s.stride + place.1 * 2 + k) =
        some (m (s.data + (place.2 * s.stride + place.1 * 2 + k))) := by
    intro l k small agree
    have below := span k small
    rw [Rgb565Frame.load_eq below, agree _ (by omega)]
  have after : ∀ value, ∀ a, ¬(output ≤ a ∧ a < output + width * height * 2) →
      n.store (output + (p.2 * width + p.1) * 2) value a = m a := by
    intro value a outside
    rw [← same a outside]
    exact Function.update_of_ne (by omega) _ _
  cases swapBytes with
  | true =>
      simp only [if_true]
      rw [read n 1 (by omega) same, Option.bind_some, Memory.put_eq (by omega), Option.bind_some,
        read _ 0 (by omega) (after _), Option.bind_some, Memory.put_eq (by omega)]
      rfl
  | false =>
      simp only [Bool.false_eq_true, if_false]
      rw [read n 0 (by omega) same, Option.bind_some, Memory.put_eq (by omega), Option.bind_some,
        read _ 1 (by omega) (after _), Option.bind_some, Memory.put_eq (by omega)]
      rfl

/-- What the pixels write is inside of the output, each byte once. -/
theorem packWrites_place {shown : Picture (UInt8 × UInt8)} {w : ℕ × UInt8}
    (member : w ∈ (pixels width height).flatMap (packWrites shown output width)) :
    ∃ x y k, x < width ∧ y < height ∧ k < 2 ∧ w.1 = output + ((y * width + x) * 2 + k) ∧
      w.2 = if k = 0 then (shown.pixel x y).1 else (shown.pixel x y).2 := by
  obtain ⟨p, inside, written⟩ := List.mem_flatMap.mp member
  obtain ⟨left, low⟩ := mem_pixels.mp inside
  unfold packWrites at written
  rcases List.mem_cons.mp written with rfl | other
  · exact ⟨p.1, p.2, 0, left, low, by decide, rfl, rfl⟩
  · cases List.mem_singleton.mp other
    exact ⟨p.1, p.2, 1, left, low, by decide, rfl, rfl⟩

theorem output_place (left : x < width) (low : y < height) {k : ℕ} (small : k < 2) :
    (y * width + x) * 2 + k < width * height * 2 := by
  have row : y * width + x < (height - 1) * width + width := row_inside low left
  have rows : (height - 1) * width + width = width * height := by
    rw [← Nat.succ_mul, Nat.succ_eq_add_one, Nat.sub_add_cancel (by omega), Nat.mul_comm]
  omega

theorem packed_of_writes :
    Packed s m output width height degrees swapBytes (m.stores ((pixels width height).flatMap
      (packWrites (s.shown m width height degrees swapBytes) output width))) where
  picture := by
    refine ⟨rfl, rfl, ?_⟩
    intro x y left low
    have byte : ∀ k, k < 2 → m.stores ((pixels width height).flatMap
        (packWrites (s.shown m width height degrees swapBytes) output width))
        (output + ((y * width + x) * 2 + k)) =
          if k = 0 then ((s.shown m width height degrees swapBytes).pixel x y).1
          else ((s.shown m width height degrees swapBytes).pixel x y).2 := by
      intro k small
      apply Memory.stores_eq
      · refine List.mem_flatMap.mpr ⟨(x, y), mem_pixels.mpr ⟨left, low⟩, ?_⟩
        unfold packWrites
        obtain rfl | rfl : k = 0 ∨ k = 1 := by omega
        · exact List.mem_cons_self
        · exact List.mem_cons_of_mem _ List.mem_cons_self
      · intro w member place
        obtain ⟨x', y', k', left', low', small', address, value⟩ := packWrites_place member
        rw [address] at place
        have cells : y' * width + x' = y * width + x ∧ k' = k := by omega
        obtain ⟨rfl, rfl⟩ := row_unique left' left cells.1
        rw [value, cells.2]
    have first := byte 0 (by decide)
    have second := byte 1 (by decide)
    rw [if_pos rfl] at first
    rw [if_neg (by decide)] at second
    refine Prod.ext ?_ ?_
    · rw [← first]
      change m.stores _ (output + (y * (width * 2) + x * 2)) = _
      congr 2
      ring
    · rw [← second]
      change m.stores _ (output + (y * (width * 2) + x * 2 + 1)) = _
      congr 2
      ring
  rest := by
    intro a outside
    apply Memory.stores_other
    rintro w member rfl
    obtain ⟨x, y, k, left, low, small, address, _⟩ := packWrites_place member
    have place := output_place left low small
    omega

/-- The loop of the packing, whose output does not meet the source. -/
theorem pack_loop (packable : Packable sizeMax s output capacity width height degrees) :
    (pixels width height).foldlM
        (packPixel s output (width * height * 2) width height degrees swapBytes) m =
      some (m.stores ((pixels width height).flatMap
        (packWrites (s.shown m width height degrees swapBytes) output width))) := by
  refine Memory.foldlM_stores (fun a => output ≤ a ∧ a < output + width * height * 2) ?_ ?_
  · intro n same p inside
    obtain ⟨left, low⟩ := mem_pixels.mp inside
    exact packPixel_eq packable same left low
  · intro p inside w written
    have member := List.mem_flatMap.mpr ⟨p, inside, written⟩
    obtain ⟨x, y, k, left, low, small, address, _⟩ := packWrites_place member
    have place := output_place left low small
    omega

/-! ## Chains of packings -/

/-- A packing into an output of the size of the turned source. -/
structure PackStep where
  output : ℕ
  capacity : ℕ
  degrees : ℕ
  swapBytes : Bool

/-- The size of the output is the size of the turned source. -/
def packUnscaled (sizeMax : ℕ) (s : Rgb565Frame) (m : Memory) (step : PackStep) :
    Option (Rgb565Frame × Memory) :=
  let turned := step.degrees = 90 || step.degrees = 270
  let width := if turned then s.height else s.width
  let height := if turned then s.width else s.height
  match packRgb565 sizeMax s m step.output step.capacity width height step.degrees step.swapBytes with
  | some (true, after) => some (packedFrame step.output width height, after)
  | _ => none

/-- Each packing takes the frame that the one before it wrote. -/
def packChain (sizeMax : ℕ) : Rgb565Frame → Memory → List PackStep → Option (Rgb565Frame × Memory)
  | s, m, [] => some (s, m)
  | s, m, step :: rest => do
      let (next, after) ← packUnscaled sizeMax s m step
      packChain sizeMax next after rest

def quarters (steps : List PackStep) : ℕ := (steps.map fun step => step.degrees).sum % 360 / 90

/-- Whether an odd number of the packings exchanges the bytes. -/
def swaps : List PackStep → Bool
  | [] => false
  | step :: rest => step.swapBytes != swaps rest

theorem pack_accepted (packable : Packable sizeMax s output capacity width height degrees) :
    packRgb565 sizeMax s m output capacity width height degrees swapBytes =
      some (true, m.stores ((pixels width height).flatMap
        (packWrites (s.shown m width height degrees swapBytes) output width))) := by
  unfold packRgb565
  rw [if_pos (packable_iff.mpr packable), pack_loop packable, Option.map_some]

theorem pack_refused (refused : ¬Packable sizeMax s output capacity width height degrees) :
    packRgb565 sizeMax s m output capacity width height degrees swapBytes = some (false, m) := by
  unfold packRgb565
  exact if_neg fun check => refused (packable_iff.mp check)

theorem exchange_exchange (a b : Bool) (pixel : UInt8 × UInt8) :
    exchange a (exchange b pixel) = exchange (b != a) pixel := by
  cases a <;> cases b <;> rfl

/-- One packing without a change of the size turns the picture. -/
theorem packUnscaled_turns {step : PackStep} {next : Rgb565Frame} {after : Memory}
    (packed : packUnscaled sizeMax s m step = some (next, after)) :
    90 * (step.degrees / 90) = step.degrees ∧
      (next.picture after).Agrees
        (((s.picture m).turns (step.degrees / 90)).map (exchange step.swapBytes)) := by
  unfold packUnscaled at packed
  dsimp only at packed
  by_cases packable : Packable sizeMax s step.output step.capacity
      (if step.degrees = 90 || step.degrees = 270 then s.height else s.width)
      (if step.degrees = 90 || step.degrees = 270 then s.width else s.height) step.degrees
  · rw [pack_accepted packable] at packed
    cases Option.some.inj packed
    have angle := packable.angle
    refine ⟨by omega, ?_⟩
    obtain ⟨width, height⟩ : ((s.picture m).turns (step.degrees / 90)).width = _ ∧
      ((s.picture m).turns (step.degrees / 90)).height = _ := turns_size angle
    refine packed_of_writes.picture.trans ?_
    unfold Rgb565Frame.shown
    rw [← width, ← height]
    exact Picture.resize_self.map _
  · rw [pack_refused packable] at packed
    exact absurd packed.symm (Option.some_ne_none _)

/-- A chain turns the picture by the sum of its angles. -/
theorem packChain_turns {steps : List PackStep} {last : Rgb565Frame} {after : Memory}
    (chain : packChain sizeMax s m steps = some (last, after)) :
    90 * (steps.map fun step => step.degrees / 90).sum = (steps.map fun step => step.degrees).sum ∧
      (last.picture after).Agrees (((s.picture m).turns
        (steps.map fun step => step.degrees / 90).sum).map (exchange (swaps steps))) := by
  induction steps generalizing s m with
  | nil =>
      cases Option.some.inj chain
      exact ⟨rfl, Picture.Agrees.refl _⟩
  | cons step rest ih =>
      obtain ⟨⟨next, between⟩, packed, later⟩ := Option.bind_eq_some_iff.mp chain
      obtain ⟨angle, turned⟩ := packUnscaled_turns packed
      obtain ⟨angles, further⟩ := ih later
      rw [List.map_cons, List.map_cons, List.sum_cons, List.sum_cons]
      refine ⟨by omega, further.trans ?_⟩
      have moved := (turned.turns (rest.map fun step => step.degrees / 90).sum).map
        (exchange (swaps rest))
      refine moved.trans ?_
      rw [Picture.map_turns, ← Picture.turns_add]
      refine ⟨rfl, rfl, ?_⟩
      intro x y _ _
      exact exchange_exchange _ _ _

/-- A packing is refused and writes nothing, or shows the turned and resized source; packings
of packed frames turn by the sum of their angles modulo 360, and two exchanges are none. -/
theorem spi_pack_geometry (sizeMax : ℕ) :
    (∀ (s : Rgb565Frame) (m : Memory) (output capacity width height degrees : ℕ)
      (swapBytes : Bool),
      ∃ ok after, packRgb565 sizeMax s m output capacity width height degrees swapBytes =
          some (ok, after) ∧
        (ok = true ↔ Packable sizeMax s output capacity width height degrees) ∧
        (ok = false → after = m) ∧
        (ok = true → Packed s m output width height degrees swapBytes after)) ∧
    ∀ (s last : Rgb565Frame) (m after : Memory) (steps : List PackStep),
      packChain sizeMax s m steps = some (last, after) →
      (last.picture after).Agrees
        (((s.picture m).turns (quarters steps)).map (exchange (swaps steps))) := by
  constructor
  · intro s m output capacity width height degrees swapBytes
    by_cases packable : Packable sizeMax s output capacity width height degrees
    · exact ⟨true, _, pack_accepted packable, iff_of_true rfl packable,
        fun no => absurd no.symm Bool.false_ne_true, fun _ => packed_of_writes⟩
    · exact ⟨false, m, pack_refused packable, iff_of_false Bool.false_ne_true packable,
        fun _ => rfl, fun yes => absurd yes Bool.false_ne_true⟩
  · intro s last m after steps chain
    obtain ⟨angles, turned⟩ := packChain_turns chain
    have few : quarters steps = (steps.map fun step => step.degrees / 90).sum % 4 := by
      unfold quarters
      omega
    rw [few]
    exact turned.trans ((Picture.turns_mod _).map _)

/-- A picture of two pixels in a row, turned by 90 and by 270 degrees. -/
theorem spi_pack_geometry_back :
    ∃ last after, packChain (2 ^ 32 - 1) ⟨64, 4, 4, 2, 1⟩ (fun _ => 0)
        [⟨128, 4, 90, false⟩, ⟨256, 4, 270, true⟩] = some (last, after) ∧
      (last.picture after).Agrees
        (((Rgb565Frame.picture ⟨64, 4, 4, 2, 1⟩ (fun _ => 0)).turns 0).map (exchange true)) := by
  have first : Packable (2 ^ 32 - 1) ⟨64, 4, 4, 2, 1⟩ 128 4 1 2 90 := by
    rw [← packable_iff]
    decide +kernel
  have second : Packable (2 ^ 32 - 1) (packedFrame 128 1 2) 256 4 2 1 270 := by
    rw [← packable_iff]
    decide +kernel
  have turned : ∀ m : Memory, ∃ between, packUnscaled (2 ^ 32 - 1) ⟨64, 4, 4, 2, 1⟩ m
      ⟨128, 4, 90, false⟩ = some (packedFrame 128 1 2, between) := by
    intro m
    obtain ⟨after, packed⟩ : ∃ after, packRgb565 (2 ^ 32 - 1) ⟨64, 4, 4, 2, 1⟩ m 128 4 1 2 90 false =
      some (true, after) := ⟨_, pack_accepted first⟩
    refine ⟨after, ?_⟩
    change (match packRgb565 (2 ^ 32 - 1) ⟨64, 4, 4, 2, 1⟩ m 128 4 1 2 90 false with
      | some (true, after) => some (packedFrame 128 1 2, after)
      | _ => none) = _
    rw [packed]
  have back : ∀ m : Memory, ∃ after, packUnscaled (2 ^ 32 - 1) (packedFrame 128 1 2) m
      ⟨256, 4, 270, true⟩ = some (packedFrame 256 2 1, after) := by
    intro m
    obtain ⟨after, packed⟩ : ∃ after, packRgb565 (2 ^ 32 - 1) (packedFrame 128 1 2) m 256 4 2 1 270 true =
      some (true, after) := ⟨_, pack_accepted second⟩
    refine ⟨after, ?_⟩
    change (match packRgb565 (2 ^ 32 - 1) (packedFrame 128 1 2) m 256 4 2 1 270 true with
      | some (true, after) => some (packedFrame 256 2 1, after)
      | _ => none) = _
    rw [packed]
  obtain ⟨between, one⟩ := turned fun _ => 0
  obtain ⟨after, two⟩ := back between
  have chain : packChain (2 ^ 32 - 1) ⟨64, 4, 4, 2, 1⟩ (fun _ => 0)
      [⟨128, 4, 90, false⟩, ⟨256, 4, 270, true⟩] = some (packedFrame 256 2 1, after) := by
    simp only [packChain, Option.bind_eq_bind]
    rw [one, Option.bind_some, two, Option.bind_some]
  exact ⟨_, after, chain, (spi_pack_geometry (2 ^ 32 - 1)).2 _ _ _ _ _ chain⟩

end

end LvglAic.Spi
