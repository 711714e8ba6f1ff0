import LvglAic.Machine.FixedPoint

/-! # One axis of an unrotated scaler command (`lv_draw_aic_ge2d_scale.c`)

The outer option of a result is the checked 64-bit arithmetic, the inner one is
what the C function returns.  Coordinates are in `1 / 65536` pixels.
-/

namespace LvglAic.Ge2d

open LvglAic.Machine

def int64 (value : ℤ) : Option ℤ := checked 63 value

structure ScaleAxis where
  crop : Int32
  extent : Int32
  step16 : Int32
  phase16 : Int32
deriving DecidableEq, Repr

/-- The second half of `scaleAxis`: the crop of an axis with given outer samples. -/
def fitAxis (sourceSize : Int32) (step first last : ℤ) : Option (Option ScaleAxis) := do
  let bound ← int64 ((sourceSize.toInt - 1) * 65536)
  if first < 0 || bound < last then some none
  else
    let crop := Int32.ofInt (first.tdiv 65536)
    let raised ← int64 (last + 65535)
    let reach ← int64 (raised.tdiv 65536 + 2)
    let ending := if sourceSize.toInt < reach then sourceSize.toInt else reach
    let extent ← int64 (ending - crop.toInt)
    if 4 ≤ (Int32.ofInt extent).toInt then
      some (some {
        crop := crop
        extent := Int32.ofInt extent
        step16 := Int32.ofInt step
        phase16 := Int32.ofInt (first.tmod 65536) })
    else some none

def scaleAxis (sourceSize destStart destSize pivot : Int32) (scale : UInt32) :
    Option (Option ScaleAxis) :=
  if sourceSize.toInt < 4 || destSize.toInt < 4 || scale.toNat < 16 || 4096 < scale.toNat then
    some none
  else do
    let step ← int64 ((65536 * 256 : ℤ).tdiv scale.toNat)
    let distance ← int64 (destStart.toInt - pivot.toInt)
    let scaled ← int64 (distance * step)
    let center ← int64 (pivot.toInt * 65536)
    let first ← int64 (scaled + center)
    let count ← int64 (destSize.toInt - 1)
    let span ← int64 (count * step)
    let last ← int64 (first + span)
    fitAxis sourceSize step first last

def scaleSplitRisk (step16 destWidth : Int32) : Bool :=
  step16.toInt < 65536 && 65536 / 32 * 29 < step16.toInt && 32 ≤ destWidth.toInt

/-! ## The coordinate of a destination pixel -/

def stepOf (scale : UInt32) : ℤ := 16777216 / scale.toNat

/-- The source coordinate of a destination position, whatever the clip. -/
def scaledCoordinate (pivot : Int32) (scale : UInt32) (position : ℤ) : ℤ :=
  (position - pivot.toInt) * stepOf scale + pivot.toInt * 65536

/-- The coordinate of the last pixel of a clip. -/
def lastCoordinate (destStart destSize pivot : Int32) (scale : UInt32) : ℤ :=
  scaledCoordinate pivot scale (destStart.toInt + (destSize.toInt - 1))

/-- The sizes, the scale and the outer samples are in range. -/
structure InBounds (sourceSize destStart destSize pivot : Int32) (scale : UInt32) : Prop where
  source : 4 ≤ sourceSize.toInt
  dest : 4 ≤ destSize.toInt
  smallest : 16 ≤ scale.toNat
  largest : scale.toNat ≤ 4096
  first : 0 ≤ scaledCoordinate pivot scale destStart.toInt
  last : lastCoordinate destStart destSize pivot scale ≤ (sourceSize.toInt - 1) * 65536

/-- Two pixels after the last sample, or the edge of the source. -/
def cropEnd (sourceSize last : ℤ) : ℤ := min sourceSize ((last + 65535) / 65536 + 2)

theorem int64_of_abs {value : ℤ} (small : |value| ≤ 2 ^ 60) : int64 value = some value :=
  checked_of_signed (Signed.of_abs (small.trans_lt (by norm_num)))

theorem int64_of_range (value : ℤ) (low : -2 ^ 60 ≤ value) (high : value ≤ 2 ^ 60) :
    int64 value = some value := int64_of_abs (abs_le.mpr ⟨low, high⟩)

section
variable {sourceSize destStart destSize pivot : Int32} {scale : UInt32} {axis : ScaleAxis}
  {step first last : ℤ}

theorem stepOf_bounds (low : 16 ≤ scale.toNat) (high : scale.toNat ≤ 4096) :
    4096 ≤ stepOf scale ∧ stepOf scale ≤ 1048576 := by
  have positive : (0 : ℤ) < scale.toNat := by omega
  unfold stepOf
  constructor
  · rw [Int.le_ediv_iff_mul_le positive]
    omega
  · apply Int.ediv_le_of_le_mul positive
    omega

theorem fitAxis_outside (outside : first < 0 ∨ (sourceSize.toInt - 1) * 65536 < last) :
    fitAxis sourceSize step first last = some none := by
  have low := Int32.le_toInt sourceSize
  have high := Int32.toInt_lt sourceSize
  have bound := int64_of_range ((sourceSize.toInt - 1) * 65536) (by omega) (by omega)
  have guard : (decide (first < 0) || decide ((sourceSize.toInt - 1) * 65536 < last)) = true := by
    simpa only [Bool.or_eq_true, decide_eq_true_eq] using outside
  simp only [fitAxis, bound, Option.bind_eq_bind, Option.bind_some, guard, if_true]

theorem fitAxis_inside (nonneg : 0 ≤ first) (forward : first ≤ last)
    (inside : last ≤ (sourceSize.toInt - 1) * 65536) :
    fitAxis sourceSize step first last =
      if 4 ≤ cropEnd sourceSize.toInt last - first / 65536 then some (some {
        crop := Int32.ofInt (first / 65536)
        extent := Int32.ofInt (cropEnd sourceSize.toInt last - first / 65536)
        step16 := Int32.ofInt step
        phase16 := Int32.ofInt (first % 65536) })
      else some none := by
  have high := Int32.toInt_lt sourceSize
  have bound := int64_of_range ((sourceSize.toInt - 1) * 65536) (by omega) (by omega)
  have raised := int64_of_range (last + 65535) (by omega) (by omega)
  have reach := int64_of_range ((last + 65535) / 65536 + 2) (by omega) (by omega)
  have guard : (decide (first < 0) || decide ((sourceSize.toInt - 1) * 65536 < last)) = false := by
    simp only [Bool.or_eq_false_iff, decide_eq_false_iff_not]
    omega
  have crop : (Int32.ofInt (first / 65536)).toInt = first / 65536 :=
    toInt_ofInt ⟨by omega, by omega⟩
  have ending : (if sourceSize.toInt < (last + 65535) / 65536 + 2 then sourceSize.toInt
      else (last + 65535) / 65536 + 2) = cropEnd sourceSize.toInt last := by
    rw [cropEnd, min_def]
    split <;> split <;> omega
  have fits : Signed 31 (cropEnd sourceSize.toInt last - first / 65536) := by
    unfold cropEnd
    exact ⟨by omega, by omega⟩
  have extent := int64_of_range (cropEnd sourceSize.toInt last - first / 65536)
    (by obtain ⟨_, _⟩ := fits; omega) (by obtain ⟨_, _⟩ := fits; omega)
  simp only [fitAxis, bound, Option.bind_eq_bind, Option.bind_some, guard, Bool.false_eq_true,
    if_false, raised, Int.tdiv_eq_ediv_of_nonneg nonneg, Int.tmod_eq_emod_of_nonneg nonneg,
    Int.tdiv_eq_ediv_of_nonneg (show 0 ≤ last + 65535 by omega), reach, crop, ending, extent,
    toInt_ofInt fits]

/-- No intermediate value of an axis leaves 64 bits. -/
theorem scaleAxis_eq (destStart pivot : Int32) (source : 4 ≤ sourceSize.toInt) (dest : 4 ≤ destSize.toInt)
    (smallest : 16 ≤ scale.toNat) (largest : scale.toNat ≤ 4096) :
    scaleAxis sourceSize destStart destSize pivot scale =
      fitAxis sourceSize (stepOf scale) (scaledCoordinate pivot scale destStart.toInt)
        (lastCoordinate destStart destSize pivot scale) := by
  obtain ⟨stepLow, stepHigh⟩ := stepOf_bounds smallest largest
  have startLow := Int32.le_toInt destStart
  have startHigh := Int32.toInt_lt destStart
  have sizeHigh := Int32.toInt_lt destSize
  have pivotLow := Int32.le_toInt pivot
  have pivotHigh := Int32.toInt_lt pivot
  have stepAbs : |stepOf scale| ≤ 2 ^ 20 := abs_le.mpr (by omega)
  have distanceAbs : |destStart.toInt - pivot.toInt| ≤ 2 ^ 32 := abs_le.mpr (by omega)
  have countAbs : |destSize.toInt - 1| ≤ 2 ^ 31 := abs_le.mpr (by omega)
  have scaledAbs := abs_mul_le distanceAbs stepAbs
  have spanAbs := abs_mul_le countAbs stepAbs
  have centerAbs : |pivot.toInt * 65536| ≤ 2 ^ 47 := abs_le.mpr (by omega)
  have firstEq : (destStart.toInt - pivot.toInt) * stepOf scale + pivot.toInt * 65536 =
    scaledCoordinate pivot scale destStart.toInt := rfl
  have lastEq : scaledCoordinate pivot scale destStart.toInt +
      (destSize.toInt - 1) * stepOf scale = lastCoordinate destStart destSize pivot scale := by
    unfold lastCoordinate scaledCoordinate
    ring
  have firstAbs : |scaledCoordinate pivot scale destStart.toInt| ≤ 2 ^ 53 := by
    rw [← firstEq]
    exact (abs_add_le _ _).trans (by omega)
  have lastAbs : |lastCoordinate destStart destSize pivot scale| ≤ 2 ^ 54 := by
    rw [← lastEq]
    exact (abs_add_le _ _).trans (by omega)
  have guard : (decide (sourceSize.toInt < 4) || decide (destSize.toInt < 4) ||
      decide (scale.toNat < 16) || decide (4096 < scale.toNat)) = false := by
    simp only [Bool.or_eq_false_iff, decide_eq_false_iff_not]
    omega
  have truncated : (65536 * 256 : ℤ).tdiv scale.toNat = stepOf scale :=
    Int.tdiv_eq_ediv_of_nonneg (by decide)
  simp only [scaleAxis, guard, Bool.false_eq_true, if_false, truncated, Option.bind_eq_bind,
    Option.bind_some, int64_of_abs (stepAbs.trans (by norm_num)),
    int64_of_abs (distanceAbs.trans (by norm_num)), int64_of_abs (countAbs.trans (by norm_num)),
    int64_of_abs (scaledAbs.trans (by norm_num)), int64_of_abs (spanAbs.trans (by norm_num)),
    int64_of_abs (centerAbs.trans (by norm_num)), firstEq, lastEq,
    int64_of_abs (firstAbs.trans (by norm_num)), int64_of_abs (lastAbs.trans (by norm_num))]

theorem scaledCoordinate_add (position i : ℤ) :
    scaledCoordinate pivot scale (position + i) =
      scaledCoordinate pivot scale position + i * stepOf scale := by
  unfold scaledCoordinate
  ring

theorem scaledCoordinate_mono (low : 16 ≤ scale.toNat) (high : scale.toNat ≤ 4096)
    {position later : ℤ} (order : position ≤ later) :
    scaledCoordinate pivot scale position ≤ scaledCoordinate pivot scale later := by
  have positive := (stepOf_bounds low high).1
  obtain ⟨i, rfl⟩ := Int.le.dest order
  rw [scaledCoordinate_add]
  exact le_add_of_nonneg_right (mul_nonneg (by omega) (by omega))

theorem scaleAxis_refused (outside : sourceSize.toInt < 4 ∨ destSize.toInt < 4 ∨
    scale.toNat < 16 ∨ 4096 < scale.toNat) :
    scaleAxis sourceSize destStart destSize pivot scale = some none := by
  have guard : (decide (sourceSize.toInt < 4) || decide (destSize.toInt < 4) ||
      decide (scale.toNat < 16) || decide (4096 < scale.toNat)) = true := by
    simp only [Bool.or_eq_true, decide_eq_true_eq]
    omega
  simp only [scaleAxis, guard, if_true]

/-- What the C function returns, from the bounds alone. -/
theorem scaleAxis_cases (sourceSize destStart destSize pivot : Int32) (scale : UInt32) :
    (¬ InBounds sourceSize destStart destSize pivot scale ∧
      scaleAxis sourceSize destStart destSize pivot scale = some none) ∨
    (InBounds sourceSize destStart destSize pivot scale ∧
      scaleAxis sourceSize destStart destSize pivot scale =
        fitAxis sourceSize (stepOf scale) (scaledCoordinate pivot scale destStart.toInt)
          (lastCoordinate destStart destSize pivot scale)) := by
  by_cases ranges : 4 ≤ sourceSize.toInt ∧ 4 ≤ destSize.toInt ∧ 16 ≤ scale.toNat ∧
      scale.toNat ≤ 4096
  · obtain ⟨source, dest, smallest, largest⟩ := ranges
    have equation := scaleAxis_eq destStart pivot source dest smallest largest
    by_cases inside : 0 ≤ scaledCoordinate pivot scale destStart.toInt ∧
        lastCoordinate destStart destSize pivot scale ≤ (sourceSize.toInt - 1) * 65536
    · exact .inr ⟨⟨source, dest, smallest, largest, inside.1, inside.2⟩, equation⟩
    · refine .inl ⟨fun bounds => inside ⟨bounds.first, bounds.last⟩, ?_⟩
      rw [equation]
      exact fitAxis_outside (by omega)
  · refine .inl ⟨fun bounds => ranges
      ⟨bounds.source, bounds.dest, bounds.smallest, bounds.largest⟩, ?_⟩
    exact scaleAxis_refused (by omega)

theorem InBounds.forward (bounds : InBounds sourceSize destStart destSize pivot scale) :
    scaledCoordinate pivot scale destStart.toInt ≤
      lastCoordinate destStart destSize pivot scale := by
  apply scaledCoordinate_mono bounds.smallest bounds.largest
  have positive := bounds.dest
  omega

def ScaleAxis.sampler (axis : ScaleAxis) : Sampler :=
  ⟨axis.crop.toInt, axis.phase16.toInt, axis.step16.toInt⟩

/-- The source coordinate of output `i`. -/
def ScaleAxis.sample (axis : ScaleAxis) (i : ℤ) : ℤ := axis.sampler.at 65536 i

/-- The fields of an axis, none of them truncated. -/
structure ClipAxis (sourceSize destStart destSize pivot : Int32) (scale : UInt32)
    (axis : ScaleAxis) : Prop where
  crop : axis.crop.toInt = scaledCoordinate pivot scale destStart.toInt / 65536
  phase : axis.phase16.toInt = scaledCoordinate pivot scale destStart.toInt % 65536
  step : axis.step16.toInt = stepOf scale
  extent : axis.extent.toInt =
    cropEnd sourceSize.toInt (lastCoordinate destStart destSize pivot scale) -
      scaledCoordinate pivot scale destStart.toInt / 65536

/-- The crop of a clip is at least as wide as the engine needs. -/
def Wide (sourceSize destStart destSize pivot : Int32) (scale : UInt32) : Prop :=
  4 ≤ cropEnd sourceSize.toInt (lastCoordinate destStart destSize pivot scale) -
    scaledCoordinate pivot scale destStart.toInt / 65536

theorem scaleAxis_inside (bounds : InBounds sourceSize destStart destSize pivot scale) :
    (Wide sourceSize destStart destSize pivot scale ∧
      ∃ axis, scaleAxis sourceSize destStart destSize pivot scale = some (some axis) ∧
        ClipAxis sourceSize destStart destSize pivot scale axis) ∨
    (¬ Wide sourceSize destStart destSize pivot scale ∧
      scaleAxis sourceSize destStart destSize pivot scale = some none) := by
  rcases scaleAxis_cases sourceSize destStart destSize pivot scale with
    ⟨outside, _⟩ | ⟨_, equation⟩
  · exact absurd bounds outside
  · have nonneg := bounds.first
    have inside := bounds.last
    have forward := bounds.forward
    have high := Int32.toInt_lt sourceSize
    obtain ⟨stepLow, stepHigh⟩ := stepOf_bounds bounds.smallest bounds.largest
    rw [equation, fitAxis_inside nonneg forward inside]
    unfold Wide
    split
    · rename_i wide
      refine .inl ⟨wide, _, rfl, ?_, ?_, ?_, ?_⟩
      · exact toInt_ofInt ⟨by omega, by omega⟩
      · exact toInt_ofInt ⟨by omega, by omega⟩
      · exact toInt_ofInt ⟨by omega, by omega⟩
      · apply toInt_ofInt
        unfold cropEnd
        exact ⟨by omega, by omega⟩
    · rename_i narrow
      exact .inr ⟨narrow, rfl⟩

theorem scaleAxis_accepted
    (accepted : scaleAxis sourceSize destStart destSize pivot scale = some (some axis)) :
    InBounds sourceSize destStart destSize pivot scale ∧
      ClipAxis sourceSize destStart destSize pivot scale axis := by
  rcases scaleAxis_cases sourceSize destStart destSize pivot scale with
    ⟨_, refused⟩ | ⟨bounds, _⟩
  · rw [refused] at accepted
    cases Option.some.inj accepted
  · rcases scaleAxis_inside bounds with ⟨_, found, equation, clip⟩ | ⟨_, refused⟩
    · rw [equation] at accepted
      cases accepted
      exact ⟨bounds, clip⟩
    · rw [refused] at accepted
      cases Option.some.inj accepted

theorem ClipAxis.sample_eq (clip : ClipAxis sourceSize destStart destSize pivot scale axis)
    (i : ℤ) : axis.sample i = scaledCoordinate pivot scale (destStart.toInt + i) := by
  rw [scaledCoordinate_add, ← Sampler.from_at]
  unfold ScaleAxis.sample ScaleAxis.sampler Sampler.from
  rw [clip.crop, clip.phase, clip.step]

theorem ClipAxis.sample_last (clip : ClipAxis sourceSize destStart destSize pivot scale axis) :
    axis.sample (destSize.toInt - 1) = lastCoordinate destStart destSize pivot scale :=
  clip.sample_eq _

/-- Every sample of an accepted clip is a coordinate of the source. -/
theorem ClipAxis.sample_bounds (clip : ClipAxis sourceSize destStart destSize pivot scale axis)
    (bounds : InBounds sourceSize destStart destSize pivot scale) {i : ℤ} (nonneg : 0 ≤ i)
    (inside : i < destSize.toInt) :
    scaledCoordinate pivot scale destStart.toInt ≤ axis.sample i ∧
      axis.sample i ≤ lastCoordinate destStart destSize pivot scale := by
  rw [clip.sample_eq]
  constructor
  · exact scaledCoordinate_mono bounds.smallest bounds.largest (by omega)
  · exact scaledCoordinate_mono bounds.smallest bounds.largest (by omega)

/-- Every pixel from that of a sample to the tap beyond the last one is cropped, unless the
source ends before. -/
theorem ClipAxis.taps (clip : ClipAxis sourceSize destStart destSize pivot scale axis)
    (bounds : InBounds sourceSize destStart destSize pivot scale) {i pixel : ℤ} (nonneg : 0 ≤ i)
    (inside : i < destSize.toInt) (low : axis.sample i / 65536 ≤ pixel)
    (high : pixel ≤ (axis.sample (destSize.toInt - 1) + 65535) / 65536 + 1) :
    axis.crop.toInt ≤ pixel ∧ (pixel < axis.crop.toInt + axis.extent.toInt ∨
      axis.crop.toInt + axis.extent.toInt = sourceSize.toInt) := by
  obtain ⟨after, _⟩ := clip.sample_bounds bounds nonneg inside
  rw [clip.sample_last] at high
  rw [clip.extent, clip.crop]
  unfold cropEnd
  constructor
  · exact (Int.ediv_le_ediv (by decide) after).trans low
  · omega

end

/-- A clip that is accepted, and what another clip of the same draw shares with it. -/
structure Seamless (sourceSize destStart destSize pivot : Int32) (scale : UInt32)
    (axis : ScaleAxis) : Prop where
  stored : axis.crop.toInt = scaledCoordinate pivot scale destStart.toInt / 65536 ∧
    axis.phase16.toInt = scaledCoordinate pivot scale destStart.toInt % 65536 ∧
    axis.step16.toInt = 16777216 / scale.toNat
  samples : ∀ i, 0 ≤ i → i < destSize.toInt →
    axis.crop.toInt * 65536 + axis.phase16.toInt + i * axis.step16.toInt =
      (destStart.toInt + i - pivot.toInt) * (16777216 / scale.toNat) + pivot.toInt * 65536
  phase : 0 ≤ axis.phase16.toInt ∧ axis.phase16.toInt < 65536
  inside : ∀ i, 0 ≤ i → i < destSize.toInt →
    0 ≤ axis.sample i ∧ axis.sample i ≤ (sourceSize.toInt - 1) * 65536
  crop : 0 ≤ axis.crop.toInt ∧ axis.crop.toInt + axis.extent.toInt ≤ sourceSize.toInt
  pixels : ∀ i, 0 ≤ i → i < destSize.toInt → axis.crop.toInt ≤ axis.sample i / 65536 ∧
    axis.sample i / 65536 < axis.crop.toInt + axis.extent.toInt
  taps : ∀ i pixel, 0 ≤ i → i < destSize.toInt → axis.sample i / 65536 ≤ pixel →
    pixel ≤ (axis.sample (destSize.toInt - 1) + 65535) / 65536 + 1 →
    axis.crop.toInt ≤ pixel ∧ (pixel < axis.crop.toInt + axis.extent.toInt ∨
      axis.crop.toInt + axis.extent.toInt = sourceSize.toInt)
  shared : ∀ start size other, scaleAxis sourceSize start size pivot scale = some (some other) →
    ∀ i j, 0 ≤ i → i < destSize.toInt → 0 ≤ j → j < size.toInt →
      destStart.toInt + i = start.toInt + j → axis.sample i = other.sample j

section
variable {sourceSize destStart destSize pivot : Int32} {scale : UInt32} {axis : ScaleAxis}

theorem scaleAxis_seamless
    (accepted : scaleAxis sourceSize destStart destSize pivot scale = some (some axis)) :
    Seamless sourceSize destStart destSize pivot scale axis := by
  obtain ⟨bounds, clip⟩ := scaleAxis_accepted accepted
  have first := bounds.first
  have last := bounds.last
  have forward := bounds.forward
  have crop := clip.crop
  have phase := clip.phase
  have extent := clip.extent
  unfold cropEnd at extent
  refine ⟨⟨crop, phase, clip.step⟩, ?_, ?_, ?_, ?_, ?_, ?_, ?_⟩
  · intro i _ _
    exact clip.sample_eq i
  · rw [phase]
    omega
  · intro i nonneg inside
    obtain ⟨low, high⟩ := clip.sample_bounds bounds nonneg inside
    omega
  · omega
  · intro i nonneg inside
    obtain ⟨low, high⟩ := clip.sample_bounds bounds nonneg inside
    omega
  · intro i pixel nonneg inside low high
    exact clip.taps bounds nonneg inside low high
  · intro start size other also i j _ _ _ _ same
    rw [clip.sample_eq, (scaleAxis_accepted also).2.sample_eq, same]

/-- An unrotated axis is computed without overflow, samples every destination pixel where any
other clip of the draw samples it, and is refused only out of bounds or when its crop would be
narrower than four pixels. -/
theorem scale_axis_independent_of_clip (sourceSize destStart destSize pivot : Int32)
    (scale : UInt32) :
    ∃ result, scaleAxis sourceSize destStart destSize pivot scale = some result ∧
      (∀ axis, result = some axis → Seamless sourceSize destStart destSize pivot scale axis) ∧
      (result = none ↔ ¬ InBounds sourceSize destStart destSize pivot scale ∨
        ¬ Wide sourceSize destStart destSize pivot scale) := by
  rcases scaleAxis_cases sourceSize destStart destSize pivot scale with
    ⟨outside, refused⟩ | ⟨bounds, _⟩
  · exact ⟨none, refused, nofun, fun _ => .inl outside, fun _ => rfl⟩
  · rcases scaleAxis_inside bounds with ⟨wide, axis, accepted, _⟩ | ⟨narrow, refused⟩
    · refine ⟨some axis, accepted, ?_, nofun, ?_⟩
      · intro other same
        cases same
        exact scaleAxis_seamless accepted
      · intro outside
        rcases outside with outside | narrow
        · exact absurd bounds outside
        · exact absurd wide narrow
    · exact ⟨none, refused, nofun, fun _ => .inr narrow, fun _ => rfl⟩

end

/-- Sizes, scale and samples in range do not make a clip accepted: its crop may be too narrow. -/
theorem narrow_clip_refused :
    InBounds 100 0 4 0 4096 ∧ scaleAxis 100 0 4 0 4096 = some none := by
  refine ⟨⟨by decide, by decide, by decide, by decide, by decide, by decide⟩, by decide⟩

end LvglAic.Ge2d
