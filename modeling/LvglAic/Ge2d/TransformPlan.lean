import LvglAic.Ge2d.Rotation

/-! # Scratch plan of a scaled rotation (`lv_draw_aic_ge2d_transform.c`)

The image is copied with a border of two pixels, scaled onto a grid on which the
pivot is a whole pixel, and only then rotated.  A failed plan leaves the caller's
plan alone.
-/

namespace LvglAic.Ge2d

open LvglAic.Machine

/-- The descriptor fields that the plan reads. -/
structure ImageDsc where
  rotation : Int32
  skewX : Int32
  skewY : Int32
  scaleX : Int32
  scaleY : Int32
  pivot : Point
deriving DecidableEq, Repr

structure AxisPlan where
  extent : Int32
  center : Int32
  crop : Int32
  phase : Int32
  step : Int32
deriving DecidableEq, Repr

structure TransformPlan where
  paddedW : Int32
  paddedH : Int32
  x : AxisPlan
  y : AxisPlan
  paddedStride : UInt32
  scaledStride : UInt32
  paddedBytes : UInt32
  scaledBytes : UInt32
deriving DecidableEq, Repr

def floorDiv (a b : ℤ) : Option ℤ := int64 (a.tdiv b - if a.tmod b < 0 then 1 else 0)

/-- The second half of `planAxis`: the outputs of a lattice that starts at `first`. -/
def spanAxis (size : UInt32) (delta p first : ℤ) : Option (Option AxisPlan) := do
  let rows ← int64 (size.toNat + 3)
  let edge ← int64 (rows * 65536)
  let room ← int64 (edge - first)
  let n ← int64 (room.tdiv delta + 1)
  let center ← int64 (p + 2)
  let rest ← int64 (size.toNat + 4 - first.tdiv 65536)
  if center < -8192 || 8191 < center || n < 4 || 4092 < n || edge < first || rest < 4 then
    some none
  else some (some {
    extent := Int32.ofInt n + 4
    center := Int32.ofInt p + 2
    crop := Int32.ofInt (first.tdiv 65536)
    phase := Int32.ofInt (first.tmod 65536)
    step := Int32.ofInt delta })

def planAxis (size : UInt32) (pivot scale : Int32) : Option (Option AxisPlan) :=
  if size.toNat < 4 || 4092 < size.toNat || scale.toInt < 16 || 4096 < scale.toInt then some none
  else do
    let delta ← int64 ((16777216 : ℤ).tdiv scale.toInt)
    let padded ← int64 (pivot.toInt + 2)
    let origin ← int64 (padded * 65536)
    let p ← floorDiv origin delta
    let back ← int64 (p * delta)
    let first ← int64 (origin - back)
    spanAxis size delta p first

/-- The bytes of a row of 32-bit pixels, rounded up to a multiple of 64. -/
def rowStride (width : Int32) : UInt32 := (width.toUInt32 * 4 + 63) &&& ~~~63

def buildPlan (w h : UInt32) (x y : AxisPlan) : TransformPlan where
  paddedW := (w + 4).toInt32
  paddedH := (h + 4).toInt32
  x := x
  y := y
  paddedStride := rowStride (w + 4).toInt32
  scaledStride := rowStride x.extent
  paddedBytes := rowStride (w + 4).toInt32 * (h + 4).toInt32.toUInt32
  scaledBytes := rowStride x.extent * y.extent.toUInt32

/-- What the function returns, and the caller's plan afterwards. -/
def transformPlan (w h : UInt32) (dsc : ImageDsc) (budget : UInt32) (plan : TransformPlan) :
    Option (Bool × TransformPlan) :=
  if budget = 0 || dsc.rotation.toInt.tmod 900 = 0 || dsc.skewX ≠ 0 || dsc.skewY ≠ 0 ||
      (dsc.scaleX = 256 && dsc.scaleY = 256) then some (false, plan)
  else do
    let x ← planAxis w dsc.pivot.x dsc.scaleX
    match x with
    | none => some (false, plan)
    | some x => do
        let y ← planAxis h dsc.pivot.y dsc.scaleY
        match y with
        | none => some (false, plan)
        | some y =>
            let p := buildPlan w h x y
            if budget.toNat < p.paddedBytes.toNat + p.scaledBytes.toNat then some (false, plan)
            else some (true, p)

/-! ## The lattice of one axis -/

/-- Where the scaler samples a pixel of the scaled image: its output starts at pixel 2. -/
def AxisPlan.sample (axis : AxisPlan) (pixel : ℤ) : ℤ :=
  axis.crop.toInt * 65536 + axis.phase.toInt + (pixel - 2) * axis.step.toInt

section
variable {size : UInt32} {pivot scale : Int32} {axis : AxisPlan}

def deltaOf (scale : Int32) : ℤ := 16777216 / scale.toInt

/-- The first coordinate of the lattice through the padded pivot. -/
def latticeFirst (pivot scale : Int32) : ℤ := (pivot.toInt + 2) * 65536 % deltaOf scale

def latticePivot (pivot scale : Int32) : ℤ := (pivot.toInt + 2) * 65536 / deltaOf scale

def latticeCount (size : UInt32) (pivot scale : Int32) : ℤ :=
  ((size.toNat + 3) * 65536 - latticeFirst pivot scale) / deltaOf scale + 1

theorem deltaOf_bounds (low : 16 ≤ scale.toInt) (high : scale.toInt ≤ 4096) :
    4096 ≤ deltaOf scale ∧ deltaOf scale ≤ 1048576 := by
  have positive : 0 < scale.toInt := by omega
  unfold deltaOf
  constructor
  · rw [Int.le_ediv_iff_mul_le positive]
    omega
  · apply Int.ediv_le_of_le_mul positive
    omega

theorem floorDiv_spec {a b : ℤ} (positive : 0 < b) (small : |a| ≤ 2 ^ 50) :
    floorDiv a b = some (a / b) := by
  have quotient : a.tdiv b - (if a.tmod b < 0 then 1 else 0) = a / b := by
    rw [Int.tdiv_eq_ediv, Int.tmod_eq_emod]
    have low := Int.emod_nonneg a positive.ne'
    have below := Int.emod_lt_of_pos a positive
    have divides : b ∣ a ↔ a % b = 0 := Int.dvd_iff_emod_eq_zero
    have sign : b.sign = 1 := Int.sign_eq_one_of_pos positive
    have size : (b.natAbs : ℤ) = b := Int.natAbs_of_nonneg positive.le
    by_cases exact : 0 ≤ a ∨ b ∣ a
    · rw [if_pos exact, if_pos exact, if_neg (by omega)]
      omega
    · rw [if_neg exact, if_neg exact, sign, size, if_pos (by omega)]
      omega
  unfold floorDiv
  rw [quotient]
  exact int64_of_abs (((Int.abs_ediv_le_abs _ _).trans small).trans (by norm_num))

/-- What an accepted axis promises. -/
structure PlannedAxis (size : UInt32) (pivot scale : Int32) (axis : AxisPlan) : Prop where
  sized : 4 ≤ size.toNat ∧ size.toNat ≤ 4092
  allowed : 16 ≤ scale.toInt ∧ scale.toInt ≤ 4096
  crop : axis.crop.toInt = latticeFirst pivot scale / 65536
  phase : axis.phase.toInt = latticeFirst pivot scale % 65536
  step : axis.step.toInt = deltaOf scale
  center : axis.center.toInt = latticePivot pivot scale + 2
  extent : axis.extent.toInt = latticeCount size pivot scale + 4
  count : 4 ≤ latticeCount size pivot scale ∧ latticeCount size pivot scale ≤ 4092
  within : latticeFirst pivot scale ≤ (size.toNat + 3) * 65536

theorem latticeFirst_bounds (pivot : Int32) (allowed : 16 ≤ scale.toInt ∧ scale.toInt ≤ 4096) :
    0 ≤ latticeFirst pivot scale ∧ latticeFirst pivot scale < deltaOf scale := by
  have positive := (deltaOf_bounds allowed.1 allowed.2).1
  exact ⟨Int.emod_nonneg _ (by omega), Int.emod_lt_of_pos _ (by omega)⟩

theorem lattice_pivot (pivot scale : Int32) :
    latticePivot pivot scale * deltaOf scale + latticeFirst pivot scale =
      (pivot.toInt + 2) * 65536 := Int.ediv_mul_add_emod _ _

/-- No intermediate value of an axis leaves 64 bits. -/
theorem planAxis_eq (sized : 4 ≤ size.toNat ∧ size.toNat ≤ 4092)
    (allowed : 16 ≤ scale.toInt ∧ scale.toInt ≤ 4096) :
    planAxis size pivot scale = spanAxis size (deltaOf scale) (latticePivot pivot scale)
      (latticeFirst pivot scale) := by
  obtain ⟨deltaLow, deltaHigh⟩ := deltaOf_bounds allowed.1 allowed.2
  obtain ⟨firstLow, firstHigh⟩ := latticeFirst_bounds pivot allowed
  have pivotSmall := abs_le.mp (abs_toInt_le pivot)
  have fits : ∀ value : ℤ, -2 ^ 50 ≤ value → value ≤ 2 ^ 50 → int64 value = some value :=
    fun value low high => int64_of_abs (abs_le.mpr ⟨by omega, by omega⟩)
  have delta : (16777216 : ℤ).tdiv scale.toInt = deltaOf scale :=
    Int.tdiv_eq_ediv_of_nonneg (by decide)
  have quotient : floorDiv ((pivot.toInt + 2) * 65536) (deltaOf scale) =
      some (latticePivot pivot scale) :=
    floorDiv_spec (by omega) (abs_le.mpr (by omega))
  have whole := lattice_pivot pivot scale
  have first : (pivot.toInt + 2) * 65536 - latticePivot pivot scale * deltaOf scale =
      latticeFirst pivot scale := by omega
  have guard : (decide (size.toNat < 4) || decide (4092 < size.toNat) ||
      decide (scale.toInt < 16) || decide (4096 < scale.toInt)) = false := by
    simp only [Bool.or_eq_false_iff, decide_eq_false_iff_not]
    omega
  have stepFits := fits (deltaOf scale) (by omega) (by omega)
  have paddedFits := fits (pivot.toInt + 2) (by omega) (by omega)
  have originFits := fits ((pivot.toInt + 2) * 65536) (by omega) (by omega)
  have backFits := fits (latticePivot pivot scale * deltaOf scale) (by omega) (by omega)
  have firstFits := fits (latticeFirst pivot scale) (by omega) (by omega)
  simp only [planAxis, guard, Bool.false_eq_true, if_false, Option.bind_eq_bind]
  rw [delta, stepFits, Option.bind_some, paddedFits, Option.bind_some, originFits,
    Option.bind_some, quotient, Option.bind_some, backFits, Option.bind_some, first, firstFits,
    Option.bind_some]

theorem spanAxis_eq (sized : 4 ≤ size.toNat ∧ size.toNat ≤ 4092)
    (allowed : 16 ≤ scale.toInt ∧ scale.toInt ≤ 4096)
    (within : latticeFirst pivot scale ≤ (size.toNat + 3) * 65536) :
    spanAxis size (deltaOf scale) (latticePivot pivot scale) (latticeFirst pivot scale) =
      if latticePivot pivot scale + 2 < -8192 || 8191 < latticePivot pivot scale + 2 ||
          latticeCount size pivot scale < 4 || 4092 < latticeCount size pivot scale ||
          (size.toNat + 3) * 65536 < latticeFirst pivot scale ||
          size.toNat + 4 - latticeFirst pivot scale / 65536 < 4 then some none
      else some (some {
        extent := Int32.ofInt (latticeCount size pivot scale) + 4
        center := Int32.ofInt (latticePivot pivot scale) + 2
        crop := Int32.ofInt (latticeFirst pivot scale / 65536)
        phase := Int32.ofInt (latticeFirst pivot scale % 65536)
        step := Int32.ofInt (deltaOf scale) }) := by
  obtain ⟨deltaLow, deltaHigh⟩ := deltaOf_bounds allowed.1 allowed.2
  obtain ⟨firstLow, firstHigh⟩ := latticeFirst_bounds pivot allowed
  have pivotSmall := abs_le.mp (abs_toInt_le pivot)
  have fits : ∀ value : ℤ, -2 ^ 55 ≤ value → value ≤ 2 ^ 55 → int64 value = some value :=
    fun value low high => int64_of_abs (abs_le.mpr ⟨by omega, by omega⟩)
  have pivotQuotient : |latticePivot pivot scale| ≤ 2 ^ 50 :=
    (Int.abs_ediv_le_abs _ _).trans (abs_le.mpr (by omega))
  rw [abs_le] at pivotQuotient
  have count : ((size.toNat + 3) * 65536 - latticeFirst pivot scale).tdiv (deltaOf scale) + 1 =
      latticeCount size pivot scale := by
    rw [Int.tdiv_eq_ediv_of_nonneg (by omega), latticeCount]
  have countBounds : 0 ≤ latticeCount size pivot scale ∧
      latticeCount size pivot scale ≤ 2 ^ 50 := by
    have nonneg : 0 ≤ ((size.toNat + 3) * 65536 - latticeFirst pivot scale) / deltaOf scale :=
      Int.ediv_nonneg (by omega) (by omega)
    have small : ((size.toNat + 3) * 65536 - latticeFirst pivot scale) / deltaOf scale ≤ 2 ^ 40 :=
      Int.ediv_le_of_le_mul (by omega) (by omega)
    unfold latticeCount
    omega
  have rowsFits := fits (size.toNat + 3) (by omega) (by omega)
  have edgeFits := fits ((size.toNat + 3) * 65536) (by omega) (by omega)
  have roomFits := fits ((size.toNat + 3) * 65536 - latticeFirst pivot scale) (by omega) (by omega)
  have countFits := fits (latticeCount size pivot scale) (by omega) (by omega)
  have centerFits := fits (latticePivot pivot scale + 2) (by omega) (by omega)
  have restFits := fits (size.toNat + 4 - latticeFirst pivot scale / 65536) (by omega) (by omega)
  simp only [spanAxis, Option.bind_eq_bind]
  rw [rowsFits, Option.bind_some, edgeFits, Option.bind_some, roomFits, Option.bind_some, count,
    countFits, Option.bind_some, centerFits, Option.bind_some,
    Int.tdiv_eq_ediv_of_nonneg firstLow, Int.tmod_eq_emod_of_nonneg firstLow, restFits,
    Option.bind_some]

/-- A lattice that starts beyond the padded image is refused. -/
theorem spanAxis_outside (sized : 4 ≤ size.toNat ∧ size.toNat ≤ 4092)
    (allowed : 16 ≤ scale.toInt ∧ scale.toInt ≤ 4096)
    (outside : (size.toNat + 3) * 65536 < latticeFirst pivot scale) :
    spanAxis size (deltaOf scale) (latticePivot pivot scale) (latticeFirst pivot scale) =
      some none := by
  obtain ⟨deltaLow, deltaHigh⟩ := deltaOf_bounds allowed.1 allowed.2
  obtain ⟨firstLow, firstHigh⟩ := latticeFirst_bounds pivot allowed
  have pivotSmall := abs_le.mp (abs_toInt_le pivot)
  have fits : ∀ value : ℤ, -2 ^ 55 ≤ value → value ≤ 2 ^ 55 → int64 value = some value :=
    fun value low high => int64_of_abs (abs_le.mpr ⟨by omega, by omega⟩)
  have pivotQuotient : |latticePivot pivot scale| ≤ 2 ^ 50 :=
    (Int.abs_ediv_le_abs _ _).trans (abs_le.mpr (by omega))
  rw [abs_le] at pivotQuotient
  have truncated := Int.natAbs_tdiv_le_natAbs
    ((size.toNat + 3) * 65536 - latticeFirst pivot scale) (deltaOf scale)
  have rowsFits := fits (size.toNat + 3) (by omega) (by omega)
  have edgeFits := fits ((size.toNat + 3) * 65536) (by omega) (by omega)
  have roomFits := fits ((size.toNat + 3) * 65536 - latticeFirst pivot scale) (by omega) (by omega)
  have countFits := fits
    (((size.toNat + 3) * 65536 - latticeFirst pivot scale).tdiv (deltaOf scale) + 1) (by omega)
    (by omega)
  have centerFits := fits (latticePivot pivot scale + 2) (by omega) (by omega)
  have restFits := fits (size.toNat + 4 - latticeFirst pivot scale / 65536) (by omega) (by omega)
  simp only [spanAxis, Option.bind_eq_bind]
  rw [rowsFits, Option.bind_some, edgeFits, Option.bind_some, roomFits, Option.bind_some,
    countFits, Option.bind_some, centerFits, Option.bind_some,
    Int.tdiv_eq_ediv_of_nonneg firstLow, restFits, Option.bind_some, if_pos]
  simp only [Bool.or_eq_true, decide_eq_true_eq]
  exact .inl (.inr outside)

theorem add_ofInt {value : ℤ} (small : |value| ≤ 2 ^ 20) (n : Int32) (little : |n.toInt| ≤ 2 ^ 20) :
    (Int32.ofInt value + n).toInt = value + n.toInt := by
  rw [abs_le] at small little
  have low : (Int32.ofInt value).toInt = value := toInt_ofInt ⟨by omega, by omega⟩
  rw [Int32.toInt_add, low]
  exact Int.bmod_eq_of_le (by omega) (by omega)

/-- An axis is refused or planned; its arithmetic never leaves 64 bits. -/
theorem planAxis_cases (size : UInt32) (pivot scale : Int32) :
    planAxis size pivot scale = some none ∨
      ∃ axis, planAxis size pivot scale = some (some axis) ∧ PlannedAxis size pivot scale axis := by
  by_cases ranges : (4 ≤ size.toNat ∧ size.toNat ≤ 4092) ∧ 16 ≤ scale.toInt ∧ scale.toInt ≤ 4096
  · obtain ⟨sized, allowed⟩ := ranges
    rw [planAxis_eq sized allowed]
    by_cases outside : (size.toNat + 3) * 65536 < latticeFirst pivot scale
    · exact .inl (spanAxis_outside sized allowed outside)
    · rw [not_lt] at outside
      obtain ⟨deltaLow, deltaHigh⟩ := deltaOf_bounds allowed.1 allowed.2
      obtain ⟨firstLow, firstHigh⟩ := latticeFirst_bounds pivot allowed
      rw [spanAxis_eq sized allowed outside]
      split
      · exact .inl rfl
      · rename_i guard
        simp only [Bool.or_eq_true, decide_eq_true_eq, not_or, not_lt] at guard
        obtain ⟨⟨⟨⟨⟨centerLow, centerHigh⟩, countLow⟩, countHigh⟩, _⟩, _⟩ := guard
        refine .inr ⟨_, rfl, sized, allowed, ?_, ?_, ?_, ?_, ?_, ⟨countLow, countHigh⟩, outside⟩
        · exact toInt_ofInt ⟨by omega, by omega⟩
        · exact toInt_ofInt ⟨by omega, by omega⟩
        · exact toInt_ofInt ⟨by omega, by omega⟩
        · exact add_ofInt (abs_le.mpr (by omega)) 2 (by decide)
        · exact add_ofInt (abs_le.mpr (by omega)) 4 (by decide)
  · have guard : (decide (size.toNat < 4) || decide (4092 < size.toNat) ||
        decide (scale.toInt < 16) || decide (4096 < scale.toInt)) = true := by
      simp only [Bool.or_eq_true, decide_eq_true_eq]
      omega
    refine .inl ?_
    simp only [planAxis, guard, if_true]

theorem PlannedAxis.sample_eq (planned : PlannedAxis size pivot scale axis) (k : ℤ) :
    axis.sample (k + 2) = latticeFirst pivot scale + k * deltaOf scale := by
  unfold AxisPlan.sample
  rw [planned.crop, planned.phase, planned.step, Int.ediv_mul_add_emod, add_sub_cancel_right]

/-- An output of the scaler is exactly a lattice coordinate inside the padded image. -/
theorem PlannedAxis.inside_iff (planned : PlannedAxis size pivot scale axis) (k : ℤ) :
    (0 ≤ axis.sample (k + 2) ∧ axis.sample (k + 2) ≤ (size.toNat + 3) * 65536) ↔
      0 ≤ k ∧ k ≤ axis.extent.toInt - 5 := by
  obtain ⟨firstLow, firstHigh⟩ := latticeFirst_bounds pivot planned.allowed
  have positive : 0 < deltaOf scale := by
    have low := (deltaOf_bounds planned.allowed.1 planned.allowed.2).1
    omega
  have before : 0 ≤ latticeFirst pivot scale + k * deltaOf scale ↔ 0 ≤ k := by
    constructor
    · intro nonneg
      by_contra negative
      have short : k * deltaOf scale ≤ -1 * deltaOf scale :=
        mul_le_mul_of_nonneg_right (by omega) positive.le
      omega
    · intro nonneg
      exact add_nonneg firstLow (mul_nonneg nonneg positive.le)
  have after : latticeFirst pivot scale + k * deltaOf scale ≤ (size.toNat + 3) * 65536 ↔
      k ≤ axis.extent.toInt - 5 := by
    have quotient := Int.le_ediv_iff_mul_le (a := k)
      (b := (size.toNat + 3) * 65536 - latticeFirst pivot scale) positive
    rw [planned.extent, latticeCount]
    omega
  rw [planned.sample_eq, before, after]

end

/-- One axis of a plan: its lattice goes through the padded pivot, and its outputs are all the
points of the lattice on the padded image. -/
structure ExactAxis (size : UInt32) (pivot scale : Int32) (axis : AxisPlan) : Prop where
  samples : ∀ k : ℤ, axis.sample (k + 2) =
    axis.crop.toInt * 65536 + axis.phase.toInt + k * (16777216 / scale.toInt)
  pivot : axis.sample axis.center.toInt = (pivot.toInt + 2) * 65536
  outputs : {c | ∃ k : ℤ, 0 ≤ k ∧ k ≤ axis.extent.toInt - 5 ∧ c = axis.sample (k + 2)} =
    {c | (∃ k : ℤ, c = axis.sample (k + 2)) ∧ 0 ≤ c ∧ c ≤ (size.toNat + 3) * 65536}
  extent : 4 ≤ axis.extent.toInt ∧ axis.extent.toInt ≤ 4096

section
variable {size w h budget : UInt32} {pivot scale : Int32} {axis : AxisPlan} {dsc : ImageDsc}
  {plan next : TransformPlan}

theorem PlannedAxis.exactAxis (planned : PlannedAxis size pivot scale axis) :
    ExactAxis size pivot scale axis := by
  refine ⟨?_, ?_, ?_, ?_⟩
  · intro k
    unfold AxisPlan.sample
    rw [planned.step, add_sub_cancel_right, deltaOf]
  · have whole := lattice_pivot pivot scale
    rw [planned.center, planned.sample_eq]
    omega
  · ext c
    constructor
    · rintro ⟨k, nonneg, inside, rfl⟩
      exact ⟨⟨k, rfl⟩, (planned.inside_iff k).mpr ⟨nonneg, inside⟩⟩
    · rintro ⟨⟨k, rfl⟩, bounds⟩
      obtain ⟨nonneg, inside⟩ := (planned.inside_iff k).mp bounds
      exact ⟨k, nonneg, inside, rfl⟩
  · have count := planned.count
    rw [planned.extent]
    omega

/-! ## Strides and byte counts -/

theorem toUInt32_toNat {width : Int32} (nonneg : 0 ≤ width.toInt) :
    (width.toUInt32.toNat : ℤ) = width.toInt := by
  rw [Int32.toNat_toUInt32_of_le (Int32.le_iff_toInt_le.mpr nonneg), Int32.toNatClampNeg]
  exact Int.toNat_of_nonneg nonneg

theorem rowStride_eq (width : Int32) (nonneg : 0 ≤ width.toInt) (small : width.toInt ≤ 4096) :
    ((rowStride width).toNat : ℤ) = (width.toInt * 4 + 63) / 64 * 64 := by
  have unsigned := toUInt32_toNat nonneg
  have sum : (width.toUInt32 * 4 + 63).toNat = width.toUInt32.toNat * 4 + 63 := by
    rw [UInt32.toNat_add, UInt32.toNat_mul]
    change (width.toUInt32.toNat * 4 % 2 ^ 32 + 63) % 2 ^ 32 = _
    omega
  have mask : (~~~(63 : UInt32)).toNat = 2 ^ 32 - 1 - (2 ^ 6 - 1) := by decide
  unfold rowStride
  rw [UInt32.toNat_and, mask, sum, and_clear (by omega) (by decide)]
  omega

theorem mul_toNat {stride : UInt32} {rows : Int32} (nonneg : 0 ≤ rows.toInt)
    (small : rows.toInt ≤ 4096) (short : stride.toNat ≤ 16384) :
    ((stride * rows.toUInt32).toNat : ℤ) = stride.toNat * rows.toInt := by
  have unsigned := toUInt32_toNat nonneg
  have product : stride.toNat * rows.toUInt32.toNat ≤ 16384 * 4096 :=
    Nat.mul_le_mul short (by omega)
  rw [UInt32.toNat_mul, Nat.mod_eq_of_lt (by omega), ← unsigned]
  push_cast
  rfl

theorem toInt32_toInt {value : UInt32} (small : value.toNat < 2 ^ 31) :
    value.toInt32.toInt = value.toNat := by
  change value.toBitVec.toInt = _
  rw [BitVec.toInt_eq_toNat_of_lt]
  · rfl
  · change 2 * value.toNat < 2 ^ 32
    omega

theorem padded_toInt (small : size.toNat ≤ 4092) : (size + 4).toInt32.toInt = size.toNat + 4 := by
  have sum : (size + 4).toNat = size.toNat + 4 := by
    rw [UInt32.toNat_add]
    change (size.toNat + 4) % 2 ^ 32 = _
    omega
  rw [toInt32_toInt (by omega), sum, Nat.cast_add, Nat.cast_ofNat]

end

/-- The two scratch buffers of a plan hold their rows and fit the budget. -/
structure ScratchFits (w h budget : UInt32) (plan : TransformPlan) : Prop where
  padded : plan.paddedW.toInt = w.toNat + 4 ∧ plan.paddedH.toInt = h.toNat + 4 ∧
    plan.paddedW.toInt ≤ 4096 ∧ plan.paddedH.toInt ≤ 4096
  paddedStride : (plan.paddedStride.toNat : ℤ) = (plan.paddedW.toInt * 4 + 63) / 64 * 64
  scaledStride : (plan.scaledStride.toNat : ℤ) = (plan.x.extent.toInt * 4 + 63) / 64 * 64
  paddedRow : plan.paddedW.toInt * 4 ≤ plan.paddedStride.toNat
  scaledRow : plan.x.extent.toInt * 4 ≤ plan.scaledStride.toNat
  paddedBytes : (plan.paddedBytes.toNat : ℤ) = plan.paddedStride.toNat * plan.paddedH.toInt
  scaledBytes : (plan.scaledBytes.toNat : ℤ) = plan.scaledStride.toNat * plan.y.extent.toInt
  budget : plan.paddedBytes.toNat + plan.scaledBytes.toNat ≤ budget.toNat

section
variable {w h budget : UInt32} {dsc : ImageDsc} {x y : AxisPlan}

theorem buildPlan_fits (plannedX : PlannedAxis w dsc.pivot.x dsc.scaleX x)
    (plannedY : PlannedAxis h dsc.pivot.y dsc.scaleY y)
    (within : (buildPlan w h x y).paddedBytes.toNat + (buildPlan w h x y).scaledBytes.toNat ≤
      budget.toNat) : ScratchFits w h budget (buildPlan w h x y) := by
  have wide := padded_toInt plannedX.sized.2
  have high := padded_toInt plannedY.sized.2
  have sizedX := plannedX.sized
  have sizedY := plannedY.sized
  have extentX := plannedX.exactAxis.extent
  have extentY := plannedY.exactAxis.extent
  have paddedRow := rowStride_eq (w + 4).toInt32 (by omega) (by omega)
  have scaledRow := rowStride_eq x.extent (by omega) (by omega)
  refine ⟨⟨wide, high, ?_, ?_⟩, paddedRow, scaledRow, ?_, ?_, ?_, ?_, within⟩
  · change (w + 4).toInt32.toInt ≤ 4096
    omega
  · change (h + 4).toInt32.toInt ≤ 4096
    omega
  · change (w + 4).toInt32.toInt * 4 ≤ ((rowStride (w + 4).toInt32).toNat : ℤ)
    omega
  · change x.extent.toInt * 4 ≤ ((rowStride x.extent).toNat : ℤ)
    omega
  · exact mul_toNat (by omega) (by omega) (by omega)
  · exact mul_toNat (by omega) (by omega) (by omega)

end

/-- A plan samples, on each axis, exactly the lattice through the pivot that lies on the padded
image, into buffers that hold it; a refused plan is left alone. -/
theorem transform_plan_exact (w h : UInt32) (dsc : ImageDsc) (budget : UInt32)
    (plan : TransformPlan) :
    ∃ accepted next, transformPlan w h dsc budget plan = some (accepted, next) ∧
      (accepted = false → next = plan) ∧
      (accepted = true → ExactAxis w dsc.pivot.x dsc.scaleX next.x ∧
        ExactAxis h dsc.pivot.y dsc.scaleY next.y ∧ ScratchFits w h budget next) := by
  unfold transformPlan
  split
  · exact ⟨false, plan, rfl, fun _ => rfl, nofun⟩
  · rcases planAxis_cases w dsc.pivot.x dsc.scaleX with refused | ⟨x, foundX, plannedX⟩
    · rw [refused]
      exact ⟨false, plan, rfl, fun _ => rfl, nofun⟩
    · rcases planAxis_cases h dsc.pivot.y dsc.scaleY with refused | ⟨y, foundY, plannedY⟩
      · rw [foundX, refused]
        exact ⟨false, plan, rfl, fun _ => rfl, nofun⟩
      · rw [foundX, foundY]
        dsimp only [Option.bind_eq_bind, Option.bind_some]
        split
        · exact ⟨false, plan, rfl, fun _ => rfl, nofun⟩
        · rename_i within
          refine ⟨true, _, rfl, nofun, fun _ => ⟨plannedX.exactAxis, plannedY.exactAxis, ?_⟩⟩
          exact buildPlan_fits plannedX plannedY (by omega)

end LvglAic.Ge2d
