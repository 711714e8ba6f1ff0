import LvglAic.Ge2d.Rotation

/-! # Scaling with a right-angle rotation (`lv_draw_aic_ge2d_rotate.c`)

The crop starts at the exact coordinate of the clip's nearest corner, rounded
down, while the engine advances from there by the truncated step.
-/

namespace LvglAic.Ge2d

open LvglAic.Machine

structure ScaledCrop where
  src : Area
  flags : MppRotation
  phaseX : Int32
  phaseY : Int32
deriving DecidableEq, Repr

def floorDivPos (numerator : ℤ) (denominator : UInt32) : Option ℤ :=
  if 0 ≤ numerator then some (numerator.tdiv denominator.toNat)
  else do
    let positive ← int64 (-numerator)
    let raised ← int64 (positive + denominator.toNat)
    let raised ← int64 (raised - 1)
    int64 (-raised.tdiv denominator.toNat)

/-- The distances of a destination pixel from the pivot along the source axes. -/
def turnedDistance (flags : MppRotation) (dx dy : ℤ) : Option (ℤ × ℤ) :=
  match flags with
  | .rotation0 => some (dx, dy)
  | .rotation90 => do
      let left ← int64 (-dx)
      some (dy, left)
  | .rotation180 => do
      let left ← int64 (-dx)
      let up ← int64 (-dy)
      some (left, up)
  | .rotation270 => do
      let up ← int64 (-dy)
      some (up, dx)

def scaledAxis (pivot : Int32) (distance : ℤ) (scale : UInt32) : Option ℤ := do
  let numerator ← int64 (distance * 65536)
  let quotient ← floorDivPos numerator scale
  let center ← int64 (pivot.toInt * 65536)
  int64 (center + quotient)

def scaledCorner (flags : MppRotation) (pivot : Point) (scaleX scaleY : UInt32) (x y : ℤ) :
    Option (ℤ × ℤ) := do
  let px ← int64 (pivot.x.toInt * 256)
  let py ← int64 (pivot.y.toInt * 256)
  let u ← int64 (x * 256)
  let v ← int64 (y * 256)
  let dx ← int64 (u - px)
  let dy ← int64 (v - py)
  let distance ← turnedDistance flags dx dy
  let sourceX ← scaledAxis pivot.x distance.1 scaleX
  let sourceY ← scaledAxis pivot.y distance.2 scaleY
  some (sourceX, sourceY)

/-- The pixel of the last sample, rounded up, within the source. -/
def lastPixel (size : UInt32) (coordinate : ℤ) : Option Int32 := do
  let raised ← int64 (coordinate + 65535)
  let pixel := Int32.ofInt (raised.tdiv 65536)
  some (if size.toNat ≤ pixel.toInt then Int32.ofInt (size.toNat - 1) else pixel)

/-- The second half of `rotationScaleCrop`: the box of the corners against the source. -/
def scaledCropOf (srcW srcH : UInt32) (flags : MppRotation) (box : Box) :
    Option (Option ScaledCrop) :=
  if box.x1 < 0 || box.y1 < 0 || srcW.toNat * 65536 ≤ box.x2 || srcH.toNat * 65536 ≤ box.y2 then
    some none
  else do
    let x1 := Int32.ofInt (box.x1.tdiv 65536)
    let y1 := Int32.ofInt (box.y1.tdiv 65536)
    let x2 ← lastPixel srcW box.x2
    let y2 ← lastPixel srcH box.y2
    if 3 ≤ x2.toInt - x1.toInt && 3 ≤ y2.toInt - y1.toInt then
      some (some {
        src := { x1 := x1, y1 := y1, x2 := x2, y2 := y2 }
        flags := flags
        phaseX := Int32.ofInt ((Int32.ofInt box.x1).toInt % 65536)
        phaseY := Int32.ofInt ((Int32.ofInt box.y1).toInt % 65536) })
    else some none

def sizeAllowed (size : ℤ) : Bool := 4 ≤ size && size ≤ 4096

def scaleAllowed (scale : UInt32) : Bool := 16 ≤ scale.toNat && scale.toNat ≤ 4096

def rotationScaleCrop (srcW srcH : UInt32) (dst : Area) (pivot : Point) (rotation : Int32)
    (scaleX scaleY : UInt32) : Option (Option ScaledCrop) :=
  if !sizeAllowed srcW.toNat || !sizeAllowed srcH.toNat || dst.x2.toInt < dst.x1.toInt ||
      dst.y2.toInt < dst.y1.toInt || !sizeAllowed dst.width || !sizeAllowed dst.height ||
      !scaleAllowed scaleX || !scaleAllowed scaleY then some none
  else
    match rotationFlags rotation with
    | none => some none
    | some flags => do
        let c0 ← scaledCorner flags pivot scaleX scaleY (dst.corner 0).1 (dst.corner 0).2
        let c1 ← scaledCorner flags pivot scaleX scaleY (dst.corner 1).1 (dst.corner 1).2
        let c2 ← scaledCorner flags pivot scaleX scaleY (dst.corner 2).1 (dst.corner 2).2
        let c3 ← scaledCorner flags pivot scaleX scaleY (dst.corner 3).1 (dst.corner 3).2
        scaledCropOf srcW srcH flags (boxOf ![c0, c1, c2, c3])

/-! ## The exact inverse mapping -/

/-- The coordinate of a source position before scaling, rounded down. -/
def exactCoordinate (pivot : Int32) (scale : UInt32) (position : ℤ) : ℤ :=
  pivot.toInt * 65536 + (position - pivot.toInt) * 16777216 / scale.toNat

def exactSource (flags : MppRotation) (pivot : Point) (scaleX scaleY : UInt32) (p : ℤ × ℤ) :
    ℤ × ℤ :=
  (exactCoordinate pivot.x scaleX (unrotate flags pivot p).1,
    exactCoordinate pivot.y scaleY (unrotate flags pivot p).2)

section
variable {pivot : Point} {flags : MppRotation} {scaleX scaleY scale : UInt32} {x y : ℤ}
  {center : Int32} {srcW srcH : UInt32} {dst : Area} {rotation : Int32}

theorem scaleAllowed_iff : scaleAllowed scale = true ↔ 16 ≤ scale.toNat ∧ scale.toNat ≤ 4096 := by
  simp only [scaleAllowed, Bool.and_eq_true, decide_eq_true_eq]

theorem floorDivPos_eq {numerator : ℤ} (allowed : 16 ≤ scale.toNat ∧ scale.toNat ≤ 4096)
    (small : |numerator| ≤ 2 ^ 58) :
    floorDivPos numerator scale = some (numerator / scale.toNat) := by
  have positive : (0 : ℤ) < scale.toNat := by omega
  have equation := floorDiv_eq numerator positive
  rw [abs_le] at small
  unfold floorDivPos
  split at equation
  · rename_i nonneg
    rw [if_pos nonneg, equation]
  · rename_i negative
    rw [if_neg negative]
    have opposite := int64_of_range (-numerator) (by omega) (by omega)
    have raised := int64_of_range (-numerator + scale.toNat) (by omega) (by omega)
    have lowered := int64_of_range (-numerator + scale.toNat - 1) (by omega) (by omega)
    have quotientSmall : |numerator / (scale.toNat : ℤ)| ≤ 2 ^ 58 :=
      (Int.abs_ediv_le_abs _ _).trans (abs_le.mpr small)
    simp only [Option.bind_eq_bind, opposite, raised, lowered, Option.bind_some, equation]
    exact int64_of_abs (quotientSmall.trans (by norm_num))

theorem scaledAxis_eq {distance : ℤ} (allowed : 16 ≤ scale.toNat ∧ scale.toNat ≤ 4096)
    (small : |distance| ≤ 2 ^ 34) :
    scaledAxis center (distance * 256) scale =
      some (exactCoordinate center scale (center.toInt + distance)) := by
  have centerSmall := abs_le.mp (abs_toInt_le center)
  rw [abs_le] at small
  have numeratorSmall : |distance * 256 * 65536| ≤ 2 ^ 58 := abs_le.mpr (by omega)
  have numerator := int64_of_abs (numeratorSmall.trans (by norm_num))
  have quotient := floorDivPos_eq allowed numeratorSmall
  have origin := int64_of_range (center.toInt * 65536) (by omega) (by omega)
  have quotientSmall : |distance * 256 * 65536 / (scale.toNat : ℤ)| ≤ 2 ^ 58 :=
    (Int.abs_ediv_le_abs _ _).trans numeratorSmall
  rw [abs_le] at quotientSmall
  have total := int64_of_range
    (center.toInt * 65536 + distance * 256 * 65536 / (scale.toNat : ℤ)) (by omega) (by omega)
  simp only [scaledAxis, Option.bind_eq_bind, numerator, Option.bind_some, quotient, origin, total,
    exactCoordinate, add_sub_cancel_left]
  rw [mul_assoc]
  rfl

/-- The corner formulas are the exact inverse mapping: nothing leaves 64 bits. -/
theorem scaledCorner_eq (allowedX : 16 ≤ scaleX.toNat ∧ scaleX.toNat ≤ 4096)
    (allowedY : 16 ≤ scaleY.toNat ∧ scaleY.toNat ≤ 4096) (xSmall : |x| ≤ 2 ^ 31)
    (ySmall : |y| ≤ 2 ^ 31) :
    scaledCorner flags pivot scaleX scaleY x y =
      some (exactSource flags pivot scaleX scaleY (x, y)) := by
  have pivotX := abs_le.mp (abs_toInt_le pivot.x)
  have pivotY := abs_le.mp (abs_toInt_le pivot.y)
  rw [abs_le] at xSmall ySmall
  have fits : ∀ value : ℤ, -2 ^ 50 ≤ value → value ≤ 2 ^ 50 → int64 value = some value :=
    fun value low high => int64_of_abs (abs_le.mpr ⟨by omega, by omega⟩)
  have turned : turnedDistance flags (x * 256 - pivot.x.toInt * 256)
      (y * 256 - pivot.y.toInt * 256) =
      some (((unrotate flags pivot (x, y)).1 - pivot.x.toInt) * 256,
        ((unrotate flags pivot (x, y)).2 - pivot.y.toInt) * 256) := by
    rw [unrotate_eq]
    cases flags with
    | rotation0 =>
        simp only [turnedDistance, Option.some.injEq, Prod.mk.injEq]
        omega
    | rotation90 =>
        simp only [turnedDistance, Option.bind_eq_bind, fits _ (show -2 ^ 50 ≤
          -(x * 256 - pivot.x.toInt * 256) by omega) (by omega), Option.bind_some,
          Option.some.injEq, Prod.mk.injEq]
        omega
    | rotation180 =>
        simp only [turnedDistance, Option.bind_eq_bind, fits _ (show -2 ^ 50 ≤
          -(x * 256 - pivot.x.toInt * 256) by omega) (by omega), fits _ (show -2 ^ 50 ≤
          -(y * 256 - pivot.y.toInt * 256) by omega) (by omega), Option.bind_some,
          Option.some.injEq, Prod.mk.injEq]
        omega
    | rotation270 =>
        simp only [turnedDistance, Option.bind_eq_bind, fits _ (show -2 ^ 50 ≤
          -(y * 256 - pivot.y.toInt * 256) by omega) (by omega), Option.bind_some,
          Option.some.injEq, Prod.mk.injEq]
        omega
  have distanceX : |(unrotate flags pivot (x, y)).1 - pivot.x.toInt| ≤ 2 ^ 34 := by
    rw [unrotate_eq, abs_le]
    cases flags <;> dsimp only <;> omega
  have distanceY : |(unrotate flags pivot (x, y)).2 - pivot.y.toInt| ≤ 2 ^ 34 := by
    rw [unrotate_eq, abs_le]
    cases flags <;> dsimp only <;> omega
  simp only [scaledCorner, Option.bind_eq_bind, Option.bind_some, turned,
    fits _ (show -2 ^ 50 ≤ pivot.x.toInt * 256 by omega) (by omega),
    fits _ (show -2 ^ 50 ≤ pivot.y.toInt * 256 by omega) (by omega),
    fits _ (show -2 ^ 50 ≤ x * 256 by omega) (by omega),
    fits _ (show -2 ^ 50 ≤ y * 256 by omega) (by omega),
    fits _ (show -2 ^ 50 ≤ x * 256 - pivot.x.toInt * 256 by omega) (by omega),
    fits _ (show -2 ^ 50 ≤ y * 256 - pivot.y.toInt * 256 by omega) (by omega),
    scaledAxis_eq allowedX distanceX, scaledAxis_eq allowedY distanceY, add_sub_cancel, exactSource]

theorem exactCoordinate_mono (allowed : 16 ≤ scale.toNat ∧ scale.toNat ≤ 4096) :
    Monotone (exactCoordinate center scale) := by
  intro position later order
  unfold exactCoordinate
  have quotient : (position - center.toInt) * 16777216 / (scale.toNat : ℤ) ≤
      (later - center.toInt) * 16777216 / scale.toNat :=
    Int.ediv_le_ediv (by omega) (by omega)
  omega

theorem fold4_map {f : ℤ → ℤ} (mono : Monotone f) (values : Fin 4 → ℤ) :
    fold4 min (fun i => f (values i)) = f (fold4 min values) ∧
      fold4 max (fun i => f (values i)) = f (fold4 max values) := by
  unfold fold4
  rw [mono.map_min, mono.map_min, mono.map_min, mono.map_max, mono.map_max, mono.map_max]
  exact ⟨rfl, rfl⟩

/-- Scaling commutes with taking the box of the corners. -/
def scaledBox (flags : MppRotation) (pivot : Point) (scaleX scaleY : UInt32) (dst : Area) : Box where
  x1 := exactCoordinate pivot.x scaleX (cornerBox flags pivot dst).x1
  x2 := exactCoordinate pivot.x scaleX (cornerBox flags pivot dst).x2
  y1 := exactCoordinate pivot.y scaleY (cornerBox flags pivot dst).y1
  y2 := exactCoordinate pivot.y scaleY (cornerBox flags pivot dst).y2

theorem boxOf_exactSource (allowedX : 16 ≤ scaleX.toNat ∧ scaleX.toNat ≤ 4096)
    (allowedY : 16 ≤ scaleY.toNat ∧ scaleY.toNat ≤ 4096) :
    boxOf (fun i => exactSource flags pivot scaleX scaleY (dst.corner i)) =
      scaledBox flags pivot scaleX scaleY dst := by
  unfold boxOf scaledBox cornerBox
  simp only [exactSource, boxOf, (fold4_map (exactCoordinate_mono allowedX) _).1,
    (fold4_map (exactCoordinate_mono allowedX) _).2, (fold4_map (exactCoordinate_mono allowedY) _).1,
    (fold4_map (exactCoordinate_mono allowedY) _).2]

end

/-- One source axis of an accepted crop: its first and last coordinate lie inside the source. -/
structure CropAxis (size : UInt32) (low high : ℤ) (first last phase : Int32) : Prop where
  nonneg : 0 ≤ low
  inside : high < size.toNat * 65536
  first : first.toInt = low / 65536
  phase : phase.toInt = low % 65536
  last : last.toInt = min ((high + 65535) / 65536) (size.toNat - 1)

/-- What an accepted crop says of its clip. -/
structure ClipCrop (srcW srcH : UInt32) (dst : Area) (pivot : Point) (rotation : Int32)
    (scaleX scaleY : UInt32) (crop : ScaledCrop) : Prop where
  flags : rotationFlags rotation = some crop.flags
  nonempty : dst.Nonempty
  allowedX : 16 ≤ scaleX.toNat ∧ scaleX.toNat ≤ 4096
  allowedY : 16 ≤ scaleY.toNat ∧ scaleY.toNat ≤ 4096
  width : 4 ≤ dst.width ∧ dst.width ≤ 4096
  height : 4 ≤ dst.height ∧ dst.height ≤ 4096
  across : CropAxis srcW (scaledBox crop.flags pivot scaleX scaleY dst).x1
    (scaledBox crop.flags pivot scaleX scaleY dst).x2 crop.src.x1 crop.src.x2 crop.phaseX
  down : CropAxis srcH (scaledBox crop.flags pivot scaleX scaleY dst).y1
    (scaledBox crop.flags pivot scaleX scaleY dst).y2 crop.src.y1 crop.src.y2 crop.phaseY

section
variable {pivot : Point} {flags : MppRotation} {scaleX scaleY scale : UInt32}
  {srcW srcH size : UInt32} {dst : Area} {rotation : Int32} {crop : ScaledCrop} {low high : ℤ}

theorem sizeAllowed_iff {value : ℤ} : sizeAllowed value = true ↔ 4 ≤ value ∧ value ≤ 4096 := by
  simp only [sizeAllowed, Bool.and_eq_true, decide_eq_true_eq]

theorem lastPixel_eq (allowed : 4 ≤ size.toNat ∧ size.toNat ≤ 4096) (nonneg : 0 ≤ high)
    (inside : high < size.toNat * 65536) :
    ∃ pixel, lastPixel size high = some pixel ∧
      pixel.toInt = min ((high + 65535) / 65536) (size.toNat - 1) := by
  have raised := int64_of_range (high + 65535) (by omega) (by omega)
  have pixel : (Int32.ofInt ((high + 65535) / 65536)).toInt = (high + 65535) / 65536 :=
    toInt_ofInt ⟨by omega, by omega⟩
  have edge : (Int32.ofInt ((size.toNat : ℤ) - 1)).toInt = size.toNat - 1 :=
    toInt_ofInt ⟨by omega, by omega⟩
  refine ⟨_, by
    simp only [lastPixel, Option.bind_eq_bind, raised, Option.bind_some,
      Int.tdiv_eq_ediv_of_nonneg (show 0 ≤ high + 65535 by omega)]
    rfl, ?_⟩
  rw [pixel]
  split
  · rw [edge]
    omega
  · rw [pixel]
    omega

theorem CropAxis.of_bounds (allowed : 4 ≤ size.toNat ∧ size.toNat ≤ 4096) (nonneg : 0 ≤ low)
    (order : low ≤ high) (inside : high < size.toNat * 65536) {pixel : Int32}
    (last : pixel.toInt = min ((high + 65535) / 65536) (size.toNat - 1)) :
    CropAxis size low high (Int32.ofInt (low.tdiv 65536)) pixel
      (Int32.ofInt ((Int32.ofInt low).toInt % 65536)) := by
  have narrow : (Int32.ofInt low).toInt = low := toInt_ofInt ⟨by omega, by omega⟩
  refine ⟨nonneg, inside, ?_, ?_, last⟩
  · rw [Int.tdiv_eq_ediv_of_nonneg nonneg]
    exact toInt_ofInt ⟨by omega, by omega⟩
  · rw [narrow]
    exact toInt_ofInt ⟨by omega, by omega⟩

theorem scaledCropOf_accepted {box : Box} (wide : 4 ≤ srcW.toNat ∧ srcW.toNat ≤ 4096)
    (high : 4 ≤ srcH.toNat ∧ srcH.toNat ≤ 4096) (across : box.x1 ≤ box.x2)
    (down : box.y1 ≤ box.y2) (accepted : scaledCropOf srcW srcH flags box = some (some crop)) :
    crop.flags = flags ∧ CropAxis srcW box.x1 box.x2 crop.src.x1 crop.src.x2 crop.phaseX ∧
      CropAxis srcH box.y1 box.y2 crop.src.y1 crop.src.y2 crop.phaseY := by
  unfold scaledCropOf at accepted
  split at accepted
  · cases Option.some.inj accepted
  · rename_i guard
    simp only [Bool.or_eq_true, decide_eq_true_eq, not_or, not_lt, not_le] at guard
    obtain ⟨⟨⟨left, top⟩, right⟩, bottom⟩ := guard
    obtain ⟨x2, lastX, atX⟩ := lastPixel_eq wide (left.trans across) right
    obtain ⟨y2, lastY, atY⟩ := lastPixel_eq high (top.trans down) bottom
    simp only [Option.bind_eq_bind, lastX, lastY, Option.bind_some] at accepted
    split at accepted
    · cases accepted
      exact ⟨rfl, .of_bounds wide left across right atX, .of_bounds high top down bottom atY⟩
    · cases Option.some.inj accepted

theorem rotationScaleCrop_accepted
    (accepted : rotationScaleCrop srcW srcH dst pivot rotation scaleX scaleY = some (some crop)) :
    (4 ≤ srcW.toNat ∧ srcW.toNat ≤ 4096) ∧ (4 ≤ srcH.toNat ∧ srcH.toNat ≤ 4096) ∧
      ClipCrop srcW srcH dst pivot rotation scaleX scaleY crop := by
  unfold rotationScaleCrop at accepted
  split at accepted
  · cases Option.some.inj accepted
  · rename_i guard
    simp only [Bool.or_eq_true, Bool.not_eq_true', ← Bool.not_eq_true, sizeAllowed_iff,
      scaleAllowed_iff, decide_eq_true_eq, not_or, not_not, not_lt] at guard
    obtain ⟨⟨⟨⟨⟨⟨⟨wide, high⟩, acrossOk⟩, downOk⟩, width⟩, height⟩, allowedX⟩, allowedY⟩ := guard
    have sourceWide : 4 ≤ srcW.toNat ∧ srcW.toNat ≤ 4096 := by omega
    have sourceHigh : 4 ≤ srcH.toNat ∧ srcH.toNat ≤ 4096 := by omega
    split at accepted
    · cases Option.some.inj accepted
    · rename_i flags known
      have corner : ∀ i, scaledCorner flags pivot scaleX scaleY (dst.corner i).1 (dst.corner i).2 =
          some (exactSource flags pivot scaleX scaleY (dst.corner i)) := fun i =>
        scaledCorner_eq allowedX allowedY (corner_small dst i).1 (corner_small dst i).2
      have box : boxOf ![exactSource flags pivot scaleX scaleY (dst.corner 0),
          exactSource flags pivot scaleX scaleY (dst.corner 1),
          exactSource flags pivot scaleX scaleY (dst.corner 2),
          exactSource flags pivot scaleX scaleY (dst.corner 3)] =
          scaledBox flags pivot scaleX scaleY dst := boxOf_exactSource allowedX allowedY
      simp only [Option.bind_eq_bind, corner, Option.bind_some, box] at accepted
      obtain ⟨acrossBox, downBox⟩ := cornerBox_nonempty flags pivot
        (show dst.Nonempty from ⟨acrossOk, downOk⟩)
      obtain ⟨rfl, across, down⟩ := scaledCropOf_accepted sourceWide sourceHigh
        (exactCoordinate_mono allowedX acrossBox) (exactCoordinate_mono allowedY downBox) accepted
      exact ⟨sourceWide, sourceHigh, known, ⟨acrossOk, downOk⟩, allowedX, allowedY, width, height,
        across, down⟩

end

/-! ## Two clips of one draw -/

/-- How far a pixel lies, along each source axis, from the edge of its clip with the smallest
source coordinate. -/
def outputIndex (flags : MppRotation) (dst : Area) (p : ℤ × ℤ) : ℤ × ℤ :=
  match flags with
  | .rotation0 => (p.1 - dst.x1.toInt, p.2 - dst.y1.toInt)
  | .rotation90 => (p.2 - dst.y1.toInt, dst.x2.toInt - p.1)
  | .rotation180 => (dst.x2.toInt - p.1, dst.y2.toInt - p.2)
  | .rotation270 => (dst.y2.toInt - p.2, p.1 - dst.x1.toInt)

/-- The outputs along each source axis. -/
def outputCounts (flags : MppRotation) (dst : Area) : ℤ × ℤ :=
  if flags.quarters % 2 = 0 then (dst.width, dst.height) else (dst.height, dst.width)

/-- The signed distance from the pivot, along each source axis, of the edge of a clip with the
smallest source coordinate. -/
def nearDistance (flags : MppRotation) (pivot : Point) (dst : Area) : ℤ × ℤ :=
  match flags with
  | .rotation0 => (dst.x1.toInt - pivot.x.toInt, dst.y1.toInt - pivot.y.toInt)
  | .rotation90 => (dst.y1.toInt - pivot.y.toInt, pivot.x.toInt - dst.x2.toInt)
  | .rotation180 => (pivot.x.toInt - dst.x2.toInt, pivot.y.toInt - dst.y2.toInt)
  | .rotation270 => (pivot.y.toInt - dst.y2.toInt, dst.x1.toInt - pivot.x.toInt)

/-- Where the engine samples output `i` of an axis. -/
def axisSample (first phase : Int32) (scale : UInt32) (i : ℤ) : ℤ :=
  first.toInt * 65536 + phase.toInt + i * (16777216 / scale.toNat)

/-- The source coordinates of a destination pixel. -/
def ScaledCrop.sample (crop : ScaledCrop) (dst : Area) (scaleX scaleY : UInt32) (p : ℤ × ℤ) :
    ℤ × ℤ :=
  (axisSample crop.src.x1 crop.phaseX scaleX (outputIndex crop.flags dst p).1,
    axisSample crop.src.y1 crop.phaseY scaleY (outputIndex crop.flags dst p).2)

/-- The crop of an axis goes one pixel beyond the last sample, or to the source edge. -/
def ReachesTap (size : UInt32) (first last phase : Int32) (scale : UInt32) (outputs : ℤ) : Prop :=
  (axisSample first phase scale (outputs - 1) + 65535) / 65536 + 1 ≤ last.toInt ∨
    last.toInt = size.toNat - 1

def ScaledCrop.Reaches (crop : ScaledCrop) (srcW srcH : UInt32) (dst : Area)
    (scaleX scaleY : UInt32) : Prop :=
  ReachesTap srcW crop.src.x1 crop.src.x2 crop.phaseX scaleX (outputCounts crop.flags dst).1 ∧
    ReachesTap srcH crop.src.y1 crop.src.y2 crop.phaseY scaleY (outputCounts crop.flags dst).2

/-- What the truncated steps have lost at a distance from the pivot. -/
def pivotCarry (scale : UInt32) (distance : ℤ) : ℤ := carry 16777216 scale.toNat distance

/-- The far sample lies in the last column, or the truncated steps fall behind it by more than
its overhang over a pixel. -/
def TapRoom (size : UInt32) (pivot : Int32) (scale : UInt32) (near outputs : ℤ) : Prop :=
  (size.toNat : ℤ) - 1 ≤ (pivot.toInt * 65536 +
      (near + (outputs - 1)) * 16777216 / scale.toNat + 65535) / 65536 ∨
    (pivot.toInt * 65536 + (near + (outputs - 1)) * 16777216 / scale.toNat - 1) % 65536 <
      pivotCarry scale (near + (outputs - 1)) - pivotCarry scale near

def ClipRoom (srcW srcH : UInt32) (flags : MppRotation) (pivot : Point) (scaleX scaleY : UInt32)
    (dst : Area) : Prop :=
  TapRoom srcW pivot.x scaleX (nearDistance flags pivot dst).1 (outputCounts flags dst).1 ∧
    TapRoom srcH pivot.y scaleY (nearDistance flags pivot dst).2 (outputCounts flags dst).2

section
variable {pivot : Point} {center : Int32} {flags : MppRotation} {scaleX scaleY scale : UInt32}
  {srcW srcH size : UInt32} {dst other : Area} {rotation : Int32} {crop : ScaledCrop}
  {first last phase : Int32} {low high : ℤ} {p : ℤ × ℤ}

theorem nearDistance_eq (flags : MppRotation) (pivot : Point) (nonempty : dst.Nonempty) :
    ((cornerBox flags pivot dst).x1, (cornerBox flags pivot dst).y1) =
      (pivot.x.toInt + (nearDistance flags pivot dst).1,
        pivot.y.toInt + (nearDistance flags pivot dst).2) := by
  obtain ⟨c0, c1, c2, c3⟩ := corner_values dst
  obtain ⟨wide, high⟩ := nonempty
  simp only [cornerBox, boxOf, fold4, c0, c1, c2, c3, unrotate_eq]
  cases flags <;> simp only [nearDistance, Prod.mk.injEq] <;> omega

theorem cornerBox_far (flags : MppRotation) (pivot : Point) (nonempty : dst.Nonempty) :
    ((cornerBox flags pivot dst).x2, (cornerBox flags pivot dst).y2) =
      (pivot.x.toInt + ((nearDistance flags pivot dst).1 + ((outputCounts flags dst).1 - 1)),
        pivot.y.toInt + ((nearDistance flags pivot dst).2 + ((outputCounts flags dst).2 - 1))) := by
  have near := nearDistance_eq flags pivot nonempty
  have sizes := cornerBox_size flags pivot nonempty
  rw [Prod.mk.injEq] at near
  unfold outputCounts
  rw [← sizes, Prod.mk.injEq]
  omega

/-- Wherever a clip starts, its pixel lies at one distance from the pivot. -/
theorem nearDistance_add_outputIndex (flags : MppRotation) (pivot : Point) (dst : Area)
    (p : ℤ × ℤ) :
    (unrotate flags pivot p).1 = pivot.x.toInt +
        ((nearDistance flags pivot dst).1 + (outputIndex flags dst p).1) ∧
      (unrotate flags pivot p).2 = pivot.y.toInt +
        ((nearDistance flags pivot dst).2 + (outputIndex flags dst p).2) := by
  rw [unrotate_eq]
  cases flags <;> simp only [nearDistance, outputIndex] <;> omega

theorem exactCoordinate_add (distance : ℤ) :
    exactCoordinate center scale (center.toInt + distance) =
      center.toInt * 65536 + distance * 16777216 / scale.toNat := by
  unfold exactCoordinate
  rw [add_sub_cancel_left]

/-- A sample is the exact coordinate less what the truncated steps have lost on the way. -/
theorem CropAxis.sample_eq {near i : ℤ} (allowed : 16 ≤ scale.toNat ∧ scale.toNat ≤ 4096)
    (axis : CropAxis size (exactCoordinate center scale (center.toInt + near)) high first last
      phase) :
    axisSample first phase scale i = exactCoordinate center scale (center.toInt + (near + i)) -
      (pivotCarry scale (near + i) - pivotCarry scale near) := by
  have positive : (0 : ℤ) < scale.toNat := by omega
  have exact := exact_add 16777216 near i positive
  unfold axisSample
  rw [axis.first, axis.phase, Int.ediv_mul_add_emod, exactCoordinate_add, exactCoordinate_add,
    exact]
  unfold pivotCarry
  ring

theorem CropAxis.reaches_iff {near outputs : ℤ} (allowed : 16 ≤ scale.toNat ∧ scale.toNat ≤ 4096)
    (axis : CropAxis size (exactCoordinate center scale (center.toInt + near))
      (exactCoordinate center scale (center.toInt + (near + (outputs - 1)))) first last phase) :
    ReachesTap size first last phase scale outputs ↔ TapRoom size center scale near outputs := by
  unfold ReachesTap TapRoom
  rw [axis.sample_eq allowed, axis.last, ← exactCoordinate_add]
  have inside := axis.inside
  generalize exactCoordinate center scale (center.toInt + (near + (outputs - 1))) = far at *
  generalize pivotCarry scale (near + (outputs - 1)) - pivotCarry scale near = lost
  omega

/-- Both source axes of an accepted crop, by the distances from the pivot. -/
theorem ClipCrop.axes
    (clip : ClipCrop srcW srcH dst pivot rotation scaleX scaleY crop) :
    CropAxis srcW
      (exactCoordinate pivot.x scaleX (pivot.x.toInt + (nearDistance crop.flags pivot dst).1))
      (exactCoordinate pivot.x scaleX (pivot.x.toInt + ((nearDistance crop.flags pivot dst).1 +
        ((outputCounts crop.flags dst).1 - 1)))) crop.src.x1 crop.src.x2 crop.phaseX ∧
    CropAxis srcH
      (exactCoordinate pivot.y scaleY (pivot.y.toInt + (nearDistance crop.flags pivot dst).2))
      (exactCoordinate pivot.y scaleY (pivot.y.toInt + ((nearDistance crop.flags pivot dst).2 +
        ((outputCounts crop.flags dst).2 - 1)))) crop.src.y1 crop.src.y2 crop.phaseY := by
  have near := nearDistance_eq crop.flags pivot clip.nonempty
  have far := cornerBox_far crop.flags pivot clip.nonempty
  rw [Prod.mk.injEq] at near far
  rw [← near.1, ← near.2, ← far.1, ← far.2]
  exact ⟨clip.across, clip.down⟩

/-- The coordinates of a pixel, from its exact ones and what the steps from the edge have lost. -/
theorem ClipCrop.sample_eq
    (clip : ClipCrop srcW srcH dst pivot rotation scaleX scaleY crop) (p : ℤ × ℤ) :
    crop.sample dst scaleX scaleY p =
      (exactCoordinate pivot.x scaleX (unrotate crop.flags pivot p).1 -
        (pivotCarry scaleX ((unrotate crop.flags pivot p).1 - pivot.x.toInt) -
          pivotCarry scaleX (nearDistance crop.flags pivot dst).1),
      exactCoordinate pivot.y scaleY (unrotate crop.flags pivot p).2 -
        (pivotCarry scaleY ((unrotate crop.flags pivot p).2 - pivot.y.toInt) -
          pivotCarry scaleY (nearDistance crop.flags pivot dst).2)) := by
  obtain ⟨across, down⟩ := clip.axes
  obtain ⟨atX, atY⟩ := nearDistance_add_outputIndex crop.flags pivot dst p
  unfold ScaledCrop.sample
  rw [across.sample_eq clip.allowedX, down.sample_eq clip.allowedY, ← atX, ← atY, atX, atY,
    add_sub_cancel_left, add_sub_cancel_left]

theorem ClipCrop.reaches_iff
    (clip : ClipCrop srcW srcH dst pivot rotation scaleX scaleY crop) :
    crop.Reaches srcW srcH dst scaleX scaleY ↔
      ClipRoom srcW srcH crop.flags pivot scaleX scaleY dst := by
  obtain ⟨across, down⟩ := clip.axes
  unfold ScaledCrop.Reaches ClipRoom
  rw [across.reaches_iff clip.allowedX, down.reaches_iff clip.allowedY]

end

/-- Two clips sample a shared pixel at one place, with all filter taps, exactly when the
truncated steps have lost as much at the starting edge of either, and each far sample leaves
room for a tap. -/
theorem rotated_refresh_seamless_iff {srcW srcH : UInt32} {pivot : Point} {rotation : Int32}
    {scaleX scaleY : UInt32} {flags : MppRotation} {a b : Area} {cropA cropB : ScaledCrop}
    {p : ℤ × ℤ} (known : rotationFlags rotation = some flags)
    (acceptedA : rotationScaleCrop srcW srcH a pivot rotation scaleX scaleY = some (some cropA))
    (acceptedB : rotationScaleCrop srcW srcH b pivot rotation scaleX scaleY = some (some cropB)) :
    (cropA.sample a scaleX scaleY p = cropB.sample b scaleX scaleY p ∧
      cropA.Reaches srcW srcH a scaleX scaleY ∧ cropB.Reaches srcW srcH b scaleX scaleY) ↔
    (pivotCarry scaleX (nearDistance flags pivot a).1 =
        pivotCarry scaleX (nearDistance flags pivot b).1 ∧
      pivotCarry scaleY (nearDistance flags pivot a).2 =
        pivotCarry scaleY (nearDistance flags pivot b).2) ∧
      ClipRoom srcW srcH flags pivot scaleX scaleY a ∧
      ClipRoom srcW srcH flags pivot scaleX scaleY b := by
  obtain ⟨_, _, clipA⟩ := rotationScaleCrop_accepted acceptedA
  obtain ⟨_, _, clipB⟩ := rotationScaleCrop_accepted acceptedB
  have flagsA : cropA.flags = flags := Option.some.inj (clipA.flags.symm.trans known)
  have flagsB : cropB.flags = flags := Option.some.inj (clipB.flags.symm.trans known)
  rw [clipA.reaches_iff, clipB.reaches_iff, clipA.sample_eq, clipB.sample_eq, flagsA, flagsB,
    Prod.mk.injEq]
  refine and_congr (and_congr ?_ ?_) Iff.rfl
  · omega
  · omega

theorem rotated_refresh_seamless_iff_doubled :
    ∃ cropA cropB, rotationScaleCrop 16 16 ⟨0, 0, 29, 29⟩ ⟨0, 0⟩ 0 512 512 = some (some cropA) ∧
      rotationScaleCrop 16 16 ⟨4, 6, 29, 29⟩ ⟨0, 0⟩ 0 512 512 = some (some cropB) ∧
      cropA.sample ⟨0, 0, 29, 29⟩ 512 512 (9, 9) = cropB.sample ⟨4, 6, 29, 29⟩ 512 512 (9, 9) := by
  have acceptedA : rotationScaleCrop 16 16 ⟨0, 0, 29, 29⟩ ⟨0, 0⟩ 0 512 512 =
      some (some ⟨⟨0, 0, 15, 15⟩, .rotation0, 0, 0⟩) := by decide
  have acceptedB : rotationScaleCrop 16 16 ⟨4, 6, 29, 29⟩ ⟨0, 0⟩ 0 512 512 =
      some (some ⟨⟨2, 3, 15, 15⟩, .rotation0, 0, 0⟩) := by decide
  refine ⟨_, _, acceptedA, acceptedB, ?_⟩
  have upright : rotationFlags 0 = some .rotation0 := by decide
  refine ((rotated_refresh_seamless_iff upright acceptedA acceptedB).mpr ?_).1
  exact ⟨⟨by decide, by decide⟩, ⟨.inl (by decide), .inl (by decide)⟩,
    ⟨.inl (by decide), .inl (by decide)⟩⟩

/-- Two accepted clips of a picture turned by 90 degrees and enlarged by 300/256 sample a pixel
they share at different coordinates, and the crop of the first has no room for a tap. -/
theorem rotated_refresh_shows_seam :
    ∃ cropA cropB, rotationScaleCrop 64 64 ⟨-31, 0, 0, 30⟩ ⟨0, 0⟩ 900 300 300 =
        some (some cropA) ∧
      rotationScaleCrop 64 64 ⟨-31, 19, 0, 30⟩ ⟨0, 0⟩ 900 300 300 = some (some cropB) ∧
      (0, 25) ∈ Area.pixels ⟨-31, 0, 0, 30⟩ ∧ (0, 25) ∈ Area.pixels ⟨-31, 19, 0, 30⟩ ∧
      cropA.sample ⟨-31, 0, 0, 30⟩ 300 300 (0, 25) ≠
        cropB.sample ⟨-31, 19, 0, 30⟩ 300 300 (0, 25) ∧
      ¬ cropA.Reaches 64 64 ⟨-31, 0, 0, 30⟩ 300 300 := by
  refine ⟨⟨⟨0, 0, 26, 27⟩, .rotation90, 0, 0⟩, ⟨⟨16, 0, 26, 27⟩, .rotation90, 13981, 0⟩,
    by decide, by decide, ⟨by decide, by decide, by decide, by decide⟩,
    ⟨by decide, by decide, by decide, by decide⟩, by decide, ?_⟩
  rintro ⟨beyond | edge, _⟩
  · exact absurd beyond (by decide)
  · exact absurd edge (by decide)

end LvglAic.Ge2d
