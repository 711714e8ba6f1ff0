import LvglAic.Ge2d.ScaleAxis

/-! # Right-angle rotation (`lv_draw_aic_ge2d_rotate.c`)

Areas are inclusive rectangles.  As for the scaler axis, the outer option of a
result is the checked 64-bit arithmetic and the inner one what the C function
returns; callers read neither the crop nor the flags of a refusal.
-/

namespace LvglAic.Ge2d

open LvglAic.Machine

structure Point where
  x : Int32
  y : Int32
deriving DecidableEq, Repr

structure Area where
  x1 : Int32
  y1 : Int32
  x2 : Int32
  y2 : Int32
deriving DecidableEq, Repr

inductive MppRotation where
  | rotation0
  | rotation90
  | rotation180
  | rotation270
deriving DecidableEq, Repr

/-- The rotation flags of an angle in tenths of a degree. -/
def rotationFlags (rotation : Int32) : Option MppRotation :=
  let angle := rotation.toInt.tmod 3600
  let angle := if angle < 0 then angle + 3600 else angle
  if angle = 0 then some .rotation0
  else if angle = 900 then some .rotation90
  else if angle = 1800 then some .rotation180
  else if angle = 2700 then some .rotation270
  else none

def Area.corner (area : Area) (i : Fin 4) : ℤ × ℤ :=
  (if i.val.testBit 0 then area.x2.toInt else area.x1.toInt,
    if i.val.testBit 1 then area.y2.toInt else area.y1.toInt)

/-- The smallest and largest column and row of some points. -/
structure Box where
  x1 : ℤ
  x2 : ℤ
  y1 : ℤ
  y2 : ℤ

def fold4 (pick : ℤ → ℤ → ℤ) (values : Fin 4 → ℤ) : ℤ :=
  pick (pick (pick (values 0) (values 1)) (values 2)) (values 3)

def boxOf (points : Fin 4 → ℤ × ℤ) : Box where
  x1 := fold4 min fun i => (points i).1
  x2 := fold4 max fun i => (points i).1
  y1 := fold4 min fun i => (points i).2
  y2 := fold4 max fun i => (points i).2

def inverseCorner (flags : MppRotation) (pivot : Point) (x y : ℤ) : Option (ℤ × ℤ) :=
  match flags with
  | .rotation0 => some (x, y)
  | .rotation90 => do
      let down ← int64 (y - pivot.y.toInt)
      let left ← int64 (pivot.x.toInt - x)
      let sourceX ← int64 (down + pivot.x.toInt)
      let sourceY ← int64 (left + pivot.y.toInt)
      some (sourceX, sourceY)
  | .rotation180 => do
      let twiceX ← int64 (2 * pivot.x.toInt)
      let twiceY ← int64 (2 * pivot.y.toInt)
      let sourceX ← int64 (twiceX - x)
      let sourceY ← int64 (twiceY - y)
      some (sourceX, sourceY)
  | .rotation270 => do
      let up ← int64 (pivot.y.toInt - y)
      let right ← int64 (x - pivot.x.toInt)
      let sourceX ← int64 (up + pivot.x.toInt)
      let sourceY ← int64 (right + pivot.y.toInt)
      some (sourceX, sourceY)

/-- The second half of `rotationCrop`: the box of the corners against the source. -/
def cropOf (srcW srcH : UInt32) (flags : MppRotation) (box : Box) :
    Option (Option (Area × MppRotation)) :=
  if box.x1 < 0 || box.y1 < 0 || srcW.toNat ≤ box.x2 || srcH.toNat ≤ box.y2 then some none
  else do
    let across ← int64 (box.x2 - box.x1)
    let width ← int64 (across + 1)
    let down ← int64 (box.y2 - box.y1)
    let height ← int64 (down + 1)
    if width ≤ 0 || height ≤ 0 then some none
    else some (some (
      { x1 := Int32.ofInt box.x1
        y1 := Int32.ofInt box.y1
        x2 := Int32.ofInt box.x2
        y2 := Int32.ofInt box.y2 }, flags))

def rotationCrop (srcW srcH : UInt32) (dst : Area) (pivot : Point) (rotation : Int32) :
    Option (Option (Area × MppRotation)) :=
  if srcW = 0 || srcH = 0 || dst.x2.toInt < dst.x1.toInt || dst.y2.toInt < dst.y1.toInt then
    some none
  else
    match rotationFlags rotation with
    | none => some none
    | some flags => do
        let c0 ← inverseCorner flags pivot (dst.corner 0).1 (dst.corner 0).2
        let c1 ← inverseCorner flags pivot (dst.corner 1).1 (dst.corner 1).2
        let c2 ← inverseCorner flags pivot (dst.corner 2).1 (dst.corner 2).2
        let c3 ← inverseCorner flags pivot (dst.corner 3).1 (dst.corner 3).2
        cropOf srcW srcH flags (boxOf ![c0, c1, c2, c3])

/-! ## Turns of the plane -/

/-- The inverse of a quarter turn about the pivot. -/
def unturn (pivot : Point) (p : ℤ × ℤ) : ℤ × ℤ :=
  (p.2 - pivot.y.toInt + pivot.x.toInt, pivot.x.toInt - p.1 + pivot.y.toInt)

def MppRotation.quarters : MppRotation → ℕ
  | .rotation0 => 0
  | .rotation90 => 1
  | .rotation180 => 2
  | .rotation270 => 3

/-- The inverse rotation about the pivot. -/
def unrotate (flags : MppRotation) (pivot : Point) : ℤ × ℤ → ℤ × ℤ :=
  (unturn pivot)^[flags.quarters]

/-- The pixels of an area. -/
def Area.pixels (area : Area) : Set (ℤ × ℤ) :=
  {p | area.x1.toInt ≤ p.1 ∧ p.1 ≤ area.x2.toInt ∧ area.y1.toInt ≤ p.2 ∧ p.2 ≤ area.y2.toInt}

def sourcePixels (srcW srcH : UInt32) : Set (ℤ × ℤ) :=
  {p | 0 ≤ p.1 ∧ p.1 < srcW.toNat ∧ 0 ≤ p.2 ∧ p.2 < srcH.toNat}

def Area.width (area : Area) : ℤ := area.x2.toInt - area.x1.toInt + 1

def Area.height (area : Area) : ℤ := area.y2.toInt - area.y1.toInt + 1

section
variable {pivot : Point} {flags : MppRotation} {x y : ℤ} {p q : ℤ × ℤ}

theorem unrotate_eq : unrotate flags pivot p = match flags with
    | .rotation0 => p
    | .rotation90 => (p.2 - pivot.y.toInt + pivot.x.toInt, pivot.x.toInt - p.1 + pivot.y.toInt)
    | .rotation180 => (2 * pivot.x.toInt - p.1, 2 * pivot.y.toInt - p.2)
    | .rotation270 =>
      (pivot.y.toInt - p.2 + pivot.x.toInt, p.1 - pivot.x.toInt + pivot.y.toInt) := by
  cases flags <;>
    simp only [unrotate, MppRotation.quarters, Function.iterate_succ, Function.iterate_zero,
      Function.comp_apply, id_eq, unturn, Prod.mk.injEq] <;>
    omega

/-- The corner formulas of the code are the inverse rotation. -/
theorem inverseCorner_eq (xSmall : |x| ≤ 2 ^ 31) (ySmall : |y| ≤ 2 ^ 31) :
    inverseCorner flags pivot x y = some (unrotate flags pivot (x, y)) := by
  have pivotX := abs_le.mp (abs_toInt_le pivot.x)
  have pivotY := abs_le.mp (abs_toInt_le pivot.y)
  have pointX := abs_le.mp xSmall
  have pointY := abs_le.mp ySmall
  have fits : ∀ value : ℤ, -2 ^ 40 ≤ value → value ≤ 2 ^ 40 → int64 value = some value :=
    fun value low high => int64_of_abs (abs_le.mpr ⟨by omega, by omega⟩)
  rw [unrotate_eq]
  cases flags with
  | rotation0 => rfl
  | rotation90 =>
      simp only [inverseCorner, Option.bind_eq_bind]
      rw [fits _ (by omega) (by omega), Option.bind_some, fits _ (by omega) (by omega),
        Option.bind_some, fits _ (by omega) (by omega), Option.bind_some,
        fits _ (by omega) (by omega), Option.bind_some]
  | rotation180 =>
      simp only [inverseCorner, Option.bind_eq_bind]
      rw [fits _ (by omega) (by omega), Option.bind_some, fits _ (by omega) (by omega),
        Option.bind_some, fits _ (by omega) (by omega), Option.bind_some,
        fits _ (by omega) (by omega), Option.bind_some]
  | rotation270 =>
      simp only [inverseCorner, Option.bind_eq_bind]
      rw [fits _ (by omega) (by omega), Option.bind_some, fits _ (by omega) (by omega),
        Option.bind_some, fits _ (by omega) (by omega), Option.bind_some,
        fits _ (by omega) (by omega), Option.bind_some]

theorem unrotate_injective : Function.Injective (unrotate flags pivot) := by
  intro p q same
  rw [unrotate_eq, unrotate_eq] at same
  cases flags with
  | rotation0 => exact same
  | rotation90 | rotation180 | rotation270 =>
      simp only [Prod.mk.injEq] at same
      exact Prod.ext (by omega) (by omega)

theorem unrotate_surjective (flags : MppRotation) (pivot : Point) : Function.Surjective (unrotate flags pivot) := by
  intro p
  cases flags with
  | rotation0 => exact ⟨p, unrotate_eq⟩
  | rotation90 =>
      refine ⟨(pivot.x.toInt + pivot.y.toInt - p.2, p.1 + pivot.y.toInt - pivot.x.toInt), ?_⟩
      rw [unrotate_eq]
      exact Prod.ext (by dsimp only; omega) (by dsimp only; omega)
  | rotation180 =>
      refine ⟨(2 * pivot.x.toInt - p.1, 2 * pivot.y.toInt - p.2), ?_⟩
      rw [unrotate_eq]
      exact Prod.ext (by dsimp only; omega) (by dsimp only; omega)
  | rotation270 =>
      refine ⟨(p.2 + pivot.x.toInt - pivot.y.toInt, pivot.x.toInt + pivot.y.toInt - p.1), ?_⟩
      rw [unrotate_eq]
      exact Prod.ext (by dsimp only; omega) (by dsimp only; omega)

end

/-! ## The box of the four corners -/

def cornerBox (flags : MppRotation) (pivot : Point) (dst : Area) : Box :=
  boxOf fun i => unrotate flags pivot (dst.corner i)

def Box.area (box : Box) : Area where
  x1 := Int32.ofInt box.x1
  y1 := Int32.ofInt box.y1
  x2 := Int32.ofInt box.x2
  y2 := Int32.ofInt box.y2

/-- The box lies inside a source of the given size. -/
structure Box.Inside (box : Box) (srcW srcH : UInt32) : Prop where
  left : 0 ≤ box.x1
  top : 0 ≤ box.y1
  right : box.x2 < srcW.toNat
  bottom : box.y2 < srcH.toNat

def Area.Nonempty (area : Area) : Prop :=
  area.x1.toInt ≤ area.x2.toInt ∧ area.y1.toInt ≤ area.y2.toInt

section
variable {pivot : Point} {flags : MppRotation} {dst area : Area} {p : ℤ × ℤ}
  {srcW srcH : UInt32} {rotation : Int32}

theorem corner_values (area : Area) :
    area.corner 0 = (area.x1.toInt, area.y1.toInt) ∧ area.corner 1 = (area.x2.toInt, area.y1.toInt) ∧
      area.corner 2 = (area.x1.toInt, area.y2.toInt) ∧
      area.corner 3 = (area.x2.toInt, area.y2.toInt) := ⟨rfl, rfl, rfl, rfl⟩

/-- The inverse rotation maps the pixels of an area onto the box of its corners. -/
theorem mem_cornerBox (flags : MppRotation) (pivot : Point) (nonempty : dst.Nonempty) :
    ((cornerBox flags pivot dst).x1 ≤ (unrotate flags pivot p).1 ∧
      (unrotate flags pivot p).1 ≤ (cornerBox flags pivot dst).x2 ∧
      (cornerBox flags pivot dst).y1 ≤ (unrotate flags pivot p).2 ∧
      (unrotate flags pivot p).2 ≤ (cornerBox flags pivot dst).y2) ↔ p ∈ dst.pixels := by
  obtain ⟨c0, c1, c2, c3⟩ := corner_values dst
  obtain ⟨wide, high⟩ := nonempty
  simp only [cornerBox, boxOf, fold4, c0, c1, c2, c3, Area.pixels, Set.mem_ofPred_eq]
  simp only [unrotate_eq]
  cases flags <;> dsimp only <;> omega

theorem cornerBox_nonempty (flags : MppRotation) (pivot : Point) (nonempty : dst.Nonempty) :
    (cornerBox flags pivot dst).x1 ≤ (cornerBox flags pivot dst).x2 ∧
      (cornerBox flags pivot dst).y1 ≤ (cornerBox flags pivot dst).y2 := by
  have corner : dst.corner 0 ∈ dst.pixels :=
    ⟨le_refl _, nonempty.1, le_refl _, nonempty.2⟩
  obtain ⟨left, right, top, bottom⟩ := (mem_cornerBox flags pivot
    nonempty).mpr corner
  exact ⟨left.trans right, top.trans bottom⟩

/-- Looking at four corners decides for every pixel. -/
theorem cornerBox_inside (srcW srcH : UInt32) (nonempty : dst.Nonempty) :
    (cornerBox flags pivot dst).Inside srcW srcH ↔
      ∀ p ∈ dst.pixels, unrotate flags pivot p ∈ sourcePixels srcW srcH := by
  constructor
  · intro inside p member
    obtain ⟨left, right, top, bottom⟩ := (mem_cornerBox _ _ nonempty).mpr member
    exact ⟨inside.left.trans left, right.trans_lt inside.right, inside.top.trans top,
      bottom.trans_lt inside.bottom⟩
  · intro all
    obtain ⟨wide, high⟩ := cornerBox_nonempty flags pivot nonempty
    obtain ⟨p, first⟩ := unrotate_surjective flags pivot
      ((cornerBox flags pivot dst).x1, (cornerBox flags pivot dst).y1)
    obtain ⟨q, last⟩ := unrotate_surjective flags pivot
      ((cornerBox flags pivot dst).x2, (cornerBox flags pivot dst).y2)
    have firstInside := all p ((mem_cornerBox _ _ nonempty).mp (by
      rw [first]
      exact ⟨le_refl _, wide, le_refl _, high⟩))
    have lastInside := all q ((mem_cornerBox _ _ nonempty).mp (by
      rw [last]
      exact ⟨wide, le_refl _, high, le_refl _⟩))
    rw [first] at firstInside
    rw [last] at lastInside
    exact ⟨firstInside.1, firstInside.2.2.1, lastInside.2.1, lastInside.2.2.2⟩

theorem cornerBox_size (flags : MppRotation) (pivot : Point) (nonempty : dst.Nonempty) :
    ((cornerBox flags pivot dst).x2 - (cornerBox flags pivot dst).x1 + 1,
      (cornerBox flags pivot dst).y2 - (cornerBox flags pivot dst).y1 + 1) =
    if flags.quarters % 2 = 0 then (dst.width, dst.height) else (dst.height, dst.width) := by
  obtain ⟨c0, c1, c2, c3⟩ := corner_values dst
  obtain ⟨wide, high⟩ := nonempty
  simp only [cornerBox, boxOf, fold4, c0, c1, c2, c3, Area.width, Area.height]
  simp only [unrotate_eq]
  cases flags <;> simp only [MppRotation.quarters, Nat.reduceMod, one_ne_zero, if_true, if_false,
    Prod.mk.injEq] <;> omega

theorem corner_small (area : Area) (i : Fin 4) :
    |(area.corner i).1| ≤ 2 ^ 31 ∧ |(area.corner i).2| ≤ 2 ^ 31 := by
  unfold Area.corner
  constructor
  · dsimp only
    split
    · exact abs_toInt_le _
    · exact abs_toInt_le _
  · dsimp only
    split
    · exact abs_toInt_le _
    · exact abs_toInt_le _

theorem cropOf_eq (srcW srcH : UInt32) (flags : MppRotation) (box : Box) (wide : box.x1 ≤ box.x2) (high : box.y1 ≤ box.y2) :
    (box.Inside srcW srcH ∧ cropOf srcW srcH flags box = some (some (box.area, flags))) ∨
      (¬ box.Inside srcW srcH ∧ cropOf srcW srcH flags box = some none) := by
  have srcWide := UInt32.toNat_lt srcW
  have srcHigh := UInt32.toNat_lt srcH
  by_cases inside : 0 ≤ box.x1 ∧ 0 ≤ box.y1 ∧ box.x2 < srcW.toNat ∧ box.y2 < srcH.toNat
  · obtain ⟨left, top, right, bottom⟩ := inside
    have guard : (decide (box.x1 < 0) || decide (box.y1 < 0) || decide (srcW.toNat ≤ box.x2) ||
        decide (srcH.toNat ≤ box.y2)) = false := by
      simp only [Bool.or_eq_false_iff, decide_eq_false_iff_not]
      omega
    have across := int64_of_range (box.x2 - box.x1) (by omega) (by omega)
    have width := int64_of_range (box.x2 - box.x1 + 1) (by omega) (by omega)
    have down := int64_of_range (box.y2 - box.y1) (by omega) (by omega)
    have height := int64_of_range (box.y2 - box.y1 + 1) (by omega) (by omega)
    have sized : (decide (box.x2 - box.x1 + 1 ≤ 0) || decide (box.y2 - box.y1 + 1 ≤ 0)) =
        false := by
      simp only [Bool.or_eq_false_iff, decide_eq_false_iff_not]
      omega
    refine .inl ⟨⟨left, top, right, bottom⟩, ?_⟩
    simp only [cropOf, guard, Bool.false_eq_true, if_false, Option.bind_eq_bind, across, width,
      down, height, Option.bind_some, sized, Box.area]
  · have guard : (decide (box.x1 < 0) || decide (box.y1 < 0) || decide (srcW.toNat ≤ box.x2) ||
        decide (srcH.toNat ≤ box.y2)) = true := by
      simp only [Bool.or_eq_true, decide_eq_true_eq]
      omega
    refine .inr ⟨fun fits => inside ⟨fits.left, fits.top, fits.right, fits.bottom⟩, ?_⟩
    simp only [cropOf, guard, if_true]

theorem rotationCrop_refused (outside : srcW = 0 ∨ srcH = 0 ∨ ¬ dst.Nonempty) :
    rotationCrop srcW srcH dst pivot rotation = some none := by
  have guard : (decide (srcW = 0) || decide (srcH = 0) || decide (dst.x2.toInt < dst.x1.toInt) ||
      decide (dst.y2.toInt < dst.y1.toInt)) = true := by
    unfold Area.Nonempty at outside
    simp only [Bool.or_eq_true, decide_eq_true_eq]
    rcases outside with zero | zero | empty
    · exact .inl (.inl (.inl zero))
    · exact .inl (.inl (.inr zero))
    · omega
  simp only [rotationCrop, guard, if_true]

/-- No intermediate value leaves 64 bits: the result is that of the box of the corners. -/
theorem rotationCrop_eq (nonempty : dst.Nonempty) (wide : srcW ≠ 0) (high : srcH ≠ 0)
    (known : rotationFlags rotation = some flags) :
    rotationCrop srcW srcH dst pivot rotation =
      cropOf srcW srcH flags (cornerBox flags pivot dst) := by
  have corner : ∀ i, inverseCorner flags pivot (dst.corner i).1 (dst.corner i).2 =
      some (unrotate flags pivot (dst.corner i)) := fun i =>
    inverseCorner_eq (corner_small dst i).1 (corner_small dst i).2
  have guard : (decide (srcW = 0) || decide (srcH = 0) || decide (dst.x2.toInt < dst.x1.toInt) ||
      decide (dst.y2.toInt < dst.y1.toInt)) = false := by
    obtain ⟨across, down⟩ := nonempty
    simp only [Bool.or_eq_false_iff, decide_eq_false_iff_not]
    exact ⟨⟨⟨wide, high⟩, by omega⟩, by omega⟩
  have box : boxOf ![unrotate flags pivot (dst.corner 0), unrotate flags pivot (dst.corner 1),
      unrotate flags pivot (dst.corner 2), unrotate flags pivot (dst.corner 3)] =
      cornerBox flags pivot dst := rfl
  simp only [rotationCrop, guard, Bool.false_eq_true, if_false, known, Option.bind_eq_bind,
    corner, Option.bind_some, box]

theorem rotationFlags_quarter (right : 900 ∣ rotation.toInt) :
    ∃ flags, rotationFlags rotation = some flags ∧
      rotation.toInt % 3600 = 900 * flags.quarters := by
  have normal : (if rotation.toInt.tmod 3600 < 0 then rotation.toInt.tmod 3600 + 3600
      else rotation.toInt.tmod 3600) = rotation.toInt % 3600 := by
    have truncated := Int.tmod_eq_emod (a := rotation.toInt) (b := 3600)
    have low := Int.emod_nonneg rotation.toInt (show (3600 : ℤ) ≠ 0 by decide)
    have below := Int.emod_lt_of_pos rotation.toInt (show (0 : ℤ) < 3600 by decide)
    split at truncated <;> split <;> omega
  have quarter : rotation.toInt % 3600 = 0 ∨ rotation.toInt % 3600 = 900 ∨
      rotation.toInt % 3600 = 1800 ∨ rotation.toInt % 3600 = 2700 := by
    omega
  simp only [rotationFlags, normal]
  rcases quarter with angle | angle | angle | angle <;> rw [angle]
  · exact ⟨.rotation0, rfl, rfl⟩
  · exact ⟨.rotation90, rfl, rfl⟩
  · exact ⟨.rotation180, rfl, rfl⟩
  · exact ⟨.rotation270, rfl, rfl⟩

theorem pixels_nonempty : dst.pixels.Nonempty ↔ dst.Nonempty := by
  constructor
  · rintro ⟨p, left, right, top, bottom⟩
    exact ⟨left.trans right, top.trans bottom⟩
  · intro nonempty
    exact ⟨dst.corner 0, le_refl _, nonempty.1, le_refl _, nonempty.2⟩

theorem Box.mem_area (box : Box) (inside : box.Inside srcW srcH) (wide : srcW.toNat ≤ 65535)
    (high : srcH.toNat ≤ 65535) (across : box.x1 ≤ box.x2) (down : box.y1 ≤ box.y2) :
    p ∈ box.area.pixels ↔ box.x1 ≤ p.1 ∧ p.1 ≤ box.x2 ∧ box.y1 ≤ p.2 ∧ p.2 ≤ box.y2 := by
  obtain ⟨left, top, right, bottom⟩ := inside
  change (Int32.ofInt box.x1).toInt ≤ p.1 ∧ p.1 ≤ (Int32.ofInt box.x2).toInt ∧
    (Int32.ofInt box.y1).toInt ≤ p.2 ∧ p.2 ≤ (Int32.ofInt box.y2).toInt ↔ _
  rw [toInt_ofInt ⟨by omega, by omega⟩, toInt_ofInt ⟨by omega, by omega⟩,
    toInt_ofInt ⟨by omega, by omega⟩, toInt_ofInt ⟨by omega, by omega⟩]

/-- The crop of an area inside the source is its image under the inverse rotation. -/
theorem mem_crop (nonempty : dst.Nonempty) (wide : srcW.toNat ≤ 65535) (high : srcH.toNat ≤ 65535)
    (inside : (cornerBox flags pivot dst).Inside srcW srcH) :
    unrotate flags pivot p ∈ (cornerBox flags pivot dst).area.pixels ↔ p ∈ dst.pixels := by
  obtain ⟨across, down⟩ := cornerBox_nonempty flags pivot nonempty
  rw [Box.mem_area _ inside wide high across down]
  exact mem_cornerBox _ _ nonempty

theorem crop_bijOn (nonempty : dst.Nonempty) (wide : srcW.toNat ≤ 65535)
    (high : srcH.toNat ≤ 65535) (inside : (cornerBox flags pivot dst).Inside srcW srcH) :
    Set.BijOn (unrotate flags pivot) dst.pixels (cornerBox flags pivot dst).area.pixels := by
  refine ⟨?_, unrotate_injective.injOn, ?_⟩
  · intro p member
    exact (mem_crop nonempty wide high inside).mpr member
  · intro p member
    obtain ⟨q, rfl⟩ := unrotate_surjective flags pivot p
    exact ⟨q, (mem_crop nonempty wide high inside).mp member, rfl⟩

theorem crop_size (nonempty : dst.Nonempty) (wide : srcW.toNat ≤ 65535)
    (high : srcH.toNat ≤ 65535) (inside : (cornerBox flags pivot dst).Inside srcW srcH) :
    ((cornerBox flags pivot dst).area.width, (cornerBox flags pivot dst).area.height) =
      if flags.quarters % 2 = 0 then (dst.width, dst.height) else (dst.height, dst.width) := by
  obtain ⟨across, down⟩ := cornerBox_nonempty flags pivot nonempty
  obtain ⟨left, top, right, bottom⟩ := inside
  rw [← cornerBox_size _ pivot nonempty]
  unfold Area.width Area.height Box.area
  dsimp only
  rw [toInt_ofInt ⟨by omega, by omega⟩, toInt_ofInt ⟨by omega, by omega⟩,
    toInt_ofInt ⟨by omega, by omega⟩, toInt_ofInt ⟨by omega, by omega⟩]

theorem rotationCrop_inside (nonempty : dst.Nonempty) (known : rotationFlags rotation = some flags)
    (all : ∀ p ∈ dst.pixels, unrotate flags pivot p ∈ sourcePixels srcW srcH) :
    (cornerBox flags pivot dst).Inside srcW srcH ∧
      rotationCrop srcW srcH dst pivot rotation =
        some (some ((cornerBox flags pivot dst).area, flags)) := by
  obtain ⟨across, down⟩ := cornerBox_nonempty flags pivot nonempty
  have inside := (cornerBox_inside srcW srcH nonempty).mpr all
  have wide : srcW ≠ 0 := by
    rintro rfl
    have right := inside.right
    exact absurd (inside.left.trans across) (not_le.mpr right)
  have high : srcH ≠ 0 := by
    rintro rfl
    have bottom := inside.bottom
    exact absurd (inside.top.trans down) (not_le.mpr bottom)
  refine ⟨inside, ?_⟩
  rw [rotationCrop_eq nonempty wide high known]
  rcases cropOf_eq srcW srcH flags _ across down with
    ⟨_, accepted⟩ | ⟨outside, _⟩
  · exact accepted
  · exact absurd inside outside

theorem rotationCrop_outside (known : rotationFlags rotation = some flags)
    (outside : ¬ (dst.Nonempty ∧
      ∀ p ∈ dst.pixels, unrotate flags pivot p ∈ sourcePixels srcW srcH)) :
    rotationCrop srcW srcH dst pivot rotation = some none := by
  by_cases admitted : srcW = 0 ∨ srcH = 0 ∨ ¬ dst.Nonempty
  · exact rotationCrop_refused admitted
  · rw [not_or, not_or, not_not] at admitted
    obtain ⟨wide, high, nonempty⟩ := admitted
    obtain ⟨across, down⟩ := cornerBox_nonempty flags pivot nonempty
    rw [rotationCrop_eq nonempty wide high known]
    rcases cropOf_eq srcW srcH flags _ across down with
      ⟨inside, _⟩ | ⟨_, refused⟩
    · exact absurd ⟨nonempty, (cornerBox_inside _ _ nonempty).mp inside⟩ outside
    · exact refused

end

/-- Two areas that split a third one. -/
structure Splits (whole left right : Area) : Prop where
  leftNonempty : left.pixels.Nonempty
  rightNonempty : right.pixels.Nonempty
  apart : Disjoint left.pixels right.pixels
  union : left.pixels ∪ right.pixels = whole.pixels

/-- The rotation crop is accepted exactly when every pixel of the clip comes from the source, and
then is the set of those source pixels, for the whole clip as for its parts. -/
theorem rotation_crop_bijective (srcW srcH : UInt32) (dst : Area) (pivot : Point)
    (rotation : Int32) (right : 900 ∣ rotation.toInt) (wide : srcW.toNat ≤ 65535)
    (high : srcH.toNat ≤ 65535) :
    ∃ result flags, rotationCrop srcW srcH dst pivot rotation = some result ∧
      rotation.toInt % 3600 = 900 * flags.quarters ∧
      (result.isSome ↔ dst.pixels.Nonempty ∧
        ∀ p ∈ dst.pixels, unrotate flags pivot p ∈ sourcePixels srcW srcH) ∧
      ∀ crop named, result = some (crop, named) →
        named = flags ∧ Set.BijOn (unrotate flags pivot) dst.pixels crop.pixels ∧
        (crop.width, crop.height) =
          (if flags.quarters % 2 = 0 then (dst.width, dst.height) else (dst.height, dst.width)) ∧
        ∀ left right, Splits dst left right → ∃ leftCrop rightCrop,
          rotationCrop srcW srcH left pivot rotation = some (some (leftCrop, flags)) ∧
          rotationCrop srcW srcH right pivot rotation = some (some (rightCrop, flags)) ∧
          Disjoint leftCrop.pixels rightCrop.pixels ∧
          leftCrop.pixels ∪ rightCrop.pixels = crop.pixels := by
  obtain ⟨flags, known, angle⟩ := rotationFlags_quarter right
  by_cases accepts : dst.Nonempty ∧
      ∀ p ∈ dst.pixels, unrotate flags pivot p ∈ sourcePixels srcW srcH
  · obtain ⟨nonempty, all⟩ := accepts
    obtain ⟨inside, accepted⟩ := rotationCrop_inside nonempty known all
    have image := crop_bijOn nonempty wide high inside
    refine ⟨_, flags, accepted, angle, ?_, ?_⟩
    · exact ⟨fun _ => ⟨pixels_nonempty.mpr nonempty, all⟩, fun _ => rfl⟩
    · intro crop named same
      cases same
      refine ⟨rfl, image, crop_size nonempty wide high inside, ?_⟩
      intro left right split
      have leftNonempty := pixels_nonempty.mp split.leftNonempty
      have rightNonempty := pixels_nonempty.mp split.rightNonempty
      obtain ⟨leftInside, leftAccepted⟩ := rotationCrop_inside leftNonempty known
        fun p member => all p (split.union ▸ Set.mem_union_left _ member)
      obtain ⟨rightInside, rightAccepted⟩ := rotationCrop_inside rightNonempty known
        fun p member => all p (split.union ▸ Set.mem_union_right _ member)
      have leftImage := crop_bijOn leftNonempty wide high leftInside
      have rightImage := crop_bijOn rightNonempty wide high rightInside
      refine ⟨_, _, leftAccepted, rightAccepted, ?_, ?_⟩
      · rw [← leftImage.image_eq, ← rightImage.image_eq]
        exact (Set.disjoint_image_iff unrotate_injective).mpr split.apart
      · rw [← leftImage.image_eq, ← rightImage.image_eq, ← image.image_eq, ← split.union,
          Set.image_union]
  · have refused := rotationCrop_outside known accepts
    refine ⟨none, flags, refused, angle, ?_, nofun⟩
    rw [pixels_nonempty]
    exact ⟨nofun, fun accepting => absurd accepting accepts⟩

theorem rotation_crop_bijective_quarter :
    ∃ result, ∃ flags : MppRotation, rotationCrop 32 16 ⟨-15, 0, 0, 31⟩ ⟨0, 0⟩ (-2700) = some result ∧
      (-2700 : Int32).toInt % 3600 = 900 * flags.quarters ∧ result.isSome := by
  obtain ⟨result, flags, computed, angle, accepts, _⟩ :=
    rotation_crop_bijective 32 16 ⟨-15, 0, 0, 31⟩ ⟨0, 0⟩ (-2700) (by decide) (by decide) (by decide)
  refine ⟨result, flags, computed, angle, ?_⟩
  have evaluated : rotationCrop 32 16 ⟨-15, 0, 0, 31⟩ ⟨0, 0⟩ (-2700) =
      some (some (⟨0, 0, 31, 15⟩, .rotation90)) := by decide
  rw [computed] at evaluated
  cases Option.some.inj evaluated
  rfl

end LvglAic.Ge2d
