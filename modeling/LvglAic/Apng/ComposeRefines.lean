import LvglAic.Apng.Compose

/-! # The canvas shows what the reference draws

The scratch holds the rectangle of the last frame as it was before that frame was drawn, and
outside of the rectangle nothing has changed since; so the part restores the whole.
-/

namespace LvglAic.Apng

open LvglAic.Machine

variable {sizeMax width height stride capacity a b an bn rgba bytes x y rows : ℕ}
  {m n k : Memory} {c : ApngCanvas} {f : ApngFrame} {r : Reference} {s d : Rgba UInt8}
  {value : ℕ → ℕ → UInt8} {p q : Picture (Rgba ℕ)}
  {upper lower : Rgba ℕ}

/-! ## Checks -/

theorem span_some (accepted : span sizeMax width height stride capacity = some bytes) :
    (0 < width ∧ width ≤ 4096) ∧ (0 < height ∧ height ≤ 4096) ∧ width * 4 ≤ stride ∧
      bytes = (height - 1) * stride + width * 4 ∧ bytes ≤ capacity := by
  unfold span at accepted
  split at accepted
  · cases accepted
  · rename_i sizes
    split at accepted
    · cases accepted
    · split at accepted
      · rename_i room
        obtain rfl := Option.some.inj accepted
        simp only [Bool.or_eq_true, decide_eq_true_eq, not_or, not_lt] at sizes
        obtain ⟨⟨⟨⟨left, right⟩, wide⟩, high⟩, narrow⟩ := sizes
        exact ⟨⟨Nat.pos_of_ne_zero left, wide⟩, ⟨Nat.pos_of_ne_zero right, high⟩, narrow, rfl, room⟩
      · cases accepted

theorem separate_apart (apart : separate sizeMax a an b bn = true) : a + an ≤ b ∨ b + bn ≤ a := by
  unfold separate at apart
  split at apart
  · cases apart
  · split at apart
    · have room := of_decide_eq_true apart
      omega
    · have room := of_decide_eq_true apart
      omega

/-- What every canvas keeps that was made. -/
structure ApngCanvas.Laid (sizeMax : ℕ) (c : ApngCanvas) : Prop where
  fits : span sizeMax c.width c.height c.stride c.capacity = some c.bytes
  apart : c.pixels + c.bytes ≤ c.scratch ∨ c.scratch + c.scratchBytes ≤ c.pixels

theorem ApngCanvas.Laid.narrow (laid : c.Laid sizeMax) : c.width * 4 ≤ c.stride :=
  (span_some laid.fits).2.2.1

structure ApngFrame.Inside (f : ApngFrame) (c : ApngCanvas) : Prop where
  right : f.x + f.width ≤ c.width
  low : f.y + f.height ≤ c.height

theorem composable_some (accepted : c.composable sizeMax f rgba stride capacity = some bytes) :
    span sizeMax f.width f.height stride capacity = some bytes ∧ f.Inside c ∧
      (rgba + bytes ≤ c.pixels ∨ c.pixels + c.bytes ≤ rgba) ∧
      (rgba + bytes ≤ c.scratch ∨ c.scratch + c.scratchBytes ≤ rgba) := by
  unfold ApngCanvas.composable at accepted
  split at accepted
  · rename_i taken canvasBytes first second
    split at accepted
    · cases accepted
    · rename_i checks
      obtain rfl := Option.some.inj accepted
      obtain ⟨_, _, _, rfl, _⟩ := span_some second
      simp only [Bool.or_eq_true, decide_eq_true_eq, Bool.not_eq_true', not_or, not_lt,
        Bool.not_eq_false] at checks
      obtain ⟨⟨⟨⟨⟨⟨⟨⟨left, top⟩, wide⟩, high⟩, _⟩, _⟩, _⟩, pixels⟩, scratch⟩ := checks
      exact ⟨first, ⟨by omega, by omega⟩, separate_apart pixels, separate_apart scratch⟩
  · cases accepted

/-! ## Colors -/

/-- The quotient of a rounded mean is no larger than a channel. -/
theorem mean_le {i j weight other : ℕ} (first : i ≤ 255) (second : j ≤ 255)
    (positive : 0 < weight + other) :
    (i * weight + j * other + (weight + other) / 2) / (weight + other) ≤ 255 := by
  have left : i * weight ≤ 255 * weight := Nat.mul_le_mul_right _ first
  have right : j * other ≤ 255 * other := Nat.mul_le_mul_right _ second
  have below : i * weight + j * other + (weight + other) / 2 < 256 * (weight + other) := by omega
  exact Nat.lt_succ_iff.mp ((Nat.div_lt_iff_lt_mul positive).mpr below)

theorem mean_other {j other : ℕ} (positive : 0 < other) : (j * other + other / 2) / other = j := by
  rw [Nat.mul_comm, Nat.mul_add_div positive, Nat.div_eq_of_lt (by omega), Nat.add_zero]

theorem toUInt32_small (i : UInt8) : i.toUInt32.toNat = i.toNat ∧ i.toNat ≤ 255 :=
  ⟨UInt8.toNat_toUInt32 i, Nat.lt_succ_iff.mp i.toNat_lt⟩

/-- The arithmetic of a channel does not wrap. -/
theorem blendChannel_toNat {i j sa da : UInt8} {inverse alpha : UInt32}
    (inverseIs : inverse.toNat = 255 - sa.toNat)
    (alphaIs : alpha.toNat = sa.toNat * 255 + da.toNat * (255 - sa.toNat)) (positive : 0 < alpha.toNat) :
    (blendChannel i.toUInt32 j.toUInt32 sa.toUInt32 da.toUInt32 inverse alpha).toNat =
      (i.toNat * sa.toNat * 255 + j.toNat * da.toNat * (255 - sa.toNat) + alpha.toNat / 2) /
        alpha.toNat := by
  obtain ⟨iIs, iSmall⟩ := toUInt32_small i
  obtain ⟨jIs, jSmall⟩ := toUInt32_small j
  obtain ⟨saIs, saSmall⟩ := toUInt32_small sa
  obtain ⟨daIs, daSmall⟩ := toUInt32_small da
  have first : i.toNat * sa.toNat ≤ 255 * 255 := Nat.mul_le_mul iSmall saSmall
  have second : j.toNat * da.toNat ≤ 255 * 255 := Nat.mul_le_mul jSmall daSmall
  have third : j.toNat * da.toNat * (255 - sa.toNat) ≤ 255 * 255 * 255 :=
    Nat.mul_le_mul second (Nat.sub_le _ _)
  have fourth : da.toNat * (255 - sa.toNat) ≤ 255 * 255 := Nat.mul_le_mul daSmall (Nat.sub_le _ _)
  have quotient : (i.toNat * sa.toNat * 255 + j.toNat * da.toNat * (255 - sa.toNat) +
      alpha.toNat / 2) / alpha.toNat ≤ 255 := by
    rw [alphaIs] at positive ⊢
    rw [Nat.mul_assoc i.toNat, Nat.mul_assoc j.toNat]
    exact mean_le iSmall jSmall positive
  have top : (255 : UInt32).toNat = 255 := rfl
  have two : (2 : UInt32).toNat = 2 := rfl
  unfold blendChannel
  rw [UInt32.toNat_toUInt8, UInt32.toNat_div, UInt32.toNat_add, UInt32.toNat_add, UInt32.toNat_mul,
    UInt32.toNat_mul, UInt32.toNat_mul, UInt32.toNat_mul, UInt32.toNat_div, iIs, jIs, saIs, daIs,
    inverseIs, top, two, Nat.mod_eq_of_lt (by omega : i.toNat * sa.toNat < 2 ^ 32),
    Nat.mod_eq_of_lt (by omega : j.toNat * da.toNat < 2 ^ 32),
    Nat.mod_eq_of_lt (by omega : i.toNat * sa.toNat * 255 < 2 ^ 32),
    Nat.mod_eq_of_lt (by omega : j.toNat * da.toNat * (255 - sa.toNat) < 2 ^ 32),
    Nat.mod_eq_of_lt (by omega : i.toNat * sa.toNat * 255 +
      j.toNat * da.toNat * (255 - sa.toNat) < 2 ^ 32),
    Nat.mod_eq_of_lt (by omega : i.toNat * sa.toNat * 255 +
      j.toNat * da.toNat * (255 - sa.toNat) + alpha.toNat / 2 < 2 ^ 32),
    Nat.mod_eq_of_lt (Nat.lt_succ_of_le quotient)]

theorem over_clear (zero : upper.alpha = 0) : upper.over lower = lower := by
  obtain ⟨red, green, blue, alpha⟩ := lower
  unfold Rgba.over
  by_cases clear : alpha = 0
  · subst clear
    refine if_pos ?_
    rw [zero, Nat.zero_mul]
  · have positive : 0 < alpha * 255 := by omega
    simp only [zero, Nat.mul_zero, Nat.zero_mul, Nat.zero_add, Nat.sub_zero, Nat.mul_assoc]
    rw [if_neg (by omega), mean_other positive, mean_other positive, mean_other positive]
    congr 1
    omega

theorem over_solid (whole : upper.alpha = 255) : upper.over lower = upper := by
  obtain ⟨red, green, blue, alpha⟩ := upper
  subst whole
  have mean : ∀ i : ℕ, (i * 255 * 255 + 255 * 255 / 2) / (255 * 255) = i := fun i => by omega
  unfold Rgba.over
  simp only [Nat.sub_self, Nat.mul_zero, Nat.add_zero, mean]
  rfl

/-- What a pixel is after blending. -/
def blended (s d : Rgba UInt8) : Rgba UInt8 := (blendPixel s d).getD d

/-- The two shortcuts of the blending give what the formula does. -/
theorem blended_over : (blended s d).map UInt8.toNat = (s.map UInt8.toNat).over (d.map UInt8.toNat) := by
  obtain ⟨saIs, saSmall⟩ := toUInt32_small s.alpha
  obtain ⟨daIs, daSmall⟩ := toUInt32_small d.alpha
  have fourth : d.alpha.toNat * (255 - s.alpha.toNat) ≤ 255 * 255 :=
    Nat.mul_le_mul daSmall (Nat.sub_le _ _)
  have top : (255 : UInt32).toNat = 255 := rfl
  unfold blended blendPixel
  by_cases none : s.alpha.toUInt32 = 0
  · have zero : s.alpha.toNat = 0 := by rw [← saIs, none]; rfl
    rw [if_pos none]
    exact (over_clear zero).symm
  · rw [if_neg none]
    by_cases full : s.alpha.toUInt32 = 255
    · have whole : s.alpha.toNat = 255 := by rw [← saIs, full]; rfl
      rw [if_pos full]
      exact (over_solid whole).symm
    · rw [if_neg full]
      have some : 0 < s.alpha.toNat := by
        refine Nat.pos_of_ne_zero fun zero => none ?_
        rw [← UInt32.toNat_inj, saIs, zero]
        rfl
      have inverseIs : (255 - s.alpha.toUInt32).toNat = 255 - s.alpha.toNat := by
        rw [UInt32.toNat_sub_of_le _ _ (by rw [UInt32.le_iff_toNat_le, saIs, top]; exact saSmall),
          saIs, top]
      have alphaIs : (s.alpha.toUInt32 * 255 + d.alpha.toUInt32 * (255 - s.alpha.toUInt32)).toNat =
          s.alpha.toNat * 255 + d.alpha.toNat * (255 - s.alpha.toNat) := by
        rw [UInt32.toNat_add, UInt32.toNat_mul, UInt32.toNat_mul, inverseIs, saIs, daIs, top,
          Nat.mod_eq_of_lt (by omega : s.alpha.toNat * 255 < 2 ^ 32),
          Nat.mod_eq_of_lt (by omega : d.alpha.toNat * (255 - s.alpha.toNat) < 2 ^ 32),
          Nat.mod_eq_of_lt (by omega)]
      have bounded : s.alpha.toNat * 255 + d.alpha.toNat * (255 - s.alpha.toNat) ≤ 255 * 255 := by
        have scaled : d.alpha.toNat * (255 - s.alpha.toNat) ≤ 255 * (255 - s.alpha.toNat) :=
          Nat.mul_le_mul_right _ daSmall
        omega
      have positive : 0 < (s.alpha.toUInt32 * 255 +
          d.alpha.toUInt32 * (255 - s.alpha.toUInt32)).toNat := by
        rw [alphaIs]
        omega
      have nonzero : s.alpha.toNat * 255 + d.alpha.toNat * (255 - s.alpha.toNat) ≠ 0 := by omega
      have channel : ∀ i j : UInt8, (blendChannel i.toUInt32 j.toUInt32 s.alpha.toUInt32
          d.alpha.toUInt32 (255 - s.alpha.toUInt32) (s.alpha.toUInt32 * 255 +
            d.alpha.toUInt32 * (255 - s.alpha.toUInt32))).toNat =
          (i.toNat * s.alpha.toNat * 255 + j.toNat * d.alpha.toNat * (255 - s.alpha.toNat) +
            (s.alpha.toNat * 255 + d.alpha.toNat * (255 - s.alpha.toNat)) / 2) /
            (s.alpha.toNat * 255 + d.alpha.toNat * (255 - s.alpha.toNat)) := by
        intro i j
        rw [blendChannel_toNat inverseIs alphaIs positive, alphaIs]
      have half : (127 : UInt32).toNat = 127 := rfl
      have last : ((s.alpha.toUInt32 * 255 + d.alpha.toUInt32 * (255 - s.alpha.toUInt32) + 127) /
          255).toUInt8.toNat =
          (s.alpha.toNat * 255 + d.alpha.toNat * (255 - s.alpha.toNat) + 127) / 255 := by
        rw [UInt32.toNat_toUInt8, UInt32.toNat_div, UInt32.toNat_add, alphaIs, half, top,
          Nat.mod_eq_of_lt (by omega : s.alpha.toNat * 255 +
            d.alpha.toNat * (255 - s.alpha.toNat) + 127 < 2 ^ 32), Nat.mod_eq_of_lt (by omega)]
      refine Eq.trans ?_ (if_neg nonzero).symm
      exact congr (congr (congrArg₂ Rgba.mk (channel s.red d.red) (channel s.green d.green))
        (channel s.blue d.blue)) last

/-! ## Rectangles -/

/-- The address of the first byte of a frame's rectangle. -/
def ApngCanvas.corner (c : ApngCanvas) (f : ApngFrame) : ℕ := c.pixels + (f.y * c.stride + f.x * 4)

theorem corner_row (c : ApngCanvas) (f : ApngFrame) (y : ℕ) :
    c.pixels + ((f.y + y) * c.stride + f.x * 4) = c.corner f + y * c.stride := by
  unfold ApngCanvas.corner
  rw [Nat.add_mul]
  omega

/-- Rows of the rectangle are inside of the canvas. -/
theorem row_fits (inside : f.Inside c) (few : y < f.height) :
    (f.y + y) * c.stride + f.x * 4 + f.width * 4 ≤ c.bytes := by
  obtain ⟨right, low⟩ := inside
  have above : (f.y + y) * c.stride ≤ (c.height - 1) * c.stride :=
    Nat.mul_le_mul_right _ (by omega)
  unfold ApngCanvas.bytes
  omega

theorem saved_fits (inside : f.Inside c) (few : y < f.height) :
    y * f.width * 4 + f.width * 4 ≤ c.scratchBytes := by
  obtain ⟨right, low⟩ := inside
  have area : (y + 1) * f.width ≤ c.height * c.width := Nat.mul_le_mul (by omega) (by omega)
  rw [Nat.succ_mul] at area
  unfold ApngCanvas.scratchBytes
  rw [Nat.mul_comm c.width]
  omega

def SamePixels (c : ApngCanvas) (m n : Memory) : Prop :=
  ∀ a, c.pixels ≤ a → a < c.pixels + c.bytes → n a = m a

def SameScratch (c : ApngCanvas) (m n : Memory) : Prop :=
  ∀ a, c.scratch ≤ a → a < c.scratch + c.scratchBytes → n a = m a

/-- Only the pixels and the scratch are written. -/
def Confined (c : ApngCanvas) (m n : Memory) : Prop := ∀ a, ¬c.Owns a → n a = m a

theorem Confined.refl (c : ApngCanvas) (m : Memory) : Confined c m m := fun _ _ => rfl

theorem Confined.trans (first : Confined c m n) (second : Confined c n k) : Confined c m k :=
  fun a free => (second a free).trans (first a free)

/-- What lies apart from the canvas and the scratch is not owned. -/
theorem not_owns (apart : a < c.pixels ∨ c.pixels + c.bytes ≤ a)
    (scratch : a < c.scratch ∨ c.scratch + c.scratchBytes ≤ a) : ¬c.Owns a := by
  rintro (⟨y, low, i, left, rfl⟩ | within)
  · have row : y * c.stride + i < c.bytes := row_inside low left
    omega
  · omega

/-- Painting rows of the rectangle leaves the scratch. -/
theorem canvas_painted (laid : c.Laid sizeMax) (inside : f.Inside c) (few : rows ≤ f.height)
    (painted : Painted m n (c.corner f) c.stride (f.width * 4) rows value) :
    SameScratch c m n ∧ Confined c m n := by
  have placed : ∀ y, y < rows → ∀ i, i < f.width * 4 →
      c.corner f + (y * c.stride + i) = c.pixels + ((f.y + y) * c.stride + (f.x * 4 + i)) := by
    intro y below i left
    have start := corner_row c f y
    omega
  constructor
  · intro a low high
    refine painted.outside a fun y below i left same => ?_
    have row := row_fits inside (below.trans_le few)
    have place := placed y below i left
    have apart := laid.apart
    omega
  · intro a free
    refine painted.outside a fun y below i left same => free (.inl ⟨f.y + y, ?_, f.x * 4 + i, ?_, ?_⟩)
    · have := inside.low
      omega
    · have := inside.right
      omega
    · exact same.trans (placed y below i left)

/-- Painting rows of the scratch leaves the pixels. -/
theorem scratch_painted (laid : c.Laid sizeMax) (inside : f.Inside c) (few : rows ≤ f.height)
    (painted : Painted m n c.scratch (f.width * 4) (f.width * 4) rows value) :
    SamePixels c m n ∧ Confined c m n := by
  have placed : ∀ y, y < rows → ∀ i, i < f.width * 4 →
      y * (f.width * 4) + i < c.scratchBytes := by
    intro y below i left
    have saved := saved_fits inside (below.trans_le few)
    rw [Nat.mul_assoc] at saved
    omega
  constructor
  · intro a low high
    refine painted.outside a fun y below i left same => ?_
    have place := placed y below i left
    have apart := laid.apart
    omega
  · intro a free
    refine painted.outside a fun y below i left same => free (.inr ?_)
    have place := placed y below i left
    omega

theorem rectangle_clear (laid : c.Laid sizeMax) (inside : f.Inside c) :
    ∃ n, c.rectangle f .clear m = some n ∧
      Painted m n (c.corner f) c.stride (f.width * 4) f.height fun _ _ => 0 := by
  have narrow : f.width * 4 ≤ c.stride := by
    have := laid.narrow
    have := inside.right
    omega
  refine Painted.loop narrow fun y few n painted => ?_
  rw [← corner_row]
  exact Painted.fill (row_fits inside few)

theorem rectangle_restore (laid : c.Laid sizeMax) (inside : f.Inside c) :
    ∃ n, c.rectangle f .restore m = some n ∧
      Painted m n (c.corner f) c.stride (f.width * 4) f.height
        fun y i => m (c.scratch + (y * (f.width * 4) + i)) := by
  have narrow : f.width * 4 ≤ c.stride := by
    have := laid.narrow
    have := inside.right
    omega
  refine Painted.loop narrow fun y few n painted => ?_
  obtain ⟨k, ran, copied⟩ := Painted.copy n c.pixels c.scratch (row_fits inside few)
    (saved_fits inside few)
  refine ⟨k, ran, ?_⟩
  rw [← corner_row]
  refine copied.congr fun _ _ i left => ?_
  have saved := saved_fits inside few
  have same := (canvas_painted laid inside few.le painted).1 (c.scratch + (y * f.width * 4 + i))
    (by omega) (by omega)
  rw [Nat.add_assoc, same, Nat.mul_assoc]

theorem rectangle_save (laid : c.Laid sizeMax) (inside : f.Inside c) :
    ∃ n, c.rectangle f .save m = some n ∧
      Painted m n c.scratch (f.width * 4) (f.width * 4) f.height
        fun y i => m (c.corner f + (y * c.stride + i)) := by
  refine Painted.loop le_rfl fun y few n painted => ?_
  obtain ⟨k, ran, copied⟩ := Painted.copy n c.scratch c.pixels (saved_fits inside few)
    (row_fits inside few)
  refine ⟨k, ran, ?_⟩
  rw [← Nat.mul_assoc]
  refine copied.congr fun _ _ i left => ?_
  have row := row_fits inside few
  have place := corner_row c f y
  have same := (scratch_painted laid inside few.le painted).1
    (c.pixels + ((f.y + y) * c.stride + f.x * 4) + i) (by omega) (by omega)
  rw [same, place, Nat.add_assoc]

/-! ## Pixels -/

def bytePixel (m : Memory) (a : ℕ) : Rgba UInt8 := ⟨m a, m (a + 1), m (a + 2), m (a + 3)⟩

theorem loadedPixel_eq (m : Memory) (a : ℕ) : loadedPixel m a = (bytePixel m a).map UInt8.toNat := rfl

theorem bytePixel_congr (same : ∀ i, i < 4 → n (a + i) = m (b + i)) : bytePixel n a = bytePixel m b := by
  have first := same 0 (by omega)
  have second := same 1 (by omega)
  have third := same 2 (by omega)
  have fourth := same 3 (by omega)
  unfold bytePixel
  rw [second, third, fourth]
  exact congrArg (fun first => Rgba.mk first _ _ _) first

/-- The bytes of a pixel in a painted rectangle. -/
theorem painted_covered (painted : Painted m n (c.corner f) c.stride (f.width * 4) f.height value)
    (covers : f.covers x y) {i : ℕ} (small : i < 4) :
    n (c.pixels + (y * c.stride + x * 4) + i) = value (y - f.y) ((x - f.x) * 4 + i) := by
  obtain ⟨⟨left, right⟩, high, low⟩ := covers
  have found := painted.inside (y - f.y) (by omega) ((x - f.x) * 4 + i) (by omega)
  have line : f.y * c.stride + (y - f.y) * c.stride = y * c.stride := by
    rw [← Nat.add_mul, Nat.add_sub_cancel' high]
  rw [← found]
  congr 1
  unfold ApngCanvas.corner
  omega

/-- Pixels beside the rectangle stay. -/
theorem painted_uncovered (laid : c.Laid sizeMax) (inside : f.Inside c)
    (painted : Painted m n (c.corner f) c.stride (f.width * 4) f.height value)
    (left : x < c.width) (beside : ¬f.covers x y) :
    bytePixel n (c.pixels + (y * c.stride + x * 4)) =
      bytePixel m (c.pixels + (y * c.stride + x * 4)) := by
  refine bytePixel_congr fun i small => painted.outside _ fun z few j within same => beside ?_
  have narrow := laid.narrow
  have right := inside.right
  have start := corner_row c f z
  have meet : y * c.stride + (x * 4 + i) = (f.y + z) * c.stride + (f.x * 4 + j) := by omega
  obtain ⟨rfl, column⟩ := row_unique (by omega) (by omega) meet
  exact ⟨⟨by omega, by omega⟩, by omega, by omega⟩

theorem SamePixels.pixel (same : SamePixels c m n) (left : x < c.width) (low : y < c.height) :
    bytePixel n (c.pixels + (y * c.stride + x * 4)) =
      bytePixel m (c.pixels + (y * c.stride + x * 4)) := by
  refine bytePixel_congr fun i small => same _ (by omega) ?_
  have row : y * c.stride + (x * 4 + i) < c.bytes := row_inside low (by omega)
  omega

/-! ## Drawing -/

theorem channel_bytePixel {i : ℕ} (small : i < 4) : (bytePixel m a).channel i = m (a + i) := by
  match i, small with
  | 0, _ => rfl
  | 1, _ => rfl
  | 2, _ => rfl
  | 3, _ => rfl

theorem loadPixel_eq {base size start : ℕ} (room : start + 4 ≤ size) :
    loadPixel m base size start = some (bytePixel m (base + start)) := if_pos room

theorem storePixel_painted (m : Memory) (base : ℕ) (color : Rgba UInt8) {size start : ℕ}
    (room : start + 4 ≤ size) :
    ∃ k, storePixel m base size start color = some k ∧
      PaintedRow m k (base + start) 4 fun i => color.channel i := by
  refine ⟨_, if_pos room, ?_, ?_⟩
  · intro y zero i small
    obtain rfl := Nat.lt_one_iff.mp zero
    rw [Nat.zero_mul, Nat.zero_add]
    refine (if_pos (by omega)).trans ?_
    rw [Nat.add_sub_cancel_left]
  · intro a apart
    refine if_neg fun within => ?_
    exact apart 0 Nat.one_pos (a - (base + start)) (by omega) (by omega)

/-- One pixel of a blended row, of which the pixels before it are painted. -/
theorem blendPlace_painted {src dst : ℕ} (given : src + x * 4 + 4 ≤ bytes)
    (room : dst + x * 4 + 4 ≤ c.bytes) (apart : rgba + bytes ≤ c.pixels ∨ c.pixels + c.bytes ≤ rgba)
    (painted : Painted m n (c.pixels + dst) 4 4 x value) :
    ∃ k, c.blendPlace rgba bytes src dst n x = some k ∧
      PaintedRow n k (c.pixels + dst + x * 4) 4 fun i =>
        (blended (bytePixel m (rgba + (src + x * 4)))
          (bytePixel m (c.pixels + (dst + x * 4)))).channel i := by
  have source : bytePixel n (rgba + (src + x * 4)) = bytePixel m (rgba + (src + x * 4)) :=
    bytePixel_congr fun i small => painted.outside _ fun z left j low => by omega
  have target : bytePixel n (c.pixels + (dst + x * 4)) = bytePixel m (c.pixels + (dst + x * 4)) :=
    bytePixel_congr fun i small => painted.outside _ fun z left j low => by omega
  unfold ApngCanvas.blendPlace
  rw [loadPixel_eq given, loadPixel_eq room, source, target]
  simp only [Option.bind_eq_bind, Option.bind_some]
  cases result : blendPixel (bytePixel m (rgba + (src + x * 4)))
      (bytePixel m (c.pixels + (dst + x * 4))) with
  | none =>
      refine ⟨n, rfl, fun y zero i small => ?_, fun _ _ => rfl⟩
      obtain rfl := Nat.lt_one_iff.mp zero
      unfold blended
      rw [result, Option.getD_none, ← target, channel_bytePixel small, Nat.zero_mul, Nat.zero_add,
        Nat.add_assoc c.pixels]
  | some color =>
      obtain ⟨k, stored, one⟩ := storePixel_painted n c.pixels color room
      refine ⟨k, stored, ?_⟩
      unfold blended
      rw [result, Option.getD_some, Nat.add_assoc]
      exact one

/-- The bytes that a frame draws in its rectangle. -/
def drawValue (c : ApngCanvas) (f : ApngFrame) (rgba stride : ℕ) (m : Memory) (y i : ℕ) : UInt8 :=
  if f.blend = 0 then m (rgba + (y * stride + i))
  else
    (blended (bytePixel m (rgba + (y * stride + i / 4 * 4)))
      (bytePixel m (c.corner f + (y * c.stride + i / 4 * 4)))).channel (i % 4)

theorem draw_painted (laid : c.Laid sizeMax)
    (accepted : c.composable sizeMax f rgba stride capacity = some bytes) :
    ∃ n, (List.range f.height).foldlM (c.drawRow f rgba stride bytes) m = some n ∧
      Painted m n (c.corner f) c.stride (f.width * 4) f.height (drawValue c f rgba stride m) := by
  obtain ⟨taken, inside, pixels, scratch⟩ := composable_some accepted
  obtain ⟨_, _, thin, size, _⟩ := span_some taken
  have narrow : f.width * 4 ≤ c.stride := by
    have := laid.narrow
    have := inside.right
    omega
  refine Painted.loop narrow fun y few n painted => ?_
  have row := row_fits inside few
  have given : y * stride + f.width * 4 ≤ bytes := by
    have above : y * stride ≤ (f.height - 1) * stride := Nat.mul_le_mul_right _ (by omega)
    omega
  have confined := (canvas_painted laid inside few.le painted).2
  have source : ∀ i, i < f.width * 4 → n (rgba + (y * stride + i)) = m (rgba + (y * stride + i)) :=
    fun i left => confined _ (not_owns (by omega) (by omega))
  have start := corner_row c f y
  rw [← start]
  unfold ApngCanvas.drawRow
  by_cases plain : f.blend = 0
  · obtain ⟨k, ran, copied⟩ := Painted.copy n c.pixels rgba row given
    refine ⟨k, (if_pos plain).trans ran, copied.congr fun _ _ i left => ?_⟩
    unfold drawValue
    rw [if_pos plain, Nat.add_assoc]
    exact source i left
  · have blends : ∃ k, (List.range f.width).foldlM
        (c.blendPlace rgba bytes (y * stride) ((f.y + y) * c.stride + f.x * 4)) n = some k ∧
        Painted n k (c.pixels + ((f.y + y) * c.stride + f.x * 4)) 4 4 f.width fun x i =>
          (blended (bytePixel n (rgba + (y * stride + x * 4)))
            (bytePixel n (c.pixels + ((f.y + y) * c.stride + f.x * 4 + x * 4)))).channel i :=
      Painted.loop le_rfl fun x left k before =>
        blendPlace_painted (by omega) (by omega) pixels before
    obtain ⟨k, ran, blent⟩ := blends
    refine ⟨k, (if_neg plain).trans ran, blent.row.congr fun _ _ i left => ?_⟩
    have fromSource : bytePixel n (rgba + (y * stride + i / 4 * 4)) =
        bytePixel m (rgba + (y * stride + i / 4 * 4)) := by
      refine bytePixel_congr fun j small => ?_
      have same := source (i / 4 * 4 + j) (by omega)
      rw [← Nat.add_assoc, ← Nat.add_assoc] at same
      rw [← Nat.add_assoc]
      exact same
    have untouched : bytePixel n (c.pixels + ((f.y + y) * c.stride + f.x * 4 + i / 4 * 4)) =
        bytePixel m (c.corner f + (y * c.stride + i / 4 * 4)) := by
      have place : c.pixels + ((f.y + y) * c.stride + f.x * 4 + i / 4 * 4) =
          c.corner f + (y * c.stride + i / 4 * 4) := by omega
      rw [place]
      refine bytePixel_congr fun j small => painted.outside _ fun z above l low same => ?_
      have meet : y * c.stride + (i / 4 * 4 + j) = z * c.stride + l := by omega
      obtain ⟨rows, _⟩ := row_unique (by omega) (by omega) meet
      omega
    unfold drawValue
    rw [if_neg plain]
    exact congrArg (fun color => Rgba.channel color (i % 4)) (congrArg₂ blended fromSource untouched)

/-- The pixels of a rectangle that was drawn. -/
theorem drawn_pixel (painted : Painted m n (c.corner f) c.stride (f.width * 4) f.height
      (drawValue c f rgba stride m)) (covers : f.covers x y) :
    loadedPixel n (c.pixels + (y * c.stride + x * 4)) =
      if f.blend = 0 then loadedPixel m (rgba + ((y - f.y) * stride + (x - f.x) * 4))
      else (loadedPixel m (rgba + ((y - f.y) * stride + (x - f.x) * 4))).over
        (loadedPixel m (c.pixels + (y * c.stride + x * 4))) := by
  have found : ∀ i, i < 4 → n (c.pixels + (y * c.stride + x * 4) + i) =
      drawValue c f rgba stride m (y - f.y) ((x - f.x) * 4 + i) := fun i small =>
    painted_covered painted covers small
  by_cases plain : f.blend = 0
  · rw [if_pos plain, loadedPixel_eq, loadedPixel_eq]
    refine congrArg (fun color : Rgba UInt8 => color.map UInt8.toNat) (bytePixel_congr fun i small => ?_)
    rw [found i small, drawValue, if_pos plain]
    congr 1
    omega
  · rw [if_neg plain, loadedPixel_eq, loadedPixel_eq, loadedPixel_eq, ← blended_over]
    refine congrArg (fun color : Rgba UInt8 => color.map UInt8.toNat) ?_
    have target : c.corner f + ((y - f.y) * c.stride + (x - f.x) * 4) =
        c.pixels + (y * c.stride + x * 4) := by
      obtain ⟨⟨left, _⟩, high, _⟩ := covers
      have line : f.y * c.stride + (y - f.y) * c.stride = y * c.stride := by
        rw [← Nat.add_mul, Nat.add_sub_cancel' high]
      unfold ApngCanvas.corner
      omega
    have byte : ∀ i, i < 4 → n (c.pixels + (y * c.stride + x * 4) + i) =
        (blended (bytePixel m (rgba + ((y - f.y) * stride + (x - f.x) * 4)))
          (bytePixel m (c.pixels + (y * c.stride + x * 4)))).channel i := by
      intro i small
      have column : ((x - f.x) * 4 + i) / 4 * 4 = (x - f.x) * 4 := by omega
      have rest : ((x - f.x) * 4 + i) % 4 = i := by omega
      rw [found i small, drawValue, if_neg plain, column, rest, target]
    have first := byte 0 (by omega)
    have second := byte 1 (by omega)
    have third := byte 2 (by omega)
    have fourth := byte 3 (by omega)
    unfold bytePixel at *
    rw [Nat.add_zero] at first
    rw [first, second, third, fourth]
    rfl

/-! ## The reference -/

/-- The canvas shows the picture of the reference, and can undo its last frame. -/
structure Mirrors (sizeMax : ℕ) (c : ApngCanvas) (m : Memory) (r : Reference) : Prop where
  laid : c.Laid sizeMax
  shown : (c.picture m).Agrees r.shown
  fresh : c.havePrevious = false → r.undo = none
  undo : c.havePrevious = true → c.previous.Inside c ∧ ∃ before, r.undo = some (c.previous, before) ∧
    before.width = c.width ∧ before.height = c.height ∧
    (∀ x y, x < c.width → y < c.height → ¬c.previous.covers x y →
      r.shown.pixel x y = before.pixel x y) ∧
    (c.previous.dispose = 2 → ∀ x y, c.previous.covers x y →
      loadedPixel m (c.scratch + ((y - c.previous.y) * (c.previous.width * 4) +
        (x - c.previous.x) * 4)) = before.pixel x y)

theorem confined_scratch (same : SameScratch c m n) (inside : f.Inside c) (covers : f.covers x y) :
    loadedPixel n (c.scratch + ((y - f.y) * (f.width * 4) + (x - f.x) * 4)) =
      loadedPixel m (c.scratch + ((y - f.y) * (f.width * 4) + (x - f.x) * 4)) := by
  obtain ⟨⟨left, right⟩, high, low⟩ := covers
  have saved := saved_fits (y := y - f.y) inside (by omega)
  rw [Nat.mul_assoc] at saved
  rw [loadedPixel_eq, loadedPixel_eq]
  refine congrArg (fun color : Rgba UInt8 => color.map UInt8.toNat) (bytePixel_congr fun i small => ?_)
  exact same _ (by omega) (by omega)

/-- The last frame is undone as the reference undoes it. -/
theorem undo_disposed (mirrors : Mirrors sizeMax c m r) :
    ∃ n, c.undo m = some n ∧ Confined c m n ∧ (c.picture n).Agrees r.disposed := by
  obtain ⟨laid, shown, fresh, undo⟩ := mirrors
  unfold ApngCanvas.undo
  cases have_ : c.havePrevious with
  | false =>
      refine ⟨m, rfl, .refl c m, ?_⟩
      unfold Reference.disposed
      rw [fresh have_]
      exact shown
  | true =>
      obtain ⟨inside, before, kept, wide, high, beside, saved⟩ := undo have_
      rw [if_pos rfl]
      unfold Reference.disposed
      rw [kept]
      change ∃ n, _ ∧ _ ∧ (c.picture n).Agrees (if c.previous.dispose = 1 then _ else _)
      by_cases background : c.previous.dispose = 1
      · obtain ⟨n, ran, painted⟩ := rectangle_clear (m := m) laid inside
        refine ⟨n, (if_pos background).trans ran, (canvas_painted laid inside le_rfl painted).2, ?_⟩
        rw [if_pos background]
        refine ⟨shown.width, shown.height, fun x y left low => ?_⟩
        change loadedPixel n (c.pixels + (y * c.stride + x * 4)) =
          if c.previous.covers x y then Rgba.clear else r.shown.pixel x y
        by_cases covers : c.previous.covers x y
        · rw [if_pos covers, loadedPixel]
          have zero : ∀ i, i < 4 → n (c.pixels + (y * c.stride + x * 4) + i) = 0 :=
            fun i small => painted_covered painted covers small
          rw [zero 1 (by omega), zero 2 (by omega), zero 3 (by omega)]
          exact congrArg (fun byte : UInt8 => Rgba.mk byte.toNat 0 0 0) (zero 0 (by omega))
        · rw [if_neg covers, loadedPixel_eq, painted_uncovered laid inside painted left covers]
          exact shown.pixel x y left low
      · rw [if_neg background, if_neg background]
        by_cases previous : c.previous.dispose = 2
        · obtain ⟨n, ran, painted⟩ := rectangle_restore (m := m) laid inside
          refine ⟨n, (if_pos previous).trans ran, (canvas_painted laid inside le_rfl painted).2, ?_⟩
          rw [if_pos previous]
          refine ⟨wide.symm, high.symm, fun x y left low => ?_⟩
          change loadedPixel n (c.pixels + (y * c.stride + x * 4)) = before.pixel x y
          by_cases covers : c.previous.covers x y
          · rw [← saved previous x y covers, loadedPixel_eq, loadedPixel_eq]
            refine congrArg (fun color : Rgba UInt8 => color.map UInt8.toNat)
              (bytePixel_congr fun i small => ?_)
            rw [painted_covered painted covers small]
            congr 1
            omega
          · rw [loadedPixel_eq, painted_uncovered laid inside painted left covers,
              ← beside x y left low covers]
            exact shown.pixel x y left low
        · refine ⟨m, if_neg previous, .refl c m, ?_⟩
          rw [if_neg previous]
          exact shown

/-- A canvas that has drawn a frame. -/
def ApngCanvas.drew (c : ApngCanvas) (f : ApngFrame) : ApngCanvas :=
  { c with previous := f, havePrevious := true }

/-- Saving for a later undo writes to the scratch only. -/
theorem save_rectangle (laid : c.Laid sizeMax) (inside : f.Inside c) :
    ∃ n, (if f.dispose = 2 then c.rectangle f .save m else some m) = some n ∧ SamePixels c m n ∧
      Confined c m n ∧ (f.dispose = 2 → ∀ x y, f.covers x y →
        loadedPixel n (c.scratch + ((y - f.y) * (f.width * 4) + (x - f.x) * 4)) =
          loadedPixel m (c.pixels + (y * c.stride + x * 4))) := by
  by_cases previous : f.dispose = 2
  · obtain ⟨n, ran, painted⟩ := rectangle_save (m := m) laid inside
    obtain ⟨same, confined⟩ := scratch_painted laid inside le_rfl painted
    refine ⟨n, (if_pos previous).trans ran, same, confined, fun _ x y covers => ?_⟩
    obtain ⟨⟨left, right⟩, high, low⟩ := covers
    rw [loadedPixel_eq, loadedPixel_eq]
    refine congrArg (fun color : Rgba UInt8 => color.map UInt8.toNat)
      (bytePixel_congr fun i small => ?_)
    have found := painted.inside (y - f.y) (by omega) ((x - f.x) * 4 + i) (by omega)
    rw [← Nat.add_assoc, ← Nat.add_assoc] at found
    rw [← Nat.add_assoc, found]
    congr 1
    have line : f.y * c.stride + (y - f.y) * c.stride = y * c.stride := by
      rw [← Nat.add_mul, Nat.add_sub_cancel' high]
    unfold ApngCanvas.corner
    omega
  · exact ⟨m, if_neg previous, fun _ _ _ => rfl, .refl c m, fun same => absurd same previous⟩

/-- Composing a frame that passes the checks draws it as the reference does. -/
theorem compose_drawn (mirrors : Mirrors sizeMax c m r)
    (accepted : c.composable sizeMax f rgba stride capacity = some bytes) :
    ∃ t, c.compose sizeMax f rgba stride capacity m = some (true, c.drew f, t) ∧ Confined c m t ∧
      Mirrors sizeMax (c.drew f) t (r.draw f (pictureAt m rgba f.width f.height stride)) := by
  have laid := mirrors.laid
  obtain ⟨taken, inside, pixels, scratch⟩ := composable_some accepted
  obtain ⟨_, _, thin, size, _⟩ := span_some taken
  obtain ⟨n, undone, first, disposed⟩ := undo_disposed mirrors
  obtain ⟨k, saves, same, second, saved⟩ := save_rectangle (m := n) laid inside
  obtain ⟨t, draws, painted⟩ := draw_painted (m := k) laid accepted
  obtain ⟨scratchSame, third⟩ := canvas_painted laid inside le_rfl painted
  have source : ∀ x y, x < f.width → y < f.height →
      loadedPixel k (rgba + (y * stride + x * 4)) = loadedPixel m (rgba + (y * stride + x * 4)) := by
    intro x y left low
    rw [loadedPixel_eq, loadedPixel_eq]
    refine congrArg (fun color : Rgba UInt8 => color.map UInt8.toNat)
      (bytePixel_congr fun i small => ?_)
    have row : y * stride + (x * 4 + i) < (f.height - 1) * stride + f.width * 4 :=
      row_inside low (by omega)
    exact (first.trans second) _ (not_owns (by omega) (by omega))
  have kept : ∀ x y, x < c.width → y < c.height →
      loadedPixel k (c.pixels + (y * c.stride + x * 4)) = r.disposed.pixel x y := by
    intro x y left low
    rw [loadedPixel_eq, same.pixel left low]
    exact disposed.pixel x y left low
  have beside : ∀ x y, x < c.width → y < c.height → ¬f.covers x y →
      loadedPixel t (c.pixels + (y * c.stride + x * 4)) = r.disposed.pixel x y := by
    intro x y left low out
    rw [loadedPixel_eq, painted_uncovered laid inside painted left out]
    exact kept x y left low
  refine ⟨t, ?_, (first.trans second).trans third, ⟨laid.fits, laid.apart⟩, ?_, ?_, ?_⟩
  · unfold ApngCanvas.compose
    rw [accepted]
    change (c.undo m).bind _ = _
    rw [undone, Option.bind_some]
    change Option.bind (if f.dispose = 2 then c.rectangle f .save n else some n) _ = _
    rw [saves, Option.bind_some]
    change Option.bind ((List.range f.height).foldlM (c.drawRow f rgba stride bytes) k) _ = _
    rw [draws]
    rfl
  · refine ⟨disposed.width, disposed.height, fun x y left low => ?_⟩
    change loadedPixel t (c.pixels + (y * c.stride + x * 4)) = if f.covers x y then
      if f.blend = 0 then loadedPixel m (rgba + ((y - f.y) * stride + (x - f.x) * 4))
      else (loadedPixel m (rgba + ((y - f.y) * stride + (x - f.x) * 4))).over (r.disposed.pixel x y)
      else r.disposed.pixel x y
    by_cases covers : f.covers x y
    · have column : x - f.x < f.width := by
        have := covers.1
        omega
      have line : y - f.y < f.height := by
        have := covers.2
        omega
      rw [if_pos covers, drawn_pixel painted covers, source _ _ column line, kept x y left low]
    · rw [if_neg covers]
      exact beside x y left low covers
  · exact fun never => by cases never
  · refine fun _ => ⟨⟨inside.right, inside.low⟩, r.disposed, rfl, disposed.width.symm,
      disposed.height.symm, fun x y left low out => if_neg out, fun previous x y covers => ?_⟩
    change f.covers x y at covers
    change loadedPixel t (c.scratch + ((y - f.y) * (f.width * 4) + (x - f.x) * 4)) = _
    rw [confined_scratch scratchSame inside covers, saved previous x y covers]
    obtain ⟨⟨left, right⟩, high, low⟩ := covers
    have rightmost := inside.right
    have lowest := inside.low
    exact disposed.pixel x y (right.trans_le rightmost) (low.trans_le lowest)

theorem reset_blank (laid : c.Laid sizeMax) :
    ∃ t, c.reset m = some ({ c with havePrevious := false }, t) ∧ Confined c m t ∧
      Mirrors sizeMax { c with havePrevious := false } t (.blank c.width c.height) := by
  obtain ⟨t, ran, painted⟩ : ∃ t, (List.range c.height).foldlM
      (fun (m : Memory) y => m.fill c.pixels c.bytes (y * c.stride) (c.width * 4) 0) m = some t ∧
      Painted m t c.pixels c.stride (c.width * 4) c.height fun _ _ => 0 := by
    refine Painted.loop laid.narrow fun y few n _ => Painted.fill ?_
    have above : y * c.stride ≤ (c.height - 1) * c.stride := Nat.mul_le_mul_right _ (by omega)
    unfold ApngCanvas.bytes
    omega
  refine ⟨t, ?_, ?_, ⟨laid.fits, laid.apart⟩, ?_, fun _ => rfl, fun never => by cases never⟩
  · unfold ApngCanvas.reset
    rw [ran]
    rfl
  · exact fun a free => painted.outside a fun y low i left same => free (.inl ⟨y, low, i, left, same⟩)
  · refine ⟨rfl, rfl, fun x y left low => ?_⟩
    change x < c.width at left
    change loadedPixel t (c.pixels + (y * c.stride + x * 4)) = Rgba.clear
    have zero : ∀ i, i < 4 → t (c.pixels + (y * c.stride + x * 4) + i) = 0 := by
      intro i small
      have found := painted.inside y low (x * 4 + i) (by omega)
      rwa [← Nat.add_assoc (y * c.stride), ← Nat.add_assoc c.pixels] at found
    rw [loadedPixel, zero 1 (by omega), zero 2 (by omega), zero 3 (by omega)]
    exact congrArg (fun byte : UInt8 => Rgba.mk byte.toNat 0 0 0) (zero 0 (by omega))

theorem init_blank {pixels scratch scratchCapacity : ℕ}
    (made : apngCanvasInit sizeMax width height pixels stride capacity scratch scratchCapacity m =
      some (some (c, n))) : Mirrors sizeMax c n (.blank c.width c.height) ∧ Confined c m n ∧
      c = ⟨pixels, scratch, stride, capacity, scratchCapacity, width, height,
        ⟨0, 0, 0, 0, 0, 0, 0, 0, 0, 0, 0⟩, false⟩ := by
  unfold apngCanvasInit at made
  split at made
  · cases made
  · rename_i bytes accepted
    split at made
    · cases made
    · rename_i checks
      obtain ⟨_, _, _, size, _⟩ := span_some accepted
      simp only [Bool.or_eq_true, decide_eq_true_eq, Bool.not_eq_true', not_or, not_lt,
        Bool.not_eq_false] at checks
      have apart := separate_apart checks.2
      let fresh : ApngCanvas := ⟨pixels, scratch, stride, capacity, scratchCapacity, width, height,
        ⟨0, 0, 0, 0, 0, 0, 0, 0, 0, 0, 0⟩, false⟩
      subst size
      have laid : fresh.Laid sizeMax := ⟨accepted, apart⟩
      obtain ⟨t, ran, confined, mirrors⟩ := reset_blank (m := m) laid
      change (fresh.reset m).map some = some (some (c, n)) at made
      rw [ran] at made
      cases made
      exact ⟨mirrors, confined, rfl⟩

/-- Memory that the canvas does not own may change. -/
theorem Mirrors.supply (mirrors : Mirrors sizeMax c m r) (same : ∀ a, c.Owns a → n a = m a) :
    Mirrors sizeMax c n r := by
  obtain ⟨laid, shown, fresh, undo⟩ := mirrors
  refine ⟨laid, ⟨shown.width, shown.height, fun x y left low => ?_⟩, fresh, fun have_ => ?_⟩
  · change x < c.width at left
    change y < c.height at low
    rw [← shown.pixel x y left low]
    change loadedPixel n (c.pixels + (y * c.stride + x * 4)) =
      loadedPixel m (c.pixels + (y * c.stride + x * 4))
    rw [loadedPixel_eq, loadedPixel_eq]
    refine congrArg (fun color : Rgba UInt8 => color.map UInt8.toNat)
      (bytePixel_congr fun i small => same _ (.inl ⟨y, low, x * 4 + i, by omega, by omega⟩))
  · obtain ⟨inside, before, kept, wide, high, beside, saved⟩ := undo have_
    refine ⟨inside, before, kept, wide, high, beside, fun previous x y covers => ?_⟩
    rw [← saved previous x y covers]
    exact confined_scratch (fun a low below => same a (.inr ⟨low, below⟩)) inside covers

/-! ## Runs -/

variable {trace events : List CanvasEvent} {t next : CanvasState} {call : CanvasCall}

/-- What a run of the reference has drawn. -/
def Reference.run (width height : ℕ) (trace : List CanvasEvent) : Reference :=
  trace.foldl Reference.after (.blank width height)

theorem Mirrors.size (mirrors : Mirrors sizeMax c m r) :
    r.shown.width = c.width ∧ r.shown.height = c.height :=
  ⟨mirrors.shown.width.symm, mirrors.shown.height.symm⟩

/-- One call keeps the canvas a mirror of the reference. -/
theorem step_mirrors (mirrors : Mirrors sizeMax t.canvas t.memory r)
    (allowed : CanvasContract trace t call) :
    ∃ next events, (canvasMachine sizeMax).step t call = some (next, events) ∧
      next.canvas.width = t.canvas.width ∧ next.canvas.height = t.canvas.height ∧
      Mirrors sizeMax next.canvas next.memory (events.foldl Reference.after r) := by
  cases call with
  | reset =>
      obtain ⟨m, ran, _, blank⟩ := reset_blank (m := t.memory) mirrors.laid
      refine ⟨⟨{ t.canvas with havePrevious := false }, m⟩, [.reset], ?_, rfl, rfl, ?_⟩
      · change (t.canvas.reset t.memory).map _ = _
        rw [ran]
        rfl
      · obtain ⟨wide, high⟩ := mirrors.size
        change Mirrors sizeMax _ m (.blank r.shown.width r.shown.height)
        rw [wide, high]
        exact blank
  | compose f rgba stride capacity =>
      cases accepted : t.canvas.composable sizeMax f rgba stride capacity with
      | none =>
          refine ⟨t, [.refused], ?_, rfl, rfl, mirrors⟩
          change (t.canvas.compose sizeMax f rgba stride capacity t.memory).map _ = _
          unfold ApngCanvas.compose
          rw [accepted]
          rfl
      | some bytes =>
          obtain ⟨m, ran, _, drawn⟩ := compose_drawn mirrors accepted
          refine ⟨⟨t.canvas.drew f, m⟩, [.drawn f (pictureAt t.memory rgba f.width f.height stride)],
            ?_, rfl, rfl, drawn⟩
          change (t.canvas.compose sizeMax f rgba stride capacity t.memory).map _ = _
          rw [ran]
          rfl
  | supply contents =>
      exact ⟨⟨t.canvas, contents⟩, [], rfl, rfl, rfl, mirrors.supply allowed⟩

theorem reached_mirrors (reached : (canvasMachine sizeMax).Reaches CanvasContract trace t) :
    Mirrors sizeMax t.canvas t.memory (.run t.canvas.width t.canvas.height trace) := by
  refine reached.invariant (fun trace t =>
    Mirrors sizeMax t.canvas t.memory (.run t.canvas.width t.canvas.height trace)) ?_ ?_
  · rintro t ⟨width, height, pixels, stride, capacity, scratch, scratchCapacity, m, made⟩
    exact (init_blank made).1
  · intro trace t call next events mirrors allowed moved
    obtain ⟨other, more, ran, wide, high, after⟩ := step_mirrors mirrors allowed
    rw [moved] at ran
    cases ran
    rw [wide, high]
    unfold Reference.run
    rw [List.foldl_append]
    exact after

/-- In every run the canvas shows what a reference draws that keeps the whole picture from before
each frame, and no call goes wrong. -/
theorem apng_compose_refines (reached : (canvasMachine sizeMax).Reaches CanvasContract trace t) :
    (t.canvas.picture t.memory).Agrees (Reference.run t.canvas.width t.canvas.height trace).shown ∧
      ∀ call, CanvasContract trace t call →
        ∃ next events, (canvasMachine sizeMax).step t call = some (next, events) := by
  have mirrors := reached_mirrors reached
  refine ⟨mirrors.shown, fun call allowed => ?_⟩
  obtain ⟨next, events, ran, _⟩ := step_mirrors mirrors allowed
  exact ⟨next, events, ran⟩

/-- A canvas of one pixel over memory that is white elsewhere. -/
def dotCanvas : CanvasState :=
  ⟨⟨16, 32, 4, 4, 4, 1, 1, ⟨0, 0, 0, 0, 0, 0, 0, 0, 0, 0, 0⟩, false⟩,
    fun a => if 16 ≤ a ∧ a < 20 then 0 else 255⟩

def dotFrame : ApngFrame := ⟨1, 1, 0, 0, 0, 100, 2, 1, 0, 0, 0⟩

/-- The second call has too little room for the frame. -/
def dotCalls : List CanvasCall :=
  [.compose dotFrame 48 4 4, .compose dotFrame 48 4 3, .compose dotFrame 48 4 4]

def drawingCall : CanvasCall → Bool
  | .supply _ => false
  | _ => true

theorem dot_initial : (canvasMachine (2 ^ 32 - 1)).Initial dotCanvas :=
  ⟨1, 1, 16, 4, 4, 32, 4, fun _ => 255, rfl⟩

theorem apng_compose_refines_dot : ∃ t trace,
    (canvasMachine (2 ^ 32 - 1)).Reaches CanvasContract trace t ∧ trace.length = 3 ∧
      (t.canvas.picture t.memory).pixel 0 0 = ⟨255, 255, 255, 255⟩ ∧
      (t.canvas.picture t.memory).Agrees
        (Reference.run t.canvas.width t.canvas.height trace).shown := by
  have shown : ((canvasMachine (2 ^ 32 - 1)).execute dotCanvas dotCalls).map (fun last =>
      (last.2.length, (last.1.canvas.picture last.1.memory).pixel 0 0)) =
        some (3, ⟨255, 255, 255, 255⟩) := by decide
  obtain ⟨⟨t, trace⟩, executed, same⟩ := Option.map_eq_some_iff.mp shown
  obtain ⟨count, white⟩ := Prod.mk.inj same
  have sound : ∀ (trace : List CanvasEvent) t call, drawingCall call = true →
      CanvasContract trace t call := by
    intro trace t call drawing
    cases call with
    | reset => trivial
    | compose => trivial
    | supply => cases drawing
  have reached := (Machine.Reaches.start dot_initial).conform sound (by decide) executed
  exact ⟨t, trace, reached, count, white, (apng_compose_refines reached).1⟩

/-- A frame is drawn when it passes the checks, and then only the pixels and the scratch are
written; otherwise nothing changes. -/
theorem apng_compose_confined (reached : (canvasMachine sizeMax).Reaches CanvasContract trace t)
    (f : ApngFrame) (rgba stride capacity : ℕ) :
    ∃ next event, (canvasMachine sizeMax).step t (.compose f rgba stride capacity) =
        some (next, [event]) ∧
      (t.canvas.composable sizeMax f rgba stride capacity = none → next = t ∧ event = .refused) ∧
      (∀ bytes, t.canvas.composable sizeMax f rgba stride capacity = some bytes →
        event = .drawn f (pictureAt t.memory rgba f.width f.height stride) ∧
        (∀ a, ¬t.canvas.Owns a → next.memory a = t.memory a) ∧
        ∀ i, i < bytes → next.memory (rgba + i) = t.memory (rgba + i)) := by
  have mirrors := reached_mirrors reached
  cases accepted : t.canvas.composable sizeMax f rgba stride capacity with
  | none =>
      refine ⟨t, .refused, ?_, fun _ => ⟨rfl, rfl⟩, fun bytes never => by cases never⟩
      change (t.canvas.compose sizeMax f rgba stride capacity t.memory).map _ = _
      unfold ApngCanvas.compose
      rw [accepted]
      rfl
  | some bytes =>
      obtain ⟨m, ran, confined, _⟩ := compose_drawn mirrors accepted
      obtain ⟨_, _, pixels, scratch⟩ := composable_some accepted
      refine ⟨⟨t.canvas.drew f, m⟩, .drawn f (pictureAt t.memory rgba f.width f.height stride),
        ?_, (fun never => by cases never), fun taken same => ⟨rfl, confined, fun i small => ?_⟩⟩
      · change (t.canvas.compose sizeMax f rgba stride capacity t.memory).map _ = _
        rw [ran]
        rfl
      · obtain rfl := Option.some.inj same
        exact confined _ (not_owns (by omega) (by omega))

theorem apng_compose_confined_dot : ∃ next event,
    (canvasMachine (2 ^ 32 - 1)).step dotCanvas (.compose dotFrame 48 4 4) = some (next, [event]) ∧
      ∀ a, ¬dotCanvas.canvas.Owns a → next.memory a = dotCanvas.memory a := by
  obtain ⟨next, event, ran, _, drawn⟩ :=
    apng_compose_confined (Machine.Reaches.start dot_initial) dotFrame 48 4 4
  have accepted : dotCanvas.canvas.composable (2 ^ 32 - 1) dotFrame 48 4 4 = some 4 := by decide
  exact ⟨next, event, ran, (drawn 4 accepted).2.1⟩

end LvglAic.Apng
