import LvglAic.Machine.Memory
import LvglAic.Image.Frame

/-! # Samples of a YUV frame (`lv_aic_yuv.c`)

A sample reads the luma of its pixel and the chroma of the cell that the pixel lies in.
A read outside of what was validated has no value.
-/

namespace LvglAic.Image

open LvglAic.Machine

def ColorFormat.subX (format : ColorFormat) : Bool := format ≠ .i400 && format ≠ .i444

def ColorFormat.subY (format : ColorFormat) : Bool :=
  format = .i420 || format = .nv12 || format = .nv21

def ColorFormat.packed (format : ColorFormat) : Bool :=
  format = .yuy2 || format = .uyvy || format = .yvyu || format = .vyuy

/-- The bytes of a plane that `span_valid` has checked. -/
def YuvFrame.span (f : YuvFrame) (i : Fin 3) : ℕ :=
  match yuvLayout f.format f.width f.height with
  | none => 0
  | some layout =>
      if i < layout.planes then
        (layout.rows i - 1) * (f.planes i).stride.toNat + layout.rowBytes i
      else 0

def YuvFrame.load (f : YuvFrame) (m : Memory) (i : Fin 3) (offset : ℕ) : Option ℤ :=
  if offset < f.span i then some (m ((f.planes i).data + offset)).toNat else none

structure Sample where
  luma : ℤ
  u : ℤ
  v : ℤ
deriving DecidableEq, Repr

/-- Two pixels of a packed row: where their bytes are from `p` on. -/
def samplePacked (f : YuvFrame) (m : Memory) (p luma u v : ℕ) : Option Sample := do
  let luma ← f.load m 0 (p + luma)
  let u ← f.load m 0 (p + u)
  let v ← f.load m 0 (p + v)
  some ⟨luma, u, v⟩

def samplePlanar (f : YuvFrame) (m : Memory) (luma : ℤ) (u v : Fin 3 × ℕ) : Option Sample := do
  let u ← f.load m u.1 u.2
  let v ← f.load m v.1 v.2
  some ⟨luma, u, v⟩

def sample (f : YuvFrame) (m : Memory) (x y : ℕ) : Option Sample := do
  let row := y * (f.planes 0).stride.toNat
  let luma ← f.load m 0 (row + x)
  let column := if f.format ≠ .i444 then x / 2 else x
  let line := if f.format = .i420 || f.format = .nv12 || f.format = .nv21 then y / 2 else y
  let p := line * (f.planes 1).stride.toNat
  match f.format with
  | .i400 => some ⟨luma, 128, 128⟩
  | .yuy2 => samplePacked f m (row + x / 2 * 4) (x % 2 * 2) 1 3
  | .uyvy => samplePacked f m (row + x / 2 * 4) (x % 2 * 2 + 1) 0 2
  | .yvyu => samplePacked f m (row + x / 2 * 4) (x % 2 * 2) 3 1
  | .vyuy => samplePacked f m (row + x / 2 * 4) (x % 2 * 2 + 1) 2 0
  | .nv12 | .nv16 => samplePlanar f m luma (1, p + column * 2) (1, p + column * 2 + 1)
  | .nv21 | .nv61 => samplePlanar f m luma (1, p + column * 2 + 1) (1, p + column * 2)
  | _ => samplePlanar f m luma (1, p + column) (2, line * (f.planes 2).stride.toNat + column)

/-! ## Where the samples of a picture are -/

/-- The byte of a plane that holds the luma of a pixel. -/
def YuvFrame.lumaPlace (f : YuvFrame) (x y : ℕ) : ℕ :=
  y * (f.planes 0).stride.toNat +
    match f.format with
    | .yuy2 | .yvyu => 2 * x
    | .uyvy | .vyuy => 2 * x + 1
    | _ => x

/-- The plane and the byte of it that hold the U of a cell, or with `second` its V. -/
def YuvFrame.chromaPlace (f : YuvFrame) (cell : ℕ × ℕ) (second : Bool) : Option (Fin 3 × ℕ) :=
  let row := fun i : Fin 3 => cell.2 * (f.planes i).stride.toNat
  let place := fun u v : ℕ => if second then v else u
  match f.format with
  | .i420 | .i422 | .i444 => some (if second then (2, row 2 + cell.1) else (1, row 1 + cell.1))
  | .nv12 | .nv16 => some (1, row 1 + (2 * cell.1 + place 0 1))
  | .nv21 | .nv61 => some (1, row 1 + (2 * cell.1 + place 1 0))
  | .yuy2 => some (0, row 0 + (4 * cell.1 + place 1 3))
  | .uyvy => some (0, row 0 + (4 * cell.1 + place 0 2))
  | .yvyu => some (0, row 0 + (4 * cell.1 + place 3 1))
  | .vyuy => some (0, row 0 + (4 * cell.1 + place 2 0))
  | _ => none

/-- The cell of the chroma samples that a pixel lies in. -/
def ColorFormat.cell (format : ColorFormat) (x y : ℕ) : ℕ × ℕ :=
  (if format.subX then x / 2 else x, if format.subY then y / 2 else y)

def YuvFrame.byte (f : YuvFrame) (m : Memory) (i : Fin 3) (offset : ℕ) : ℤ :=
  (m ((f.planes i).data + offset)).toNat

/-- A frame without chroma is gray. -/
def YuvFrame.chroma (f : YuvFrame) (m : Memory) (x y : ℕ) (second : Bool) : ℤ :=
  match f.chromaPlace (f.format.cell x y) second with
  | none => 128
  | some (i, offset) => f.byte m i offset

def YuvFrame.picture (f : YuvFrame) (m : Memory) (x y : ℕ) : Sample :=
  ⟨f.byte m 0 (f.lumaPlace x y), f.chroma m x y false, f.chroma m x y true⟩

section
variable {f : YuvFrame} {m : Memory} {layout : YuvLayout} {i : Fin 3} {line column offset x y : ℕ}

theorem YuvFrame.span_eq (laid : yuvLayout f.format f.width f.height = some layout)
    (plane : i < layout.planes) :
    f.span i = (layout.rows i - 1) * (f.planes i).stride.toNat + layout.rowBytes i := by
  unfold YuvFrame.span
  rw [laid]
  exact if_pos plane

theorem YuvFrame.load_eq (inside : offset < f.span i) : f.load m i offset = some (f.byte m i offset) :=
  if_pos inside

/-- A place in a row of a plane of the layout was checked. -/
theorem YuvFrame.row_span (laid : yuvLayout f.format f.width f.height = some layout)
    (plane : i < layout.planes) (row : line < layout.rows i) (inside : column < layout.rowBytes i) :
    line * (f.planes i).stride.toNat + column < f.span i := by
  rw [YuvFrame.span_eq laid plane]
  exact row_inside row inside

/-- The layout has a size, and its planes are those of the format. -/
theorem yuvLayout_some (laid : yuvLayout f.format f.width f.height = some layout) :
    (0 < f.width.toNat ∧ f.width.toNat ≤ 4096) ∧ 0 < f.height.toNat ∧ f.height.toNat ≤ 4096 := by
  unfold yuvLayout at laid
  dsimp only at laid
  rw [Option.ite_none_left_eq_some] at laid
  have sizes := laid.1
  simp only [Bool.or_eq_true, decide_eq_true_eq, not_or, not_lt] at sizes
  omega

/-- The rows and the row bytes of a layout, in the words of the format. -/
theorem yuvLayout_shape (laid : yuvLayout f.format f.width f.height = some layout) :
    layout.rows 0 = f.height.toNat ∧
    layout.rowBytes 0 = (if f.format.packed then (f.width.toNat + 1) / 2 * 4 else f.width.toNat) ∧
    ∀ i : Fin 3, i ≠ 0 → i < layout.planes →
      layout.rows i = (if f.format.subY then (f.height.toNat + 1) / 2 else f.height.toNat) ∧
      layout.rowBytes i = (if f.format.subX then (f.width.toNat + 1) / 2 else f.width.toNat) *
        if layout.planes = 2 then 2 else 1 := by
  unfold yuvLayout at laid
  dsimp only at laid
  rw [Option.ite_none_left_eq_some] at laid
  obtain ⟨_, shape⟩ := laid
  cases form : f.format <;> simp only [form] at shape <;>
    first
    | exact absurd shape.symm (Option.some_ne_none _)
    | (cases Option.some.inj shape
       refine ⟨rfl, rfl, ?_⟩
       intro i other plane
       fin_cases i <;> simp_all [ColorFormat.subX, ColorFormat.subY])

/-- How many planes a format has. -/
def ColorFormat.planes : ColorFormat → ℕ
  | .i420 | .i422 | .i444 => 3
  | .nv12 | .nv21 | .nv16 | .nv61 => 2
  | _ => 1

theorem yuvLayout_planes (laid : yuvLayout f.format f.width f.height = some layout) :
    layout.planes = f.format.planes := by
  unfold yuvLayout at laid
  dsimp only at laid
  rw [Option.ite_none_left_eq_some] at laid
  obtain ⟨_, shape⟩ := laid
  cases form : f.format <;> simp only [form] at shape <;>
    first
    | exact absurd shape.symm (Option.some_ne_none _)
    | (cases Option.some.inj shape
       rfl)

/-- The formats that have a layout. -/
theorem yuvLayout_format (laid : yuvLayout f.format f.width f.height = some layout) :
    f.format ≠ .rgb565 ∧ f.format ≠ .rgb888 ∧ f.format ≠ .xrgb8888 ∧ f.format ≠ .argb8888 ∧
      ∀ code, f.format ≠ .other code := by
  unfold yuvLayout at laid
  dsimp only at laid
  rw [Option.ite_none_left_eq_some] at laid
  obtain ⟨_, shape⟩ := laid
  cases form : f.format <;> simp [form] at shape ⊢

/-- How far apart the chroma bytes of neighbouring cells are in a chroma plane. -/
def ColorFormat.step (format : ColorFormat) : ℕ := if format.planes = 2 then 2 else 1

theorem ColorFormat.cell_inside (format : ColorFormat) {w h : ℕ} (left : x < w) (low : y < h) :
    (format.cell x y).1 < (if format.subX then (w + 1) / 2 else w) ∧
      (format.cell x y).2 < if format.subY then (h + 1) / 2 else h := by
  unfold ColorFormat.cell
  constructor
  · dsimp only
    split <;> omega
  · dsimp only
    split <;> omega

/-- Chroma is in a chroma plane, or between the luma bytes of a packed row. -/
theorem YuvFrame.chromaPlace_form {cell : ℕ × ℕ} {second : Bool} {place : Fin 3 × ℕ}
    (found : f.chromaPlace cell second = some place) :
    (place.1 ≠ 0 ∧ place.1 < f.format.planes ∧ ∃ e < f.format.step,
      place.2 = cell.2 * (f.planes place.1).stride.toNat + (cell.1 * f.format.step + e)) ∨
    (place.1 = 0 ∧ f.format.packed = true ∧ ∃ e < 4,
      place.2 = cell.2 * (f.planes 0).stride.toNat + (4 * cell.1 + e)) := by
  unfold YuvFrame.chromaPlace at found
  unfold ColorFormat.step
  cases form : f.format <;> simp only [form, reduceCtorEq] at found <;> cases second <;>
    obtain rfl := Option.some.inj found
  case i420.false | i422.false | i444.false =>
    exact .inl ⟨by simp, by simp [ColorFormat.planes], 0, by decide, by simp [ColorFormat.planes]⟩
  case i420.true | i422.true | i444.true =>
    exact .inl ⟨by simp, by simp [ColorFormat.planes], 0, by decide, by simp [ColorFormat.planes]⟩
  case nv12.false | nv16.false | nv21.true | nv61.true =>
    exact .inl ⟨by simp, by simp [ColorFormat.planes], 0, by decide,
      by simp [ColorFormat.planes, mul_comm]⟩
  case nv12.true | nv16.true | nv21.false | nv61.false =>
    exact .inl ⟨by simp, by simp [ColorFormat.planes], 1, by decide,
      by simp [ColorFormat.planes, mul_comm]⟩
  case yuy2.false | yvyu.true => exact .inr ⟨rfl, rfl, 1, by decide, rfl⟩
  case yuy2.true | yvyu.false => exact .inr ⟨rfl, rfl, 3, by decide, rfl⟩
  case uyvy.false | vyuy.true => exact .inr ⟨rfl, rfl, 0, by decide, rfl⟩
  case uyvy.true | vyuy.false => exact .inr ⟨rfl, rfl, 2, by decide, rfl⟩

/-- The places of a picture were checked, whatever reads them. -/
theorem YuvFrame.places_inside (laid : yuvLayout f.format f.width f.height = some layout)
    (left : x < f.width.toNat) (low : y < f.height.toNat) :
    y * (f.planes 0).stride.toNat + x < f.span 0 ∧ f.lumaPlace x y < f.span 0 ∧
      ∀ second place, f.chromaPlace (f.format.cell x y) second = some place →
        place.2 < f.span place.1 := by
  obtain ⟨lines, columns, chroma⟩ := yuvLayout_shape laid
  have planes := yuvLayout_planes laid
  have luma : ∀ column, column < layout.rowBytes 0 →
      y * (f.planes 0).stride.toNat + column < f.span 0 := by
    intro column inside
    refine YuvFrame.row_span laid ?_ (lines ▸ low) inside
    rw [planes]
    cases f.format <;> exact Nat.lt_of_sub_eq_succ rfl
  obtain ⟨across, down⟩ := ColorFormat.cell_inside f.format left low
  refine ⟨luma x ?_, ?_, ?_⟩
  · rw [columns]
    split <;> omega
  · unfold YuvFrame.lumaPlace
    apply luma
    rw [columns]
    cases form : f.format <;> simp [ColorFormat.packed] <;> omega
  · intro v place found
    rcases YuvFrame.chromaPlace_form found with ⟨other, plane, e, small, at_⟩ |
      ⟨first, packed, e, small, at_⟩
    · rw [← planes] at plane
      obtain ⟨rows, bytes⟩ := chroma place.1 other plane
      rw [at_]
      refine YuvFrame.row_span laid plane (rows ▸ down) ?_
      rw [bytes, planes]
      change _ < _ * f.format.step
      calc (f.format.cell x y).1 * f.format.step + e
          < (f.format.cell x y).1 * f.format.step + f.format.step := by omega
        _ = ((f.format.cell x y).1 + 1) * f.format.step := by ring
        _ ≤ _ := Nat.mul_le_mul_right _ across
    · rw [at_, first]
      have flat : f.format.subY = false := by
        revert packed
        cases f.format <;> simp [ColorFormat.packed, ColorFormat.subY]
      have narrow : f.format.subX = true := by
        revert packed
        cases f.format <;> simp [ColorFormat.packed, ColorFormat.subX]
      have row : (f.format.cell x y).2 = y := by
        unfold ColorFormat.cell
        rw [flat]
        rfl
      rw [row]
      apply luma
      rw [columns, if_pos packed]
      rw [if_pos narrow] at across
      omega

theorem samplePacked_eq {p luma u v a b c : ℕ} (lumaAt : p + luma = a) (uAt : p + u = b)
    (vAt : p + v = c) (lumaInside : a < f.span 0) (uInside : b < f.span 0)
    (vInside : c < f.span 0) :
    samplePacked f m p luma u v = some ⟨f.byte m 0 a, f.byte m 0 b, f.byte m 0 c⟩ := by
  unfold samplePacked
  rw [lumaAt, uAt, vAt, YuvFrame.load_eq lumaInside, YuvFrame.load_eq uInside,
    YuvFrame.load_eq vInside]
  rfl

theorem samplePlanar_eq {luma : ℤ} {i j : Fin 3} {u v b c : ℕ} (uAt : u = b) (vAt : v = c)
    (uInside : b < f.span i) (vInside : c < f.span j) :
    samplePlanar f m luma (i, u) (j, v) = some ⟨luma, f.byte m i b, f.byte m j c⟩ := by
  unfold samplePlanar
  rw [uAt, vAt, YuvFrame.load_eq uInside, YuvFrame.load_eq vInside]
  rfl

/-- The source's reads are those of the picture, and none of them leaves its plane. -/
theorem sample_eq (laid : yuvLayout f.format f.width f.height = some layout)
    (left : x < f.width.toNat) (low : y < f.height.toNat) :
    sample f m x y = some (f.picture m x y) := by
  obtain ⟨first, luma, chroma⟩ := YuvFrame.places_inside laid left low
  have u := chroma false
  have v := chroma true
  obtain ⟨rgb565, rgb888, xrgb8888, argb8888, other⟩ := yuvLayout_format laid
  have halves : x / 2 * 4 + x % 2 * 2 = 2 * x := by omega
  unfold sample YuvFrame.picture YuvFrame.chroma
  dsimp only
  rw [YuvFrame.load_eq first]
  unfold YuvFrame.lumaPlace at luma ⊢
  unfold YuvFrame.chromaPlace ColorFormat.cell at u v ⊢
  cases form : f.format
  case rgb565 | rgb888 | xrgb8888 | argb8888 => contradiction
  case other code => exact absurd form (other code)
  case i400 => simp
  case yuy2 | uyvy | yvyu | vyuy =>
    simp [form, ColorFormat.subX, ColorFormat.subY] at u v luma ⊢
    exact samplePacked_eq (by omega) (by omega) (by omega) luma u v
  case i420 | i422 | i444 | nv12 | nv21 | nv16 | nv61 =>
    simp [form, ColorFormat.subX, ColorFormat.subY] at u v ⊢
    exact samplePlanar_eq (by omega) (by omega) u v

end

end LvglAic.Image
