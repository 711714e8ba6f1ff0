import Mathlib

/-! # Pictures

A picture is a size and a pixel for every place.  Only the places inside of the size
matter, so pictures are compared there.
-/

namespace LvglAic.Machine

structure Picture (Pixel : Type) where
  width : ℕ
  height : ℕ
  pixel : ℕ → ℕ → Pixel

namespace Picture

variable {Pixel Other : Type} {p q r : Picture Pixel}

structure Agrees (p q : Picture Pixel) : Prop where
  width : p.width = q.width
  height : p.height = q.height
  pixel : ∀ x y, x < p.width → y < p.height → p.pixel x y = q.pixel x y

def map (p : Picture Pixel) (f : Pixel → Other) : Picture Other :=
  ⟨p.width, p.height, fun x y => f (p.pixel x y)⟩

/-- Clockwise by a quarter. -/
def turn (p : Picture Pixel) : Picture Pixel :=
  ⟨p.height, p.width, fun x y => p.pixel y (p.height - 1 - x)⟩

def turns (p : Picture Pixel) : ℕ → Picture Pixel
  | 0 => p
  | n + 1 => (p.turns n).turn

/-- To another size, by the nearest pixel above and to the left. -/
def resize (p : Picture Pixel) (width height : ℕ) : Picture Pixel :=
  ⟨width, height, fun x y => p.pixel (x * p.width / width) (y * p.height / height)⟩

theorem Agrees.refl (p : Picture Pixel) : p.Agrees p := ⟨rfl, rfl, fun _ _ _ _ => rfl⟩

theorem Agrees.trans (first : p.Agrees q) (second : q.Agrees r) : p.Agrees r := by
  refine ⟨first.width.trans second.width, first.height.trans second.height, ?_⟩
  intro x y left low
  rw [first.pixel x y left low]
  exact second.pixel x y (first.width ▸ left) (first.height ▸ low)

theorem Agrees.map (f : Pixel → Other) (same : p.Agrees q) : (p.map f).Agrees (q.map f) :=
  ⟨same.width, same.height, fun x y left low => congrArg f (same.pixel x y left low)⟩

theorem Agrees.turn (same : p.Agrees q) : p.turn.Agrees q.turn := by
  refine ⟨same.height, same.width, ?_⟩
  intro x y left low
  change x < p.height at left
  change p.pixel y (p.height - 1 - x) = q.pixel y (q.height - 1 - x)
  rw [← same.height]
  exact same.pixel y _ low (by omega)

theorem Agrees.turns (same : p.Agrees q) (n : ℕ) : (p.turns n).Agrees (q.turns n) := by
  induction n with
  | zero => exact same
  | succ n ih => exact ih.turn

theorem turns_add (m n : ℕ) : p.turns (m + n) = (p.turns m).turns n := by
  induction n with
  | zero => rfl
  | succ n ih => exact congrArg turn ih

theorem map_turns (f : Pixel → Other) (n : ℕ) : (p.map f).turns n = (p.turns n).map f := by
  induction n with
  | zero => rfl
  | succ n ih => exact congrArg turn ih

/-- Four quarters are none. -/
theorem turns_four : (p.turns 4).Agrees p := by
  refine ⟨rfl, rfl, ?_⟩
  intro x y left low
  change x < p.width at left
  change y < p.height at low
  change p.pixel (p.width - 1 - (p.width - 1 - x)) (p.height - 1 - (p.height - 1 - y)) = p.pixel x y
  have column : p.width - 1 - (p.width - 1 - x) = x := by omega
  have line : p.height - 1 - (p.height - 1 - y) = y := by omega
  rw [column, line]

theorem turns_mod (n : ℕ) : (p.turns n).Agrees (p.turns (n % 4)) := by
  induction n using Nat.strong_induction_on with
  | _ n ih =>
      by_cases few : n < 4
      · rw [Nat.mod_eq_of_lt few]
        exact Agrees.refl _
      · have fewer := ih (n - 4) (by omega)
        have split : n = 4 + (n - 4) := by omega
        have same : n % 4 = (n - 4) % 4 := by omega
        rw [same]
        refine Agrees.trans ?_ fewer
        nth_rewrite 1 [split]
        rw [turns_add]
        exact turns_four.turns _

/-- To its own size a picture is itself. -/
theorem resize_self : (p.resize p.width p.height).Agrees p := by
  refine ⟨rfl, rfl, ?_⟩
  intro x y left low
  change x < p.width at left
  change y < p.height at low
  change p.pixel (x * p.width / p.width) (y * p.height / p.height) = p.pixel x y
  rw [Nat.mul_div_cancel _ (by omega), Nat.mul_div_cancel _ (by omega)]

end Picture

end LvglAic.Machine
