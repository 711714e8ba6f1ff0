import LvglAic.Machine.Memory

/-! # Painting rows of bytes

A loop over rows writes a part of each row.  What it leaves is described by the bytes of
the rows, and by all other bytes, which stay.
-/

namespace LvglAic.Machine

namespace Memory

/-- `memset` in a buffer; outside of it there is none. -/
def fill (m : Memory) (base size start count : ℕ) (value : UInt8) : Option Memory :=
  if start + count ≤ size then
    some fun a => if base + start ≤ a ∧ a < base + start + count then value else m a
  else none

/-- `memcpy` from one buffer to another. -/
def copy (m : Memory) (base size start source sourceSize sourceStart count : ℕ) : Option Memory :=
  if start + count ≤ size ∧ sourceStart + count ≤ sourceSize then
    some fun a =>
      if base + start ≤ a ∧ a < base + start + count then
        m (source + sourceStart + (a - (base + start)))
      else m a
  else none

end Memory

structure Painted (m n : Memory) (base stride count rows : ℕ) (value : ℕ → ℕ → UInt8) : Prop where
  inside : ∀ y, y < rows → ∀ i, i < count → n (base + (y * stride + i)) = value y i
  outside : ∀ a, (∀ y, y < rows → ∀ i, i < count → a ≠ base + (y * stride + i)) → n a = m a

/-- One row was painted. -/
abbrev PaintedRow (m n : Memory) (base count : ℕ) (value : ℕ → UInt8) : Prop :=
  Painted m n base 0 count 1 fun _ => value

namespace Painted

variable {m n k : Memory} {base stride count rows width size start source sourceSize
  sourceStart : ℕ} {value next : ℕ → ℕ → UInt8} {byte : UInt8}

theorem none : Painted m m base stride count 0 value :=
  ⟨fun _ few => absurd few (Nat.not_lt_zero _), fun _ _ => rfl⟩

theorem congr (painted : Painted m n base stride count rows value)
    (same : ∀ y, y < rows → ∀ i, i < count → value y i = next y i) :
    Painted m n base stride count rows next :=
  ⟨fun y few i small => (painted.inside y few i small).trans (same y few i small), painted.outside⟩

/-- One more row. -/
theorem snoc (painted : Painted m n base stride count rows value) (narrow : count ≤ stride)
    (last : PaintedRow n k (base + rows * stride) count (value rows)) :
    Painted m k base stride count (rows + 1) value := by
  have place : ∀ i, base + rows * stride + (0 * 0 + i) = base + (rows * stride + i) := by
    intro i
    rw [Nat.zero_mul, Nat.zero_add, Nat.add_assoc]
  constructor
  · intro y few i small
    rcases Nat.lt_succ_iff_lt_or_eq.mp few with before | rfl
    · rw [last.outside, painted.inside y before i small]
      intro z zero j low same
      obtain rfl := Nat.lt_one_iff.mp zero
      rw [place] at same
      have rowsMeet := row_unique (small.trans_le narrow) (low.trans_le narrow)
        (Nat.add_left_cancel same)
      omega
    · rw [← place i]
      exact last.inside 0 Nat.one_pos i small
  · intro a apart
    rw [last.outside, painted.outside]
    · exact fun y few => apart y (Nat.lt_succ_of_lt few)
    · intro z zero j low
      obtain rfl := Nat.lt_one_iff.mp zero
      rw [place]
      exact apart rows (Nat.lt_succ_self _) j low

/-- A loop that paints one row after the other. -/
theorem loop {body : Memory → ℕ → Option Memory} (narrow : count ≤ stride)
    (row : ∀ y, y < rows → ∀ n, Painted m n base stride count y value → ∃ k, body n y = some k ∧
      PaintedRow n k (base + y * stride) count (value y)) :
    ∃ n, (List.range rows).foldlM body m = some n ∧ Painted m n base stride count rows value := by
  induction rows with
  | zero => exact ⟨m, rfl, .none⟩
  | succ rows ih =>
      obtain ⟨n, ran, painted⟩ := ih fun y few => row y (Nat.lt_succ_of_lt few)
      obtain ⟨k, last, one⟩ := row rows (Nat.lt_succ_self _) n painted
      refine ⟨k, ?_, painted.snoc narrow one⟩
      rw [List.range_succ, List.foldlM_append, ran]
      change (List.foldlM body n [rows]) = some k
      rw [List.foldlM_cons, last]
      rfl

/-- Pixels of a few bytes that stand one after the other are one row. -/
theorem row (painted : Painted m n base count count width value) :
    PaintedRow m n base (width * count) fun i => value (i / count) (i % count) := by
  constructor
  · intro y zero i small
    obtain rfl := Nat.lt_one_iff.mp zero
    have positive : 0 < count := Nat.pos_of_ne_zero fun empty => by
      rw [empty, Nat.mul_zero] at small
      exact Nat.not_lt_zero _ small
    have inside := painted.inside (i / count) ((Nat.div_lt_iff_lt_mul positive).mpr small)
      (i % count) (Nat.mod_lt _ positive)
    rw [Nat.zero_mul, Nat.zero_add]
    rwa [Nat.div_add_mod' i count] at inside
  · intro a apart
    refine painted.outside a fun x left i low => ?_
    have far := apart 0 Nat.one_pos (x * count + i) (by
      calc x * count + i < x * count + count := Nat.add_lt_add_left low _
        _ = (x + 1) * count := (Nat.succ_mul x count).symm
        _ ≤ width * count := Nat.mul_le_mul_right _ left)
    rwa [Nat.zero_mul, Nat.zero_add] at far

theorem fill (room : start + count ≤ size) :
    ∃ n, m.fill base size start count byte = some n ∧
      PaintedRow m n (base + start) count fun _ => byte := by
  refine ⟨_, if_pos room, ?_, ?_⟩
  · intro y zero i small
    obtain rfl := Nat.lt_one_iff.mp zero
    exact if_pos (by omega)
  · intro a apart
    refine if_neg fun within => ?_
    exact apart 0 Nat.one_pos (a - (base + start)) (by omega) (by omega)

theorem copy (m : Memory) (base source : ℕ) (room : start + count ≤ size)
    (given : sourceStart + count ≤ sourceSize) :
    ∃ n, m.copy base size start source sourceSize sourceStart count = some n ∧
      PaintedRow m n (base + start) count fun i => m (source + sourceStart + i) := by
  refine ⟨_, if_pos ⟨room, given⟩, ?_, ?_⟩
  · intro y zero i small
    obtain rfl := Nat.lt_one_iff.mp zero
    rw [Nat.zero_mul, Nat.zero_add]
    refine (if_pos (by omega)).trans ?_
    rw [Nat.add_sub_cancel_left]
  · intro a apart
    refine if_neg fun within => ?_
    exact apart 0 Nat.one_pos (a - (base + start)) (by omega) (by omega)

end Painted

end LvglAic.Machine
