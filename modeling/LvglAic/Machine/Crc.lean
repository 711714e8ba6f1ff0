import Mathlib

/-! # Cyclic redundancy checks by bits and by bytes

The remainder moves down bit by bit.  One move is linear in exclusive or, so that eight
of them depend on the low byte alone, which a table can hold.
-/

namespace LvglAic.Machine

variable {w : ℕ} {poly : BitVec w}

def crcShift (poly crc : BitVec w) : BitVec w :=
  (crc >>> 1) ^^^ if crc.getLsbD 0 then poly else 0#w

def crcShifts (poly : BitVec w) : ℕ → BitVec w → BitVec w
  | 0, crc => crc
  | n + 1, crc => crcShift poly (crcShifts poly n crc)

def crcByte (poly crc : BitVec w) (byte : UInt8) : BitVec w :=
  crcShifts poly 8 (crc ^^^ byte.toBitVec.setWidth w)

/-- The same by a table for the low byte. -/
def crcTableByte (table : ℕ → BitVec w) (crc : BitVec w) (byte : UInt8) : BitVec w :=
  table ((crc ^^^ byte.toBitVec.setWidth w) &&& 255#w).toNat ^^^ (crc >>> 8)

theorem crcShift_xor (a b : BitVec w) :
    crcShift poly (a ^^^ b) = crcShift poly a ^^^ crcShift poly b := by
  unfold crcShift
  rw [BitVec.getLsbD_xor, BitVec.ushiftRight_xor_distrib]
  have shuffle : ∀ p q : BitVec w,
      (a >>> 1 ^^^ p) ^^^ (b >>> 1 ^^^ q) = (a >>> 1 ^^^ b >>> 1) ^^^ (p ^^^ q) := by
    intro p q
    ac_rfl
  rw [shuffle]
  cases a.getLsbD 0 <;> cases b.getLsbD 0 <;> simp

theorem crcShifts_xor (n : ℕ) (a b : BitVec w) :
    crcShifts poly n (a ^^^ b) = crcShifts poly n a ^^^ crcShifts poly n b := by
  induction n with
  | zero => rfl
  | succ n ih =>
      change crcShift poly (crcShifts poly n (a ^^^ b)) = _
      rw [ih]
      exact crcShift_xor _ _

/-- Clear low bits only move out. -/
theorem crcShifts_clear {n : ℕ} {crc : BitVec w} (clear : ∀ i, i < n → crc.getLsbD i = false) :
    crcShifts poly n crc = crc >>> n := by
  induction n with
  | zero => exact (BitVec.ushiftRight_zero crc).symm
  | succ n ih =>
      have bit : (crc >>> n).getLsbD 0 = false := by
        rw [BitVec.getLsbD_ushiftRight, Nat.add_zero]
        exact clear n (Nat.lt_succ_self n)
      change crcShift poly (crcShifts poly n crc) = _
      rw [ih fun i below => clear i (Nat.lt_succ_of_lt below)]
      unfold crcShift
      rw [bit, if_neg Bool.false_ne_true, BitVec.xor_zero, BitVec.shiftRight_add]

theorem getLsbD_255 (i : ℕ) : (255#w).getLsbD i = (decide (i < w) && decide (i < 8)) := by
  have bits : (255 : ℕ) = 2 ^ 8 - 1 := by norm_num
  rw [BitVec.getLsbD_ofNat, bits, Nat.testBit_two_pow_sub_one]

/-- Eight moves are those of the low byte, and the rest of the remainder moved down. -/
theorem crcShifts_eight (crc : BitVec w) :
    crcShifts poly 8 crc = crcShifts poly 8 (crc &&& 255#w) ^^^ (crc >>> 8) := by
  have split : crc = (crc &&& 255#w) ^^^ (crc &&& ~~~255#w) := by
    ext i inside
    simp only [BitVec.getElem_xor, BitVec.getElem_and, BitVec.getElem_not]
    cases crc[i] <;> cases (255#w)[i] <;> rfl
  have clear : ∀ i, i < 8 → (crc &&& ~~~255#w).getLsbD i = false := by
    intro i small
    rw [BitVec.getLsbD_and, BitVec.getLsbD_not, getLsbD_255]
    by_cases inside : i < w <;> simp [inside, small]
  have high : (crc &&& ~~~255#w) >>> 8 = crc >>> 8 := by
    apply BitVec.eq_of_getLsbD_eq
    intro i _
    rw [BitVec.getLsbD_ushiftRight, BitVec.getLsbD_ushiftRight, BitVec.getLsbD_and,
      BitVec.getLsbD_not, getLsbD_255]
    by_cases inside : 8 + i < w
    · simp [inside]
    · rw [BitVec.getLsbD_of_ge crc (8 + i) (by omega), Bool.false_and]
  calc crcShifts poly 8 crc
      = crcShifts poly 8 ((crc &&& 255#w) ^^^ (crc &&& ~~~255#w)) := by rw [← split]
    _ = crcShifts poly 8 (crc &&& 255#w) ^^^ (crc &&& ~~~255#w) >>> 8 := by
      rw [crcShifts_xor, crcShifts_clear clear]
    _ = _ := by rw [high]

theorem and_255_lt (crc : BitVec w) : (crc &&& 255#w).toNat < 256 := by
  rw [BitVec.toNat_and]
  refine Nat.lt_of_le_of_lt Nat.and_le_right ?_
  rw [BitVec.toNat_ofNat]
  exact Nat.lt_of_le_of_lt (Nat.mod_le _ _) (by decide)

/-- A byte by a table of eight moves is a byte by eight moves. -/
theorem crcTableByte_eq {table : ℕ → BitVec w}
    (entries : ∀ i, i < 256 → table i = crcShifts poly 8 (BitVec.ofNat w i)) (crc : BitVec w)
    (byte : UInt8) : crcTableByte table crc byte = crcByte poly crc byte := by
  have gone : byte.toBitVec.setWidth w >>> 8 = 0#w := by
    apply BitVec.eq_of_getLsbD_eq
    intro i _
    rw [BitVec.getLsbD_ushiftRight, BitVec.getLsbD_setWidth,
      BitVec.getLsbD_of_ge byte.toBitVec (8 + i) (by omega), Bool.and_false]
    exact (BitVec.getLsbD_zero).symm
  unfold crcTableByte crcByte
  rw [entries _ (and_255_lt _), BitVec.ofNat_toNat, BitVec.setWidth_eq,
    crcShifts_eight (crc ^^^ byte.toBitVec.setWidth w), BitVec.ushiftRight_xor_distrib, gone,
    BitVec.xor_zero]

end LvglAic.Machine
