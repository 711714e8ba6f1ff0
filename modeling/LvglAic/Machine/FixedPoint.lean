import LvglAic.Machine.Index

/-! # Fixed-point sampling in machine integers

Signed arithmetic that leaves its type is undefined in C: here it has no value.
A sampler reads its source at equal steps from a phase inside the first pixel of
a crop, in units of `1 / unit` pixels.
-/

namespace LvglAic.Machine

/-! ## Checked arithmetic -/

/-- The values of a signed integer type with `bits` bits and a sign. -/
def Signed (bits : ℕ) (value : ℤ) : Prop := -2 ^ bits ≤ value ∧ value < 2 ^ bits

instance {bits : ℕ} {value : ℤ} : Decidable (Signed bits value) :=
  inferInstanceAs (Decidable (_ ∧ _))

def checked (bits : ℕ) (value : ℤ) : Option ℤ :=
  if Signed bits value then some value else none

theorem checked_of_signed {bits : ℕ} {value : ℤ} (fits : Signed bits value) :
    checked bits value = some value := if_pos fits

/-- The unsigned difference of 32 bits. -/
def minus32 (a b : ℕ) : ℕ := (a + 2 ^ 32 - b) % 2 ^ 32

theorem minus32_eq {a b : ℕ} (below : b ≤ a) (small : a < 2 ^ 32) : minus32 a b = a - b := by
  unfold minus32
  omega

/-- A mask of consecutive bits keeps a field of a number. -/
theorem and_field (value n k : ℕ) : value &&& (2 ^ n - 1) * 2 ^ k = value / 2 ^ k % 2 ^ n * 2 ^ k := by
  apply Nat.eq_of_testBit_eq
  intro i
  rw [Nat.testBit_and, Nat.testBit_mul_two_pow, Nat.testBit_mul_two_pow, Nat.testBit_mod_two_pow,
    Nat.testBit_div_two_pow, Nat.testBit_two_pow_sub_one]
  by_cases low : k ≤ i
  · rw [Nat.sub_add_cancel low]
    simp only [low, decide_true, Bool.true_and, Bool.and_comm]
  · simp only [low, decide_false, Bool.false_and, Bool.and_false]

/-- The mask of an alignment clears the low bits of a word. -/
theorem and_clear {value k : ℕ} (small : value < 2 ^ 32) (power : k ≤ 32) :
    value &&& (2 ^ 32 - 1 - (2 ^ k - 1)) = value / 2 ^ k * 2 ^ k := by
  have whole : 2 ^ (32 - k) * 2 ^ k = 2 ^ 32 := by rw [← pow_add, Nat.sub_add_cancel power]
  have positive : 0 < 2 ^ k := Nat.two_pow_pos k
  have mask : 2 ^ 32 - 1 - (2 ^ k - 1) = (2 ^ (32 - k) - 1) * 2 ^ k := by
    rw [Nat.sub_mul, whole]
    omega
  have high : value / 2 ^ k < 2 ^ (32 - k) := by
    rw [Nat.div_lt_iff_lt_mul positive, whole]
    exact small
  rw [mask, and_field, Nat.mod_eq_of_lt high]

theorem Signed.of_abs {bits : ℕ} {value : ℤ} (small : |value| < 2 ^ bits) : Signed bits value :=
  ⟨(abs_lt.mp small).1.le, (abs_lt.mp small).2⟩

theorem abs_mul_le {left right : ℤ} {low high : ℕ} (leftSmall : |left| ≤ 2 ^ low)
    (rightSmall : |right| ≤ 2 ^ high) : |left * right| ≤ 2 ^ (low + high) := by
  rw [abs_mul, pow_add]
  exact mul_le_mul leftSmall rightSmall (abs_nonneg _) (by positivity)

theorem abs_toInt_le (value : Int32) : |value.toInt| ≤ 2 ^ 31 := by
  have low := Int32.le_toInt value
  have high := Int32.toInt_lt value
  rw [abs_le]
  omega

theorem toInt_ofInt {value : ℤ} (fits : Signed 31 value) : (Int32.ofInt value).toInt = value := by
  obtain ⟨low, high⟩ := fits
  exact Int32.toInt_ofInt_of_le low high

/-- The rounded division of the C idiom is the floor. -/
theorem floorDiv_eq (numerator : ℤ) {denominator : ℤ} (positive : 0 < denominator) :
    (if 0 ≤ numerator then numerator.tdiv denominator
      else -(-numerator + denominator - 1).tdiv denominator) = numerator / denominator := by
  split
  · rename_i nonneg
    exact Int.tdiv_eq_ediv_of_nonneg nonneg
  · rename_i negative
    rw [Int.tdiv_eq_ediv_of_nonneg (by omega)]
    have moved : -numerator + denominator - 1 = -(numerator + 1) + 1 * denominator := by ring
    have whole := Int.ediv_mul_add_emod numerator denominator
    have low := Int.emod_nonneg numerator positive.ne'
    have high := Int.emod_lt_of_pos numerator positive
    have quotient : (-numerator + denominator - 1) / denominator = -(numerator / denominator) := by
      rw [Int.ediv_eq_iff_of_pos positive]
      constructor <;> nlinarith
    rw [quotient, neg_neg]

/-! ## Samplers -/

/-- Output `i` reads the source at `crop * unit + phase + i * step`. -/
structure Sampler where
  crop : ℤ
  phase : ℤ
  step : ℤ

def Sampler.at (unit : ℤ) (sampler : Sampler) (i : ℤ) : ℤ :=
  sampler.crop * unit + sampler.phase + i * sampler.step

section
variable {unit : ℤ}

/-- The crop and the phase of a coordinate that is not negative. -/
def Sampler.from (unit first step : ℤ) : Sampler := ⟨first / unit, first % unit, step⟩

theorem Sampler.from_at (first step i : ℤ) :
    (Sampler.from unit first step).at unit i = first + i * step := by
  unfold Sampler.from Sampler.at
  rw [Int.ediv_mul_add_emod]

end

/-! ## The drift of a truncated step

An exact coordinate `⌊offset * range / scale⌋` advances by the truncated step
`⌊range / scale⌋` and, now and then, by one unit more.
-/

section
variable {range scale offset distance : ℤ}

/-- The units that the remainder of the step has added up to. -/
def carry (range scale offset : ℤ) : ℤ := offset * (range % scale) / scale

theorem exact_eq (positive : 0 < scale) :
    offset * range / scale = offset * (range / scale) + carry range scale offset := by
  have split := Int.ediv_mul_add_emod range scale
  have moved : offset * range =
      offset * (range % scale) + offset * (range / scale) * scale := by
    conv_lhs => rw [← split]
    ring
  rw [moved, Int.add_mul_ediv_right _ _ positive.ne', carry, add_comm]

theorem carry_mono (positive : 0 < scale) (forward : 0 ≤ distance) :
    carry range scale offset ≤ carry range scale (offset + distance) := by
  have nonneg := Int.emod_nonneg range positive.ne'
  exact Int.ediv_le_ediv positive (by nlinarith)

theorem exact_add (range offset distance : ℤ) (positive : 0 < scale) :
    (offset + distance) * range / scale = offset * range / scale + distance * (range / scale) +
      (carry range scale (offset + distance) - carry range scale offset) := by
  rw [exact_eq positive, exact_eq positive]
  ring

end

end LvglAic.Machine
