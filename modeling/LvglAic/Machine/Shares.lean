import LvglAic.Machine.Index

/-! # Even shares

A whole of `n` units is cut into `k` shares that differ by at most one unit, the
larger ones first.
-/

namespace LvglAic.Machine

def share (n k i : ℕ) : ℕ := n / k + if i < n % k then 1 else 0

def shareStart (n k i : ℕ) : ℕ := i * (n / k) + min i (n % k)

section
variable {n k i j q limit : ℕ}

theorem shareStart_zero : shareStart n k 0 = 0 := by
  unfold shareStart
  rw [zero_mul, Nat.zero_min]

theorem shareStart_succ : shareStart n k (i + 1) = shareStart n k i + share n k i := by
  unfold shareStart share
  rw [Nat.succ_mul]
  split <;> omega

theorem shareStart_last (positive : 0 < k) : shareStart n k k = n := by
  unfold shareStart
  rw [min_eq_right (Nat.mod_lt n positive).le]
  exact Nat.div_add_mod n k

theorem shareStart_mono : Monotone (shareStart n k) := by
  apply monotone_nat_of_le_succ
  intro i
  rw [shareStart_succ]
  exact Nat.le_add_right _ _

theorem share_end_le (inside : i < k) : shareStart n k i + share n k i ≤ n := by
  rw [← shareStart_succ]
  exact (shareStart_mono inside).trans (shareStart_last (by omega)).le

/-- Every unit belongs to exactly one share. -/
theorem share_exists_unique (inside : q < n) (positive : 0 < k) :
    ∃! i, i < k ∧ shareStart n k i ≤ q ∧ q < shareStart n k i + share n k i := by
  have reached : ∀ m, q < shareStart n k m →
      ∃ i, i < m ∧ shareStart n k i ≤ q ∧ q < shareStart n k i + share n k i := by
    intro m
    induction m with
    | zero =>
        intro early
        rw [shareStart_zero] at early
        exact absurd early (Nat.not_lt_zero q)
    | succ m ih =>
        intro early
        by_cases before : q < shareStart n k m
        · obtain ⟨i, below, low, high⟩ := ih before
          exact ⟨i, below.trans (Nat.lt_succ_self m), low, high⟩
        · rw [shareStart_succ] at early
          exact ⟨m, Nat.lt_succ_self m, Nat.not_lt.mp before, early⟩
  obtain ⟨i, below, low, high⟩ := reached k (by rwa [shareStart_last positive])
  refine ⟨i, ⟨below, low, high⟩, ?_⟩
  rintro j ⟨_, lowJ, highJ⟩
  rw [← shareStart_succ] at high highJ
  rcases lt_trichotomy j i with order | same | order
  · exact absurd (highJ.trans_le (shareStart_mono order)) (not_lt.mpr low)
  · exact same
  · exact absurd (high.trans_le (shareStart_mono order)) (not_lt.mpr lowJ)

/-- As few shares as keep each within the limit: no share exceeds it. -/
theorem share_le_limit (least : n ≤ limit * k) (occupied : 0 < k) :
    share n k i ≤ limit := by
  have whole := Nat.div_add_mod n k
  have rest := Nat.mod_lt n occupied
  unfold share
  split
  · rename_i larger
    have small : n / k < limit := by
      rw [Nat.div_lt_iff_lt_mul occupied]
      rcases least.lt_or_eq with below | same
      · exact below
      · rw [same, Nat.mul_mod_left] at larger
        exact absurd larger (Nat.not_lt_zero i)
    omega
  · rw [add_zero]
    exact Nat.div_le_of_le_mul (by rwa [Nat.mul_comm])

/-- Two or more such shares are at least half as large as the limit. -/
theorem half_limit_le_share (two : 2 ≤ k) (most : limit * (k - 1) < n) (positive : 0 < limit) :
    (limit + 1) / 2 ≤ share n k i := by
  have half : (limit + 1) / 2 * 2 ≤ limit + 1 := Nat.div_mul_le_self _ _
  have enough : (limit + 1) / 2 ≤ n / k := by
    rw [Nat.le_div_iff_mul_le (by omega)]
    obtain ⟨m, rfl⟩ := Nat.exists_eq_add_of_le two
    have previous : 2 + m - 1 = m + 1 := by omega
    rw [previous] at most
    nlinarith
  exact enough.trans (Nat.le_add_right _ _)

end

end LvglAic.Machine
