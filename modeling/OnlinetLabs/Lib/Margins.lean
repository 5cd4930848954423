import Mathlib.Algebra.Order.BigOperators.Ring.Finset
import Mathlib.Tactic.Linarith
import Mathlib.Tactic.Ring

/-!
# Two gradings of one population

The shares that two graders give to each category, and the share they both give to it. What they
would share by chance, the product of their shares summed over the categories, is at most half of
one and what they do share.
-/

/-- The shares of the categories `s`: those of the one grader, of the other, and of both at once. -/
structure Margins {ι K : Type} [Field K] [LinearOrder K] (s : Finset ι) (p q d : ι → K) : Prop where
  nonneg : ∀ c ∈ s, 0 ≤ d c
  le_left : ∀ c ∈ s, d c ≤ p c
  le_right : ∀ c ∈ s, d c ≤ q c
  add_le : ∀ c ∈ s, p c + q c ≤ 1 + d c
  sum_left : ∑ c ∈ s, p c = 1
  sum_right : ∑ c ∈ s, q c = 1

namespace Margins

variable {ι K : Type} [Field K] [LinearOrder K] {s : Finset ι} {p q d : ι → K} {c : ι}

theorem left_nonneg (h : Margins s p q d) (hc : c ∈ s) :
    0 ≤ p c := (h.nonneg c hc).trans (h.le_left c hc)

theorem symm (h : Margins s p q d) : Margins s q p d where
  nonneg := h.nonneg
  le_left := h.le_right
  le_right := h.le_left
  add_le c hc := by
    rw [add_comm]
    exact h.add_le c hc
  sum_left := h.sum_right
  sum_right := h.sum_left

variable [IsStrictOrderedRing K]

theorem left_le_one (h : Margins s p q d) (hc : c ∈ s) : p c ≤ 1 := by
  rw [← h.sum_left]
  exact Finset.single_le_sum (fun c hc => h.left_nonneg hc) hc

theorem expected_le_one (h : Margins s p q d) : ∑ c ∈ s, p c * q c ≤ 1 := by
  calc ∑ c ∈ s, p c * q c ≤ ∑ c ∈ s, p c := by
        apply Finset.sum_le_sum
        intro c hc
        exact mul_le_of_le_one_right (h.left_nonneg hc) (h.symm.left_le_one hc)
    _ = 1 := h.sum_left

/-- The one category of which chance makes a certainty. -/
theorem right_eq_one (h : Margins s p q d) (hexpected : ∑ c ∈ s, p c * q c = 1) (hc : c ∈ s)
    (hp : p c ≠ 0) :
    q c = 1 := by
  have hrest : ∑ c ∈ s, p c * (1 - q c) = 0 := by
    simp only [mul_sub, mul_one, Finset.sum_sub_distrib, h.sum_left, hexpected, sub_self]
  have hterm : ∀ c ∈ s, 0 ≤ p c * (1 - q c) := fun c hc =>
    mul_nonneg (h.left_nonneg hc) (sub_nonneg.mpr (h.symm.left_le_one hc))
  have hzero := (Finset.sum_eq_zero_iff_of_nonneg hterm).mp hrest c hc
  exact (sub_eq_zero.mp ((mul_eq_zero.mp hzero).resolve_left hp)).symm

theorem exists_of_expected_eq_one (h : Margins s p q d) (hexpected : ∑ c ∈ s, p c * q c = 1) :
    ∃ c ∈ s, p c = 1 ∧ q c = 1 := by
  have hsome : ∃ c ∈ s, p c ≠ 0 := by
    apply Finset.exists_ne_zero_of_sum_ne_zero
    rw [h.sum_left]
    exact one_ne_zero
  obtain ⟨c, hc, hp⟩ := hsome
  have hq : q c = 1 := h.right_eq_one hexpected hc hp
  have hexpected' : ∑ c ∈ s, q c * p c = 1 := by
    simp only [mul_comm (q _)]
    exact hexpected
  refine ⟨c, hc, h.symm.right_eq_one hexpected' hc ?_, hq⟩
  rw [hq]
  exact one_ne_zero

/-- What chance gives of one category, twice. -/
theorem term_le (h : Margins s p q d) (hc : c ∈ s) : 4 * (p c * q c) ≤ p c + q c + 2 * d c := by
  have hp := h.left_nonneg hc
  have hq := h.symm.left_nonneg hc
  have hd := h.nonneg c hc
  have hadd := h.add_le c hc
  have hpOne := h.left_le_one hc
  have hqOne := h.symm.left_le_one hc
  have hsquare : 0 ≤ (p c - q c) ^ 2 := sq_nonneg _
  have hbound : (p c + q c) * (p c + q c) ≤ (p c + q c) * (1 + d c) :=
    mul_le_mul_of_nonneg_left hadd (add_nonneg hp hq)
  have hagreed : (p c + q c) * d c ≤ 2 * d c := mul_le_mul_of_nonneg_right (by linarith) hd
  calc 4 * (p c * q c) = (p c + q c) * (p c + q c) - (p c - q c) ^ 2 := by ring
    _ ≤ (p c + q c) * (1 + d c) := by linarith
    _ = p c + q c + (p c + q c) * d c := by ring
    _ ≤ p c + q c + 2 * d c := by linarith

/-- **Chance is bounded by what is shared.** -/
theorem two_mul_expected_le (h : Margins s p q d) : 2 * ∑ c ∈ s, p c * q c ≤ 1 + ∑ c ∈ s, d c := by
  have hsum : ∑ c ∈ s, 4 * (p c * q c) ≤ ∑ c ∈ s, (p c + q c + 2 * d c) :=
    Finset.sum_le_sum fun c hc => h.term_le hc
  rw [← Finset.mul_sum, Finset.sum_add_distrib, Finset.sum_add_distrib, ← Finset.mul_sum,
    h.sum_left, h.sum_right] at hsum
  linarith

end Margins
