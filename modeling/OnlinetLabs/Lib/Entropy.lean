import Mathlib.Analysis.SpecialFunctions.Log.Base

/-!
# Entropy

The entropy of a list of weights that add up to one lies between nothing and the logarithm of their
number. The upper bound compares each weight with the equal one: the logarithm lies under its
tangent, and the differences add up to nothing.
-/

namespace Entropy

variable {weights : List ℝ} {w b : ℝ}

/-- Shannon's, to the base `b`. -/
noncomputable def entropy (b : ℝ) (weights : List ℝ) :
    ℝ := -(weights.map fun w => w * Real.logb b w).sum

theorem entropy_nonneg (hb : 1 < b) (hweights : ∀ w ∈ weights, 0 < w ∧ w ≤ 1) :
    0 ≤ entropy b weights := by
  apply neg_nonneg.mpr
  induction weights with
  | nil => exact le_rfl
  | cons w weights ih =>
    obtain ⟨⟨hpos, hle⟩, hrest⟩ := List.forall_mem_cons.mp hweights
    have hlog : Real.logb b w ≤ 0 := Real.logb_nonpos hb hpos.le hle
    rw [List.map_cons, List.sum_cons]
    exact add_nonpos (mul_nonpos_of_nonneg_of_nonpos hpos.le hlog) (ih hrest)

/-- One weight against the equal one. -/
theorem mul_log_le (hw : 0 < w) {n : ℝ} (hn : 0 < n) :
    -(w * Real.log w) - w * Real.log n ≤ 1 / n - w := by
  have hinv : 0 < 1 / (n * w) := by positivity
  have htangent : Real.log (1 / (n * w)) ≤ 1 / (n * w) - 1 := Real.log_le_sub_one_of_pos hinv
  rw [one_div, Real.log_inv, Real.log_mul hn.ne' hw.ne'] at htangent
  calc -(w * Real.log w) - w * Real.log n = w * -(Real.log n + Real.log w) := by ring
    _ ≤ w * ((n * w)⁻¹ - 1) := by gcongr
    _ = 1 / n - w := by
      field_simp

theorem sum_log_le (hweights : ∀ w ∈ weights, 0 < w) {n : ℝ} (hn : 0 < n) :
    -(weights.map fun w => w * Real.log w).sum - weights.sum * Real.log n ≤ weights.length / n
      - weights.sum := by
  induction weights with
  | nil => simp
  | cons w weights ih =>
    obtain ⟨hw, hrest⟩ := List.forall_mem_cons.mp hweights
    have hfirst := mul_log_le hw hn
    have hall := ih hrest
    rw [List.map_cons, List.sum_cons, List.sum_cons, List.length_cons]
    push_cast
    have hlength : ((weights.length : ℝ) + 1) / n = weights.length / n + 1 / n := add_div _ _ _
    rw [hlength]
    linarith

/-- **At most the logarithm of the number of weights.** -/
theorem entropy_le (hb : 1 < b) (hweights : ∀ w ∈ weights, 0 < w) (hsum : weights.sum = 1) :
    entropy b weights ≤ Real.logb b weights.length := by
  have hsome : weights ≠ [] := by
    rintro rfl
    simp at hsum
  have hn : (0 : ℝ) < weights.length := Nat.cast_pos.mpr (List.length_pos_iff.mpr hsome)
  have hbound := sum_log_le hweights hn
  rw [hsum, one_mul, div_self hn.ne', sub_self, sub_nonpos] at hbound
  have hterms : (weights.map fun w => w * Real.logb b w).sum
      = (weights.map fun w => w * Real.log w).sum / Real.log b := by
    rw [div_eq_mul_inv, ← List.sum_map_mul_right]
    congr 1
    apply List.map_congr_left
    intro w _
    rw [Real.logb, div_eq_mul_inv, mul_assoc]
  have hlog : 0 < Real.log b := Real.log_pos hb
  rw [entropy, hterms, Real.logb, ← neg_div]
  exact div_le_div_of_nonneg_right hbound hlog.le

end Entropy
