import Mathlib.Data.List.Nodup
import Mathlib.Data.List.Range

/-!
# Numbering

Numbers that are handed out one after another, from one on. Where none is missing, the greatest is
how many there are, and the next one leaves none out.
-/

namespace Numbering

variable {numbers : List Nat} {n : Nat}

/-- From one to their count, and each of them once. -/
structure Gapless (numbers : List Nat) : Prop where
  nodup : numbers.Nodup
  mem_iff : ∀ n, n ∈ numbers ↔ 1 ≤ n ∧ n ≤ numbers.length

theorem Gapless.range' (k : Nat) : Gapless (List.range' 1 k) := by
  refine ⟨List.nodup_range', fun n => ?_⟩
  rw [List.mem_range'_1, List.length_range']
  omega

theorem Gapless.max?_getD (h : Gapless numbers) : numbers.max?.getD 0 = numbers.length := by
  cases hmax : numbers.max? with
  | none =>
      rw [List.max?_eq_none_iff.mp hmax]
      rfl
  | some n =>
      obtain ⟨hmem, hle⟩ := List.max?_eq_some_iff.mp hmax
      have hn := (h.mem_iff n).mp hmem
      have hlength := hle numbers.length ((h.mem_iff _).mpr ⟨by omega, Nat.le_refl _⟩)
      rw [Option.getD_some]
      omega

theorem Gapless.concat (h : Gapless numbers) : Gapless (numbers ++ [numbers.length + 1]) := by
  have hnew : numbers.length + 1 ∉ numbers := by
    rw [h.mem_iff]
    omega
  refine ⟨List.nodup_append.mpr ⟨h.nodup, List.nodup_singleton _, ?_⟩, fun n => ?_⟩
  · rintro n hn m hm rfl
    rw [List.mem_singleton.mp hm] at hn
    exact hnew hn
  · rw [List.mem_append, h.mem_iff, List.mem_singleton, List.length_append, List.length_singleton]
    omega

/-- What the next number can be is the one after the last. -/
theorem Gapless.eq_of_not_mem (h : Gapless numbers) (hpos : 1 ≤ n) (hle : n ≤ numbers.length + 1)
    (hn : n ∉ numbers) : n = numbers.length + 1 := by
  rw [h.mem_iff] at hn
  omega

end Numbering
