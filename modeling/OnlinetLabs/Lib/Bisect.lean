import Mathlib.Data.List.Basic
import Mathlib.Order.Basic
import Mathlib.Algebra.Order.Group.Nat

/-!
# Binary search

Where a value would be inserted into an ascending list, behind its equals.
-/

namespace Bisect

variable {K : Type} [LinearOrder K] {xs : List K} {x : K} {lo hi fuel : Nat}

/-- The loop of the search, which halves what is between `lo` and `hi`. -/
def bisectFrom (xs : List K) (x : K) : Nat → Nat → Nat → Nat
  | 0, lo, _ => lo
  | fuel + 1, lo, hi =>
      if lo < hi then
        let mid := (lo + hi) / 2
        if xs[mid]?.any fun y => decide (x < y) then bisectFrom xs x fuel lo mid
        else bisectFrom xs x fuel (mid + 1) hi
      else lo

def bisectRight (xs : List K) (x : K) : Nat := bisectFrom xs x xs.length 0 xs.length

/-- What is before `i` is at most `x`, what is from `i` on greater. -/
def Splits (xs : List K) (x : K) (i : Nat) : Prop :=
  ∀ j y, xs[j]? = some y → (j < i → y ≤ x) ∧ (i ≤ j → x < y)

theorem le_of_getElem? (hsorted : xs.Pairwise (· ≤ ·)) {i j : Nat} {y z : K} (hy : xs[i]? = some y)
    (hz : xs[j]? = some z) (hij : i ≤ j) : y ≤ z := by
  obtain ⟨hi, rfl⟩ := List.getElem?_eq_some_iff.mp hy
  obtain ⟨hj, rfl⟩ := List.getElem?_eq_some_iff.mp hz
  rcases hij.eq_or_lt with rfl | hlt
  · exact le_rfl
  · exact List.pairwise_iff_getElem.mp hsorted i j hi hj hlt

theorem splits_bisectFrom (hsorted : xs.Pairwise (· ≤ ·)) (hfuel : hi ≤ lo + fuel) (hle : lo ≤ hi)
    (hhi : hi ≤ xs.length) (hlow : ∀ j y, xs[j]? = some y → j < lo → y ≤ x)
    (hhigh : ∀ j y, xs[j]? = some y → hi ≤ j → x < y) :
    bisectFrom xs x fuel lo hi ≤ xs.length ∧ Splits xs x (bisectFrom xs x fuel lo hi) := by
  induction fuel generalizing lo hi with
  | zero =>
    have hdone : lo = hi := by omega
    subst hdone
    exact ⟨hhi, fun j y hy => ⟨hlow j y hy, hhigh j y hy⟩⟩
  | succ fuel ih =>
    by_cases hlt : lo < hi
    · have hlength : (lo + hi) / 2 < xs.length := by omega
      have hmid : xs[(lo + hi) / 2]? = some xs[(lo + hi) / 2] := List.getElem?_eq_getElem hlength
      rw [bisectFrom, if_pos hlt]
      simp only [hmid, Option.any_some, decide_eq_true_eq]
      by_cases hgreater : x < xs[(lo + hi) / 2]
      · rw [if_pos hgreater]
        apply ih (by omega) (by omega) (by omega) hlow
        intro j y hy hj
        exact hgreater.trans_le (le_of_getElem? hsorted hmid hy hj)
      · rw [if_neg hgreater]
        refine ih (by omega) (by omega) hhi ?_ hhigh
        intro j y hy hj
        exact (le_of_getElem? hsorted hy hmid (by omega)).trans (not_lt.mp hgreater)
    · have hdone : lo = hi := by omega
      subst hdone
      rw [bisectFrom, if_neg hlt]
      exact ⟨hhi, fun j y hy => ⟨hlow j y hy, hhigh j y hy⟩⟩

theorem splits_bisectRight (hsorted : xs.Pairwise (· ≤ ·)) :
    bisectRight xs x ≤ xs.length ∧ Splits xs x (bisectRight xs x) := by
  apply splits_bisectFrom hsorted (by omega) (Nat.zero_le _) le_rfl
  · intro j y _ hj
    omega
  · intro j y hy hj
    obtain ⟨hlt, -⟩ := List.getElem?_eq_some_iff.mp hy
    omega

end Bisect
