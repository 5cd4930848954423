import Mathlib.Algebra.BigOperators.Group.List.Lemmas
import Mathlib.Algebra.Ring.Nat
import Mathlib.Data.List.Dedup

/-!
# Distinct items

The items of a list without repetitions, in the order in which they first appear. Another order of
the list gives another order of them and nothing else, and their counts add up to the length of the
list.
-/

namespace Distinct

variable {α : Type} [DecidableEq α] {l l' : List α}

theorem nodup_eraseDups (l : List α) : l.eraseDups.Nodup := by
  induction hn : l.length using Nat.strongRecOn generalizing l with
  | _ n ih =>
    cases l with
    | nil => exact List.nodup_nil
    | cons a l =>
      rw [List.eraseDups_cons, List.nodup_cons]
      refine ⟨by simp, ih _ ?_ _ rfl⟩
      rw [← hn, List.length_cons]
      exact Nat.lt_succ_of_le (List.length_filter_le _ _)

theorem eraseDups_perm_dedup (l : List α) : l.eraseDups.Perm l.dedup :=
  (List.perm_ext_iff_of_nodup (nodup_eraseDups l) (List.nodup_dedup l)).mpr fun a => by simp

theorem eraseDups_perm (h : l.Perm l') : l.eraseDups.Perm l'.eraseDups :=
  (List.perm_ext_iff_of_nodup (nodup_eraseDups l) (nodup_eraseDups l')).mpr fun a => by
    simp [h.mem_iff]

theorem sum_count_eraseDups (l : List α) : (l.eraseDups.map fun a => l.count a).sum = l.length := by
  rw [((eraseDups_perm_dedup l).map _).sum_eq]
  exact List.sum_map_count_dedup_eq_length l

end Distinct
