import Mathlib.Data.List.Induction
import Mathlib.Data.List.Perm.Basic
import Mathlib.Data.List.TakeWhile

/-!
# Trailing runs

How many elements at the end of a list satisfy a predicate, and which of two orders of a list end
how.
-/

namespace Trailing

variable {α : Type} {p : α → Bool} {l before after : List α} {a b : α}

def trailing (p : α → Bool) (l : List α) : Nat := (l.reverse.takeWhile p).length

theorem trailing_concat : trailing p (l ++ [a]) = if p a then trailing p l + 1 else 0 := by
  unfold trailing
  rw [List.reverse_append, List.reverse_singleton, List.singleton_append, List.takeWhile_cons]
  split
  · rfl
  · rfl

/-- A stretch of the run is counted whole. -/
theorem trailing_append (h : ∀ a ∈ after, p a = true) :
    trailing p (before ++ after) = trailing p before + after.length := by
  unfold trailing
  rw [List.reverse_append, List.takeWhile_append_of_pos fun a ha => h a (List.mem_reverse.mp ha),
    List.length_append, List.length_reverse, Nat.add_comm]

theorem trailing_eq_zero (h : ∀ a ∈ l.getLast?, p a = false) : trailing p l = 0 := by
  induction l using List.reverseRecOn with
  | nil => rfl
  | append_singleton l a =>
    rw [List.getLast?_concat] at h
    rw [trailing_concat, h a rfl, if_neg Bool.false_ne_true]

/-- The last two elements of a list that has two. -/
theorem exists_concat_concat (h : 2 ≤ l.length) : ∃ rest a b, l = rest ++ [a, b] := by
  have hrest := List.take_append_drop (l.length - 2) l
  have hlast : (l.drop (l.length - 2)).length = 2 := by
    rw [List.length_drop]
    omega
  obtain ⟨a, b, hab⟩ := List.length_eq_two.mp hlast
  exact ⟨l.take (l.length - 2), a, b, by rw [← hab, hrest]⟩

/-- Two elements that are not related can be put at the end. -/
theorem exists_perm_of_not_pairwise {R : α → α → Prop} (h : ¬l.Pairwise R) :
    ∃ rest a b, l.Perm (rest ++ [a, b]) ∧ ¬R a b := by
  induction l with
  | nil => exact absurd List.Pairwise.nil h
  | cons a l ih =>
    by_cases hl : l.Pairwise R
    · have hfirst : ∃ b ∈ l, ¬R a b := by
        by_contra hall
        push Not at hall
        exact h (List.pairwise_cons.mpr ⟨hall, hl⟩)
      obtain ⟨b, hb, hab⟩ := hfirst
      obtain ⟨before, after, rfl⟩ := List.append_of_mem hb
      refine ⟨before ++ after, a, b, ?_, hab⟩
      calc (a :: (before ++ b :: after)).Perm (a :: b :: (before ++ after)) :=
        List.perm_middle.cons a
        _ = [a, b] ++ (before ++ after) := rfl
        _ |>.Perm (before ++ after ++ [a, b]) := List.perm_append_comm
    · obtain ⟨rest, b, c, hperm, hbc⟩ := ih hl
      exact ⟨a :: rest, b, c, hperm.cons a, hbc⟩

end Trailing
