import Mathlib.Data.List.Basic

/-!
# Charging

A list of claims, each of which some item answers and no two of which one item answers, is no longer
than the items that answer any of them.
-/

namespace Charging

variable {α β : Type} {answers : β → α → Bool} {claims : List β} {items : List α} {p q : α → Bool}

def Apart (answers : β → α → Bool) (claims : List β) (items : List α) : Prop :=
  claims.Pairwise fun c c' => ∀ a ∈ items, answers c a = true → answers c' a = false

theorem countP_add_countP (h : ∀ a ∈ items, p a = true → q a = false) :
    items.countP p + items.countP q = items.countP fun a => p a || q a := by
  induction items with
  | nil => rfl
  | cons a items ih =>
    obtain ⟨ha, hitems⟩ := List.forall_mem_cons.mp h
    have hrest := ih hitems
    simp only [List.countP_cons]
    cases hp : p a with
    | false =>
      simp only [Bool.false_or, Bool.false_eq_true, if_false]
      omega
    | true =>
      simp only [ha hp, Bool.true_or, Bool.false_eq_true, if_false, if_true]
      omega

theorem length_le_countP (hanswered : ∀ c ∈ claims, ∃ a ∈ items, answers c a = true)
    (hapart : Apart answers claims items) :
    claims.length ≤ items.countP fun a => claims.any (answers · a) := by
  induction claims with
  | nil => exact Nat.zero_le _
  | cons c claims ih =>
    obtain ⟨hc, hclaims⟩ := List.forall_mem_cons.mp hanswered
    obtain ⟨hfirst, hrest⟩ := List.pairwise_cons.mp hapart
    have hone : 0 < items.countP (answers c) := List.countP_pos_iff.mpr hc
    have hlater := ih hclaims hrest
    have hdisjoint : ∀ a ∈ items, answers c a = true → claims.any (answers · a) = false := by
      intro a ha hca
      rw [List.any_eq_false]
      intro c' hc'
      simp [hfirst c' hc' a ha hca]
    calc (c :: claims).length ≤ items.countP (answers c) + items.countP (fun a =>
      claims.any (answers · a)) := by
          rw [List.length_cons]
          omega
      _ = items.countP fun a => (c :: claims).any (answers · a) := by
          rw [countP_add_countP hdisjoint]
          rfl

/-- **The bound.** -/
theorem countP_add_length_le (hanswered : ∀ c ∈ claims, ∃ a ∈ items, answers c a = true)
    (hapart : Apart answers claims items)
    (hfree : ∀ a ∈ items, p a = true → ∀ c ∈ claims, answers c a = false) :
    items.countP p + claims.length ≤ items.length := by
  have hclaims := length_le_countP hanswered hapart
  have hdisjoint : ∀ a ∈ items, p a = true → claims.any (answers · a) = false := by
    intro a ha hp
    rw [List.any_eq_false]
    intro c hc
    simp [hfree a ha hp c hc]
  calc items.countP p + claims.length
      ≤ items.countP p + items.countP (fun a => claims.any (answers · a)) := by omega
    _ = items.countP fun a => p a || claims.any (answers · a) := countP_add_countP hdisjoint
    _ ≤ items.length := List.countP_le_length

end Charging
