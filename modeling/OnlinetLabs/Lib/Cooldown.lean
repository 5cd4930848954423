import Mathlib.Algebra.Order.Group.Defs
import Mathlib.Data.List.Chain

/-!
# Walks that cool down

A walk over items in their order fires at each that qualifies, unless it has fired too recently.
Which items fire depends on what has fired before them, but how many does not grow when fewer
qualify: the walk over more is never behind by more than the firing it has just made.
-/

namespace Cooldown

variable {α K : Type} [AddCommGroup K] [LinearOrder K] {gap : K} {instant : α → K} {p q : α → Bool}
  {last last' : Option K} {a : α} {items rest : List α}

/-- Whether the last firing is no bar at an instant. -/
def ready (gap : K) (last : Option K) (t : K) : Bool := last.all fun l => decide (gap ≤ t - l)

/-- The items that fire, from the instant of the last firing on. -/
def fire (gap : K) (instant : α → K) (p : α → Bool) : Option K → List α → List α
  | _, [] => []
  | last, a :: rest =>
      if p a && ready gap last (instant a) then a :: fire gap instant p (some (instant a)) rest
      else fire gap instant p last rest

theorem fire_fires (hp : p a = true) (hready : ready gap last (instant a) = true) :
    fire gap instant p last (a :: rest) = a :: fire gap instant p (some (instant a)) rest := by
  rw [fire, hp, hready]
  rfl

theorem fire_skips (h : ¬(p a = true ∧ ready gap last (instant a) = true)) :
    fire gap instant p last (a :: rest) = fire gap instant p last rest := by
  rw [fire, if_neg (by simpa using h)]

/-- What has fired waits for the gap. -/
theorem isChain_fire :
    (fire gap instant p last items).IsChain fun a b => gap ≤ instant b - instant a := by
  have hfirst : ∀ {last : Option K} {a : α} {items : List α},
      a ∈ (fire gap instant p last items).head? →
      ready gap last (instant a) = true := by
    intro last a items h
    induction items with
    | nil => cases h
    | cons b rest ih =>
      by_cases hb : p b = true ∧ ready gap last (instant b) = true
      · rw [fire_fires hb.1 hb.2, List.head?_cons, Option.mem_some_iff] at h
        exact h ▸ hb.2
      · rw [fire_skips hb] at h
        exact ih h
  induction items generalizing last with
  | nil => exact List.isChain_nil
  | cons a rest ih =>
    by_cases ha : p a = true ∧ ready gap last (instant a) = true
    · rw [fire_fires ha.1 ha.2]
      apply List.isChain_cons.mpr
      refine ⟨fun b hb => ?_, ih⟩
      simpa [ready] using hfirst hb
    · rw [fire_skips ha]
      exact ih

section Ordered

variable [IsOrderedAddMonoid K]

/-- The last firing, if any, is at or before an instant. -/
def Before (last : Option K) (t : K) : Prop := ∀ l ∈ last, l ≤ t

/-- Whoever fired earlier is ready when the other is. -/
theorem ready_of_before {l t : K} (hlast : Before last l) (hready : ready gap (some l) t = true) :
    ready gap last t = true := by
  cases last with
  | none => rfl
  | some earlier =>
    simp only [ready, Option.all_some, decide_eq_true_eq] at hready ⊢
    exact hready.trans (sub_le_sub_left (hlast earlier rfl) t)

def Ascending (instant : α → K) (items : List α) : Prop :=
  items.Pairwise fun a later => instant a ≤ instant later

/-- The step of the comparison: the walk over `p` that is not behind stays so, and one that is
behind is so by the firing it has just made. -/
theorem length_fire_le (hpq : ∀ a, q a = true → p a = true) (hsorted : Ascending instant items) :
    (∀ last last' : Option K, (last' = none → last = none) → (∀ l ∈ last', Before last l) →
        (fire gap instant q last' items).length ≤ (fire gap instant p last items).length)
      ∧ (∀ last last' : Option K, (∀ a ∈ items, Before last (instant a)) →
        (fire gap instant q last' items).length ≤ (fire gap instant p last items).length + 1) := by
  induction items with
  | nil => exact ⟨fun _ _ _ _ => le_rfl, fun _ _ _ => Nat.zero_le _⟩
  | cons a rest ih =>
    obtain ⟨hfirst, hrest⟩ := List.pairwise_cons.mp hsorted
    obtain ⟨hahead, hbehind⟩ := ih hrest
    have hsame : (fire gap instant q (some (instant a)) rest).length
        ≤ (fire gap instant p (some (instant a)) rest).length := by
      apply hahead _ _ (by simp)
      rintro l ⟨⟩ l' ⟨⟩
      exact le_rfl
    have hfired : ∀ b ∈ rest, Before (some (instant a)) (instant b) := by
      rintro b hb l ⟨⟩
      exact hfirst b hb
    constructor
    · intro last last' hnone hearlier
      by_cases hq : q a = true ∧ ready gap last' (instant a) = true
      · have hready : ready gap last (instant a) = true := by
          cases last' with
          | none =>
            rw [hnone rfl]
            rfl
          | some l => exact ready_of_before (hearlier l rfl) hq.2
        rw [fire_fires hq.1 hq.2, fire_fires (hpq a hq.1) hready]
        exact Nat.succ_le_succ hsame
      · rw [fire_skips hq]
        by_cases hp : p a = true ∧ ready gap last (instant a) = true
        · rw [fire_fires hp.1 hp.2]
          exact hbehind _ _ hfired
        · rw [fire_skips hp]
          exact hahead _ _ hnone hearlier
    · intro last last' hbefore
      by_cases hp : p a = true ∧ ready gap last (instant a) = true
      · rw [fire_fires hp.1 hp.2]
        by_cases hq : q a = true ∧ ready gap last' (instant a) = true
        · rw [fire_fires hq.1 hq.2]
          exact Nat.succ_le_succ (hsame.trans (Nat.le_succ _))
        · rw [fire_skips hq]
          exact (hbehind _ _ hfired).trans (Nat.le_succ _)
      · rw [fire_skips hp]
        by_cases hq : q a = true ∧ ready gap last' (instant a) = true
        · rw [fire_fires hq.1 hq.2]
          apply Nat.succ_le_succ
          apply hahead _ _ (by simp)
          rintro l ⟨⟩
          exact hbefore a List.mem_cons_self
        · rw [fire_skips hq]
          exact hbehind _ _ fun b hb => hbefore b (List.mem_cons_of_mem _ hb)

end Ordered

end Cooldown
