import Mathlib.Data.List.Sort
import Mathlib.Data.List.Perm.Basic

/-!
# Keeping the newest rows of each group

A table is trimmed group by group down to so many of its newest rows, time and again, while rows are
added. What was dropped is covered: of every row that is gone there are so many others in its group
that are no older. The rows that left the table for another reason count among those others.
-/

namespace Retention

variable {α γ ρ : Type} [DecidableEq γ] [LinearOrder ρ]

/-- The rows of the group of `a` that are no older. -/
def newer (group : α → γ) (key : α → ρ) (a b : α) :
    Bool := decide (group b = group a) && decide (key a ≤ key b)

def Covered (bound : Nat) (group : α → γ) (key : α → ρ) (kept dropped : List α) : Prop :=
  ∀ a ∈ dropped, bound ≤ kept.countP (newer group key a)

variable {bound : Nat} {group : α → γ} {key : α → ρ}
  {kept kept' dropped rows listing others : List α} {g : γ}
  {keep : α → Bool}

theorem covered_nil : Covered bound group key kept [] := nofun

theorem Covered.mono (h : Covered bound group key kept dropped)
    (hle : ∀ p : α → Bool, kept.countP p ≤ kept'.countP p) :
    Covered bound group key kept' dropped :=
  fun a ha => (h a ha).trans (hle _)

/-- What is newest first is cut behind the newer ones as long as there is room. -/
theorem min_countP_le {p : α → Bool} (hsorted : listing.Pairwise fun a b => key b ≤ key a)
    (hp : ∀ a b, key a ≤ key b → p a = true → p b = true) (n : Nat) :
    min n (listing.countP p) ≤ (listing.take n).countP p := by
  induction listing generalizing n with
  | nil => simp
  | cons a rest ih =>
      obtain ⟨hfirst, hrest⟩ := List.pairwise_cons.mp hsorted
      cases n with
      | zero => simp
      | succ n =>
          have hle := ih hrest n
          rw [List.take_succ_cons]
          by_cases ha : p a = true
          · rw [List.countP_cons_of_pos ha, List.countP_cons_of_pos ha]
            omega
          · have hnone : rest.countP p = 0 :=
              List.countP_eq_zero.mpr fun b hb hpb => ha (hp b a (hfirst b hb) hpb)
            rw [List.countP_cons_of_neg ha, hnone]
            simp

theorem countP_newer_filter {a : α} (hg : group a = g) :
    (rows.filter fun b => decide (group b = g)).countP (fun b => decide (key a ≤ key b))
      = rows.countP (newer group key a) := by
  subst hg
  rw [List.countP_filter]
  exact List.countP_congr fun b _ => by simp [newer, and_comm]

/-- A row of another group does not count. -/
theorem countP_newer_of_ne {a : α} (hne : group a ≠ g)
    (hkeep : ∀ b ∈ rows, group b ≠ g → keep b = true) :
    (rows.filter keep).countP (newer group key a) = rows.countP (newer group key a) := by
  rw [List.countP_filter]
  refine List.countP_congr fun b hb => ?_
  simp only [newer, Bool.and_eq_true, decide_eq_true_eq]
  constructor
  · exact fun h => h.1
  · exact fun h => ⟨h, hkeep b hb (h.1 ▸ hne)⟩

/-- **One trim.** A group is cut down to its newest rows. -/
theorem Covered.trim (h : Covered bound group key (rows ++ others) dropped)
    (hlisting : listing.Perm (rows.filter fun b => decide (group b = g)))
    (hsorted : listing.Pairwise fun a b => key b ≤ key a)
    (hkept : ((rows.filter keep).filter fun b => decide (group b = g)).Perm (listing.take bound))
    (hkeep : ∀ b ∈ rows, group b ≠ g → keep b = true) :
    Covered bound group key (rows.filter keep ++ others)
      ((rows.filter fun b => !keep b) ++ dropped) := by
  intro a ha
  rw [List.countP_append]
  rcases List.mem_append.mp ha with hgone | hold
  · -- a row that goes now is behind a full set of newer ones
    obtain ⟨hrow, hnot⟩ := List.mem_filter.mp hgone
    have hgroup : group a = g := by
      by_contra hne
      simp [hkeep a hrow hne] at hnot
    have hsplit := List.filter_append_perm keep (rows.filter fun b => decide (group b = g))
    rw [List.filter_filter, List.filter_filter] at hsplit
    have hcomm : (rows.filter fun b => keep b && decide (group b = g))
        = (rows.filter keep).filter fun b => decide (group b = g) := by
      rw [List.filter_filter]
      exact List.filter_congr fun b _ => Bool.and_comm _ _
    rw [hcomm] at hsplit
    have hdrop :
        (rows.filter fun b => !keep b && decide (group b = g)).Perm (listing.drop bound) := by
      have hwhole :=
        (hsplit.trans hlisting.symm).trans
        (List.Perm.of_eq (List.take_append_drop bound listing).symm)
      exact (List.perm_append_left_iff _).mp ((hkept.symm.append_right _).trans hwhole)
    have hmem : a ∈ listing.drop bound :=
      hdrop.mem_iff.mp (List.mem_filter.mpr ⟨hrow, by simpa [hgroup] using hnot⟩)
    have hfull : (listing.take bound).countP (fun b => decide (key a ≤ key b)) = bound := by
      have hcross : ∀ b ∈ listing.take bound, key a ≤ key b := by
        rw [← List.take_append_drop bound listing, List.pairwise_append] at hsorted
        exact fun b hb => hsorted.2.2 b hb a hmem
      rw [List.countP_eq_length.mpr fun b hb => decide_eq_true (hcross b hb), List.length_take]
      have hpos := List.length_pos_of_mem hmem
      rw [List.length_drop] at hpos
      omega
    rw [← countP_newer_filter hgroup, hkept.countP_eq, hfull]
    exact Nat.le_add_right _ _
  · have hbefore := h a hold
    rw [List.countP_append] at hbefore
    by_cases hgroup : group a = g
    · have hmin := min_countP_le (p := fun b => decide (key a ≤ key b)) hsorted
        (fun b c hbc hb => decide_eq_true ((of_decide_eq_true hb).trans hbc)) bound
      rw [hlisting.countP_eq, countP_newer_filter hgroup, ← hkept.countP_eq,
        countP_newer_filter hgroup] at hmin
      omega
    · rwa [countP_newer_of_ne hgroup hkeep]

/-- What is taken off the end of a listing by its ids. -/
theorem filter_not_mem_drop {ι : Type} [DecidableEq ι] {id : α → ι}
    (hnodup : (listing.map id).Nodup) (n : Nat) :
    (listing.filter fun b => !decide (id b ∈ (listing.drop n).map id)) = listing.take n := by
  have hsplit : (listing.take n).map id ++ (listing.drop n).map id = listing.map id := by
    rw [← List.map_append, List.take_append_drop]
  have hdisjoint := (List.nodup_append.mp (hsplit ▸ hnodup)).2.2
  have htake : ((listing.take n).filter fun b => !decide (id b ∈ (listing.drop n).map id))
      = listing.take n := by
    apply List.filter_eq_self.mpr
    intro b hb
    rw [Bool.not_eq_true', decide_eq_false_iff_not]
    exact fun hmem => hdisjoint (id b) (List.mem_map_of_mem hb) (id b) hmem rfl
  have hdrop :
      ((listing.drop n).filter fun b => !decide (id b ∈ (listing.drop n).map id)) = [] := by
    apply List.filter_eq_nil_iff.mpr
    intro b hb
    rw [decide_eq_true (List.mem_map_of_mem hb)]
    exact Bool.false_ne_true
  rw [← List.take_append_drop n listing, List.filter_append, List.take_append_drop, htake, hdrop,
    List.append_nil]

end Retention
