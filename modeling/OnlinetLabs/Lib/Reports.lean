import Mathlib.Data.List.Basic

/-!
# Reports

Items, some of which report something, tagged by the key of the item. The list of the reports does
not say which item a report is of, but where of every group of items with one key the one way to
report always does when the other does, two equal lists come from equal reports.
-/

namespace Reports

variable {α β κ : Type} [DecidableEq κ] {f g : α → Option β} {tag : β → κ} {key : α → κ}
  {items : List α} {k : κ}

def Tagged (tag : β → κ) (key : α → κ) (f : α → Option β) (items : List α) : Prop :=
  ∀ a ∈ items, ∀ b ∈ f a, tag b = key a

def Covers (g f : α → Option β) (items : List α) : Prop := ∀ a ∈ items, (f a).isSome = true →
    (g a).isSome = true

theorem Covers.length_le (h : Covers g f items) :
    (items.filterMap f).length ≤ (items.filterMap g).length := by
  induction items with
  | nil => exact Nat.le_refl _
  | cons a items ih =>
    obtain ⟨ha, hitems⟩ := List.forall_mem_cons.mp h
    have hle := ih hitems
    cases hf : f a with
    | none =>
      rw [List.filterMap_cons_none hf]
      exact Nat.le_trans hle ((List.sublist_cons_self a items).filterMap g).length_le
    | some b =>
      obtain ⟨c, hc⟩ := Option.isSome_iff_exists.mp (ha (by rw [hf]; rfl))
      rw [List.filterMap_cons_some hf, List.filterMap_cons_some hc]
      exact Nat.succ_le_succ hle

/-- Equal lists of reports, of which the one covers the other, are of equal reports. -/
theorem Covers.eq_of_filterMap_eq (h : Covers g f items)
    (heq : items.filterMap f = items.filterMap g) :
    ∀ a ∈ items, f a = g a := by
  induction items with
  | nil => simp
  | cons a items ih =>
    obtain ⟨ha, hitems⟩ := List.forall_mem_cons.mp h
    rw [List.forall_mem_cons]
    cases hf : f a with
    | none =>
      cases hg : g a with
      | none =>
        rw [List.filterMap_cons_none hf, List.filterMap_cons_none hg] at heq
        exact ⟨rfl, ih hitems heq⟩
      | some c =>
        rw [List.filterMap_cons_none hf, List.filterMap_cons_some hg] at heq
        have hle := Covers.length_le hitems
        rw [heq, List.length_cons] at hle
        omega
    | some b =>
      obtain ⟨c, hc⟩ := Option.isSome_iff_exists.mp (ha (by rw [hf]; rfl))
      rw [List.filterMap_cons_some hf, List.filterMap_cons_some hc, List.cons.injEq] at heq
      rw [hc, heq.1]
      exact ⟨rfl, ih hitems heq.2⟩

/-- The reports of a key are those of its items. -/
theorem filter_filterMap (h : Tagged tag key f items) :
    (items.filterMap f).filter (fun b => decide (tag b = k))
      = (items.filter fun a => decide (key a = k)).filterMap f := by
  induction items with
  | nil => rfl
  | cons a items ih =>
    obtain ⟨ha, hitems⟩ := List.forall_mem_cons.mp h
    have hrest := ih hitems
    by_cases hk : key a = k
    · have hkept : (a :: items).filter (fun a => decide (key a = k))
          = a :: items.filter fun a => decide (key a = k) := by
        simp [hk]
      rw [hkept]
      cases hf : f a with
      | none => rw [List.filterMap_cons_none hf, List.filterMap_cons_none hf, hrest]
      | some b =>
        have htag : tag b = k := (ha b hf).trans hk
        rw [List.filterMap_cons_some hf, List.filterMap_cons_some hf, ← hrest]
        simp [htag]
    · have hleft : (a :: items).filter (fun a => decide (key a = k)) = items.filter fun a =>
          decide (key a = k) := by
        simp [hk]
      rw [hleft]
      cases hf : f a with
      | none => rw [List.filterMap_cons_none hf, hrest]
      | some b =>
        have htag : tag b ≠ k := by
          rw [ha b hf]
          exact hk
        rw [List.filterMap_cons_some hf, ← hrest]
        simp [htag]

/-- **Equal lists of reports are of equal reports**, where in every group the one way to report
covers the other. -/
theorem filterMap_eq_iff (hf : Tagged tag key f items) (hg : Tagged tag key g items)
    (hgroup : ∀ k, Covers g f (items.filter fun a => decide (key a = k))
      ∨ Covers f g (items.filter fun a => decide (key a = k))) :
    items.filterMap f = items.filterMap g ↔ ∀ a ∈ items, f a = g a := by
  constructor
  · intro heq a ha
    have hsame : (items.filter fun a' => decide (key a' = key a)).filterMap f
        = (items.filter fun a' => decide (key a' = key a)).filterMap g := by
      rw [← filter_filterMap hf, ← filter_filterMap hg, heq]
    have hmem : a ∈ items.filter fun a' => decide (key a' = key a) :=
      List.mem_filter.mpr ⟨ha, by simp⟩
    rcases hgroup (key a) with hcovers | hcovers
    · exact hcovers.eq_of_filterMap_eq hsame a hmem
    · exact (hcovers.eq_of_filterMap_eq hsame.symm a hmem).symm
  · exact fun h => List.filterMap_congr h

end Reports
