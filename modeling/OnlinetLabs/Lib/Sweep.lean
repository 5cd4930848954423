import Mathlib.Data.List.Basic

/-!
# Deleting in batches

Doomed rows are deleted so many at a time. A batch that is not full has found all there were. As
long as what is doomed is old, and no old rows come, every full batch brings the number of old rows
down, so that only so many batches can be full.
-/

namespace Sweep

variable {α : Type}

/-- A choice of at most `limit` of the doomed rows, less only if there are no more. -/
structure Choice (limit : Nat) (doomed : α → Bool) (rows : List α) (pick : α → Bool) : Prop where
  sound : ∀ a ∈ rows, pick a = true → doomed a = true
  count : rows.countP pick = min limit (rows.countP doomed)

instance (limit : Nat) (doomed : α → Bool) (rows : List α) (pick : α → Bool) :
    Decidable (Choice limit doomed rows pick) :=
  decidable_of_iff ((∀ a ∈ rows, pick a = true → doomed a = true)
    ∧ rows.countP pick = min limit (rows.countP doomed))
    ⟨fun h => ⟨h.1, h.2⟩, fun h => ⟨h.sound, h.count⟩⟩

def keep (pick : α → Bool) (rows : List α) : List α := rows.filter fun a => !pick a

variable {limit : Nat} {doomed old pick : α → Bool} {rows : List α}

theorem countP_keep_add (p : α → Bool) (pick : α → Bool) (rows : List α) :
    (keep pick rows).countP p + (rows.filter pick).countP p = rows.countP p := by
  induction rows with
  | nil => rfl
  | cons a rows ih =>
      unfold keep at ih ⊢
      by_cases hpick : pick a = true <;> by_cases hp : p a = true <;> simp_all <;> omega

theorem countP_keep_le (p : α → Bool) (pick : α → Bool) (rows : List α) :
    (keep pick rows).countP p ≤ rows.countP p :=
  List.filter_sublist.countP_le

theorem Choice.le (h : Choice limit doomed rows pick) : rows.countP pick ≤ limit :=
  h.count ▸ Nat.min_le_left _ _

/-- A batch that is not full leaves nothing doomed. -/
theorem Choice.none_left (h : Choice limit doomed rows pick) (hfew : rows.countP pick < limit) :
    (keep pick rows).filter doomed = [] := by
  have hcount : rows.countP doomed = rows.countP pick := by
    have := h.count
    omega
  have hboth : (rows.filter pick).countP doomed = rows.countP pick := by
    rw [List.countP_eq_length_filter (p := pick)]
    exact List.countP_eq_length.mpr fun a ha =>
      h.sound a (List.mem_filter.mp ha).1 (List.mem_filter.mp ha).2
  have hsplit := countP_keep_add doomed pick rows
  rw [← List.length_eq_zero_iff, ← List.countP_eq_length_filter]
  omega

/-- A full batch takes so many of the old rows. -/
theorem Choice.full (h : Choice limit doomed rows pick)
    (hold : ∀ a ∈ rows, doomed a = true → old a = true)
    (hfull : limit ≤ rows.countP pick) : (keep pick rows).countP old + limit ≤ rows.countP old := by
  have hboth : (rows.filter pick).countP old = rows.countP pick := by
    rw [List.countP_eq_length_filter (p := pick)]
    refine List.countP_eq_length.mpr fun a ha => ?_
    obtain ⟨hmem, hpick⟩ := List.mem_filter.mp ha
    exact hold a hmem (h.sound a hmem hpick)
  have hsplit := countP_keep_add old pick rows
  omega

end Sweep
