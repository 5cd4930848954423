import Mathlib.Data.List.Nodup

/-!
# A bounded memory of keys

A memory takes a key it does not have to its end, and gives up its oldest keys where it holds more
than its bound. `sift` reads a list through it and keeps what the memory did not know.
-/

namespace Recent

variable {α κ : Type} [DecidableEq κ]

def remember (bound : Nat) (seen : List κ) (k : κ) : List κ :=
  if k ∈ seen then seen else (seen ++ [k]).drop (seen.length + 1 - bound)

def after (bound : Nat) (key : α → κ) (seen : List κ) (l : List α) : List κ :=
  l.foldl (fun seen a => remember bound seen (key a)) seen

def sift (bound : Nat) (key : α → κ) : List κ → List α → List α
  | _, [] => []
  | seen, a :: l =>
      if key a ∈ seen then sift bound key seen l
      else a :: sift bound key (remember bound seen (key a)) l

/-- The memory knows the key of an element of the list when it comes to it. -/
def Knows (bound : Nat) (key : α → κ) (seen : List κ) (l : List α) (a : α) : Prop :=
  ∃ before later, l = before ++ a :: later ∧ key a ∈ after bound key seen before

variable {bound : Nat} {key : α → κ} {seen : List κ} {l l' : List α} {a : α} {k : κ}

theorem remember_of_mem (h : k ∈ seen) : remember bound seen k = seen := if_pos h

theorem sift_append : sift bound key seen (l ++ l')
    = sift bound key seen l ++ sift bound key (after bound key seen l) l' := by
  induction l generalizing seen with
  | nil => rfl
  | cons a l ih =>
      rw [List.cons_append, sift, sift, after, List.foldl_cons]
      split
      · rename_i hmem
        rw [ih, remember_of_mem hmem]
        rfl
      · rw [ih]
        rfl

theorem sift_sublist : (sift bound key seen l).Sublist l := by
  induction l generalizing seen with
  | nil => exact List.Sublist.slnil
  | cons a l ih =>
      rw [sift]
      split
      · exact ih.cons a
      · exact ih.cons_cons a

theorem knows_cons : Knows bound key seen (a :: l) a → key a ∈ seen ∨ a ∈ l := by
  rintro ⟨before, later, heq, hmem⟩
  cases before with
  | nil => exact Or.inl hmem
  | cons b before =>
      obtain ⟨-, rfl⟩ := List.cons.inj heq
      exact Or.inr (List.mem_append_right _ List.mem_cons_self)

/-- **What is sifted out.** Of a list without repetition, what the memory knew when it came to
it. -/
theorem not_mem_sift_iff (hnodup : l.Nodup) (ha : a ∈ l) :
    a ∉ sift bound key seen l ↔ Knows bound key seen l a := by
  induction l generalizing seen with
  | nil => cases ha
  | cons b l ih =>
      obtain ⟨hb, hl⟩ := List.nodup_cons.mp hnodup
      have hafter : ∀ before, after bound key seen (b :: before)
          = after bound key (remember bound seen (key b)) before := fun before => rfl
      by_cases hab : a = b
      · subst hab
        have hself : Knows bound key seen (a :: l) a ↔ key a ∈ seen :=
          ⟨fun h => (knows_cons h).resolve_right hb, fun h => ⟨[], l, rfl, h⟩⟩
        rw [hself, sift]
        split
        · rename_i hmem
          exact iff_of_true (fun h => hb (sift_sublist.subset h)) hmem
        · rename_i hmem
          exact iff_of_false (fun h => h List.mem_cons_self) hmem
      · have hal : a ∈ l := (List.mem_cons.mp ha).resolve_left hab
        have hknows : Knows bound key seen (b :: l) a
            ↔ Knows bound key (remember bound seen (key b)) l a := by
          constructor
          · rintro ⟨before, later, heq, hmem⟩
            cases before with
            | nil => exact absurd (List.cons.inj heq).1.symm hab
            | cons c before =>
                obtain ⟨rfl, rfl⟩ := List.cons.inj heq
                exact ⟨before, later, rfl, hmem⟩
          · rintro ⟨before, later, rfl, hmem⟩
            exact ⟨b :: before, later, rfl, hmem⟩
        rw [hknows, ← ih hl hal, sift]
        split
        · rename_i hmem
          rw [remember_of_mem hmem]
        · rw [List.mem_cons, or_iff_right hab]

end Recent
