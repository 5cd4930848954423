import Mathlib.Data.Finset.Max
import Mathlib.Data.List.Dedup
import Mathlib.Data.List.Infix

/-!
# Streaks

The longest run of one value in a list of values some of which are missing. A missing value is part
of no run, and a run of one is none. Unless no value occurs twice, or all there is is one value, an
order of the list without the longest run can be found.
-/

namespace Streaks

variable {α : Type} {l l' : List (Option α)} {a : α} {x : Option α} {n m k : Nat}

def HasStreak (l : List (Option α)) (k : Nat) : Prop := ∃ a, List.replicate k (some a) <:+: l

structure IsLongest (l : List (Option α)) (n : Nat) : Prop where
  ne_one : n ≠ 1
  hasStreak_iff : ∀ k, 2 ≤ k → (HasStreak l k ↔ k ≤ n)

theorem IsLongest.unique (h : IsLongest l n) (h' : IsLongest l m) : n = m := by
  by_contra hne
  have hn := h.ne_one
  have hm := h'.ne_one
  rcases Nat.lt_or_gt_of_ne hne with hlt | hlt
  · have hm2 : 2 ≤ m := by omega
    have hle := (h.hasStreak_iff m hm2).mp ((h'.hasStreak_iff m hm2).mpr (Nat.le_refl m))
    omega
  · have hn2 : 2 ≤ n := by omega
    have hle := (h'.hasStreak_iff n hn2).mp ((h.hasStreak_iff n hn2).mpr (Nat.le_refl n))
    omega

/-! ### The scan -/

theorem replicate_suffix_concat : List.replicate (k + 1) (some a) <:+ l ++ [x]
    ↔ x = some a ∧ List.replicate k (some a) <:+ l := by
  rw [List.replicate_succ', List.suffix_concat_iff]
  constructor
  · rintro (h | ⟨t, h, ht⟩)
    · simp at h
    · obtain ⟨rfl, hx⟩ := List.append_inj' h rfl
      exact ⟨(List.singleton_inj.mp hx).symm, ht⟩
  · rintro ⟨rfl, h⟩
    exact Or.inr ⟨_, rfl, h⟩

theorem hasStreak_concat : HasStreak (l ++ [x]) (k + 1)
    ↔ HasStreak l (k + 1) ∨ ∃ a, x = some a ∧ List.replicate k (some a) <:+ l := by
  simp only [HasStreak, List.infix_concat_iff, replicate_suffix_concat, exists_or]
  rw [or_comm]

/-- What cannot go before a list without making a streak is the value that the list begins with. -/
theorem hasStreak_cons (hk : 2 ≤ k) (hno : ¬HasStreak l k) (h : HasStreak (x :: l) k) :
    ∃ a, x = some a ∧ List.replicate (k - 1) (some a) <+: l := by
  obtain ⟨a, h⟩ := h
  rcases List.infix_cons_iff.mp h with h | h
  · obtain ⟨k, rfl⟩ := Nat.exists_eq_add_of_le' hk
    rw [List.replicate_succ, List.prefix_cons_iff] at h
    rcases h with h | ⟨t, ht, htl⟩
    · simp at h
    · obtain ⟨hx, rfl⟩ := List.cons.inj ht
      exact ⟨a, hx.symm, htl⟩
  · exact absurd ⟨a, h⟩ hno

structure Scanned (l : List (Option α)) (s : Nat × Nat × Option α) : Prop where
  longest : IsLongest l s.1
  pos : 1 ≤ s.2.1
  current : ∀ a, s.2.2 = some a → ∀ k, List.replicate k (some a) <:+ l ↔ k ≤ s.2.1
  last : ∀ a k, List.replicate (k + 1) (some a) <:+ l → s.2.2 = some a

theorem Scanned.nil : Scanned ([] : List (Option α)) (0, 1, none) := by
  refine ⟨⟨Nat.zero_ne_one, ?_⟩, Nat.le_refl 1, ?_, ?_⟩
  · intro k hk
    refine iff_of_false ?_ (by omega)
    rintro ⟨a, h⟩
    have hlength := h.length_le
    rw [List.length_replicate, List.length_nil] at hlength
    omega
  · intro a h
    cases h
  · intro a k h
    have hlength := h.length_le
    rw [List.length_replicate, List.length_nil] at hlength
    omega

/-- A value that goes on with the streak before it. -/
theorem Scanned.more {s : Nat × Nat × Option α} (h : Scanned l s) (hlast : s.2.2 = some a) :
    Scanned (l ++ [some a]) (max s.1 (s.2.1 + 1), s.2.1 + 1, some a) := by
  have hpos := h.pos
  refine ⟨⟨?_, ?_⟩, Nat.le_add_left 1 _, ?_, ?_⟩
  · dsimp only
    omega
  · intro k hk
    obtain ⟨k, rfl⟩ := Nat.exists_eq_succ_of_ne_zero (by omega : k ≠ 0)
    rw [hasStreak_concat, h.longest.hasStreak_iff (k + 1) hk]
    have hcurrent : (∃ b, some a = some b ∧ List.replicate k (some b) <:+ l) ↔ k ≤ s.2.1 := by
      rw [← h.current a hlast k]
      simp
    rw [hcurrent]
    omega
  · intro b hb k
    cases hb
    cases k with
    | zero => simp
    | succ k =>
      rw [replicate_suffix_concat, h.current a hlast k]
      simp
  · intro b k hsuffix
    exact (replicate_suffix_concat.mp hsuffix).1

/-- A value that begins one, or none. -/
theorem Scanned.fresh {s : Nat × Nat × Option α} (h : Scanned l s)
    (hlast : ¬(x = s.2.2 ∧ s.2.2.isSome)) :
    Scanned (l ++ [x]) (s.1, 1, x) := by
  have hnone : ∀ a k, x = some a → ¬List.replicate (k + 1) (some a) <:+ l := by
    intro a k hx hsuffix
    have hsame := h.last a k hsuffix
    exact hlast ⟨hx.trans hsame.symm, by rw [hsame]; rfl⟩
  refine ⟨⟨h.longest.ne_one, ?_⟩, Nat.le_refl 1, ?_, ?_⟩
  · intro k hk
    obtain ⟨k, rfl⟩ := Nat.exists_eq_add_of_le' hk
    rw [hasStreak_concat, ← h.longest.hasStreak_iff (k + 2) hk, or_iff_left]
    rintro ⟨a, hx, hsuffix⟩
    exact hnone a k hx hsuffix
  · intro a hx k
    rcases k with _ | _ | k
    · simp
    · rw [replicate_suffix_concat]
      simpa using hx
    · rw [replicate_suffix_concat]
      dsimp only
      refine iff_of_false ?_ (by omega)
      rintro ⟨-, hsuffix⟩
      exact hnone a k hx hsuffix
  · intro a k hsuffix
    exact (replicate_suffix_concat.mp hsuffix).1

variable [DecidableEq α]

/-- The longest streak so far, the one that goes on, and the value before. -/
def scan (s : Nat × Nat × Option α) (x : Option α) : Nat × Nat × Option α :=
  if x = s.2.2 ∧ s.2.2.isSome then (max s.1 (s.2.1 + 1), s.2.1 + 1, x) else (s.1, 1, x)

def longest (l : List (Option α)) : Nat := (l.foldl scan (0, 1, none)).1

theorem Scanned.step {s : Nat × Nat × Option α} (h : Scanned l s) (x : Option α) :
    Scanned (l ++ [x]) (scan s x) := by
  unfold scan
  split
  · rename_i hsame
    obtain ⟨rfl, hsome⟩ := hsame
    obtain ⟨a, ha⟩ := Option.isSome_iff_exists.mp hsome
    have hmore := h.more ha
    rwa [← ha] at hmore
  · rename_i hfresh
    exact h.fresh hfresh

theorem scanned (l : List (Option α)) : Scanned l (l.foldl scan (0, 1, none)) := by
  induction l using List.reverseRecOn with
  | nil => exact Scanned.nil
  | append_singleton l x ih =>
    rw [List.foldl_append]
    exact ih.step x

theorem isLongest_longest (l : List (Option α)) : IsLongest l (longest l) := (scanned l).longest

/-! ### Other orders -/

theorem le_count_of_replicate (h : List.replicate k (some a) <:+: l) : k ≤ l.count (some a) := by
  have hle := h.sublist.count_le (some a)
  rwa [List.count_replicate_self] at hle

/-- Where no value occurs twice, there is no streak in any order. -/
theorem longest_of_count_le_one (h : ∀ a, l.count (some a) ≤ 1) : longest l = 0 := by
  apply (isLongest_longest l).unique
  refine ⟨Nat.zero_ne_one, fun k hk => iff_of_false ?_ (by omega)⟩
  rintro ⟨a, hrun⟩
  have hle := (le_count_of_replicate hrun).trans (h a)
  omega

/-- The copies of a value can be put together. -/
theorem exists_perm_hasStreak (l : List (Option α)) (a : α) :
    ∃ l', l'.Perm l ∧ HasStreak l' (l.count (some a)) := by
  refine ⟨l.filter (· == some a) ++ l.filter (fun x => !(x == some a)),
    List.filter_append_perm _ l, a, ?_⟩
  rw [List.filter_beq]
  exact (List.prefix_append _ _).isInfix

omit [DecidableEq α] in
/-- One other value parts the copies of a value. -/
theorem not_hasStreak_parted (hk : 2 ≤ k) (hx : x ≠ some a) :
    ¬HasStreak (some a :: x :: List.replicate (k - 1) (some a)) k := by
  obtain ⟨k, rfl⟩ := Nat.exists_eq_add_of_le' hk
  have hcopies : ¬HasStreak (List.replicate (k + 1) (some a)) (k + 2) := by
    rintro ⟨b, h⟩
    have hlength := h.length_le
    rw [List.length_replicate, List.length_replicate] at hlength
    omega
  have hbehind : ¬HasStreak (x :: List.replicate (k + 1) (some a)) (k + 2) := by
    intro h
    obtain ⟨b, rfl, hstart⟩ := hasStreak_cons hk hcopies h
    have hmem : some b ∈ List.replicate (k + 1) (some a) :=
      hstart.subset (List.mem_replicate.mpr ⟨by omega, rfl⟩)
    exact hx (List.eq_of_mem_replicate hmem)
  intro h
  obtain ⟨b, hb, hstart⟩ := hasStreak_cons hk hbehind h
  rw [Nat.add_succ_sub_one, List.replicate_succ, List.cons_prefix_cons] at hstart
  exact hx (hstart.1.symm.trans hb.symm)

/-- A value that the list begins with as often as it can goes to its end, where something else
stands. -/
theorem not_hasStreak_concat (hk : 2 ≤ k) (hno : ¬HasStreak l k)
    (hstart : List.replicate (k - 1) (some a) <+: l)
    (hcount : l.count (some a) ≤ k - 1) (hl : l ≠ List.replicate (k - 1) (some a)) :
    ¬HasStreak (l ++ [some a]) k := by
  obtain ⟨k, rfl⟩ := Nat.exists_eq_add_of_le' hk
  obtain ⟨rest, rfl⟩ := hstart
  intro h
  rcases hasStreak_concat.mp h with h | ⟨b, hb, hsuffix⟩
  · exact hno h
  · cases hb
    cases rest using List.reverseRecOn with
    | nil => exact hl (List.append_nil _)
    | append_singleton rest y =>
      rw [← List.append_assoc, replicate_suffix_concat] at hsuffix
      rw [hsuffix.1, List.count_append, List.count_replicate_self, List.count_append,
        List.count_singleton_self]
        at hcount
      omega

/-- Unless all there is is one value, an order without a streak of its length can be found. -/
theorem exists_perm_not_hasStreak (hk : 2 ≤ k) (hcount : ∀ a, l.count (some a) ≤ k)
    (hl : ∀ a, l ≠ List.replicate k (some a)) : ∃ l', l'.Perm l ∧ ¬HasStreak l' k := by
  induction l with
  | nil =>
    refine ⟨[], List.Perm.refl _, ?_⟩
    rintro ⟨a, h⟩
    have hle := le_count_of_replicate h
    rw [List.count_nil] at hle
    omega
  | cons x l ih =>
    by_cases hone : ∃ a, l = List.replicate k (some a)
    · obtain ⟨a, rfl⟩ := hone
      have hx : x ≠ some a := by
        rintro rfl
        have hmore := hcount a
        rw [List.count_cons_self, List.count_replicate_self] at hmore
        omega
      refine ⟨some a :: x :: List.replicate (k - 1) (some a), ?_, not_hasStreak_parted hk hx⟩
      obtain ⟨k, rfl⟩ := Nat.exists_eq_add_of_le' hk
      exact List.Perm.swap x (some a) _
    · obtain ⟨l', hperm, hno⟩ := ih (fun a => List.count_le_count_cons.trans (hcount a)) fun a ha =>
          hone ⟨a, ha⟩
      by_cases hfront : HasStreak (x :: l') k
      · obtain ⟨a, rfl, hstart⟩ := hasStreak_cons hk hno hfront
        refine ⟨l' ++ [some a], (List.perm_append_singleton _ _).trans (hperm.cons _), ?_⟩
        apply not_hasStreak_concat hk hno hstart
        · have hmore := hcount a
          rw [List.count_cons_self, ← hperm.count_eq] at hmore
          omega
        · rintro rfl
          apply hl a
          rw [List.perm_replicate.mp hperm.symm, ← List.replicate_succ]
          congr 1
          omega
      · exact ⟨x :: l', hperm.cons x, hfront⟩

/-- **When the order does not matter.** -/
theorem forall_perm_longest_iff (l : List (Option α)) :
    (∀ l' : List (Option α), l'.Perm l → longest l' = longest l)
    ↔ (∀ a, l.count (some a) ≤ 1) ∨ ∃ a, ∀ x ∈ l, x = some a := by
  constructor
  · intro h
    by_contra hneither
    rw [not_or] at hneither
    obtain ⟨htwice, hmixed⟩ := hneither
    have hmost : ∃ a, 2 ≤ l.count (some a) ∧ ∀ b, l.count (some b) ≤ l.count (some a) := by
      obtain ⟨b, hb⟩ := not_forall.mp htwice
      have hmem : ∀ a, 0 < l.count (some a) → a ∈ (l.filterMap id).toFinset := by
        intro a ha
        rw [List.mem_toFinset, List.mem_filterMap]
        exact ⟨some a, List.count_pos_iff.mp ha, rfl⟩
      obtain ⟨a, -, hmax⟩ :=
        Finset.exists_max_image (l.filterMap id).toFinset (fun a => l.count (some a))
        ⟨b, hmem b (by omega)⟩
      have hbound : ∀ b, l.count (some b) ≤ l.count (some a) := by
        intro b
        by_cases hb : 0 < l.count (some b)
        · exact hmax b (hmem b hb)
        · omega
      have hba := hbound b
      exact ⟨a, by omega, hbound⟩
    obtain ⟨a, htwo, hmax⟩ := hmost
    have hl : ∀ b, l ≠ List.replicate (l.count (some a)) (some b) := fun b hb =>
      hmixed ⟨b, fun x hx => List.eq_of_mem_replicate (hb ▸ hx)⟩
    obtain ⟨together, htogether, hstreak⟩ := exists_perm_hasStreak l a
    obtain ⟨apart, hapart, hno⟩ := exists_perm_not_hasStreak htwo hmax hl
    have hle := ((isLongest_longest together).hasStreak_iff _ htwo).mp hstreak
    rw [h together htogether, ← h apart hapart] at hle
    exact hno (((isLongest_longest apart).hasStreak_iff _ htwo).mpr hle)
  · rintro (hsingle | ⟨a, hall⟩) l' hperm
    · have hsingle' : ∀ a, l'.count (some a) ≤ 1 := fun a => hperm.count_eq (some a) ▸ hsingle a
      rw [longest_of_count_le_one hsingle, longest_of_count_le_one hsingle']
    · rw [List.eq_replicate_length.mpr hall] at hperm ⊢
      rw [List.perm_replicate.mp hperm]

end Streaks
