import Mathlib.Data.List.Sort

/-!
# Newest first

`ORDER BY key DESC`, and what it does to a log: a list whose keys strictly increase is read
backwards.
-/

variable {α β : Type} {key : α → Nat} {l : List α} {a b : α}

/-- The rows with the greatest key first. The sort is stable. -/
def newestFirst (key : α → Nat) (l : List α) : List α := l.insertionSort fun a b => key b ≤ key a

/-- `ORDER BY key DESC LIMIT 1`. -/
def newest (key : α → Nat) (l : List α) : Option α := (newestFirst key l).head?

namespace Newest

/-- An element with a smaller key than all others is sorted to the end. -/
theorem orderedInsert_of_lt (h : ∀ b ∈ l, key a < key b) :
    l.orderedInsert (fun a b => key b ≤ key a) a = l ++ [a] := by
  induction l with
  | nil => rfl
  | cons b l ih =>
      have hb : ¬ key b ≤ key a := Nat.not_le.mpr (h b List.mem_cons_self)
      rw [List.orderedInsert_cons, if_neg hb, ih fun c hc => h c (List.mem_cons_of_mem _ hc),
        List.cons_append]

/-- **A log is read backwards.** -/
theorem newestFirst_of_pairwise (h : l.Pairwise fun a b => key a < key b) :
    newestFirst key l = l.reverse := by
  unfold newestFirst
  induction l with
  | nil => rfl
  | cons a l ih =>
      rw [List.pairwise_cons] at h
      rw [List.insertionSort_cons, ih h.2, List.reverse_cons]
      exact orderedInsert_of_lt fun b hb => h.1 b (List.mem_reverse.mp hb)

theorem newest_of_pairwise (h : l.Pairwise fun a b => key a < key b) :
    newest key l = l.getLast? := by
  unfold newest
  rw [newestFirst_of_pairwise h, List.head?_reverse]

instance total_key : Std.Total fun a b :
    α => key b ≤ key a := ⟨fun a b => Nat.le_total (key b) (key a)⟩

instance isTrans_key :
    IsTrans α fun a b => key b ≤ key a := ⟨fun _ _ _ hab hbc => Nat.le_trans hbc hab⟩

theorem newestFirst_pairwise (l : List α) :
    (newestFirst key l).Pairwise fun a b => key b ≤ key a :=
  List.pairwise_insertionSort _ l

theorem filter_orderedInsert (p : α → Bool) (h : l.Pairwise fun a b => key b ≤ key a) :
    (l.orderedInsert (fun a b => key b ≤ key a) a).filter p
      = if p a then (l.filter p).orderedInsert (fun a b => key b ≤ key a) a else l.filter p := by
  induction l with
  | nil => simp [List.filter_cons]
  | cons b l ih =>
      rw [List.pairwise_cons] at h
      rw [List.orderedInsert_cons]
      by_cases hle : key b ≤ key a
      · -- every kept element is below the inserted one as well
        rw [if_pos hle]
        by_cases hpa : p a = true
        · have hall : ∀ c ∈ (b :: l).filter p, key c ≤ key a := by
            intro c hc
            rcases List.mem_cons.mp (List.mem_filter.mp hc).1 with rfl | hmem
            · exact hle
            · exact Nat.le_trans (h.1 c hmem) hle
          rw [List.filter_cons_of_pos hpa, if_pos hpa]
          cases hfilter : (b :: l).filter p with
          | nil => rfl
          | cons c rest =>
              have hc : key c ≤ key a := hall c (by rw [hfilter]; exact List.mem_cons_self)
              rw [List.orderedInsert_cons, if_pos hc]
        · rw [List.filter_cons_of_neg hpa, if_neg hpa]
      · rw [if_neg hle, List.filter_cons, List.filter_cons, ih h.2]
        by_cases hpa : p a = true <;> by_cases hpb : p b = true <;>
          simp [hpa, hpb, List.orderedInsert_cons, hle]

theorem filter_newestFirst (p : α → Bool) (l : List α) :
    (newestFirst key l).filter p = newestFirst key (l.filter p) := by
  induction l with
  | nil => rfl
  | cons a l ih =>
      have hcons : newestFirst key (a :: l)
          = (newestFirst key l).orderedInsert (fun a b => key b ≤ key a) a := rfl
      rw [hcons, filter_orderedInsert p (newestFirst_pairwise l), ih]
      by_cases hpa : p a = true
      · rw [if_pos hpa, List.filter_cons_of_pos hpa]
        rfl
      · rw [if_neg hpa, List.filter_cons_of_neg hpa]

/-- A prefix that passes the filter is a prefix of the filtered list. -/
theorem take_filter {p : α → Bool} {n : Nat} (h : ∀ a ∈ l.take n, p a = true) :
    (l.filter p).take n = l.take n := by
  induction l generalizing n with
  | nil => rfl
  | cons a l ih =>
      cases n with
      | zero => rfl
      | succ n =>
          rw [List.take_succ_cons] at h ⊢
          rw [List.filter_cons_of_pos (h a List.mem_cons_self), List.take_succ_cons,
            ih fun b hb => h b (List.mem_cons_of_mem _ hb)]

theorem max?_map (l : List α) : (l.map key).max? = (newest key l).map key := by
  have hperm : (newestFirst key l).Perm l := List.perm_insertionSort _ _
  have hsorted : (newestFirst key l).Pairwise fun a b => key b ≤ key a := newestFirst_pairwise l
  unfold newest
  cases hfirst : newestFirst key l with
  | nil =>
      rw [hfirst] at hperm
      rw [hperm.symm.eq_nil]
      rfl
  | cons a rest =>
      rw [hfirst, List.pairwise_cons] at hsorted
      rw [hfirst] at hperm
      rw [List.head?_cons, Option.map_some, List.max?_eq_some_iff]
      refine ⟨List.mem_map.mpr ⟨a, hperm.mem_iff.mp List.mem_cons_self, rfl⟩, fun k hk => ?_⟩
      obtain ⟨b, hb, rfl⟩ := List.mem_map.mp hk
      rcases List.mem_cons.mp (hperm.mem_iff.mpr hb) with rfl | hrest
      · exact Nat.le_refl _
      · exact hsorted.1 b hrest

/-- Only a greater key passes the greatest one. -/
theorem forall_max?_lt_iff {k : Nat} :
    (∀ c, (l.map key).max? = some c → c < k) ↔ ∀ a ∈ l, key a < k := by
  constructor
  · intro h a ha
    have hmem : key a ∈ l.map key := List.mem_map_of_mem ha
    obtain ⟨c, hc⟩ := Option.isSome_iff_exists.mp (List.isSome_max?_of_mem hmem)
    exact Nat.lt_of_le_of_lt ((List.max?_eq_some_iff.mp hc).2 _ hmem) (h c hc)
  · intro h c hc
    obtain ⟨a, ha, rfl⟩ := List.mem_map.mp (List.max?_eq_some_iff.mp hc).1
    exact h a ha

/-- The newest rows of a list, oldest first: as many as there are up to a bound, and no other row is
newer than one of them. Which of two rows with one key is taken is left open. -/
structure IsNewest (bound : Nat) (key : α → Nat) (l window : List α) : Prop where
  sorted : window.Pairwise fun a b => key a ≤ key b
  length : window.length = min bound l.length
  newest : ∃ rest, (window ++ rest).Perm l ∧ ∀ a ∈ window, ∀ b ∈ rest, key b ≤ key a

/-- `ORDER BY key DESC LIMIT bound`, read backwards. -/
theorem isNewest_take (bound : Nat) (l : List α) :
    IsNewest bound key l ((newestFirst key l).take bound).reverse := by
  have hsorted : (newestFirst key l).Pairwise fun a b => key b ≤ key a := newestFirst_pairwise l
  have hperm : (newestFirst key l).Perm l := List.perm_insertionSort _ _
  rw [← List.take_append_drop bound (newestFirst key l), List.pairwise_append] at hsorted
  obtain ⟨htake, -, hcross⟩ := hsorted
  refine ⟨List.pairwise_reverse.mpr htake, ?_, (newestFirst key l).drop bound, ?_,
    fun a ha b hb => ?_⟩
  · rw [List.length_reverse, List.length_take, hperm.length_eq]
  · have hwhole : ((newestFirst key l).take bound ++ (newestFirst key l).drop bound).Perm l := by
      rwa [List.take_append_drop]
    exact ((List.reverse_perm _).append_right _).trans hwhole
  · exact hcross a (List.mem_reverse.mp ha) b hb

theorem IsNewest.eq_nil_iff {bound : Nat} {window : List α} (h : IsNewest bound key l window)
    (hbound : 0 < bound) : window = [] ↔ l = [] := by
  have hlength := h.length
  rw [← List.length_eq_zero_iff, ← List.length_eq_zero_iff]
  omega

/-- Where the bound leaves room, the window is all there is. -/
theorem IsNewest.perm {bound : Nat} {window : List α} (h : IsNewest bound key l window)
    (hroom : l.length ≤ bound) :
    window.Perm l := by
  obtain ⟨rest, hperm, -⟩ := h.newest
  have hlength := hperm.length_eq
  rw [List.length_append, h.length, Nat.min_eq_right hroom, Nat.add_eq_left,
    List.length_eq_zero_iff] at hlength
  rwa [hlength, List.append_nil] at hperm

theorem isNewest_of_perm {bound : Nat} {window : List α}
    (hsorted : window.Pairwise fun a b => key a ≤ key b)
    (hperm : window.Perm l) (hroom : l.length ≤ bound) : IsNewest bound key l window := by
  refine ⟨hsorted, ?_, [], ?_, fun _ _ _ hb => absurd hb List.not_mem_nil⟩
  · rw [hperm.length_eq, Nat.min_eq_right hroom]
  · rwa [List.append_nil]

/-- A sorted list is what is small and then what is not. -/
theorem filter_append_filter_not {p : α → Bool} (hsorted : l.Pairwise fun a b => key a ≤ key b)
    (hp : ∀ a b, key a ≤ key b → p b = true → p a = true) :
    l.filter p ++ l.filter (fun a => !p a) = l := by
  induction l with
  | nil => rfl
  | cons a l ih =>
      obtain ⟨hfirst, hrest⟩ := List.pairwise_cons.mp hsorted
      cases ha : p a with
      | true => simp [ha, ih hrest]
      | false =>
          have hlater : ∀ b ∈ l, p b = false := by
            intro b hb
            by_contra hpb
            rw [hp a b (hfirst b hb) (by simpa using hpb)] at ha
            cases ha
          have hnone : l.filter p = [] := List.filter_eq_nil_iff.mpr fun b hb => by
            simp [hlater b hb]
          have hall : (l.filter fun a => !p a) = l := List.filter_eq_self.mpr fun b hb => by
            simp [hlater b hb]
          simp [ha, hnone, hall]

/-- A sorted arrangement of two parts, all keys of the one below all of the other, has them one
after the other. -/
theorem exists_append_of_perm {window before after : List α}
    (hsorted : window.Pairwise fun a b => key a ≤ key b)
    (hperm : window.Perm (before ++ after)) (hlt : ∀ a ∈ before, ∀ b ∈ after, key a < key b) :
    ∃ before' after', window = before' ++ after' ∧ before'.Perm before ∧ after'.Perm after := by
  let p : α → Bool := fun a => before.any fun b => decide (key a ≤ key b)
  have hbefore : ∀ a ∈ before, p a = true := fun a ha =>
      List.any_eq_true.mpr ⟨a, ha, decide_eq_true (Nat.le_refl _)⟩
  have hafter : ∀ b ∈ after, p b = false := by
    intro b hb
    rw [List.any_eq_false]
    intro a ha
    have hab := hlt a ha b hb
    simpa using hab
  have hp : ∀ a b, key a ≤ key b → p b = true → p a = true := by
    intro a b hab hb
    obtain ⟨c, hc, hbc⟩ := List.any_eq_true.mp hb
    exact List.any_eq_true.mpr ⟨c, hc, decide_eq_true (Nat.le_trans hab (of_decide_eq_true hbc))⟩
  refine ⟨window.filter p, window.filter fun a =>
    !p a, (filter_append_filter_not hsorted hp).symm, ?_, ?_⟩
  · have hkeep : before.filter p = before := List.filter_eq_self.mpr hbefore
    have hdrop : after.filter p = [] := List.filter_eq_nil_iff.mpr fun b hb => by simp [hafter b hb]
    have hfilter := hperm.filter p
    rwa [List.filter_append, hkeep, hdrop, List.append_nil] at hfilter
  · have hdrop : (before.filter fun a => !p a) = [] :=
      List.filter_eq_nil_iff.mpr fun a ha => by simp [hbefore a ha]
    have hkeep : (after.filter fun b => !p b) = after := List.filter_eq_self.mpr fun b hb => by
      simp [hafter b hb]
    have hfilter := hperm.filter fun a => !p a
    rwa [List.filter_append, hdrop, hkeep, List.nil_append] at hfilter

end Newest
