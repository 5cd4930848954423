import Mathlib.Data.List.Basic

/-!
# Splitting what arrives in pieces

A reader splits off the complete items of what it has and keeps the rest for the next piece. A split
is resumable if splitting a longer text only goes on from the rest of a shorter one. Then it does
not matter where the pieces are cut.
-/

namespace Incremental

variable {α β γ : Type} {split : List α → List β × List α} {text rest : List α}
  {pieces : List (List α)}

def Resumable (split : List α → List β × List α) : Prop :=
  ∀ text more, split (text ++ more)
    = ((split text).1 ++ (split ((split text).2 ++ more)).1, (split ((split text).2 ++ more)).2)

/-- All items of the pieces, each read with the rest of those before it. -/
def feed (split : List α → List β × List α) : List α → List (List α) → List β × List α
  | rest, [] => ([], rest)
  | rest, piece :: pieces =>
      ((split (rest ++ piece)).1 ++ (feed split (split (rest ++ piece)).2 pieces).1,
        (feed split (split (rest ++ piece)).2 pieces).2)

/-- There is no item in a rest. -/
theorem Resumable.settled (h : Resumable split) : split (split text).2 = ([], (split text).2) := by
  have hagain := h text []
  rw [List.append_nil, List.append_nil] at hagain
  have hitems := congrArg Prod.fst hagain
  have hrest := congrArg Prod.snd hagain
  exact Prod.ext (List.self_eq_append_right.mp hitems) hrest.symm

/-- **Pieces do not matter.** -/
theorem Resumable.feed_eq (h : Resumable split) (hrest : split rest = ([], rest)) :
    feed split rest pieces = split (rest ++ pieces.flatten) := by
  induction pieces generalizing rest with
  | nil => rw [feed, List.flatten_nil, List.append_nil, hrest]
  | cons piece pieces ih =>
      rw [feed, ih h.settled, List.flatten_cons, ← List.append_assoc,
        h (rest ++ piece) pieces.flatten]

theorem Resumable.flatMap (h : Resumable split) (f : β → List γ) :
    Resumable fun text => ((split text).1.flatMap f, (split text).2) := by
  intro text more
  simp only [h text more, List.flatMap_append]

/-! ### Blocks that end with two breaks -/

section Cut

variable [DecidableEq α]

/-- The blocks of a text that end with `b` twice, and what comes after the last. -/
def cut (b : α) : List α → List (List α) × List α
  | [] => ([], [])
  | [a] => ([], [a])
  | a :: a' :: text =>
      if a = b ∧ a' = b then ([] :: (cut b text).1, (cut b text).2)
      else
        match cut b (a' :: text) with
        | ([], rest) => ([], a :: rest)
        | (block :: blocks, rest) => ((a :: block) :: blocks, rest)

variable {b : α} {block : List α}

theorem cut_eq_of_nil : ∀ {text : List α}, (cut b text).1 = [] → cut b text = ([], text) := by
  intro text
  induction text using cut.induct b with
  | case1 => exact fun _ => rfl
  | case2 a => exact fun _ => rfl
  | case3 a a' text heq ih => simp [cut, heq]
  | case4 a a' text hne rest hcut ih =>
      have hself := ih (by rw [hcut])
      rw [hcut, Prod.mk.injEq] at hself
      rw [cut, if_neg hne, hcut, hself.2]
      exact fun _ => rfl
  | case5 a a' text hne block blocks rest hcut ih => simp [cut, hne, hcut]

theorem cut_cons_of_ne {a a' : α} (hne : ¬ (a = b ∧ a' = b)) (text : List α) :
    cut b (a :: a' :: text) = match cut b (a' :: text) with
      | ([], rest) => ([], a :: rest)
      | (block :: blocks, rest) => ((a :: block) :: blocks, rest) := by
  rw [cut, if_neg hne]

theorem resumable_cut (b : α) : Resumable (cut b) := by
  intro text more
  induction text using cut.induct b with
  | case1 => rfl
  | case2 a => rfl
  | case3 a a' text heq ih =>
      rw [List.cons_append, List.cons_append, cut, if_pos heq, ih, cut, if_pos heq]
      rfl
  | case4 a a' text hne rest hcut ih =>
      have hself : rest = a' :: text := by
        have h := cut_eq_of_nil (congrArg Prod.fst hcut)
        rw [hcut, Prod.mk.injEq] at h
        exact h.2
      rw [cut_cons_of_ne hne text, hcut, hself]
      rfl
  | case5 a a' text hne block blocks rest hcut ih =>
      rw [cut_cons_of_ne hne text, hcut]
      rw [hcut] at ih
      rw [List.cons_append, List.cons_append, cut_cons_of_ne hne, ← List.cons_append, ih]
      rfl

theorem cut_block (h : b ∉ block) :
    cut b (block ++ b :: b :: text) = (block :: (cut b text).1, (cut b text).2) := by
  induction block with
  | nil => rw [List.nil_append, cut, if_pos ⟨rfl, rfl⟩]
  | cons a block ih =>
      rw [List.mem_cons, not_or] at h
      have hne : ∀ a' : α, ¬ (a = b ∧ a' = b) := fun a' heq => h.1 heq.1.symm
      cases block with
      | nil =>
          have hrest := ih h.2
          rw [List.nil_append] at hrest
          rw [List.singleton_append, cut_cons_of_ne (hne b), hrest]
      | cons a' block =>
          have hrest := ih h.2
          rw [List.cons_append] at hrest
          rw [List.cons_append, List.cons_append, cut_cons_of_ne (hne a'), hrest]

end Cut

end Incremental
