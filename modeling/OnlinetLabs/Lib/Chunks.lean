import Mathlib.Data.List.TakeWhile
import OnlinetLabs.Lib.Lines

/-!
# Cutting a stream into chunks

A text that grows at its end is cut from its front: behind the last break within the first `size`
symbols, or after `size` symbols where there is no break among them. What is left waits for more.
The chunks and what waits are the text (`chunks_flatten`), no chunk is empty or longer than `size`,
and what waits is the head of a line, shorter than `size` (`chunks_rest`).
-/

namespace Chunks

variable {α : Type} {brk : α → Bool} {size n : Nat} {text tail l : List α} {b : α}

/-- A chunk, and whether it was cut inside a line. -/
structure Chunk (α : Type) where
  data : List α
  truncated : Bool
deriving DecidableEq

def wholeLines (brk : α → Bool) (text : List α) : List α :=
  (text.reverse.dropWhile fun a => !brk a).reverse

theorem wholeLines_of_breakFree (h : BreakFree brk text) : wholeLines brk text = [] := by
  have hskip : ∀ a ∈ text.reverse, (!brk a) = true := by
    intro a ha
    rw [h a (List.mem_reverse.mp ha)]
    rfl
  rw [wholeLines, List.dropWhile_eq_nil_iff.mpr hskip, List.reverse_nil]

theorem wholeLines_last (hb : brk b = true) (htail : BreakFree brk tail) :
    wholeLines brk (l ++ b :: tail) = l ++ [b] := by
  have hskip : ∀ a ∈ tail.reverse, (!brk a) = true := by
    intro a ha
    rw [htail a (List.mem_reverse.mp ha)]
    rfl
  have hstop : (b :: l.reverse).dropWhile (fun a => !brk a) = b :: l.reverse := by
    rw [List.dropWhile_cons, hb]
    rfl
  rw [wholeLines, List.reverse_append, List.reverse_cons, List.append_assoc,
    List.dropWhile_append_of_pos hskip, List.singleton_append, hstop, List.reverse_cons,
    List.reverse_reverse]

theorem exists_last_line (brk : α → Bool) (text : List α) :
    BreakFree brk text ∨ ∃ l b tail, text = l ++ b :: tail ∧ brk b = true ∧ BreakFree brk tail := by
  induction text with
  | nil => exact Or.inl breakFree_nil
  | cons a text ih =>
      rcases ih with hfree | ⟨l, b, tail, rfl, hb, htail⟩
      · cases ha : brk a with
        | false => exact Or.inl (List.forall_mem_cons.mpr ⟨ha, hfree⟩)
        | true => exact Or.inr ⟨[], a, text, rfl, ha, hfree⟩
      · exact Or.inr ⟨a :: l, b, tail, rfl, hb, htail⟩

theorem wholeLines_prefix : wholeLines brk text <+: text := by
  rcases exists_last_line brk text with hfree | ⟨l, b, tail, rfl, hb, htail⟩
  · rw [wholeLines_of_breakFree hfree]
    exact List.nil_prefix
  · rw [wholeLines_last hb htail]
    exact ⟨tail, by rw [List.append_assoc, List.singleton_append]⟩

theorem breakFree_of_wholeLines (h : wholeLines brk text = []) : BreakFree brk text := by
  rcases exists_last_line brk text with hfree | ⟨l, b, tail, rfl, hb, htail⟩
  · exact hfree
  · rw [wholeLines_last hb htail] at h
    exact absurd h (List.append_ne_nil_of_right_ne_nil _ (List.cons_ne_nil _ _))

theorem wholeLines_break (h : wholeLines brk text ≠ []) :
    ∃ l b, wholeLines brk text = l ++ [b] ∧ brk b = true := by
  rcases exists_last_line brk text with hfree | ⟨l, b, tail, rfl, hb, htail⟩
  · exact absurd (wholeLines_of_breakFree hfree) h
  · exact ⟨l, b, wholeLines_last hb htail, hb⟩

/-- The chunks of a text and what is left of it, in at most `n` cuts. -/
def chunks (brk : α → Bool) (size : Nat) : Nat → List α → List (Chunk α) × List α
  | 0, text => ([], text)
  | n + 1, text =>
    let lines := wholeLines brk (text.take size)
    if lines ≠ [] then
      let later := chunks brk size n (text.drop lines.length)
      (⟨lines, false⟩ :: later.1, later.2)
    else if size ≤ text.length then
      let later := chunks brk size n (text.drop size)
      (⟨text.take size, true⟩ :: later.1, later.2)
    else ([], text)

theorem chunks_lines (h : wholeLines brk (text.take size) ≠ []) :
    chunks brk size (n + 1) text
      = (⟨wholeLines brk (text.take size), false⟩
          :: (chunks brk size n (text.drop (wholeLines brk (text.take size)).length)).1,
        (chunks brk size n (text.drop (wholeLines brk (text.take size)).length)).2) :=
  if_pos h

theorem chunks_cut (h : wholeLines brk (text.take size) = []) (hlong : size ≤ text.length) :
    chunks brk size (n + 1) text
      = (⟨text.take size, true⟩ :: (chunks brk size n (text.drop size)).1,
        (chunks brk size n (text.drop size)).2) := by
  rw [chunks]
  simp only [h, ne_eq, not_true_eq_false, if_false, if_pos hlong]

theorem chunks_wait (h : wholeLines brk (text.take size) = []) (hshort : text.length < size) :
    chunks brk size (n + 1) text = ([], text) := by
  rw [chunks]
  simp only [h, ne_eq, not_true_eq_false, if_false, if_neg (Nat.not_le.mpr hshort)]

/-- What one cut takes: whole lines, or `size` symbols without a break, or nothing. -/
theorem chunks_cases (hsize : 0 < size) (brk : α → Bool) (n : Nat) (text : List α) :
    (∃ chunk : Chunk α, chunk.data ++ text.drop chunk.data.length = text ∧ chunk.data ≠ []
        ∧ chunk.data.length ≤ size
        ∧ (chunk.truncated = false → ∃ l b, chunk.data = l ++ [b] ∧ brk b = true)
        ∧ chunks brk size (n + 1) text
          = (chunk :: (chunks brk size n (text.drop chunk.data.length)).1,
            (chunks brk size n (text.drop chunk.data.length)).2))
      ∨ BreakFree brk text ∧ text.length < size ∧ chunks brk size (n + 1) text = ([], text) := by
  by_cases hlines : wholeLines brk (text.take size) = []
  · rcases Nat.lt_or_ge text.length size with hshort | hlong
    · have hfree := breakFree_of_wholeLines hlines
      rw [List.take_of_length_le (Nat.le_of_lt hshort)] at hfree
      exact Or.inr ⟨hfree, hshort, chunks_wait hlines hshort⟩
    · have hlength : (text.take size).length = size := List.length_take_of_le hlong
      refine Or.inl ⟨⟨text.take size, true⟩, ?_, ?_, Nat.le_of_eq hlength, nofun, ?_⟩
      · rw [hlength, List.take_append_drop]
      · rw [← List.length_pos_iff, hlength]
        exact hsize
      · rw [chunks_cut hlines hlong, hlength]
  · have hprefix : wholeLines brk (text.take size) <+: text :=
      wholeLines_prefix.trans (List.take_prefix _ _)
    refine Or.inl ⟨⟨wholeLines brk (text.take size), false⟩, ?_, hlines, ?_,
      fun _ => wholeLines_break hlines, chunks_lines hlines⟩
    · exact (List.prefix_iff_eq_append.mp hprefix)
    · exact Nat.le_trans wholeLines_prefix.length_le (List.length_take_le _ _)

/-- **Nothing is lost.** -/
theorem chunks_flatten (hsize : 0 < size) :
    (chunks brk size n text).1.flatMap (·.data) ++ (chunks brk size n text).2 = text := by
  induction n generalizing text with
  | zero => rfl
  | succ n ih =>
      obtain ⟨first, hsplit, -, -, -, hchunks⟩ | ⟨-, -, hchunks⟩ := chunks_cases hsize brk n text
      · rw [hchunks, List.flatMap_cons, List.append_assoc, ih, hsplit]
      · rw [hchunks]
        rfl

theorem forall_mem_chunks (hsize : 0 < size) :
    ∀ chunk ∈ (chunks brk size n text).1, 0 < chunk.data.length ∧ chunk.data.length ≤ size
      ∧ (chunk.truncated = false → ∃ l b, chunk.data = l ++ [b] ∧ brk b = true) := by
  induction n generalizing text with
  | zero => exact fun _ h => absurd h List.not_mem_nil
  | succ n ih =>
      obtain ⟨first, -, hne, hle, hbreak, hchunks⟩ | ⟨-, -, hchunks⟩ :=
        chunks_cases hsize brk n text
      · rw [hchunks]
        exact List.forall_mem_cons.mpr ⟨⟨List.length_pos_iff.mpr hne, hle, hbreak⟩, ih⟩
      · rw [hchunks]
        exact fun _ h => absurd h List.not_mem_nil

/-- **What waits is the head of a line, shorter than a chunk.** -/
theorem chunks_rest (hsize : 0 < size) (hfuel : text.length < n) :
    BreakFree brk (chunks brk size n text).2 ∧ (chunks brk size n text).2.length < size := by
  induction n generalizing text with
  | zero => exact absurd hfuel (Nat.not_lt_zero _)
  | succ n ih =>
      obtain ⟨first, hsplit, hne, -, -, hchunks⟩ | ⟨hfree, hshort, hchunks⟩ :=
        chunks_cases hsize brk n text
      · rw [hchunks]
        apply ih
        have hpos : 0 < first.data.length := List.length_pos_iff.mpr hne
        have htotal : first.data.length + (text.drop first.data.length).length = text.length := by
          rw [← List.length_append, hsplit]
        omega
      · rw [hchunks]
        exact ⟨hfree, hshort⟩

end Chunks
