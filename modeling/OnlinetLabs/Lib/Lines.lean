import Mathlib.Data.List.Basic

/-!
# Lines

A text is a run of symbols without a break, or a run, a break, and a text. Everything here is by
induction on that (`lines_induction`). A function is applied to the runs and the breaks are kept
(`mapLines`); if it makes no breaks of its own, the runs can be read back from the result, so that
two functions agree on the text exactly when they agree on each of its runs (`mapLines_eq_iff`).
-/

variable {α : Type} {brk : α → Bool} {f g : List α → List α} {line l l' text tail tail' : List α}
  {b b' : α} {n : Nat}

def BreakFree (brk : α → Bool) (l : List α) : Prop := ∀ a ∈ l, brk a = false

theorem BreakFree.append (h : BreakFree brk l) (h' : BreakFree brk l') :
    BreakFree brk (l ++ l') := by
  intro a ha
  rcases List.mem_append.mp ha with hleft | hright
  · exact h a hleft
  · exact h' a hright

theorem BreakFree.drop (h : BreakFree brk l) : BreakFree brk (l.drop n) :=
  fun a ha => h a (List.mem_of_mem_drop ha)

theorem breakFree_nil : BreakFree brk [] := fun _ h => absurd h List.not_mem_nil

theorem exists_line (brk : α → Bool) (text : List α) :
    BreakFree brk text ∨ ∃ l b tail, text = l ++ b :: tail ∧ BreakFree brk l ∧ brk b = true := by
  induction text with
  | nil => exact Or.inl breakFree_nil
  | cons a text ih =>
      by_cases ha : brk a = true
      · exact Or.inr ⟨[], a, text, rfl, breakFree_nil, ha⟩
      · rw [Bool.not_eq_true] at ha
        rcases ih with hfree | ⟨l, b, tail, rfl, hl, hb⟩
        · exact Or.inl (List.forall_mem_cons.mpr ⟨ha, hfree⟩)
        · exact Or.inr ⟨a :: l, b, tail, rfl, List.forall_mem_cons.mpr ⟨ha, hl⟩, hb⟩

/-- **Induction over the lines of a text.** -/
theorem lines_induction {motive : List α → Prop} (brk : α → Bool)
    (last : ∀ l, BreakFree brk l → motive l)
    (line : ∀ l b tail, BreakFree brk l → brk b = true → motive tail → motive (l ++ b :: tail))
    (text : List α) : motive text := by
  induction hn : text.length using Nat.strongRecOn generalizing text with
  | _ n ih =>
      rcases exists_line brk text with hfree | ⟨l, b, tail, rfl, hl, hb⟩
      · exact last text hfree
      · apply line l b tail hl hb
        apply ih tail.length _ tail rfl
        rw [← hn, List.length_append, List.length_cons]
        omega

theorem line_unique (hl : BreakFree brk l) (hl' : BreakFree brk l') (hb : brk b = true)
    (hb' : brk b' = true) (h : l ++ b :: tail = l' ++ b' :: tail') :
    l = l' ∧ b = b' ∧ tail = tail' := by
  induction l generalizing l' with
  | nil =>
      cases l' with
      | nil =>
          cases h
          exact ⟨rfl, rfl, rfl⟩
      | cons a l' =>
          cases h
          rw [hl' b List.mem_cons_self] at hb
          cases hb
  | cons a l ih =>
      cases l' with
      | nil =>
          cases h
          rw [hl b' List.mem_cons_self] at hb'
          cases hb'
      | cons a' l' =>
          rw [List.cons_append, List.cons_append, List.cons.injEq] at h
          obtain ⟨rfl, htail⟩ := h
          obtain ⟨rfl, rfl, rfl⟩ := ih (fun c hc => hl c (List.mem_cons_of_mem a hc))
            (fun c hc => hl' c (List.mem_cons_of_mem a hc)) htail
          exact ⟨rfl, rfl, rfl⟩

/-! ### A function on each line -/

/-- The text with `f` applied to the runs between its breaks, where `line` has been read already. -/
def mapLinesFrom (brk : α → Bool) (f : List α → List α) (line : List α) : List α → List α
  | [] => f line
  | a :: rest =>
    if brk a then f line ++ a :: mapLinesFrom brk f [] rest
    else mapLinesFrom brk f (line ++ [a]) rest

/-- The text with `f` applied to the runs between its breaks. -/
def mapLines (brk : α → Bool) (f : List α → List α) (text : List α) : List α :=
  mapLinesFrom brk f [] text

theorem mapLinesFrom_last (hl : BreakFree brk l) : mapLinesFrom brk f line l = f (line ++ l) := by
  induction l generalizing line with
  | nil => rw [mapLinesFrom, List.append_nil]
  | cons a l ih =>
      have ha : ¬ brk a = true := by simp [hl a List.mem_cons_self]
      rw [mapLinesFrom, if_neg ha, ih fun b hb => hl b (List.mem_cons_of_mem a hb),
        List.append_assoc, List.singleton_append]

theorem mapLinesFrom_line (hl : BreakFree brk l) (hb : brk b = true) :
    mapLinesFrom brk f line (l ++ b :: tail) = f (line ++ l) ++ b :: mapLines brk f tail := by
  induction l generalizing line with
  | nil => rw [List.nil_append, mapLinesFrom, if_pos hb, List.append_nil, mapLines]
  | cons a l ih =>
      have ha : ¬ brk a = true := by simp [hl a List.mem_cons_self]
      rw [List.cons_append, mapLinesFrom, if_neg ha, ih fun c hc =>
        hl c (List.mem_cons_of_mem a hc), List.append_assoc, List.singleton_append]

theorem mapLines_last (hl : BreakFree brk l) : mapLines brk f l = f l := mapLinesFrom_last hl

theorem mapLines_line (hl : BreakFree brk l) (hb : brk b = true) :
    mapLines brk f (l ++ b :: tail) = f l ++ b :: mapLines brk f tail := mapLinesFrom_line hl hb

/-- What goes line by line is a function on each line. -/
theorem eq_mapLines {F : List α → List α} (hlast : ∀ l, BreakFree brk l → F l = f l)
    (hline : ∀ l b tail, BreakFree brk l → brk b = true → F (l ++ b :: tail) = f l ++ b :: F tail) :
    F text = mapLines brk f text := by
  induction text using lines_induction brk with
  | last l hl => rw [hlast l hl, mapLines_last hl]
  | line l b tail hl hb ih => rw [hline l b tail hl hb, mapLines_line hl hb, ih]

/-- **Two functions that make no breaks agree on a text exactly when they agree on its runs.** -/
theorem mapLines_eq_iff (hf : ∀ l, BreakFree brk l → BreakFree brk (f l))
    (hg : ∀ l, BreakFree brk l → BreakFree brk (g l)) :
    mapLines brk f text = mapLines brk g text ↔ ∀ l ∈ text.splitOnP brk, f l = g l := by
  induction text using lines_induction brk with
  | last l hl =>
      rw [mapLines_last hl, mapLines_last hl, List.splitOnP_eq_singleton hl]
      simp
  | line l b tail hl hb ih =>
      rw [mapLines_line hl hb, mapLines_line hl hb,
        List.splitOnP_append_cons_of_forall_mem hl b hb, List.forall_mem_cons, ← ih]
      constructor
      · intro h
        obtain ⟨hhere, -, hlater⟩ := line_unique (hf l hl) (hg l hl) hb hb h
        exact ⟨hhere, hlater⟩
      · rintro ⟨hhere, hlater⟩
        rw [hhere, hlater]

/-! ### Pieces of a line -/

/-- A list cut at every `n`-th place, for a positive `n`. The last piece has at most `n`
elements. -/
def pieces (n : Nat) (l : List α) : List (List α) :=
  if _h : 0 < n ∧ n < l.length then l.take n :: pieces n (l.drop n) else [l]
termination_by l.length
decreasing_by
  rw [List.length_drop]
  omega

theorem pieces_of_le (h : l.length ≤ n) : pieces n l = [l] := by
  rw [pieces, dif_neg]
  omega

theorem pieces_of_lt (hn : 0 < n) (h : n < l.length) :
    pieces n l = l.take n :: pieces n (l.drop n) := by
  rw [pieces, dif_pos ⟨hn, h⟩]

/-- The pieces of what is left after `n` symbols, for a function that maps nothing to nothing. -/
theorem flatMap_pieces (hn : 0 < n) (hf : f [] = []) (h : n ≤ l.length) :
    (pieces n l).flatMap f = f (l.take n) ++ (pieces n (l.drop n)).flatMap f := by
  rcases Nat.lt_or_eq_of_le h with hlt | heq
  · rw [pieces_of_lt hn hlt, List.flatMap_cons]
  · rw [pieces_of_le (Nat.le_of_eq heq.symm), List.take_of_length_le (Nat.le_of_eq heq.symm),
      List.drop_of_length_le (Nat.le_of_eq heq.symm), pieces_of_le (Nat.zero_le n)]
    simp [hf]

theorem mem_of_mem_pieces {piece : List α} (h : piece ∈ pieces n l) : ∀ a ∈ piece, a ∈ l := by
  induction hk : l.length using Nat.strongRecOn generalizing l with
  | _ k ih =>
      rw [pieces] at h
      split at h
      · rename_i hlong
        rcases List.mem_cons.mp h with rfl | hlater
        · exact fun a ha => List.mem_of_mem_take ha
        · have hshorter : (l.drop n).length < k := by
            rw [List.length_drop]
            omega
          exact fun a ha => List.mem_of_mem_drop (ih _ hshorter hlater rfl a ha)
      · rw [List.mem_singleton.mp h]
        exact fun a ha => ha
