import Mathlib.Data.List.TakeWhile
import OnlinetLabs.Lib.Lines

/-!
# The first line that is not empty

A text is its leading breaks, the first run that is not empty, and what comes after that: nothing,
or a text that starts with a break. Replacing each symbol of that run (`replaceFirst`) keeps the
breaks. A text may be cut anywhere: what comes before the cut either has a first line that ended, or
is a part of one.
-/

namespace FirstLine

variable {α : Type} {brk : α → Bool} {mask b c : α} {head text : List α}

def leading (brk : α → Bool) (text : List α) : List α := text.takeWhile brk

def firstLine (brk : α → Bool) (text : List α) :
    List α := (text.dropWhile brk).takeWhile fun a => !brk a

def afterFirst (brk : α → Bool) (text : List α) :
    List α := (text.dropWhile brk).dropWhile fun a => !brk a

/-- The text with `mask` for each symbol of its first line that is not empty. -/
def replaceFirst (brk : α → Bool) (mask : α) (text : List α) : List α :=
  leading brk text ++ (List.replicate (firstLine brk text).length mask ++ afterFirst brk text)

theorem append_first (brk : α → Bool) (text : List α) :
    leading brk text ++ (firstLine brk text ++ afterFirst brk text) = text := by
  rw [leading, firstLine, afterFirst, List.takeWhile_append_dropWhile,
    List.takeWhile_append_dropWhile]

theorem breakFree_firstLine (brk : α → Bool) (text : List α) :
    BreakFree brk (firstLine brk text) := by
  intro a ha
  have hfree := List.mem_takeWhile_imp (p := fun a => !brk a) ha
  simpa using hfree

/-- A text without such a line is nothing but breaks. -/
theorem isBreak_of_firstLine_eq_nil (h : firstLine brk text = []) : ∀ a ∈ text, brk a = true := by
  rw [← List.dropWhile_eq_nil_iff]
  cases hrest : text.dropWhile brk with
  | nil => rfl
  | cons c rest =>
    have hc : brk c = false := by
      have hhead := List.head?_dropWhile_not brk text
      rw [hrest] at hhead
      exact hhead
    rw [firstLine, hrest, List.takeWhile_cons_of_pos (by simp [hc])] at h
    cases h

/-! ### A cut -/

section Cut

theorem leading_breaks (h : ∀ a ∈ head, brk a = true) :
    leading brk (head ++ text) = head ++ leading brk text :=
  List.takeWhile_append_of_pos h

theorem dropWhile_breaks (h : ∀ a ∈ head, brk a = true) :
    (head ++ text).dropWhile brk = text.dropWhile brk := by
  rw [List.dropWhile_append_of_pos h]

/-- Breaks before a text leave its first line. -/
theorem firstLine_breaks (h : ∀ a ∈ head, brk a = true) :
    firstLine brk (head ++ text) = firstLine brk text := by
  rw [firstLine, firstLine, dropWhile_breaks h]

theorem replaceFirst_breaks (h : ∀ a ∈ head, brk a = true) :
    replaceFirst brk mask (head ++ text) = head ++ replaceFirst brk mask text := by
  rw [replaceFirst, replaceFirst, leading_breaks h, firstLine_breaks h, afterFirst, afterFirst,
    dropWhile_breaks h, List.append_assoc]

theorem afterFirst_breaks (h : ∀ a ∈ text, brk a = true) : afterFirst brk text = [] := by
  rw [afterFirst, List.dropWhile_eq_nil_iff.mpr h]
  rfl

theorem replaceFirst_of_breaks (h : ∀ a ∈ text, brk a = true) :
    replaceFirst brk mask text = text := by
  have hreplace : replaceFirst brk mask (text ++ []) = text ++ replaceFirst brk mask [] :=
    replaceFirst_breaks h
  have hnone : replaceFirst brk mask [] = [] := rfl
  rwa [hnone, List.append_nil] at hreplace

theorem replaceFirst_cons (hb : brk b = true) :
    replaceFirst brk mask (b :: text) = b :: replaceFirst brk mask text := by
  have hhead : ∀ a ∈ [b], brk a = true := by simpa using hb
  exact replaceFirst_breaks hhead

theorem leading_of_not (hc : brk c = false) : leading brk (c :: text) = [] := by
  rw [leading, List.takeWhile_cons_of_neg (by simp [hc])]

theorem firstLine_of_not (hc : brk c = false) :
    firstLine brk (c :: text) = (c :: text).takeWhile fun a => !brk a := by
  rw [firstLine, List.dropWhile_cons_of_neg (by simp [hc])]

/-- A run at the start of a text is a part of its first line. -/
theorem leading_append_firstLine (brk : α → Bool) (text : List α) :
    text.takeWhile (fun a => !brk a) = []
      ∨ (leading brk text = [] ∧ firstLine brk text = text.takeWhile fun a => !brk a) := by
  cases text with
  | nil => exact Or.inl rfl
  | cons c text =>
    cases hc : brk c with
    | true => exact Or.inl (by simp [hc])
    | false => exact Or.inr ⟨leading_of_not hc, firstLine_of_not hc⟩

theorem dropWhile_ne_nil (h : firstLine brk head ≠ []) : head.dropWhile brk ≠ [] := by
  intro hnil
  rw [firstLine, hnil] at h
  exact h rfl

theorem leading_append (h : firstLine brk head ≠ []) :
    leading brk (head ++ text) = leading brk head := by
  rw [leading, List.takeWhile_append, if_neg, leading]
  intro hall
  have hsplit := congrArg List.length (List.takeWhile_append_dropWhile (p := brk) (l := head))
  rw [List.length_append, hall, Nat.add_eq_left, List.length_eq_zero_iff] at hsplit
  exact dropWhile_ne_nil h hsplit

theorem dropWhile_append (h : firstLine brk head ≠ []) :
    (head ++ text).dropWhile brk = head.dropWhile brk ++ text := by
  rw [List.dropWhile_append, if_neg]
  rw [List.isEmpty_iff]
  exact dropWhile_ne_nil h

/-- Where the first line ended before the cut, the rest is behind it. -/
theorem firstLine_append_of_ended (h : firstLine brk head ≠ [])
    (hended : afterFirst brk head ≠ []) :
    firstLine brk (head ++ text) = firstLine brk head := by
  rw [firstLine, dropWhile_append h, List.takeWhile_append, if_neg, firstLine]
  intro hall
  have hsplit := congrArg List.length
    (List.takeWhile_append_dropWhile (p := fun a => !brk a) (l := head.dropWhile brk))
  rw [List.length_append, hall, Nat.add_eq_left, List.length_eq_zero_iff] at hsplit
  exact hended hsplit

theorem replaceFirst_append (h : firstLine brk head ≠ []) (hended : afterFirst brk head ≠ []) :
    replaceFirst brk mask (head ++ text) = replaceFirst brk mask head ++ text := by
  have hafter : afterFirst brk (head ++ text) = afterFirst brk head ++ text := by
    rw [afterFirst, dropWhile_append h, List.dropWhile_append, if_neg, afterFirst]
    rw [List.isEmpty_iff]
    exact hended
  rw [replaceFirst, replaceFirst, leading_append h, firstLine_append_of_ended h hended, hafter,
    List.append_assoc, List.append_assoc]

/-- Where it did not, the rest may go on with it. -/
theorem firstLine_append (h : firstLine brk head ≠ []) (hopen : afterFirst brk head = []) :
    firstLine brk (head ++ text) = firstLine brk head ++ text.takeWhile fun a => !brk a := by
  have hline : firstLine brk head = head.dropWhile brk := by
    have hsplit := List.takeWhile_append_dropWhile (p := fun a => !brk a) (l := head.dropWhile brk)
    rwa [← afterFirst, hopen, List.append_nil] at hsplit
  have hall : ∀ a ∈ head.dropWhile brk, (!brk a) = true := by
    intro a ha
    rw [breakFree_firstLine brk head a (hline ▸ ha)]
    rfl
  rw [hline, firstLine, dropWhile_append h, List.takeWhile_append_of_pos hall]

end Cut

/-! ### The breaks -/

/-- As long, and with the same breaks at the same places. -/
structure KeepsBreaks (brk : α → Bool) (text text' : List α) : Prop where
  length : text'.length = text.length
  breaks : ∀ (i : Nat) (a : α), brk a = true → (text'[i]? = some a ↔ text[i]? = some a)

section Breaks

variable {text' : List α}

theorem KeepsBreaks.refl (brk : α → Bool) (text : List α) : KeepsBreaks brk text text :=
  ⟨rfl, fun _ _ _ => Iff.rfl⟩

theorem keepsBreaks_replaceFirst (hmask : brk mask = false) :
    KeepsBreaks brk text (replaceFirst brk mask text) := by
  have hsplit := append_first brk text
  refine ⟨?_, fun i a ha => ?_⟩
  · conv_rhs => rw [← hsplit]
    simp [replaceFirst]
  · have hmasked : ∀ j : Nat, (List.replicate (firstLine brk text).length mask)[j]? ≠ some a := by
      intro j heq
      rw [(List.mem_replicate.mp (List.mem_of_getElem? heq)).2, hmask] at ha
      cases ha
    have hline : ∀ j : Nat, (firstLine brk text)[j]? ≠ some a := by
      intro j heq
      have hfree := breakFree_firstLine brk text a (List.mem_of_getElem? heq)
      rw [hfree] at ha
      cases ha
    conv_rhs => rw [← hsplit]
    rw [replaceFirst]
    by_cases hlead : i < (leading brk text).length
    · rw [List.getElem?_append_left hlead, List.getElem?_append_left hlead]
    · rw [List.getElem?_append_right (Nat.le_of_not_lt hlead),
        List.getElem?_append_right (Nat.le_of_not_lt hlead)]
      by_cases hin : i - (leading brk text).length < (firstLine brk text).length
      · rw [List.getElem?_append_left (by rwa [List.length_replicate]),
          List.getElem?_append_left hin]
        exact iff_of_false (hmasked _) (hline _)
      · rw [List.getElem?_append_right (by rw [List.length_replicate]; exact Nat.le_of_not_lt hin),
          List.getElem?_append_right (Nat.le_of_not_lt hin), List.length_replicate]

end Breaks

end FirstLine
