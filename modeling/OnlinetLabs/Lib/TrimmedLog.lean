import Mathlib.Data.List.Basic

/-!
# Logs that lose their oldest entries

Entries are added at the end and are named by their place, for good. The oldest may be trimmed: they
keep their places, and no read finds them again. A read from a place gives a segment of the log,
places in a row, so a reader that goes on after the last place it was given skips no entry but the
trimmed.
-/

structure TrimmedLog (α : Type) where
  entries : List α := []
  /-- The places below are trimmed. -/
  trimmed : Nat := 0

namespace TrimmedLog

variable {α : Type} {log : TrimmedLog α} {a : α} {i n since count : Nat} {rest : List (Nat × α)}

def size (log : TrimmedLog α) : Nat := log.entries.length

def add (log : TrimmedLog α) (a : α) : TrimmedLog α := { log with entries := log.entries ++ [a] }

def trim (log : TrimmedLog α) (n : Nat) : TrimmedLog α := { log with trimmed := max log.trimmed n }

/-- Entries with the places from `n` on. -/
def number (n : Nat) : List α → List (Nat × α)
  | [] => []
  | a :: rest => (n, a) :: number (n + 1) rest

/-- The oldest entries from a place on, at most `count`. -/
def read (log : TrimmedLog α) (since count : Nat) : List (Nat × α) :=
  number (max since log.trimmed) ((log.entries.drop (max since log.trimmed)).take count)

/-- Entries of the log with places in a row, the first at `n`. -/
def Segment (log : TrimmedLog α) : Nat → List (Nat × α) → Prop
  | _, [] => True
  | n, (i, a) :: rest => i = n ∧ log.entries[n]? = some a ∧ Segment log (n + 1) rest

@[simp] theorem size_add : (log.add a).size = log.size + 1 := by simp [add, size]

@[simp] theorem trimmed_add : (log.add a).trimmed = log.trimmed := rfl

@[simp] theorem size_trim : (log.trim n).size = log.size := rfl

@[simp] theorem entries_trim : (log.trim n).entries = log.entries := rfl

@[simp] theorem trimmed_trim : (log.trim n).trimmed = max log.trimmed n := rfl

theorem getElem?_add_of_some {b : α} (h : log.entries[i]? = some b) :
    (log.add a).entries[i]? = some b := by
  have hlt : i < log.entries.length := (List.getElem?_eq_some_iff.mp h).1
  rw [add, List.getElem?_append_left hlt]
  exact h

theorem Segment.of_entries {log' : TrimmedLog α} (h : log.Segment n rest)
    (hkept : ∀ (i : Nat) (b : α), log.entries[i]? = some b → log'.entries[i]? = some b) :
    log'.Segment n rest := by
  induction rest generalizing n with
  | nil => trivial
  | cons e rest ih =>
      obtain ⟨hi, ha, hrest⟩ := h
      exact ⟨hi, hkept _ _ ha, ih hrest⟩

theorem segment_number (l : List α)
    (h : ∀ (k : Nat) (b : α), l[k]? = some b → log.entries[n + k]? = some b) :
    log.Segment n (number n l) := by
  induction l generalizing n with
  | nil => trivial
  | cons a l ih =>
      refine ⟨rfl, h 0 a rfl, ih fun k b hb => ?_⟩
      have hnext := h (k + 1) b hb
      have hplace : n + (k + 1) = n + 1 + k := by omega
      rwa [hplace] at hnext

/-- **What a read gives.** -/
theorem segment_read : log.Segment (max since log.trimmed) (log.read since count) := by
  apply segment_number
  intro k b hb
  rw [List.getElem?_take] at hb
  split at hb
  · rwa [List.getElem?_drop] at hb
  · cases hb

theorem length_number (l : List α) : (number n l).length = l.length := by
  induction l generalizing n with
  | nil => rfl
  | cons a l ih => simp [number, ih]

theorem read_eq_nil_iff (hcount : 0 < count) :
    log.read since count = [] ↔ log.size ≤ max since log.trimmed := by
  rw [read, ← List.length_eq_zero_iff, length_number, List.length_take, List.length_drop, size]
  omega

end TrimmedLog
