import Mathlib.Data.List.Basic

/-!
# Histories

A value together with the values it had before. A version is a place in the history, and a value
that is written again makes no new one. `Held` says that a property of the value was true at some
moment that is not earlier than a version.
-/

structure History (α : Type) where
  past : List α := []
  now : α
deriving Repr, DecidableEq

namespace History

variable {α : Type}

def version (h : History α) : Nat := h.past.length

def get? (h : History α) (version : Nat) : Option α := (h.past ++ [h.now])[version]?

def push [DecidableEq α] (h : History α) (a : α) : History α :=
  if a = h.now then h else { past := h.past ++ [h.now], now := a }

def Held (h : History α) (since : Nat) (P : α → Prop) : Prop :=
  ∃ version a, since ≤ version ∧ h.get? version = some a ∧ P a

variable {h : History α} {version since : Nat} {a b : α} {P : α → Prop}

theorem get?_version : h.get? h.version = some h.now := List.getElem?_concat_length

theorem version_le_push [DecidableEq α] : h.version ≤ (h.push b).version := by
  unfold push version
  split
  · exact Nat.le_refl _
  · rw [List.length_append]
    exact Nat.le_add_right _ _

theorem get?_push [DecidableEq α] (hget : h.get? version = some a) :
    (h.push b).get? version = some a := by
  unfold push
  split
  · exact hget
  · have hlt : version < (h.past ++ [h.now]).length := (List.getElem?_eq_some_iff.mp hget).1
    unfold get?
    rw [List.getElem?_append_left hlt]
    exact hget

theorem Held.push [DecidableEq α] (hheld : h.Held since P) : (h.push b).Held since P := by
  obtain ⟨version, a, hle, hget, hP⟩ := hheld
  exact ⟨version, a, hle, get?_push hget, hP⟩

theorem Held.mono {later : Nat} (hheld : h.Held later P) (hle : since ≤ later) :
    h.Held since P := by
  obtain ⟨version, a, hlater, hget, hP⟩ := hheld
  exact ⟨version, a, Nat.le_trans hle hlater, hget, hP⟩

end History
