import Mathlib.Data.List.DropRight

/-!
# Bounded queues

A queue that holds so many items at most and lets the oldest go for a new one. What it holds depends
on what was put into it and not on how much at once.
-/

namespace Deque

variable {α : Type} {bound : Nat} {queue items later : List α} {a : α} {n : Nat}

def push (bound : Nat) (queue items : List α) : List α := (queue ++ items).rtake bound

theorem rtake_rtake_append :
    (queue.rtake bound ++ items).rtake bound = (queue ++ items).rtake bound := by
  simp only [List.rtake_eq_reverse_take_reverse, List.reverse_append, List.reverse_reverse]
  rw [List.take_append, List.take_append, List.take_take, Nat.min_eq_left (Nat.sub_le _ _)]

theorem push_push :
    push bound (push bound queue items) later = push bound queue (items ++ later) := by
  rw [push, push, push, rtake_rtake_append, List.append_assoc]

theorem length_push_le :
    (push bound queue items).length ≤ queue.length + min items.length bound := by
  rw [push, List.rtake, List.length_drop, List.length_append]
  omega

theorem push_replicate (bound n : Nat) (a : α) :
    push bound [] (List.replicate n a) = List.replicate (min n bound) a := by
  rw [push, List.nil_append, List.rtake, List.length_replicate, List.drop_replicate]
  congr 1
  omega

theorem length_push_le_bound : (push bound queue items).length ≤ bound := by
  rw [push, List.rtake, List.length_drop]
  omega

theorem push_nil (h : queue.length ≤ bound) : push bound queue [] = queue := by
  rw [push, List.append_nil, List.rtake, Nat.sub_eq_zero_of_le h, List.drop_zero]

/-- As many as it can hold are all it holds. -/
theorem push_of_le (h : bound ≤ items.length) : push bound queue items = items.rtake bound := by
  rw [push, List.rtake_eq_reverse_take_reverse, List.reverse_append, List.take_append_of_le_length
    (by rw [List.length_reverse]; exact h), ← List.rtake_eq_reverse_take_reverse]

theorem push_replicate_of_le (h : bound ≤ n) :
    push bound queue (List.replicate n a) = List.replicate bound a := by
  rw [push_of_le (by rw [List.length_replicate]; exact h), List.rtake, List.length_replicate,
    List.drop_replicate, Nat.sub_sub_self h]

end Deque
