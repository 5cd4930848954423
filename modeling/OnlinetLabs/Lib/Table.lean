import OnlinetLabs.Lib.Interleaving

/-!
# Tables with generated keys

A table hands out its keys itself: a new row gets the next one, and a deleted row's key is never
used again. That is what a random identifier buys a database table, with freshness true by
construction instead of with high probability.
-/

/-- The rows by key. A key below the length was handed out; it reads `none` once its row is gone. -/
structure Table (α : Type) where
  cells : List (Option α) := []

namespace Table

variable {α : Type} {t : Table α} {a b : α} {id id' : Nat}

/-- The key the next inserted row gets. -/
def size (t : Table α) : Nat := t.cells.length

def get? (t : Table α) (id : Nat) : Option α := t.cells[id]?.join

def insert (t : Table α) (a : α) : Table α := ⟨t.cells ++ [some a]⟩

def set (t : Table α) (id : Nat) (a : α) : Table α := ⟨t.cells.set id (some a)⟩

def deleteWhere (t : Table α) (p : α → Bool) : Table α := ⟨t.cells.map (Option.filter (!p ·))⟩

def rows (t : Table α) : List α := t.cells.filterMap fun o => o

def count (t : Table α) (P : α → Bool) : Nat := t.rows.countP P

@[simp] theorem size_insert : (t.insert a).size = t.size + 1 := by simp [insert, size]

@[simp] theorem size_set : (t.set id a).size = t.size := by simp [set, size]

@[simp] theorem size_deleteWhere {p : α → Bool} : (t.deleteWhere p).size = t.size := by
  simp [deleteWhere, size]

theorem lt_size_of_get? (h : t.get? id = some a) : id < t.size := by
  unfold get? at h
  by_contra hge
  rw [List.getElem?_eq_none (by simpa [size] using hge)] at h
  simp at h

theorem get?_insert : (t.insert a).get? id = if id = t.size then some a else t.get? id := by
  unfold get? insert size
  rw [List.getElem?_append]
  split
  · rename_i hlt
    rw [if_neg (by omega)]
  · rename_i hge
    split
    · rename_i heq
      simp [heq]
    · rename_i hne
      rw [List.getElem?_eq_none (by simp; omega), List.getElem?_eq_none (by omega)]

theorem get?_insert_size : (t.insert a).get? t.size = some a := by
  rw [get?_insert, if_pos rfl]

theorem get?_insert_of_some (h : t.get? id = some b) : (t.insert a).get? id = some b := by
  rw [get?_insert, if_neg (by have := lt_size_of_get? h; omega), h]

theorem get?_set (h : t.get? id = some b) :
    (t.set id a).get? id' = if id' = id then some a else t.get? id' := by
  have hlt : id < t.cells.length := lt_size_of_get? h
  unfold get? set
  rw [List.getElem?_set]
  by_cases heq : id = id'
  · subst heq
    simp [hlt]
  · rw [if_neg heq, if_neg (Ne.symm heq)]

theorem get?_set_self (h : t.get? id = some b) : (t.set id a).get? id = some a := by
  rw [get?_set h, if_pos rfl]

theorem get?_set_of_ne (h : t.get? id = some b) (hne : id' ≠ id) :
    (t.set id a).get? id' = t.get? id' := by
  rw [get?_set h, if_neg hne]

theorem get?_deleteWhere {p : α → Bool} :
    (t.deleteWhere p).get? id = (t.get? id).filter (!p ·) := by
  unfold get? deleteWhere
  rw [List.getElem?_map]
  cases t.cells[id]? with
  | none => rfl
  | some o => rfl

theorem get?_of_get?_deleteWhere {p : α → Bool} (h : (t.deleteWhere p).get? id = some a) :
    t.get? id = some a := by
  rw [get?_deleteWhere, Option.filter_eq_some_iff] at h
  exact h.1

theorem mem_rows : a ∈ t.rows ↔ ∃ id, t.get? id = some a := by
  unfold rows get?
  rw [List.mem_filterMap]
  constructor
  · rintro ⟨o, ho, rfl⟩
    obtain ⟨id, hid⟩ := List.mem_iff_getElem?.mp ho
    exact ⟨id, by rw [hid]; rfl⟩
  · rintro ⟨id, hid⟩
    exact ⟨some a, List.mem_of_getElem? (Option.join_eq_some_iff.mp hid), rfl⟩

theorem count_eq (t : Table α) (P : α → Bool) :
    t.count P = t.cells.countP fun o => o.any P := by
  unfold count rows
  induction t.cells with
  | nil => rfl
  | cons o cells ih =>
      cases o with
      | none => simp [ih]
      | some a => simp [List.countP_cons, ih]

theorem count_insert (P : α → Bool) :
    (t.insert a).count P = t.count P + (if P a then 1 else 0) := by
  simp [count_eq, insert]

theorem count_set (P : α → Bool) (h : t.get? id = some b) (a : α) :
    (t.set id a).count P + (if P b then 1 else 0) = t.count P + (if P a then 1 else 0) := by
  have hcell : t.cells[id]? = some (some b) := by
    unfold get? at h
    rwa [Option.join_eq_some_iff] at h
  have := Interleaving.countP_set_add (fun o : Option α => o.any P) hcell (some a)
  simpa [count_eq, set] using this

/-- A row that counts only if it counted before does not add to a count. -/
theorem count_set_le (P : α → Bool) (h : t.get? id = some b) (hP : P a = true → P b = true) :
    (t.set id a).count P ≤ t.count P := by
  have hmoved := count_set P h a
  by_cases ha : P a = true
  · rw [if_pos ha, if_pos (hP ha)] at hmoved
    omega
  · rw [if_neg ha] at hmoved
    omega

theorem count_deleteWhere_le (P p : α → Bool) : (t.deleteWhere p).count P ≤ t.count P := by
  rw [count_eq, count_eq, deleteWhere, List.countP_map]
  apply List.countP_mono_left
  rintro (_ | a) - hcounts
  · cases hcounts
  · rw [Function.comp_apply, Option.filter] at hcounts
    split at hcounts
    · exact hcounts
    · cases hcounts

end Table
