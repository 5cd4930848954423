import Mathlib.Data.List.Basic

/-!
# Dictionaries

A finite map with the order of a dictionary that remembers its insertions: a new key goes to the
end, a key assigned again keeps its place.
-/

structure Dict (κ α : Type) where
  entries : List (κ × α) := []
deriving Repr, DecidableEq

namespace Dict

variable {κ α : Type} [DecidableEq κ] {d : Dict κ α} {k k' : κ} {a : α}

def lookup (k : κ) : List (κ × α) → Option α
  | [] => none
  | (k', a) :: rest => if k' = k then some a else lookup k rest

def assign (k : κ) (a : α) : List (κ × α) → List (κ × α)
  | [] => [(k, a)]
  | (k', b) :: rest => if k' = k then (k, a) :: rest else (k', b) :: assign k a rest

def get? (d : Dict κ α) (k : κ) : Option α := lookup k d.entries

def set (d : Dict κ α) (k : κ) (a : α) : Dict κ α := ⟨assign k a d.entries⟩

def erase (d : Dict κ α) (k : κ) : Dict κ α := ⟨d.entries.filter (·.1 ≠ k)⟩

def keys (d : Dict κ α) : List κ := d.entries.map Prod.fst

def eraseAll (d : Dict κ α) (keys : List κ) : Dict κ α := keys.foldl erase d

def filter (d : Dict κ α) (keeps : κ × α → Bool) : Dict κ α := ⟨d.entries.filter keeps⟩

theorem get?_set : (d.set k a).get? k' = if k' = k then some a else d.get? k' := by
  obtain ⟨entries⟩ := d
  simp only [get?, set]
  induction entries with
  | nil =>
      simp only [assign, lookup, eq_comm]
  | cons entry rest ih =>
      obtain ⟨key, b⟩ := entry
      simp only [assign]
      by_cases hkey : key = k
      · subst hkey
        simp only [if_pos, lookup, eq_comm (a := k')]
        split <;> rfl
      · simp only [if_neg hkey, lookup, ih]
        by_cases hk : k' = k
        · subst hk
          simp [hkey]
        · simp [hk]

theorem get?_erase : (d.erase k).get? k' = if k' = k then none else d.get? k' := by
  obtain ⟨entries⟩ := d
  simp only [get?, erase]
  induction entries with
  | nil => simp [lookup]
  | cons entry rest ih =>
      obtain ⟨key, b⟩ := entry
      by_cases hkey : key = k
      · subst hkey
        rw [List.filter_cons_of_neg (by simp), ih]
        by_cases hk : k' = key
        · rw [if_pos hk, if_pos hk]
        · simp [hk, lookup, Ne.symm hk]
      · rw [List.filter_cons_of_pos (by simpa using hkey)]
        simp only [lookup, ih]
        by_cases hk : k' = k
        · subst hk
          simp [hkey]
        · simp [hk]

theorem get?_eraseAll {keys : List κ} : (d.eraseAll keys).get? k = if k ∈ keys then none
    else d.get? k := by
  unfold eraseAll
  induction keys generalizing d with
  | nil => simp
  | cons key keys ih =>
      rw [List.foldl_cons, ih, get?_erase]
      by_cases hmem : k ∈ keys
      · simp [hmem]
      · by_cases hkey : k = key
        · simp [hkey]
        · simp [hmem, hkey]

theorem get?_filter {keeps : κ × α → Bool} (h : d.get? k = some a) (hkeeps : keeps (k, a) = true) :
    (d.filter keeps).get? k = some a := by
  obtain ⟨entries⟩ := d
  simp only [get?, filter] at h ⊢
  induction entries with
  | nil => cases h
  | cons entry rest ih =>
      obtain ⟨key, b⟩ := entry
      simp only [lookup] at h
      split at h
      · rename_i hkey
        subst hkey
        cases h
        rw [List.filter_cons_of_pos hkeeps]
        simp [lookup]
      · rename_i hkey
        rw [List.filter_cons]
        split
        · simp only [lookup, if_neg hkey]
          exact ih h
        · exact ih h

theorem keys_set_of_mem (h : k ∈ d.keys) : (d.set k a).keys = d.keys := by
  obtain ⟨entries⟩ := d
  simp only [keys, set] at h ⊢
  induction entries with
  | nil => cases h
  | cons entry rest ih =>
      obtain ⟨key, b⟩ := entry
      by_cases hkey : key = k
      · simp [assign, hkey]
      · have hrest : k ∈ rest.map Prod.fst := (List.mem_cons.mp h).resolve_left (Ne.symm hkey)
        simp [assign, hkey, ih hrest]

theorem keys_set_of_notMem (h : k ∉ d.keys) : (d.set k a).keys = d.keys ++ [k] := by
  obtain ⟨entries⟩ := d
  simp only [keys, set] at h ⊢
  induction entries with
  | nil => rfl
  | cons entry rest ih =>
      obtain ⟨key, b⟩ := entry
      rw [List.map_cons, List.mem_cons, not_or] at h
      obtain ⟨hkey, hrest⟩ := h
      simp [assign, Ne.symm hkey, ih hrest]

theorem nodup_keys_set (h : d.keys.Nodup) : (d.set k a).keys.Nodup := by
  by_cases hmem : k ∈ d.keys
  · rw [keys_set_of_mem hmem]
    exact h
  · rw [keys_set_of_notMem hmem]
    have hfresh : ∀ k' ∈ d.keys, k' ≠ k := by
      rintro k' hk' rfl
      exact hmem hk'
    exact List.nodup_append.mpr ⟨h, by simp, by simpa using hfresh⟩

theorem get?_of_mem (h : d.keys.Nodup) (hmem : (k, a) ∈ d.entries) : d.get? k = some a := by
  obtain ⟨entries⟩ := d
  simp only [keys, get?] at h hmem ⊢
  induction entries with
  | nil => cases hmem
  | cons entry rest ih =>
      obtain ⟨key, b⟩ := entry
      obtain ⟨hnew, hrest⟩ := List.nodup_cons.mp h
      rcases List.mem_cons.mp hmem with heq | hmem
      · cases heq
        simp [lookup]
      · have hne : key ≠ k := by
          rintro rfl
          exact hnew (List.mem_map.mpr ⟨_, hmem, rfl⟩)
        simp only [lookup, if_neg hne]
        exact ih hrest hmem

theorem mem_keys_iff : k ∈ d.keys ↔ d.get? k ≠ none := by
  obtain ⟨entries⟩ := d
  simp only [keys, get?]
  induction entries with
  | nil => simp [lookup]
  | cons entry rest ih =>
      obtain ⟨key, b⟩ := entry
      by_cases hkey : key = k
      · simp [lookup, hkey]
      · simp [lookup, hkey, ih, Ne.symm hkey]

/-- A key that is there is assigned in its place. -/
theorem assign_append {before after : List (κ × α)} {b : α} (h : k ∉ before.map Prod.fst) :
    assign k a (before ++ (k, b) :: after) = before ++ (k, a) :: after := by
  induction before with
  | nil => simp [assign]
  | cons entry before ih =>
      obtain ⟨key, c⟩ := entry
      rw [List.map_cons, List.mem_cons, not_or] at h
      rw [List.cons_append, assign, if_neg (Ne.symm h.1), ih h.2]
      rfl

/-- A new key is assigned at the end. -/
theorem assign_of_notMem {entries : List (κ × α)} (h : k ∉ entries.map Prod.fst) :
    assign k a entries = entries ++ [(k, a)] := by
  induction entries with
  | nil => rfl
  | cons entry entries ih =>
      obtain ⟨key, c⟩ := entry
      rw [List.map_cons, List.mem_cons, not_or] at h
      rw [assign, if_neg (Ne.symm h.1), ih h.2]
      rfl

/-- A dictionary is its keys and what it holds at each. -/
theorem entries_eq_map {f : κ → α} (h : d.keys.Nodup) (hget : ∀ k ∈ d.keys, d.get? k = some (f k)) :
    d.entries = d.keys.map fun k => (k, f k) := by
  have hentry : ∀ entry ∈ d.entries, entry = (entry.1, f entry.1) := by
    intro entry hmem
    have hkey : entry.1 ∈ d.keys := List.mem_map_of_mem hmem
    have hheld : d.get? entry.1 = some entry.2 := get?_of_mem h hmem
    rw [hget entry.1 hkey, Option.some.injEq] at hheld
    rw [hheld]
  calc d.entries = d.entries.map fun entry => (entry.1, f entry.1) := by
        conv_lhs => rw [← List.map_id d.entries]
        exact List.map_congr_left hentry
    _ = d.keys.map fun k => (k, f k) := by rw [keys, List.map_map]; rfl

end Dict
