import Mathlib.Data.List.Perm.Basic
import Mathlib.Data.List.Induction
import OnlinetLabs.Lib.Dict

/-!
# Groups of rows

Rows are put under their key into a dictionary of lists, in the order in which they come; a row
without a key is left out. The order of the rows decides the order of the keys and that within each
list, and nothing else.
-/

namespace Grouping

variable {α κ β : Type} [DecidableEq κ] {key : α → Option κ} {rows rows' : List α} {k : κ} {row : α}

/-- `groups.setdefault(key, []).append(row)`. -/
def add (key : α → Option κ) (groups : Dict κ (List α)) (row : α) : Dict κ (List α) :=
  match key row with
  | none => groups
  | some k => groups.set k ((groups.get? k).getD [] ++ [row])

def group (key : α → Option κ) (rows : List α) : Dict κ (List α) := rows.foldl (add key) {}

def members (key : α → Option κ) (rows : List α) (k : κ) : List α := rows.filter fun row =>
    decide (key row = some k)

theorem mem_members : row ∈ members key rows k ↔ row ∈ rows ∧ key row = some k := by simp [members]

theorem group_concat : group key (rows ++ [row]) = add key (group key rows) row := by
  simp [group, List.foldl_append]

theorem get?_group :
    (group key rows).get? k = if members key rows k = [] then none
      else some (members key rows k) := by
  induction rows using List.reverseRecOn with
  | nil => simp [group, members, Dict.get?, Dict.lookup]
  | append_singleton rows row ih =>
    rw [group_concat, add]
    cases hkey : key row with
    | none =>
      have hsame : members key (rows ++ [row]) k = members key rows k := by simp [members, hkey]
      rw [hsame]
      exact ih
    | some k' =>
      simp only [Dict.get?_set]
      by_cases heq : k = k'
      · subst heq
        have hmore : members key (rows ++ [row]) k = members key rows k ++ [row] := by
          simp [members, hkey]
        rw [if_pos rfl, ih, hmore]
        by_cases hnone : members key rows k = []
        · simp [hnone]
        · simp [hnone]
      · have hsame : members key (rows ++ [row]) k = members key rows k := by
          simp [members, hkey, Ne.symm heq]
        rw [if_neg heq, hsame]
        exact ih

theorem getD_group : ((group key rows).get? k).getD [] = members key rows k := by
  rw [get?_group]
  by_cases hnone : members key rows k = []
  · rw [if_pos hnone, hnone]
    rfl
  · rw [if_neg hnone]
    rfl

theorem nodup_keys_group : (group key rows).keys.Nodup := by
  induction rows using List.reverseRecOn with
  | nil => simp [group, Dict.keys]
  | append_singleton rows row ih =>
    rw [group_concat, add]
    split
    · exact ih
    · exact Dict.nodup_keys_set ih

theorem mem_keys_group : k ∈ (group key rows).keys ↔ ∃ row ∈ rows, key row = some k := by
  rw [Dict.mem_keys_iff, get?_group]
  constructor
  · intro h
    by_cases hnone : members key rows k = []
    · simp [hnone] at h
    · obtain ⟨row, hrow⟩ := List.exists_mem_of_ne_nil _ hnone
      exact ⟨row, mem_members.mp hrow⟩
  · rintro ⟨row, hrow⟩
    have hsome : members key rows k ≠ [] := List.ne_nil_of_mem (mem_members.mpr hrow)
    simp [hsome]

theorem entries_group : (group key rows).entries = (group key rows).keys.map fun k =>
    (k, members key rows k) := by
  apply Dict.entries_eq_map nodup_keys_group
  intro k hk
  obtain ⟨row, hrow⟩ := mem_keys_group.mp hk
  have hsome : members key rows k ≠ [] := List.ne_nil_of_mem (mem_members.mpr hrow)
  rw [get?_group, if_neg hsome]

theorem members_perm (h : rows.Perm rows') :
    (members key rows k).Perm (members key rows' k) := h.filter _

theorem keys_group_perm (h : rows.Perm rows') :
    (group key rows).keys.Perm (group key rows').keys := by
  rw [List.perm_ext_iff_of_nodup nodup_keys_group nodup_keys_group]
  intro k
  rw [mem_keys_group, mem_keys_group]
  simp only [h.mem_iff]

/-- **What is made of each group does not depend on the order of the rows** where it does not depend
on the order within a group, but for the order in which the groups come. -/
theorem map_group_perm {f f' : κ → List α → β} (h : rows.Perm rows')
    (hf : ∀ k ∈ (group key rows).keys, f k (members key rows k) = f' k (members key rows' k)) :
    ((group key rows).entries.map fun entry => f entry.1 entry.2).Perm
      ((group key rows').entries.map fun entry => f' entry.1 entry.2) := by
  rw [entries_group, entries_group, List.map_map, List.map_map]
  have hsame : (group key rows).keys.map (fun k => f k (members key rows k))
      = (group key rows).keys.map fun k => f' k (members key rows' k) := List.map_congr_left hf
  have hperm : ((group key rows).keys.map fun k => f' k (members key rows' k)).Perm
      ((group key rows').keys.map fun k => f' k (members key rows' k)) := (keys_group_perm h).map _
  exact hsame ▸ hperm

/-! ### First rows -/

def keepFirst (key : α → κ) (found : Dict κ α) (row : α) : Dict κ α :=
  if (found.get? (key row)).isSome then found else found.set (key row) row

def firstOf (key : α → κ) (rows : List α) : Dict κ α := rows.foldl (keepFirst key) {}

theorem get?_firstOf {key : α → κ} : (firstOf key rows).get? k = rows.find? fun row =>
    decide (key row = k) := by
  induction rows using List.reverseRecOn with
  | nil => rfl
  | append_singleton rows row ih =>
    have hconcat : firstOf key (rows ++ [row]) = keepFirst key (firstOf key rows) row := by
      simp [firstOf, List.foldl_append]
    rw [hconcat, List.find?_append, ← ih, keepFirst]
    by_cases hkey : key row = k
    · rw [hkey]
      cases hget : (firstOf key rows).get? k with
      | none => simp [Dict.get?_set, hkey]
      | some first => simp [hget]
    · have hother : (if ((firstOf key rows).get? (key row)).isSome then firstOf key rows
          else (firstOf key rows).set (key row) row).get? k = (firstOf key rows).get? k := by
        split
        · rfl
        · rw [Dict.get?_set, if_neg (Ne.symm hkey)]
      rw [hother]
      simp [hkey]

/-- A search finds what another finds where it overlooks what the other overlooks and takes what the
other takes. -/
theorem find?_eq_of_first {P Q : α → Bool} (hskip : ∀ a ∈ rows, Q a = false → P a = false)
    (htake : ∀ a, rows.find? Q = some a → P a = true) : rows.find? P = rows.find? Q := by
  cases hQ : rows.find? Q with
  | none =>
    rw [List.find?_eq_none] at hQ ⊢
    intro a ha
    simpa using hskip a ha (by simpa using hQ a ha)
  | some a =>
    obtain ⟨-, before, after, rfl, hbefore⟩ := List.find?_eq_some_iff_append.mp hQ
    refine List.find?_eq_some_iff_append.mpr ⟨htake a hQ, before, after, rfl, fun b hb => ?_⟩
    simpa using hskip b (by simp [hb]) (by simpa using hbefore b hb)

/-- What is read from the first of the rows a predicate holds of, where it is the same in all of
them. -/
theorem map_find?_perm {f : α → β} {P : α → Bool} (h : rows.Perm rows')
    (hf : ∀ row ∈ rows, P row = true → ∀ row' ∈ rows, P row' = true → f row = f row') :
    (rows.find? P).map f = (rows'.find? P).map f := by
  cases hfind : rows.find? P with
  | none =>
    have hnone : rows'.find? P = none := by
      rw [List.find?_eq_none] at hfind ⊢
      exact fun row hrow => hfind row (h.mem_iff.mpr hrow)
    rw [hnone]
  | some row =>
    cases hfind' : rows'.find? P with
    | none =>
      have hrow := List.find?_eq_none.mp hfind' row (h.mem_iff.mp (List.mem_of_find?_eq_some hfind))
      exact absurd (List.find?_some hfind) hrow
    | some row' =>
      have hmem : row' ∈ rows := h.mem_iff.mpr (List.mem_of_find?_eq_some hfind')
      rw [Option.map_some, Option.map_some, Option.some.injEq]
      exact hf row (List.mem_of_find?_eq_some hfind)
        (List.find?_some hfind) row' hmem (List.find?_some hfind')

end Grouping
