import Mathlib.Data.List.Nodup

/-!
# Units of work

A transaction loads rows, works on copies, and at its end writes of each row the columns in which
the copy differs from what was loaded. What it does not touch, it leaves as others have written it
since. Where it works on a column that another has written in the meantime, it overwrites.

So a column always holds what some write of that column has put there, and who may change which
columns settles where the value of each can come from.
-/

namespace UnitOfWork

variable {κ C ω : Type} {T : C → Type}

abbrev Row (T : C → Type) := (c : C) → T c

/-- A row as it is to be, beside what was loaded, and on whose behalf. A row that was not there is
inserted. -/
structure Write (κ ω : Type) {C : Type} (T : C → Type) where
  origin : ω
  key : κ
  loaded : Option (Row T)
  new : Row T

abbrev Table (κ : Type) {C : Type} (T : C → Type) := List (κ × Row T)

def Write.Changes (w : Write κ ω T) (c : C) :
    Prop := ∀ loaded, w.loaded = some loaded → w.new c ≠ loaded c

theorem Write.changes_of_insert {w : Write κ ω T} (h : w.loaded = none) (c : C) : w.Changes c := by
  intro loaded hloaded
  rw [h] at hloaded
  cases hloaded

variable [DecidableEq κ]

namespace Table

def lookup (table : Table κ T) (key : κ) : Option (Row T) :=
  (table.find? fun entry => entry.1 = key).map (·.2)

theorem mem_of_lookup {table : Table κ T} {key : κ} {row : Row T}
    (h : table.lookup key = some row) :
    (key, row) ∈ table := by
  obtain ⟨⟨key', row'⟩, hfound, rfl⟩ := Option.map_eq_some_iff.mp h
  have heq : key' = key := by simpa using List.find?_some hfound
  subst heq
  exact List.mem_of_find?_eq_some hfound

theorem lookup_eq_none {table : Table κ T} {key : κ} (h : table.lookup key = none) :
    key ∉ table.map (·.1) := by
  intro hmem
  obtain ⟨entry, hentry, heq⟩ := List.mem_map.mp hmem
  exact List.find?_eq_none.mp (Option.map_eq_none_iff.mp h) entry hentry (decide_eq_true heq)

end Table

variable [∀ c, DecidableEq (T c)]

/-- The columns that differ from what was loaded, over the row as it is now. -/
def merge (loaded new current : Row T) :
    Row T := fun c => if new c = loaded c then current c else new c

theorem merge_apply_of_eq {loaded new current : Row T} {c : C} (h : new c = loaded c) :
    merge loaded new current c = current c :=
  if_pos h

theorem merge_apply_of_ne {loaded new current : Row T} {c : C} (h : new c ≠ loaded c) :
    merge loaded new current c = new c :=
  if_neg h

namespace Table

/-- An insert fails where the row is there, and an update where it is gone. -/
def commit (table : Table κ T) (w : Write κ ω T) : Option (Table κ T) :=
  match w.loaded, table.lookup w.key with
  | none, none => some (table ++ [(w.key, w.new)])
  | some loaded, some _ =>
      some (table.map fun entry => if entry.1 = w.key then (entry.1, merge loaded w.new entry.2)
        else entry)
  | none, some _ => none
  | some _, none => none

def commitAll (table : Table κ T) : List (Write κ ω T) → Option (Table κ T)
  | [] => some table
  | w :: writes => (table.commit w).bind fun table' => commitAll table' writes

theorem commit_cases {table table' : Table κ T} {w : Write κ ω T}
    (h : table.commit w = some table') :
    (w.loaded = none ∧ w.key ∉ table.map (·.1) ∧ table' = table ++ [(w.key, w.new)])
      ∨ ∃ loaded, w.loaded = some loaded
        ∧ table' = table.map fun entry => if entry.1 = w.key
          then (entry.1, merge loaded w.new entry.2) else entry := by
  unfold commit at h
  split at h
  · rename_i hloaded hnone
    cases h
    exact Or.inl ⟨hloaded, lookup_eq_none hnone, rfl⟩
  · rename_i loaded _ hloaded _
    cases h
    exact Or.inr ⟨loaded, hloaded, rfl⟩
  · cases h
  · cases h

theorem nodup_commit {table table' : Table κ T} {w : Write κ ω T} (h : table.commit w = some table')
    (hnodup : (table.map (·.1)).Nodup) : (table'.map (·.1)).Nodup := by
  rcases commit_cases h with ⟨-, hfree, rfl⟩ | ⟨loaded, -, rfl⟩
  · rw [List.map_append, List.nodup_append]
    refine ⟨hnodup, List.nodup_singleton _, ?_⟩
    intro key hkey key' hkey' heq
    rw [heq, List.mem_singleton.mp hkey'] at hkey
    exact hfree hkey
  · have hkeys :
        (table.map fun entry => if entry.1 = w.key then (entry.1, merge loaded w.new entry.2)
          else entry).map
        (·.1) = table.map (·.1) := by
      rw [List.map_map]
      apply List.map_congr_left
      intro entry _
      simp only [Function.comp_apply]
      split <;> rfl
    rw [hkeys]
    exact hnodup

theorem nodup_commitAll {writes : List (Write κ ω T)} {table table' : Table κ T}
    (h : table.commitAll writes = some table') (hnodup : (table.map (·.1)).Nodup) :
    (table'.map (·.1)).Nodup := by
  induction writes generalizing table with
  | nil => exact Option.some.inj h ▸ hnodup
  | cons w writes ih =>
      obtain ⟨table₁, hone, hrest⟩ := Option.bind_eq_some_iff.mp h
      exact ih hrest (nodup_commit hone hnodup)

end Table

/-- Each column holds what a write that changed it has put there. -/
def Came (log : List (Write κ ω T)) (key : κ) (row : Row T) : Prop :=
  ∀ c, ∃ w ∈ log, w.key = key ∧ w.Changes c ∧ w.new c = row c

omit [DecidableEq κ] [∀ c, DecidableEq (T c)] in
theorem Came.mono {log log' : List (Write κ ω T)} {key : κ} {row : Row T} (h : Came log key row)
    (hsub : ∀ w ∈ log, w ∈ log') : Came log' key row := by
  intro c
  obtain ⟨w, hw, hrest⟩ := h c
  exact ⟨w, hsub w hw, hrest⟩

omit [DecidableEq κ] in
theorem Came.merge {log : List (Write κ ω T)} {w : Write κ ω T} {loaded row : Row T}
    (h : Came log w.key row)
    (hloaded : w.loaded = some loaded) : Came (log ++ [w]) w.key (merge loaded w.new row) := by
  intro c
  by_cases heq : w.new c = loaded c
  · rw [merge_apply_of_eq heq]
    exact h.mono (fun _ => List.mem_append_left _) c
  · rw [merge_apply_of_ne heq]
    refine ⟨w, List.mem_append_right _ List.mem_cons_self, rfl, ?_, rfl⟩
    intro loaded' hloaded'
    rw [hloaded] at hloaded'
    cases hloaded'
    exact heq

/-- **The provenance rule.** A commit keeps that every column holds what a write of it has put
there. -/
theorem Table.came_commit {table table' : Table κ T} {log : List (Write κ ω T)} {w : Write κ ω T}
    (h : table.commit w = some table') (hcame : ∀ entry ∈ table, Came log entry.1 entry.2) :
    ∀ entry ∈ table', Came (log ++ [w]) entry.1 entry.2 := by
  rcases commit_cases h with ⟨hinsert, -, rfl⟩ | ⟨loaded, hloaded, rfl⟩
  · intro entry hentry
    rcases List.mem_append.mp hentry with hold | hnew
    · exact (hcame entry hold).mono fun _ => List.mem_append_left _
    · rw [List.mem_singleton.mp hnew]
      exact fun c =>
        ⟨w, List.mem_append_right _ List.mem_cons_self, rfl, w.changes_of_insert hinsert c, rfl⟩
  · intro entry hentry
    obtain ⟨entry, hold, rfl⟩ := List.mem_map.mp hentry
    split
    · rename_i heq
      have hrow := hcame entry hold
      rw [heq] at hrow ⊢
      exact hrow.merge hloaded
    · exact (hcame entry hold).mono fun _ => List.mem_append_left _

theorem Table.came_commitAll {writes : List (Write κ ω T)} {table table' : Table κ T}
    {log : List (Write κ ω T)}
    (h : table.commitAll writes = some table') (hcame : ∀ entry ∈ table, Came log entry.1 entry.2) :
    ∀ entry ∈ table', Came (log ++ writes) entry.1 entry.2 := by
  induction writes generalizing table log with
  | nil =>
      rw [List.append_nil]
      exact Option.some.inj h ▸ hcame
  | cons w writes ih =>
      obtain ⟨table₁, hone, hrest⟩ := Option.bind_eq_some_iff.mp h
      rw [← List.singleton_append, ← List.append_assoc]
      exact ih hrest (came_commit hone hcame)

end UnitOfWork
