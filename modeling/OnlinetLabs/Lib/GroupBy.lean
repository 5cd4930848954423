import Mathlib.Algebra.Ring.Nat
import Mathlib.Data.List.Dedup
import Mathlib.Data.List.Induction
import Mathlib.Data.List.Perm.Basic
import OnlinetLabs.Lib.Dict

/-!
# Grouped queries

A grouped query answers with a row for each key that occurs, in any order, and the answer is read
into a dictionary. Looked up at a key, the dictionary gives what a query for that key alone gives;
its values sum up to what a query for all keys gives. A loop that counts into a dictionary does the
same.
-/

namespace GroupBy

variable {α κ β : Type} [DecidableEq κ] {key : α → κ} {rows rows' : List α} {k : κ} {keys : List κ}

def members (key : α → κ) (rows : List α) (k : κ) :
    List α := rows.filter fun row => decide (key row = k)

/-- The keys of the rows, in some order. -/
structure Keys (key : α → κ) (rows : List α) (keys : List κ) : Prop where
  nodup : keys.Nodup
  mem : ∀ k, k ∈ keys ↔ ∃ row ∈ rows, key row = k

/-- A database's order of the groups. -/
structure Order (α κ : Type) [DecidableEq κ] where
  keys : (α → κ) → List α → List κ
  keysOf : ∀ key rows, Keys key rows (keys key rows)

def Order.distinct : Order α κ where
  keys key rows := (rows.map key).dedup
  keysOf key rows := ⟨List.nodup_dedup _, fun k => by simp⟩

def Order.backwards (order : Order α κ) : Order α κ where
  keys key rows := (order.keys key rows).reverse
  keysOf key rows := ⟨List.nodup_reverse.mpr (order.keysOf key rows).nodup,
    fun k => List.mem_reverse.trans ((order.keysOf key rows).mem k)⟩

/-- `SELECT key, agg(...) GROUP BY key`. -/
def answer (order : Order α κ) (key : α → κ) (agg : List α → β) (rows : List α) : List (κ × β) :=
  (order.keys key rows).map fun k => (k, agg (members key rows k))

def ofPairs (pairs : List (κ × β)) :
    Dict κ β := pairs.foldl (fun d entry => d.set entry.1 entry.2) {}

theorem mem_members {row : α} : row ∈ members key rows k ↔ row ∈ rows ∧ key row = k := by
  simp [members]

theorem mem_keys_iff (h : Keys key rows keys) : k ∈ keys ↔ members key rows k ≠ [] := by
  rw [h.mem]
  constructor
  · rintro ⟨row, hrow⟩
    exact List.ne_nil_of_mem (mem_members.mpr hrow)
  · intro hne
    obtain ⟨row, hrow⟩ := List.exists_mem_of_ne_nil _ hne
    exact ⟨row, mem_members.mp hrow⟩

/-! ### Reading an answer -/

theorem ofPairs_concat (pairs : List (κ × β)) (entry : κ × β) :
    ofPairs (pairs ++ [entry]) = (ofPairs pairs).set entry.1 entry.2 := by
      simp [ofPairs, List.foldl_append]

theorem mem_of_get?_ofPairs {pairs : List (κ × β)} {b : β} (h : (ofPairs pairs).get? k = some b) :
    (k, b) ∈ pairs := by
  induction pairs using List.reverseRecOn with
  | nil => cases h
  | append_singleton pairs entry ih =>
      rw [ofPairs_concat, Dict.get?_set] at h
      split at h
      · rename_i heq
        cases h
        exact List.mem_append_right _ (heq ▸ List.mem_cons_self)
      · exact List.mem_append_left _ (ih h)

theorem get?_ofPairs {f : κ → β} (keys : List κ) :
    (ofPairs (keys.map fun k => (k, f k))).get? k = if k ∈ keys then some (f k) else none := by
  induction keys using List.reverseRecOn with
  | nil => rfl
  | append_singleton keys k' ih =>
      rw [List.map_append, List.map_singleton, ofPairs_concat, Dict.get?_set, ih]
      by_cases heq : k = k'
      · simp [heq]
      · simp [heq]

theorem entries_ofPairs {f : κ → β} {keys : List κ} (h : keys.Nodup) :
    (ofPairs (keys.map fun k => (k, f k))).entries = keys.map fun k => (k, f k) := by
  induction keys using List.reverseRecOn with
  | nil => rfl
  | append_singleton keys k ih =>
      obtain ⟨hkeys, -, hlast⟩ := List.nodup_append.mp h
      have hnew : k ∉ (keys.map fun k => (k, f k)).map Prod.fst := by
        rw [List.map_map]
        intro hmem
        obtain ⟨k', hk', rfl⟩ := List.mem_map.mp hmem
        exact hlast k' hk' k' List.mem_cons_self rfl
      rw [List.map_append, List.map_singleton, ofPairs_concat, Dict.set, ih hkeys,
        Dict.assign_of_notMem hnew]

/-- **One key of many.** -/
theorem get?_answer (order : Order α κ) (agg : List α → β) :
    (ofPairs (answer order key agg rows)).get? k
      = if members key rows k = [] then none else some (agg (members key rows k)) := by
  rw [answer, get?_ofPairs]
  have hmem := mem_keys_iff (k := k) (order.keysOf key rows)
  by_cases hnone : members key rows k = []
  · simp [hnone, mt hmem.mp (not_not.mpr hnone)]
  · simp [hnone, hmem.mpr hnone]

theorem getD_answer (order : Order α κ) (agg : List α → β) :
    ((ofPairs (answer order key agg rows)).get? k).getD (agg []) = agg (members key rows k) := by
  rw [get?_answer]
  by_cases hnone : members key rows k = []
  · simp [hnone]
  · simp [hnone]

theorem values_answer (order : Order α κ) (agg : List α → β) :
    (ofPairs (answer order key agg rows)).entries.map Prod.snd
      = (order.keys key rows).map fun k => agg (members key rows k) := by
  rw [answer, entries_ofPairs (order.keysOf key rows).nodup, List.map_map]
  rfl

theorem countP_mem_cons {ks : List κ} (hk : k ∉ ks) (rows : List α) :
    (rows.countP fun row => decide (key row ∈ k :: ks))
      = (rows.countP fun row => decide (key row = k)) + rows.countP fun row =>
        decide (key row ∈ ks) := by
  induction rows with
  | nil => rfl
  | cons row rows ih =>
      rw [List.countP_cons, List.countP_cons, List.countP_cons, ih]
      by_cases heq : key row = k
      · simp [heq, hk]
        omega
      · simp [heq]
        omega

theorem sum_count_eq {ks : List κ} (hnodup : ks.Nodup) (rows : List α) :
    (ks.map fun k => (members key rows k).length).sum = rows.countP fun row =>
      decide (key row ∈ ks) := by
  induction ks with
  | nil => simp
  | cons k ks ih =>
      obtain ⟨hk, hks⟩ := List.nodup_cons.mp hnodup
      rw [List.map_cons, List.sum_cons, ih hks, members, ← List.countP_eq_length_filter,
        countP_mem_cons hk]

/-- **All keys together.** -/
theorem sum_counts (order : Order α κ) :
    ((ofPairs (answer order key List.length rows)).entries.map Prod.snd).sum = rows.length := by
  have hkeys := order.keysOf key rows
  rw [values_answer, sum_count_eq hkeys.nodup]
  exact List.countP_eq_length.mpr fun row hrow =>
    decide_eq_true ((hkeys.mem _).mpr ⟨row, hrow, rfl⟩)

/-- The total is that of any keys that cover the rows. -/
theorem sum_counts_eq (order : Order α κ) {ks : List κ} (hnodup : ks.Nodup)
    (hall : ∀ row ∈ rows, key row ∈ ks) :
    ((ofPairs (answer order key List.length rows)).entries.map Prod.snd).sum
      = (ks.map fun k => ((ofPairs (answer order key List.length rows)).get? k).getD 0).sum := by
  have hlookup : ∀ k,
      ((ofPairs (answer order key List.length rows)).get? k).getD 0 = (members key rows k).length :=
    fun k => getD_answer order List.length
  simp only [hlookup]
  rw [sum_counts, sum_count_eq hnodup, List.countP_eq_length.mpr fun row hrow =>
    decide_eq_true (hall row hrow)]

/-! ### Counting in a loop -/

/-- `counts[key] = counts.get(key, 0) + 1`. -/
def count (key : α → κ) (counts : Dict κ Nat) (row : α) : Dict κ Nat :=
  counts.set (key row) ((counts.get? (key row)).getD 0 + 1)

theorem members_perm (h : rows.Perm rows') :
    (members key rows k).Perm (members key rows' k) := h.filter _

theorem members_filter (p : α → Bool) :
    members key (rows.filter p) k = (members key rows k).filter p := by
  unfold members
  rw [List.filter_filter, List.filter_filter]
  exact List.filter_congr fun row _ => Bool.and_comm _ _

/-! ### Last rows -/

/-- `latest[key] = row` -/
def lastOf (key : α → κ) (rows : List α) :
    Dict κ α := rows.foldl (fun latest row => latest.set (key row) row) {}

theorem get?_lastOf : (lastOf key rows).get? k = (members key rows k).getLast? := by
  induction rows using List.reverseRecOn with
  | nil => rfl
  | append_singleton rows row ih =>
      have hconcat : lastOf key (rows ++ [row]) = (lastOf key rows).set (key row) row := by
        simp [lastOf, List.foldl_append]
      rw [hconcat, Dict.get?_set]
      by_cases heq : k = key row
      · subst heq
        simp [members]
      · rw [if_neg heq, ih]
        simp [members, Ne.symm heq]

end GroupBy
