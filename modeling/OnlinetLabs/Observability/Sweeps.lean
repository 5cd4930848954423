import OnlinetLabs.Lib.Interleaving
import OnlinetLabs.Lib.Sweep
import Mathlib.Algebra.Ring.Nat

/-!
# The retention of audits and console traffic

The worker drops the calls it audited, and the gns3-service what it recorded on consoles, once they
are older than a window. Both delete batch by batch, each batch in a transaction of its own, and
pause in between. Rows of sessions that are active are kept by the gns3-service alone.

Between two batches anything may happen: rows are written, others are deleted, sessions start and
end. Only a row that is already older than the window when it is written does not occur.
-/

namespace OnlinetLabs.Observability.Sweeps

open Interleaving
open Sweep (Choice keep)

def batchSize : Nat := 10000

/-- What the statements read of a row. -/
structure Record where
  id : Nat
  sessionId : Nat
  ts : Nat
deriving Repr, DecidableEq

structure Database where
  now : Nat
  tables : List (List Record)
  /-- The sessions whose status is ACTIVE. -/
  live : List Nat
deriving Repr, DecidableEq

inductive PurgePc where
  | starting
  | deleting
  | pausing
  | finished
  | failed
deriving Repr, DecidableEq

structure Purge where
  pc : PurgePc := .starting
  cutoff : Nat := 0
  /-- The table it is at. -/
  table : Nat := 0
  removed : Nat := 0
  batches : Nat := 0
  full : Nat := 0
  /-- The rows before the cutoff when it started. -/
  oldAtStart : Nat := 0
  /-- Every row it deleted, with the sessions that were active then. -/
  deleted : List (Record × List Nat) := []
  /-- What was doomed in a table behind its last batch. -/
  left : List Record := []
deriving Repr, DecidableEq

def isOld (cutoff : Nat) (row : Record) : Bool := decide (row.ts < cutoff)

def isDoomed (spares : Bool) (live : List Nat) (cutoff : Nat) (row : Record) : Bool :=
  isOld cutoff row && !(spares && decide (row.sessionId ∈ live))

def isIn (ids : List Nat) (row : Record) : Bool := decide (row.id ∈ ids)

def oldRows (cutoff : Nat) (tables : List (List Record)) : Nat :=
  (tables.map fun rows => rows.countP (isOld cutoff)).sum

inductive PurgeStep where
  | go
  /-- The ids that the statement chose. -/
  | batch (ids : List Nat)
  | raises
deriving Repr, DecidableEq

inductive DatabaseMove where
  | tick (n : Nat)
  | insert (table : Nat) (row : Record)
  | delete (table : Nat) (ids : List Nat)
  | sessions (live : List Nat)
deriving Repr, DecidableEq

section Sweeps

variable (window : Nat) (spares : Bool)

/-- No row is written that is behind the window already. -/
def Database.move (db : Database) : DatabaseMove → Option Database
  | .tick n => some { db with now := db.now + n }
  | .insert table row =>
      if db.now ≤ row.ts + window
        then some { db with tables := db.tables.modify table fun rows => rows ++ [row] }
      else none
  | .delete table ids => some { db with tables := db.tables.modify table (keep (isIn ids)) }
  | .sessions live => some { db with live }

/-- A batch of `_purge_model`, and the step to the next table. -/
def Purge.batch (db : Database) (p : Purge) (rows : List Record) (ids : List Nat) : Purge :=
  let removed := rows.countP (isIn ids)
  let p := { p with
    removed := p.removed + removed
    batches := p.batches + 1
    deleted := p.deleted ++ (rows.filter (isIn ids)).map fun row => (row, db.live) }
  if removed < batchSize then
    { p with
      pc := if p.table + 1 = db.tables.length then .finished else .deleting
      table := p.table + 1
      left := p.left ++ (keep (isIn ids) rows).filter (isDoomed spares db.live p.cutoff) }
  else { p with pc := .pausing, full := p.full + 1 }

def Purge.step (db : Database) (p : Purge) (a : PurgeStep) : Option (Database × Purge) :=
  match p.pc, a with
  | .starting, .go =>
      some (db, { p with
        pc := .deleting
        cutoff := db.now - window
        oldAtStart := oldRows (db.now - window) db.tables })
  | .deleting, .batch ids =>
      match db.tables[p.table]? with
      | none => none
      | some rows =>
          if Choice batchSize (isDoomed spares db.live p.cutoff) rows (isIn ids) then
            some ({ db with tables := db.tables.set p.table (keep (isIn ids) rows) },
              p.batch spares db rows ids)
          else none
  | .deleting, .raises => some (db, { p with pc := .failed })
  | .pausing, .go => some (db, { p with pc := .deleting })
  | _, _ => none

def sweeping : System Database Purge DatabaseMove Unit PurgeStep where
  env db move := db.move window move
  spawn _ := {}
  step db p a := p.step window spares db a

end Sweeps

/-- `sweep_mcp_audit`, over the table of the audited calls. -/
def sweepMcpAudit (mcpAuditRetention : Nat) := sweeping mcpAuditRetention false

/-- `purge_console_history`, over the chunks and then the commands. -/
def purgeConsoleHistory (olderThan : Nat) := sweeping olderThan true

/-! ### The old rows -/

variable {window cutoff table : Nat} {spares : Bool} {db db' : Database} {p p' : Purge}
  {tables : List (List Record)}
  {rows : List Record}

theorem oldRows_set (cutoff : Nat) (rows' : List Record) (h : tables[table]? = some rows) :
    oldRows cutoff (tables.set table rows') + rows.countP (isOld cutoff)
      = oldRows cutoff tables + rows'.countP (isOld cutoff) := by
  unfold oldRows
  induction tables generalizing table with
  | nil => simp at h
  | cons first tables ih =>
      cases table with
      | zero =>
          cases h
          simp only [List.set_cons_zero, List.map_cons, List.sum_cons]
          omega
      | succ table =>
          have hrest := ih h
          simp only [List.set_cons_succ, List.map_cons, List.sum_cons]
          omega

theorem oldRows_modify_le {f : List Record → List Record}
    (hf : ∀ rows, (f rows).countP (isOld cutoff) ≤ rows.countP (isOld cutoff)) (table : Nat) :
    oldRows cutoff (tables.modify table f) ≤ oldRows cutoff tables := by
  unfold oldRows
  induction tables generalizing table with
  | nil => simp
  | cons first tables ih =>
      cases table with
      | zero =>
          have hfirst := hf first
          simp only [List.modify_zero_cons, List.map_cons, List.sum_cons]
          omega
      | succ table =>
          have hrest := ih table
          simp only [List.modify_succ_cons, List.map_cons, List.sum_cons]
          omega

theorem oldRows_zero (tables : List (List Record)) : oldRows 0 tables = 0 := by
  induction tables with
  | nil => rfl
  | cons rows tables ih =>
      have hrows : rows.countP (isOld 0) = 0 := List.countP_eq_zero.mpr fun row _ => by simp [isOld]
      unfold oldRows at ih ⊢
      rw [List.map_cons, List.sum_cons, ih, hrows]

/-! ### What is kept -/

structure PurgeKept (window : Nat) (spares : Bool) (tableCount : Nat) (db : Database)
    (p : Purge) : Prop where
  cutoff : p.cutoff ≤ db.now - window
  old : batchSize * p.full + oldRows p.cutoff db.tables ≤ p.oldAtStart
  batches : p.batches ≤ p.full + p.table
  table : p.table ≤ tableCount
  removed : p.removed = p.deleted.length
  deleted : ∀ entry ∈ p.deleted, entry.1.ts < p.cutoff
    ∧ (spares = true → entry.1.sessionId ∉ entry.2)
  left : p.left = []
  finished : p.pc = .finished → p.table = tableCount
  starting : p.pc = .starting → p = {}

theorem purgeKept_start {tableCount : Nat} : PurgeKept window spares tableCount db {} := by
  refine ⟨Nat.zero_le _, ?_, Nat.le_refl _, Nat.zero_le _, rfl, nofun, rfl, nofun, fun _ => rfl⟩
  simp only [oldRows_zero]
  exact Nat.le_refl _

/-- What others do brings no old rows. -/
theorem PurgeKept.later {tableCount : Nat} (h : PurgeKept window spares tableCount db p)
    (hnow : db.now ≤ db'.now)
    (hold : oldRows p.cutoff db'.tables ≤ oldRows p.cutoff db.tables) :
    PurgeKept window spares tableCount db' p :=
  ⟨Nat.le_trans h.cutoff (Nat.sub_le_sub_right hnow _),
    Nat.le_trans (Nat.add_le_add_left hold _) h.old, h.batches, h.table, h.removed, h.deleted,
    h.left, h.finished, h.starting⟩

theorem move_later {move : DatabaseMove} (hmove : db.move window move = some db') :
    db.now ≤ db'.now ∧ db'.tables.length = db.tables.length
      ∧ ∀ cutoff, cutoff ≤ db.now - window →
        oldRows cutoff db'.tables ≤ oldRows cutoff db.tables := by
  cases move with
  | tick n =>
      cases hmove
      exact ⟨Nat.le_add_right _ _, rfl, fun _ _ => Nat.le_refl _⟩
  | insert table row =>
      simp only [Database.move] at hmove
      split at hmove
      · rename_i hrecent
        cases hmove
        refine ⟨Nat.le_refl _, List.length_modify _ _ _, fun cutoff hcutoff =>
          oldRows_modify_le (fun rows => ?_) table⟩
        have hnew : isOld cutoff row = false := decide_eq_false (by omega)
        simp [hnew]
      · cases hmove
  | delete table ids =>
      cases hmove
      exact ⟨Nat.le_refl _, List.length_modify _ _ _,
        fun _ _ => oldRows_modify_le (fun rows => Sweep.countP_keep_le _ _ rows) table⟩
  | sessions live =>
      cases hmove
      exact ⟨Nat.le_refl _, rfl, fun _ _ => Nat.le_refl _⟩

theorem isOld_of_isDoomed {live : List Nat} {row : Record}
    (h : isDoomed spares live cutoff row = true) :
    isOld cutoff row = true := (Bool.and_eq_true_iff.mp h).1

theorem PurgeKept.batch {ids : List Nat} (h : PurgeKept window spares db.tables.length db p)
    (hrows : db.tables[p.table]? = some rows)
    (hchoice : Choice batchSize (isDoomed spares db.live p.cutoff) rows (isIn ids)) :
    PurgeKept window spares db.tables.length
      { db with tables := db.tables.set p.table (keep (isIn ids) rows) }
      (p.batch spares db rows ids) := by
  have hold := h.old
  have hset := oldRows_set p.cutoff (keep (isIn ids) rows) hrows
  have hkeep := Sweep.countP_keep_le (isOld p.cutoff) (isIn ids) rows
  have hlt := (List.getElem?_eq_some_iff.mp hrows).1
  have hbatches := h.batches
  have hremoved : p.removed + rows.countP (isIn ids)
      = (p.deleted ++ (rows.filter (isIn ids)).map fun row => (row, db.live)).length := by
    rw [h.removed, List.length_append, List.length_map, List.countP_eq_length_filter]
  have hdeleted : ∀ entry ∈ p.deleted ++ (rows.filter (isIn ids)).map fun row => (row, db.live),
      entry.1.ts < p.cutoff ∧ (spares = true → entry.1.sessionId ∉ entry.2) := by
    intro entry hentry
    rcases List.mem_append.mp hentry with hbefore | hnow
    · exact h.deleted entry hbefore
    · obtain ⟨row, hrow, rfl⟩ := List.mem_map.mp hnow
      obtain ⟨hmem, hpick⟩ := List.mem_filter.mp hrow
      have hdoomed := hchoice.sound row hmem hpick
      refine ⟨of_decide_eq_true (isOld_of_isDoomed hdoomed), fun hspares => ?_⟩
      simpa [hspares] using (Bool.and_eq_true_iff.mp hdoomed).2
  unfold Purge.batch
  dsimp only
  split
  · rename_i hfew
    refine ⟨h.cutoff, ?_, ?_, hlt, hremoved, hdeleted, ?_, ?_, ?_⟩
    · dsimp only
      omega
    · dsimp only
      omega
    · dsimp only
      rw [h.left, hchoice.none_left hfew]
      rfl
    · dsimp only
      split
      · exact fun _ => by assumption
      · exact nofun
    · dsimp only
      split <;> exact nofun
  · rename_i hfull
    have htaken :
        (keep (isIn ids) rows).countP (isOld p.cutoff) + batchSize ≤ rows.countP (isOld p.cutoff) :=
      hchoice.full (fun row _ hdoomed => isOld_of_isDoomed hdoomed) (Nat.le_of_not_lt hfull)
    refine ⟨h.cutoff, ?_, ?_, h.table, hremoved, hdeleted, h.left, nofun, nofun⟩
    · dsimp only
      rw [Nat.mul_add]
      omega
    · dsimp only
      omega

theorem PurgeKept.step {a : PurgeStep} (h : PurgeKept window spares db.tables.length db p)
    (hstep : p.step window spares db a = some (db', p')) :
    PurgeKept window spares db.tables.length db' p' := by
  cases hpc : p.pc with
  | starting =>
      rw [h.starting hpc] at hstep
      cases a with
      | go =>
          cases hstep
          refine ⟨Nat.le_refl _, ?_, Nat.le_refl _, Nat.zero_le _, rfl, nofun, rfl, nofun, nofun⟩
          dsimp only
          omega
      | _ => cases hstep
  | deleting =>
      cases a with
      | batch ids =>
          simp only [Purge.step, hpc] at hstep
          split at hstep
          · cases hstep
          · rename_i rows hrows
            split at hstep
            · rename_i hchoice
              cases hstep
              exact h.batch hrows hchoice
            · cases hstep
      | raises =>
          simp only [Purge.step, hpc] at hstep
          cases hstep
          exact ⟨h.cutoff, h.old, h.batches, h.table, h.removed, h.deleted, h.left, nofun, nofun⟩
      | go => simp [Purge.step, hpc] at hstep
  | pausing =>
      cases a with
      | go =>
          simp only [Purge.step, hpc] at hstep
          cases hstep
          exact ⟨h.cutoff, h.old, h.batches, h.table, h.removed, h.deleted, h.left, nofun, nofun⟩
      | _ => simp [Purge.step, hpc] at hstep
  | finished | failed => simp [Purge.step, hpc] at hstep

/-- Another purge brings no old rows either. -/
theorem step_later {a : PurgeStep} (hstep : p.step window spares db a = some (db', p')) :
    db.now ≤ db'.now ∧ db'.tables.length = db.tables.length
      ∧ ∀ cutoff, oldRows cutoff db'.tables ≤ oldRows cutoff db.tables := by
  have hsame : db.now ≤ db.now ∧ db.tables.length = db.tables.length
      ∧ ∀ cutoff, oldRows cutoff db.tables ≤ oldRows cutoff db.tables :=
    ⟨Nat.le_refl _, rfl, fun _ => Nat.le_refl _⟩
  cases hpc : p.pc with
  | deleting =>
      cases a with
      | batch ids =>
          simp only [Purge.step, hpc] at hstep
          split at hstep
          · cases hstep
          · rename_i rows hrows
            split at hstep
            · cases hstep
              refine ⟨Nat.le_refl _, List.length_set, fun cutoff => ?_⟩
              have hset := oldRows_set cutoff (keep (isIn ids) rows) hrows
              have hkeep := Sweep.countP_keep_le (isOld cutoff) (isIn ids) rows
              dsimp only
              omega
            · cases hstep
      | raises =>
          simp only [Purge.step, hpc] at hstep
          cases hstep
          exact hsame
      | go => simp [Purge.step, hpc] at hstep
  | starting | pausing =>
      cases a with
      | go =>
          simp only [Purge.step, hpc] at hstep
          cases hstep
          exact hsame
      | _ => simp [Purge.step, hpc] at hstep
  | finished | failed => simp [Purge.step, hpc] at hstep

structure Kept (window : Nat) (spares : Bool) (tableCount : Nat)
    (conf : Conf Database Purge) : Prop where
  tables : conf.shared.tables.length = tableCount
  purges : ∀ p ∈ conf.procs, PurgeKept window spares tableCount conf.shared p

theorem kept_next {tableCount : Nat} {conf conf' : Conf Database Purge}
    {l : Label DatabaseMove Unit PurgeStep}
    (h : Kept window spares tableCount conf)
    (hnext : (sweeping window spares).next conf l = some conf') :
    Kept window spares tableCount conf' := by
  obtain ⟨rfl, hpurges⟩ := h
  rcases (sweeping window spares).next_cases hnext with ⟨move, db, rfl, hmove, rfl⟩ | ⟨_, rfl, rfl⟩
    | ⟨pid, a, p, db, p', rfl, hpid, hstep, rfl⟩
  · obtain ⟨hnow, htables, hold⟩ := move_later hmove
    exact ⟨htables, fun p hp => (hpurges p hp).later hnow (hold _ (hpurges p hp).cutoff)⟩
  · exact ⟨rfl, forall_mem_append hpurges purgeKept_start⟩
  · obtain ⟨hnow, htables, hold⟩ := step_later hstep
    exact ⟨htables, forall_mem_set (fun q hq => (hpurges q hq).later hnow (hold _))
      ((hpurges p (mem_of_getElem? hpid)).step hstep)⟩

/-- **Sweeps.** Whatever happens between its batches, as long as no row is written that is behind
the window already, a sweep counts exactly the rows it deletes, every one of them behind the window
and of no session active at that moment where those are spared; it leaves nothing doomed in a table
it is through with, and has no more batches than its old rows fill, and one for each table. -/
theorem sweep_throughout (window : Nat) (spares : Bool) (db : Database)
    (ls : List (Label DatabaseMove Unit PurgeStep)) :
    (sweeping window spares).Throughout (fun conf => ∀ p ∈ conf.procs,
      p.removed = p.deleted.length
      ∧ (∀ entry ∈ p.deleted, entry.1.ts < p.cutoff ∧ (spares = true → entry.1.sessionId ∉ entry.2))
      ∧ p.left = [] ∧ (p.pc = .finished → p.table = db.tables.length)
      ∧ p.batches ≤ p.oldAtStart / batchSize + db.tables.length) ⟨db, []⟩ ls := by
  have hkept :
      (sweeping window spares).Throughout (Kept window spares db.tables.length) ⟨db, []⟩ ls :=
    (sweeping window spares).throughout_of_preserved (fun conf l conf' h hnext => kept_next h hnext)
      ⟨rfl, nofun⟩
  refine hkept.mono (sweeping window spares) fun conf h p hp => ?_
  have hp := h.purges p hp
  refine ⟨hp.removed, hp.deleted, hp.left, hp.finished, ?_⟩
  have hfull : p.full ≤ p.oldAtStart / batchSize := by
    rw [Nat.le_div_iff_mul_le (by decide)]
    have hold := hp.old
    rw [Nat.mul_comm]
    omega
  have hbatches := hp.batches
  have htable := hp.table
  omega

end OnlinetLabs.Observability.Sweeps
