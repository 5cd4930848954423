import OnlinetLabs.Lib.Retention
import OnlinetLabs.Lib.Runs
import OnlinetLabs.Observability.Feeds

/-!
# The activity log

`AgentActivityLog` gives every event of an agent to those who observe the session and queues it for
one writer, which inserts it and after every hundredth insert of a session cuts the session down to
its newest rows. How many inserts there have been is known to the process only.

The writer waits for the database between its statements; what else happens in between is a move of
its own.
-/

namespace OnlinetLabs.Observability

open Sessions (UserId)
open Retention (Covered)

def pruneEvery : Nat := 100

def subscriptionSize : Nat := 500

def writesSize : Nat := 2000

def AgentActivityEvent.row (event : AgentActivityEvent) : AgentActivityEventRow where
  id := event.id
  sessionId := event.sessionId
  userId := event.userId
  ts := event.ts
  source := event.source
  kind := event.kind
  agent := event.agent
  severity := event.severity
  summary := event.summary
  detail := event.detail

/-- `ORDER BY ts DESC`. -/
def newestRow (row : AgentActivityEventRow) : ℕᵒᵈ := OrderDual.toDual row.ts

structure Subscription where
  sessionId : String
  subscribed : Bool := true
  queue : List AgentActivityEvent := []
  /-- What the pump took, in order. -/
  taken : List AgentActivityEvent := []
  /-- The events of the session that were published while it was subscribed. -/
  due : List AgentActivityEvent := []

inductive Writer where
  | idle
  | storing (event : AgentActivityEvent)
  | pruning (sessionId : String)
  | deleting (sessionId : String) (stale : List String)

structure AgentActivityLog where
  rows : List AgentActivityEventRow := []
  sincePrune : String → Nat := fun _ => 0
  subs : List Subscription := []
  writes : List AgentActivityEvent := []
  writer : Writer := .idle
  /-- All rows that were inserted, those that `_prune` deleted, and those that went with an
  account. -/
  stored : List AgentActivityEventRow := []
  pruned : List AgentActivityEventRow := []
  erased : List AgentActivityEventRow := []
  /-- How often a prune of the session failed, or its count was lost with the process. -/
  forgotten : String → Nat := fun _ => 0

inductive ActivityMove where
  | subscribe (sessionId : String)
  | unsubscribe (sub : Nat)
  /-- The pump of an observer takes the next event. -/
  | take (sub : Nat)
  | emit (event : AgentActivityEvent)
  /-- The writer takes the next event, and the insert is committed or raises. -/
  | write
  | stored (ok : Bool)
  /-- The ids of the stale rows are read, or the query raises. -/
  | selected (orderBy : Option (Paging.OrderBy newestRow))
  | deleted (ok : Bool)
  /-- The rows of an account are deleted. -/
  | erase (userId : UserId)
  | restart

def isOf (sessionId : String) (row : AgentActivityEventRow) :
    Bool := decide (row.sessionId = sessionId)

def Subscription.put (event : AgentActivityEvent) (sub : Subscription) : Subscription :=
  if sub.subscribed && decide (sub.sessionId = event.sessionId) then
    { sub with
      queue := if sub.queue.length < subscriptionSize then sub.queue ++ [event] else sub.queue
      due := sub.due ++ [event] }
  else sub

def Subscription.get (sub : Subscription) : Subscription :=
  match sub.queue with
  | [] => sub
  | event :: queue => { sub with queue, taken := sub.taken ++ [event] }

namespace AgentActivityLog

/-- `emit`. `redact` gives nothing where it raises. -/
def emit (redact : Option Json → Option (Option Json)) (log : AgentActivityLog)
    (event : AgentActivityEvent) :
    AgentActivityLog :=
  match redact event.detail with
  | none => log
  | some detail =>
      let event := { event with detail }
      { log with
        subs := log.subs.map (Subscription.put event)
        writes := if log.writes.length < writesSize then log.writes ++ [event] else log.writes }

/-- `_persist`, after the commit. -/
def persisted (log : AgentActivityLog) (row : AgentActivityEventRow) : AgentActivityLog :=
  if pruneEvery ≤ log.sincePrune row.sessionId + 1 then
    { log with
      rows := log.rows ++ [row]
      stored := log.stored ++ [row]
      sincePrune := Function.update log.sincePrune row.sessionId 0
      writer := .pruning row.sessionId }
  else
    { log with
      rows := log.rows ++ [row]
      stored := log.stored ++ [row]
      sincePrune := Function.update log.sincePrune row.sessionId (log.sincePrune row.sessionId + 1)
      writer := .idle }

/-- The ids that `_prune` reads. -/
def stale (retention : Nat) (log : AgentActivityLog) (sessionId : String)
    (orderBy : Paging.OrderBy newestRow) :
    List String :=
  ((orderBy.arrange (log.rows.filter (isOf sessionId))).drop retention).map (·.id)

def giveUp (log : AgentActivityLog) (sessionId : String) : AgentActivityLog :=
  { log with
    writer := .idle
    forgotten := Function.update log.forgotten sessionId (log.forgotten sessionId + 1) }

/-- What `erase_subject` does to the table. -/
def eraseRows (log : AgentActivityLog) (userId : UserId) : AgentActivityLog :=
  { log with
    rows := log.rows.filter fun row => !decide (row.userId = userId)
    erased := (log.rows.filter fun row => decide (row.userId = userId)) ++ log.erased }

def step (redact : Option Json → Option (Option Json)) (retention : Nat) (log : AgentActivityLog) :
    ActivityMove → Option AgentActivityLog
  | .subscribe sessionId => some { log with subs := log.subs ++ [{ sessionId }] }
  | .unsubscribe sub =>
      some { log with subs := log.subs.modify sub fun sub => { sub with subscribed := false } }
  | .take sub => some { log with subs := log.subs.modify sub Subscription.get }
  | .emit event => some (log.emit redact event)
  | .write =>
      match log.writer, log.writes with
      | .idle, event :: writes => some { log with writes, writer := .storing event }
      | _, _ => none
  | .stored ok =>
      match log.writer with
      | .storing event =>
          if ok then
            if event.id ∈ log.rows.map (·.id) then none else some (log.persisted event.row)
          else some { log with writer := .idle }
      | _ => none
  | .selected orderBy =>
      match log.writer, orderBy with
      | .pruning sessionId, none => some (log.giveUp sessionId)
      | .pruning sessionId, some orderBy =>
          let stale := log.stale retention sessionId orderBy
          some { log with writer := if stale = [] then .idle else .deleting sessionId stale }
      | _, _ => none
  | .deleted ok =>
      match log.writer with
      | .deleting sessionId stale =>
          if ok then
            some { log with
              rows := log.rows.filter fun row => !decide (row.id ∈ stale)
              pruned := (log.rows.filter fun row => decide (row.id ∈ stale)) ++ log.pruned
              writer := .idle }
          else some (log.giveUp sessionId)
      | _ => none
  | .erase userId => some (log.eraseRows userId)
  | .restart =>
      some { log with
        subs := log.subs.map fun sub => { sub with subscribed := false }
        sincePrune := fun _ => 0
        writes := []
        writer := .idle
        forgotten := fun sessionId => log.forgotten sessionId + 1 }

/-! ### What is kept -/

def survivors (log : AgentActivityLog) : List AgentActivityEventRow :=
  match log.writer with
  | .deleting _ stale => log.rows.filter fun row => !decide (row.id ∈ stale)
  | _ => log.rows

def doomed (log : AgentActivityLog) : List AgentActivityEventRow :=
  match log.writer with
  | .deleting _ stale => log.rows.filter fun row => decide (row.id ∈ stale)
  | _ => []

/-- The inserts that the prune under way answers for. -/
def owed (log : AgentActivityLog) (sessionId : String) : Nat :=
  match log.writer with
  | .pruning s | .deleting s _ => if s = sessionId then pruneEvery else 0
  | _ => 0

structure Kept (retention : Nat) (log : AgentActivityLog) : Prop where
  ids : (log.rows.map (·.id)).Nodup
  all : (log.rows ++ (log.pruned ++ log.erased)).Perm log.stored
  covered : Covered retention (·.sessionId) (·.ts) (log.survivors ++ log.erased)
    (log.doomed ++ log.pruned)
  counted : ∀ sessionId, (log.rows.filter (isOf sessionId)).length
    ≤ retention + log.sincePrune sessionId + log.owed sessionId
      + pruneEvery * log.forgotten sessionId
  since : ∀ sessionId, log.sincePrune sessionId < pruneEvery
  begun : ∀ sessionId, log.owed sessionId = 0 ∨ log.sincePrune sessionId = 0
  cut : match log.writer with
    | .deleting sessionId _ => (log.survivors.filter (isOf sessionId)).length ≤ retention
    | _ => True

variable {redact : Option Json → Option (Option Json)} {retention : Nat}
  {log log' : AgentActivityLog}
  {sessionId : String}

theorem survivors_append_doomed (log : AgentActivityLog) :
    (log.survivors ++ log.doomed).Perm log.rows := by
  unfold survivors doomed
  cases log.writer with
  | deleting s stale =>
      refine List.perm_append_comm.trans ?_
      simpa using List.filter_append_perm (fun row => decide (row.id ∈ stale)) log.rows
  | idle | storing | pruning => exact List.Perm.of_eq (List.append_nil _)

theorem owed_le (log : AgentActivityLog) (sessionId : String) :
    log.owed sessionId ≤ pruneEvery := by
  unfold owed
  cases log.writer with
  | pruning s | deleting s =>
      dsimp only
      split
      · exact le_refl _
      · exact Nat.zero_le _
  | idle | storing => exact Nat.zero_le _

theorem length_filter_concat (rows : List AgentActivityEventRow) (row : AgentActivityEventRow)
    (sessionId : String) :
    ((rows ++ [row]).filter (isOf sessionId)).length
      = (rows.filter (isOf sessionId)).length + if row.sessionId = sessionId then 1 else 0 := by
  by_cases hsession : row.sessionId = sessionId <;> simp [isOf, hsession]

theorem kept_persisted {event : AgentActivityEvent} (h : Kept retention log)
    (hwriter : log.writer = .storing event)
    (hid : event.id ∉ log.rows.map (·.id)) : Kept retention (log.persisted event.row) := by
  have hids : ((log.rows ++ [event.row]).map (·.id)).Nodup := by
    rw [List.map_append, List.nodup_append]
    refine ⟨h.ids, by simp, ?_⟩
    intro x hx y hy heq
    rw [List.map_cons, List.map_nil, List.mem_singleton] at hy
    rw [heq, hy] at hx
    exact hid hx
  have hall : (log.rows ++ [event.row] ++ (log.pruned ++ log.erased)).Perm
      (log.stored ++ [event.row]) := by
    rw [List.append_assoc]
    refine (List.Perm.append_left _ List.perm_append_comm).trans ?_
    rw [← List.append_assoc]
    exact h.all.append_right _
  have hcovered : Covered retention (·.sessionId) (·.ts)
      (log.rows ++ [event.row] ++ log.erased) log.pruned := by
    have hold := h.covered
    simp only [survivors, doomed, hwriter, List.nil_append] at hold
    refine hold.mono fun p => ?_
    simp only [List.countP_append]
    omega
  have hcounted : ∀ sessionId, (log.rows.filter (isOf sessionId)).length
      ≤ retention + log.sincePrune sessionId + pruneEvery * log.forgotten sessionId := by
    intro sessionId
    have hold := h.counted sessionId
    simpa only [owed, hwriter, Nat.add_zero] using hold
  unfold persisted
  split
  · -- the hundredth insert since the last prune
    rename_i hfull
    refine ⟨hids, hall, hcovered, fun sessionId => ?_, fun sessionId => ?_, fun sessionId =>
      ?_, trivial⟩
    · have hle := hcounted sessionId
      have hlow := h.since event.row.sessionId
      rw [length_filter_concat]
      by_cases hsession : event.row.sessionId = sessionId
      · subst hsession
        simp only [owed, if_true, Function.update_self]
        omega
      · simp only [owed, hsession, if_false, Function.update_of_ne (Ne.symm hsession)]
        omega
    · by_cases hsession : sessionId = event.row.sessionId
      · simp [hsession, pruneEvery]
      · simp only [Function.update_of_ne hsession]
        exact h.since sessionId
    · by_cases hsession : sessionId = event.row.sessionId
      · exact Or.inr (by simp [hsession])
      · exact Or.inl (by simp [owed, Ne.symm hsession])
  · rename_i hroom
    refine ⟨hids, hall, hcovered, fun sessionId => ?_, fun sessionId => ?_, fun _ =>
      Or.inl rfl, trivial⟩
    · have hle := hcounted sessionId
      rw [length_filter_concat]
      by_cases hsession : event.row.sessionId = sessionId
      · subst hsession
        simp only [owed, if_true, Function.update_self]
        omega
      · simp only [owed, hsession, if_false, Function.update_of_ne (Ne.symm hsession)]
        omega
    · by_cases hsession : sessionId = event.row.sessionId
      · subst hsession
        simp only [Function.update_self]
        omega
      · simp only [Function.update_of_ne hsession]
        exact h.since sessionId

/-- What the writer is about to delete is still there. -/
theorem Kept.covered_rows (h : Kept retention log) :
    Covered retention (·.sessionId) (·.ts) (log.rows ++ log.erased) log.pruned := by
  intro row hrow
  have hle := h.covered row (List.mem_append_right _ hrow)
  have hrows := (survivors_append_doomed log).countP_eq (Retention.newer (·.sessionId) (·.ts) row)
  rw [List.countP_append] at hle hrows ⊢
  omega

theorem Kept.length_le (h : Kept retention log) (sessionId : String) :
    (log.rows.filter (isOf sessionId)).length ≤ retention + pruneEvery
      * (log.forgotten sessionId + 1) := by
  have hcounted := h.counted sessionId
  have howed := owed_le log sessionId
  have hsince := h.since sessionId
  rw [Nat.mul_add]
  rcases h.begun sessionId with hidle | hbegun <;> omega

theorem kept_giveUp (h : Kept retention log) (howed : log.owed sessionId = pruneEvery)
    (hother : ∀ s, s ≠ sessionId → log.owed s = 0) : Kept retention (log.giveUp sessionId) := by
  refine ⟨h.ids, h.all, h.covered_rows, fun s => ?_, h.since, fun _ => Or.inl rfl, trivial⟩
  have hle := h.counted s
  by_cases hs : s = sessionId
  · subst hs
    simp only [giveUp, owed, Function.update_self]
    rw [howed] at hle
    rw [Nat.mul_add]
    omega
  · simp only [giveUp, owed, Function.update_of_ne hs]
    rw [hother s hs] at hle
    exact hle

theorem filter_swap {p q : AgentActivityEventRow → Bool} (rows : List AgentActivityEventRow) :
    (rows.filter p).filter q = (rows.filter q).filter p := by
  rw [List.filter_filter, List.filter_filter]
  exact List.filter_congr fun row _ => Bool.and_comm _ _

theorem survivors_eraseRows (userId : UserId) :
    (log.eraseRows userId).survivors = log.survivors.filter fun row =>
      !decide (row.userId = userId) := by
  unfold survivors eraseRows
  cases log.writer with
  | deleting s stale => exact filter_swap _
  | idle | storing | pruning => rfl

theorem doomed_eraseRows (userId : UserId) :
    (log.eraseRows userId).doomed = log.doomed.filter fun row => !decide (row.userId = userId) := by
  unfold doomed eraseRows
  cases log.writer with
  | deleting s stale => exact filter_swap _
  | idle | storing | pruning => rfl

theorem survivors_sublist (log : AgentActivityLog) : log.survivors.Sublist log.rows := by
  unfold survivors
  cases log.writer with
  | deleting s stale => exact List.filter_sublist
  | idle | storing | pruning => exact List.Sublist.refl _

theorem kept_eraseRows (h : Kept retention log) (userId : UserId) :
    Kept retention (log.eraseRows userId) := by
  have hsplit : ∀ rows : List AgentActivityEventRow,
      ((rows.filter fun row => !decide (row.userId = userId)) ++ rows.filter fun row =>
        decide (row.userId = userId)).Perm rows := fun rows =>
    List.perm_append_comm.trans
      (List.filter_append_perm (fun row => decide (row.userId = userId)) rows)
  have hrows : (log.eraseRows userId).rows.Sublist log.rows := List.filter_sublist
  refine ⟨h.ids.sublist (hrows.map _), ?_, ?_, fun s => ?_, h.since, h.begun, ?_⟩
  · refine List.Perm.trans ?_ h.all
    refine List.Perm.trans ?_ ((hsplit log.rows).append_right _)
    rw [List.append_assoc]
    refine List.Perm.append_left _ ?_
    rw [← List.append_assoc]
    change (log.pruned ++ (_ ++ log.erased)).Perm _
    rw [← List.append_assoc]
    exact List.perm_append_comm.append_right _
  · rw [survivors_eraseRows, doomed_eraseRows]
    intro row hrow
    have hdropped : row ∈ log.doomed ++ log.pruned := by
      rcases List.mem_append.mp hrow with hdoomed | hpruned
      · exact List.mem_append_left _ (List.mem_filter.mp hdoomed).1
      · exact List.mem_append_right _ hpruned
    have hle := h.covered row hdropped
    have hparts := (hsplit log.survivors).countP_eq (Retention.newer (·.sessionId) (·.ts) row)
    have hgone := ((survivors_sublist log).filter fun row => decide (row.userId = userId)).countP_le
      (p := Retention.newer (·.sessionId) (·.ts) row)
    rw [List.countP_append] at hle hparts ⊢
    simp only [eraseRows, List.countP_append]
    omega
  · exact ((hrows.filter (isOf s)).length_le).trans (h.counted s)
  · have hcut := h.cut
    rw [survivors_eraseRows]
    change match log.writer with
      | .deleting sessionId _ => _
      | _ => True
    cases hwriter : log.writer with
    | deleting s stale =>
        rw [hwriter] at hcut
        exact (List.filter_sublist.filter (isOf s)).length_le.trans hcut
    | idle | storing | pruning => trivial

section Selected

variable (h : Kept retention log) (orderBy : Paging.OrderBy newestRow)

include h

theorem nodup_ids : ((orderBy.arrange (log.rows.filter (isOf sessionId))).map (·.id)).Nodup :=
  ((orderBy.listing _).perm.map _).nodup_iff.mpr (h.ids.sublist (List.filter_sublist.map _))

/-- The ids are of rows of the session. -/
theorem not_mem_stale {row : AgentActivityEventRow} (hrow : row ∈ log.rows)
    (hother : row.sessionId ≠ sessionId) :
    row.id ∉ log.stale retention sessionId orderBy := by
  intro hmem
  obtain ⟨row', hrow', hid⟩ := List.mem_map.mp hmem
  have hlisted := (orderBy.listing _).perm.mem_iff.mp (List.mem_of_mem_drop hrow')
  obtain ⟨hstored, hsession⟩ := List.mem_filter.mp hlisted
  have hsame : row' = row := List.inj_on_of_nodup_map h.ids hstored hrow hid
  exact hother (hsame ▸ of_decide_eq_true hsession)

theorem perm_take (retention : Nat) (sessionId : String) :
    ((log.rows.filter fun row => !decide (row.id ∈ log.stale retention sessionId orderBy)).filter
      (isOf sessionId)).Perm ((orderBy.arrange (log.rows.filter (isOf sessionId))).take
        retention) := by
  rw [filter_swap, ← Retention.filter_not_mem_drop (nodup_ids h orderBy) retention]
  exact ((orderBy.listing _).perm.symm.filter _)

end Selected

theorem kept_selected (h : Kept retention log) (hwriter : log.writer = .pruning sessionId)
    (orderBy : Paging.OrderBy newestRow) :
    Kept retention { log with
      writer := if log.stale retention sessionId orderBy = [] then .idle
        else .deleting sessionId (log.stale retention sessionId orderBy) } := by
  have hsurvivors : log.survivors = log.rows := by simp [survivors, hwriter]
  have hdoomed : log.doomed = [] := by simp [doomed, hwriter]
  have howed : ∀ s, log.owed s = if sessionId = s then pruneEvery else 0 := fun s => by
    simp [owed, hwriter]
  have hcovered := h.covered
  rw [hsurvivors, hdoomed, List.nil_append] at hcovered
  have hlisting := orderBy.listing (log.rows.filter (isOf sessionId))
  split
  · rename_i hnone
    rw [stale, List.map_eq_nil_iff, List.drop_eq_nil_iff, hlisting.perm.length_eq] at hnone
    refine ⟨h.ids, h.all, hcovered, fun s => ?_, h.since, fun _ => Or.inl rfl, trivial⟩
    by_cases hs : sessionId = s
    · subst hs
      exact hnone.trans (by simp only [owed]; omega)
    · have hle := h.counted s
      rwa [howed, if_neg hs] at hle
  · have hcut := perm_take h orderBy retention sessionId
    refine ⟨h.ids, h.all, ?_, fun s => ?_, h.since, fun s => ?_, ?_⟩
    · have htrim := hcovered.trim hlisting.perm (hlisting.sorted.imp fun hle => hle) hcut
        fun row hrow hother => by simpa using not_mem_stale h orderBy hrow hother
      simpa [survivors, doomed] using htrim
    · have hle := h.counted s
      rwa [howed] at hle
    · have hbegun := h.begun s
      rwa [howed] at hbegun
    · exact hcut.length_eq.trans_le (List.length_take_le _ _)

theorem kept_deleted {stale : List String} (h : Kept retention log)
    (hwriter : log.writer = .deleting sessionId stale) :
    Kept retention { log with
      rows := log.rows.filter fun row => !decide (row.id ∈ stale)
      pruned := (log.rows.filter fun row => decide (row.id ∈ stale)) ++ log.pruned
      writer := .idle } := by
  have hsurvivors : log.survivors = log.rows.filter fun row => !decide (row.id ∈ stale) := by
    simp [survivors, hwriter]
  have hdoomed : log.doomed = log.rows.filter fun row => decide (row.id ∈ stale) := by
    simp [doomed, hwriter]
  have hsub := survivors_sublist log
  have hcovered := h.covered
  have hcut := h.cut
  rw [hwriter] at hcut
  dsimp only at hcut
  have hsplit := survivors_append_doomed log
  rw [hsurvivors] at hsub hcovered hcut hsplit
  rw [hdoomed] at hcovered hsplit
  refine ⟨h.ids.sublist (hsub.map _), ?_, hcovered, fun s => ?_, h.since, fun _ =>
    Or.inl rfl, trivial⟩
  · refine List.Perm.trans ?_ h.all
    refine List.Perm.trans ?_ (hsplit.append_right _)
    simp only [List.append_assoc]
    exact List.Perm.refl _
  · by_cases hs : sessionId = s
    · subst hs
      exact hcut.trans (by simp only [owed]; omega)
    · have hle := h.counted s
      have hlength := (hsub.filter (isOf s)).length_le
      simp only [owed, hwriter, hs, if_false] at hle ⊢
      omega

theorem kept_step {move : ActivityMove} (h : Kept retention log)
    (hstep : step redact retention log move = some log') :
    Kept retention log' := by
  cases move with
  | subscribe | unsubscribe | take =>
      cases hstep
      exact ⟨h.ids, h.all, h.covered, h.counted, h.since, h.begun, h.cut⟩
  | emit event =>
      cases hstep
      unfold emit
      split
      · exact h
      · exact ⟨h.ids, h.all, h.covered, h.counted, h.since, h.begun, h.cut⟩
  | write =>
      simp only [step] at hstep
      split at hstep
      · rename_i hwriter hwrites
        cases hstep
        have hcovered := h.covered
        have hcounted := h.counted
        simp only [survivors, doomed, owed, hwriter] at hcovered hcounted
        exact ⟨h.ids, h.all, hcovered, hcounted, h.since, fun _ => Or.inl rfl, trivial⟩
      · cases hstep
  | stored ok =>
      simp only [step] at hstep
      split at hstep
      · rename_i event hwriter
        split at hstep
        · split at hstep
          · cases hstep
          · rename_i hid
            cases hstep
            exact kept_persisted h hwriter hid
        · cases hstep
          have hcovered := h.covered
          have hcounted := h.counted
          simp only [survivors, doomed, owed, hwriter] at hcovered hcounted
          exact ⟨h.ids, h.all, hcovered, hcounted, h.since, fun _ => Or.inl rfl, trivial⟩
      · cases hstep
  | selected orderBy =>
      simp only [step] at hstep
      split at hstep
      · rename_i s hwriter
        cases hstep
        exact kept_giveUp h (by simp [owed, hwriter]) fun s hs => by
          simp [owed, hwriter, Ne.symm hs]
      · rename_i s orderBy hwriter
        cases hstep
        exact kept_selected h hwriter orderBy
      · cases hstep
  | deleted ok =>
      simp only [step] at hstep
      split at hstep
      · rename_i s stale hwriter
        split at hstep
        · cases hstep
          exact kept_deleted h hwriter
        · cases hstep
          exact kept_giveUp h (by simp [owed, hwriter]) fun s hs => by
            simp [owed, hwriter, Ne.symm hs]
      · cases hstep
  | erase userId =>
      cases hstep
      exact kept_eraseRows h userId
  | restart =>
      cases hstep
      exact ⟨h.ids, h.all, h.covered_rows, h.length_le, fun _ => by
        simp [pruneEvery], fun _ => Or.inl rfl, trivial⟩

/-- **Retention.** Whatever the order of the moves, a session has at most `retention` rows and a
hundred more for each time its count or a prune was lost, and once. Every row that was stored and is
gone was erased with its account or has at least `retention` rows of its session that are no older
and were not pruned. -/
theorem always_retained (redact : Option Json → Option (Option Json)) (retention : Nat) :
    Runs.Always (step redact retention) {} fun log =>
      (∀ sessionId, (log.rows.filter (isOf sessionId)).length
        ≤ retention + pruneEvery * (log.forgotten sessionId + 1))
      ∧ (log.rows ++ (log.pruned ++ log.erased)).Perm log.stored
      ∧ ∀ row ∈ log.pruned, retention ≤ (log.rows ++ log.erased).countP fun other =>
          decide (other.sessionId = row.sessionId) && decide (row.ts ≤ other.ts) := by
  refine Runs.always_of_invariant (I := Kept retention) (fun _ _ _ h hstep => kept_step h hstep) ?_
    fun log h => ⟨h.length_le, h.all, h.covered_rows⟩
  exact ⟨List.nodup_nil, List.Perm.nil, Retention.covered_nil, fun _ => Nat.zero_le _,
    fun _ => by simp [pruneEvery], fun _ => Or.inl rfl, trivial⟩

end AgentActivityLog

/-! ### The observers -/

/-- What an observer was given, and what waits for it. -/
structure Subscription.Faithful (sub : Subscription) : Prop where
  sublist : (sub.taken ++ sub.queue).Sublist sub.due
  room : sub.queue.length ≤ subscriptionSize
  first : (sub.taken ++ sub.queue).take subscriptionSize = sub.due.take subscriptionSize

/-- What `redact` let through. -/
def Redacted (redact : Option Json → Option (Option Json)) (detail : Option Json) : Prop :=
  ∃ given, redact given = some detail

variable {redact : Option Json → Option (Option Json)} {retention : Nat}
  {log log' : AgentActivityLog}
  {sub : Subscription} {event : AgentActivityEvent}

namespace Subscription

theorem Faithful.put (h : sub.Faithful) (event : AgentActivityEvent) :
    (sub.put event).Faithful := by
  have hlength := h.sublist.length_le
  unfold Subscription.put
  split
  · by_cases hroom : sub.queue.length < subscriptionSize
    · simp only [hroom, if_true]
      refine ⟨?_, by simpa [Nat.succ_le_iff] using hroom, ?_⟩
      · rw [← List.append_assoc]
        exact h.sublist.append (List.Sublist.refl _)
      · rw [← List.append_assoc]
        dsimp only
        by_cases hfull : subscriptionSize ≤ (sub.taken ++ sub.queue).length
        · rw [List.take_append_of_le_length hfull,
            List.take_append_of_le_length (hfull.trans hlength), h.first]
        · -- as long as it was given less, it was given everything
          have hfirst := congrArg List.length h.first
          rw [List.length_take, List.length_take] at hfirst
          have hall : sub.taken ++ sub.queue = sub.due := h.sublist.eq_of_length (by omega)
          rw [hall]
    · simp only [hroom, if_false]
      have hfull : subscriptionSize ≤ (sub.taken ++ sub.queue).length := by
        rw [List.length_append]
        omega
      refine ⟨h.sublist.trans (List.sublist_append_left _ _), h.room, ?_⟩
      rw [List.take_append_of_le_length (hfull.trans hlength), h.first]
  · exact h

theorem Faithful.get (h : sub.Faithful) : sub.get.Faithful := by
  unfold Subscription.get
  split
  · exact h
  · rename_i event queue hqueue
    have hsublist := h.sublist
    have hroom := h.room
    have hfirst := h.first
    rw [hqueue] at hsublist hroom hfirst
    refine ⟨?_, Nat.le_of_succ_le hroom, ?_⟩
    · rwa [List.append_assoc, List.singleton_append]
    · rwa [List.append_assoc, List.singleton_append]

end Subscription

namespace AgentActivityLog

/-- An event of the session, as `redact` left it. -/
def Due (redact : Option Json → Option (Option Json)) (sub : Subscription) : Prop :=
  ∀ event ∈ sub.due, event.sessionId = sub.sessionId ∧ Redacted redact event.detail

structure Observed (redact : Option Json → Option (Option Json))
    (log : AgentActivityLog) : Prop where
  subs : ∀ sub ∈ log.subs, sub.Faithful ∧ Due redact sub
  writes : ∀ event ∈ log.writes, Redacted redact event.detail
  writer : match log.writer with
    | .storing event => Redacted redact event.detail
    | _ => True
  stored : ∀ row ∈ log.stored, Redacted redact row.detail

end AgentActivityLog

end OnlinetLabs.Observability
