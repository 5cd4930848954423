import OnlinetLabs.Lib.Dict
import OnlinetLabs.Lib.Table

/-!
# The registry of session monitors

`SessionMonitorRegistry` under every interleaving of its calls at their awaits. A call runs from one
await to the next without a break, and every await inside `start` may fail. Two overlapping starts
both get past the membership test, and a stop inside a start finds nothing to stop, so what the
calls owe their callers holds of the runs in which no start registers late.
-/

namespace OnlinetLabs.Sessions

open Interleaving

variable {Sid : Type} [DecidableEq Sid]

/-- `running` from the creation of the tasks until something tells them to stop. -/
inductive WorkerStatus where
  | running
  | stopping
  | ended
deriving Repr, DecidableEq

structure Worker (Sid : Type) where
  sessionId : Sid
  status : WorkerStatus
deriving Repr, DecidableEq

/-- One of the registry's two dictionaries, with every object that was ever put into it. -/
structure Roster (Sid : Type) where
  entries : Dict Sid Nat := {}
  workers : Table (Worker Sid) := {}

namespace Roster

variable {r : Roster Sid} {sid sid' : Sid} {id id' : Nat}

def runs (r : Roster Sid) (sid : Sid) (id : Nat) : Bool :=
  (r.workers.get? id).any fun w => w.sessionId = sid && w.status = .running

def occupied (r : Roster Sid) (sid : Sid) : Bool :=
  (r.entries.get? sid).any (r.runs sid)

def register (r : Roster Sid) (sid : Sid) : Roster Sid where
  entries := r.entries.set sid r.workers.size
  workers := r.workers.insert ⟨sid, .running⟩

def become (r : Roster Sid) (id : Nat) (status : WorkerStatus) : Roster Sid :=
  match r.workers.get? id with
  | none => r
  | some w => { r with workers := r.workers.set id { w with status := status } }

/-- Takes the session's entry out and tells its worker to stop. Gives the worker its caller waits
for. -/
def pop (r : Roster Sid) (sid : Sid) : Roster Sid × Option Nat :=
  match r.entries.get? sid with
  | none => (r, none)
  | some id =>
      let r := { r with entries := r.entries.erase sid }
      if (r.workers.get? id).any (·.status = .running) then (r.become id .stopping, some id)
      else (r, none)

/-- Every worker that runs is registered, so that a `stop` finds it. -/
def Tracked (r : Roster Sid) : Prop :=
  ∀ sid id, r.runs sid id = true → r.entries.get? sid = some id

def Idle (r : Roster Sid) (sid : Sid) : Prop := ∀ id, r.runs sid id = false

theorem runs_iff : r.runs sid id = true ↔ r.workers.get? id = some ⟨sid, .running⟩ := by
  unfold runs
  cases hw : r.workers.get? id with
  | none => simp
  | some w =>
      obtain ⟨owner, status⟩ := w
      simp

theorem runs_register : (r.register sid).runs sid' id = true ↔
    r.runs sid' id = true ∨ (id = r.workers.size ∧ sid' = sid) := by
  rw [runs_iff, runs_iff, register, Table.get?_insert]
  by_cases hid : id = r.workers.size
  · have hnone : r.workers.get? id = none := by
      apply Option.eq_none_iff_forall_ne_some.mpr
      intro w hw
      have := Table.lt_size_of_get? hw
      omega
    rw [if_pos hid, hnone]
    simp [hid, eq_comm]
  · simp [hid]

theorem runs_become {status : WorkerStatus} (hstatus : status ≠ .running) :
    (r.become id status).runs sid' id' = true ↔ r.runs sid' id' = true ∧ id' ≠ id := by
  unfold become
  split
  · rename_i hnone
    constructor
    · intro h
      refine ⟨h, ?_⟩
      rintro rfl
      rw [runs_iff, hnone] at h
      cases h
    · exact fun h => h.1
  · rename_i w hw
    rw [runs_iff, runs_iff, Table.get?_set hw]
    by_cases hid : id' = id
    · simp [hid, hstatus]
    · simp [hid]

omit [DecidableEq Sid] in
theorem entries_become {status : WorkerStatus} : (r.become id status).entries = r.entries := by
  unfold become
  split <;> rfl

theorem Idle.mono {r' : Roster Sid} (h : r.Idle sid)
    (hle : ∀ sid id, r'.runs sid id = true → r.runs sid id = true) : r'.Idle sid := by
  intro id
  by_contra hruns
  have := hle sid id (by simpa using hruns)
  rw [h id] at this
  cases this

theorem Idle.register (h : r.Idle sid') (hne : sid' ≠ sid) : (r.register sid).Idle sid' := by
  intro id
  by_contra hruns
  rcases runs_register.mp (by simpa using hruns) with hold | ⟨-, heq⟩
  · rw [h id] at hold
    cases hold
  · exact hne heq

theorem runs_register_new : (r.register sid).runs sid r.workers.size = true :=
  runs_register.mpr (Or.inr ⟨rfl, rfl⟩)

theorem two_run_of_occupied (h : r.occupied sid = true) :
    ∃ id, id ≠ r.workers.size ∧ (r.register sid).runs sid id = true := by
  obtain ⟨id, -, hrun⟩ := (Option.any_eq_true _ _).mp h
  have hlt := Table.lt_size_of_get? (runs_iff.mp hrun)
  exact ⟨id, Nat.ne_of_lt hlt, runs_register.mpr (Or.inl hrun)⟩

theorem Tracked.become {status : WorkerStatus} (h : r.Tracked) (hstatus : status ≠ .running) :
    (r.become id status).Tracked := by
  intro sid' id' hruns
  rw [entries_become]
  exact h sid' id' ((runs_become hstatus).mp hruns).1

/-- Registering over nothing that runs keeps every worker within reach. -/
theorem Tracked.register (h : r.Tracked) (hfree : r.occupied sid = false) :
    (r.register sid).Tracked := by
  intro sid' id' hruns
  change (r.entries.set sid r.workers.size).get? sid' = some id'
  rw [Dict.get?_set]
  rcases runs_register.mp hruns with hold | ⟨rfl, rfl⟩
  · have hentry := h sid' id' hold
    rw [if_neg, hentry]
    rintro rfl
    rw [occupied, hentry, Option.any_some, hold] at hfree
    cases hfree
  · rw [if_pos rfl]

/-- Taking a session's entry out with the worker it names. -/
theorem Tracked.without {r' : Roster Sid} (h : r.Tracked) (hentry : r.entries.get? sid = some id)
    (hentries : r'.entries = r.entries.erase sid)
    (hruns : ∀ sid' id', r'.runs sid' id' = true → r.runs sid' id' = true ∧ id' ≠ id) :
    r'.Tracked ∧ r'.Idle sid := by
  have hother : ∀ sid' id', r'.runs sid' id' = true → sid' ≠ sid := by
    rintro sid' id' hrun rfl
    obtain ⟨hold, hne⟩ := hruns sid' id' hrun
    have hnamed := h sid' id' hold
    rw [hentry, Option.some.injEq] at hnamed
    exact hne hnamed.symm
  constructor
  · intro sid' id' hrun
    rw [hentries, Dict.get?_erase, if_neg (hother sid' id' hrun)]
    exact h sid' id' (hruns sid' id' hrun).1
  · intro id'
    by_contra hrun
    exact hother sid id' (by simpa using hrun) rfl

theorem runs_of_pop (hrun : (r.pop sid).1.runs sid' id' = true) : r.runs sid' id' = true := by
  unfold pop at hrun
  split at hrun
  · exact hrun
  · dsimp only at hrun
    split at hrun
    · exact ((runs_become (by decide)).mp hrun).1
    · exact hrun

/-- After a `pop` nothing of the session runs, and what runs is within reach as before. -/
theorem Tracked.pop (sid : Sid) (h : r.Tracked) :
    (r.pop sid).1.Tracked ∧ (r.pop sid).1.Idle sid := by
  unfold Roster.pop
  split
  · rename_i hnone
    refine ⟨h, fun id => ?_⟩
    by_contra hrun
    have hentry := h sid id (by simpa using hrun)
    rw [hnone] at hentry
    cases hentry
  · rename_i id hentry
    dsimp only
    split
    · apply h.without hentry entries_become
      intro sid' id' hrun
      have hpair := (runs_become (by decide)).mp hrun
      exact hpair
    · rename_i hended
      apply h.without hentry rfl
      intro sid' id' hrun
      refine ⟨hrun, ?_⟩
      rintro rfl
      rw [runs_iff.mp hrun] at hended
      exact hended rfl

end Roster

structure Registry (Sid : Type) where
  monitors : Roster Sid := {}
  observers : Roster Sid := {}
  /-- The sessions of which a `stop` has returned and no `start` was called since. -/
  stopped : List Sid := []

inductive RegistryCall (Sid : Type) where
  | start (sid : Sid)
  | stop (sid : Sid)
  | stopAll
deriving Repr, DecidableEq

/-- What an await gives. The row read by `start` has a `gns3_service_session_id` or not. -/
inductive Awaited where
  | failed
  | ok (gns3Sid : Option String)
deriving Repr, DecidableEq

/-- Where a call stands. A `stop` inside `stop_all` carries the sessions that come after it. -/
inductive RegistryPc (Sid : Type) where
  | called (call : RegistryCall Sid)
  | startRow (sid : Sid)
  | startArm (sid : Sid)
  | startSession (sid : Sid)
  | startUndo (observer : Nat)
  | stopMonitor (sid : Sid) (monitor : Nat) (rest : Option (List Sid))
  | stopObserver (sid : Sid) (observer : Nat) (rest : Option (List Sid))
  | stopAllObserver (observer : Nat) (rest : List Sid)
  | returned
  | raised
deriving Repr, DecidableEq

namespace Registry

variable {s s' : Registry Sid} {sid sid' : Sid} {id : Nat}

/-- The handler of `start`, up to its raise or its own await. -/
def undoStart (s : Registry Sid) (sid : Sid) : Registry Sid × RegistryPc Sid :=
  match s.observers.pop sid with
  | (observers, none) => ({ s with observers := observers }, .raised)
  | (observers, some o) => ({ s with observers := observers }, .startUndo o)

/-- The second half of `stop`. `none` means that it has returned. -/
def stopObserver (s : Registry Sid) (sid : Sid) (rest : Option (List Sid)) :
    Registry Sid × Option (RegistryPc Sid) :=
  match s.observers.pop sid with
  | (observers, none) => ({ s with observers := observers, stopped := sid :: s.stopped }, none)
  | (observers, some o) => ({ s with observers := observers }, some (.stopObserver sid o rest))

def stop (s : Registry Sid) (sid : Sid) (rest : Option (List Sid)) :
    Registry Sid × Option (RegistryPc Sid) :=
  match s.monitors.pop sid with
  | (monitors, none) => ({ s with monitors := monitors }).stopObserver sid rest
  | (monitors, some m) => ({ s with monitors := monitors }, some (.stopMonitor sid m rest))

def stopObservers (s : Registry Sid) : List Sid → Registry Sid × RegistryPc Sid
  | [] => (s, .returned)
  | sid :: rest =>
      match s.observers.pop sid with
      | (observers, none) => stopObservers { s with observers := observers } rest
      | (observers, some o) => ({ s with observers := observers }, .stopAllObserver o rest)

def stopMonitors (s : Registry Sid) : List Sid → Registry Sid × RegistryPc Sid
  | [] => s.stopObservers s.observers.entries.keys
  | sid :: rest =>
      match s.stop sid (some rest) with
      | (s, none) => stopMonitors s rest
      | (s, some pc) => (s, pc)

/-- Goes on after a `stop`: its caller does, if it is `stop_all`. -/
def resume (rest : Option (List Sid)) : Registry Sid × Option (RegistryPc Sid) →
    Registry Sid × RegistryPc Sid
  | (s, some pc) => (s, pc)
  | (s, none) =>
      match rest with
      | none => (s, .returned)
      | some rest => s.stopMonitors rest

def step (gns3Client : Bool) (s : Registry Sid) : RegistryPc Sid → Awaited →
    Option (Registry Sid × RegistryPc Sid)
  | .called (.start sid), _ =>
      let s := { s with stopped := s.stopped.filter (· ≠ sid) }
      if (s.monitors.entries.get? sid).isSome then some (s, .returned)
      else if gns3Client then some (s, .startRow sid)
      else some (s, .startArm sid)
  | .called (.stop sid), _ => some (resume none (s.stop sid none))
  | .called .stopAll, _ => some (s.stopMonitors s.monitors.entries.keys)
  | .startRow sid, .ok (some gns3Sid) =>
      if gns3Sid = "" then some (s, .startArm sid)
      else some ({ s with observers := s.observers.register sid }, .startArm sid)
  | .startRow sid, _ => some (s, .startArm sid)
  | .startArm sid, .failed => some (s.undoStart sid)
  | .startArm sid, .ok _ => some (s, .startSession sid)
  | .startSession sid, .failed => some (s.undoStart sid)
  | .startSession sid, .ok _ => some ({ s with monitors := s.monitors.register sid }, .returned)
  | .startUndo o, _ => some ({ s with observers := s.observers.become o .ended }, .raised)
  | .stopMonitor sid m rest, _ =>
      some (resume rest (({ s with monitors := s.monitors.become m .ended }).stopObserver sid rest))
  | .stopObserver sid o rest, _ =>
      some (resume rest
        ({ s with observers := s.observers.become o .ended, stopped := sid :: s.stopped }, none))
  | .stopAllObserver o rest, _ =>
      some (({ s with observers := s.observers.become o .ended }).stopObservers rest)
  | .returned, _ | .raised, _ => none

/-- An observer that still polls when its session reaches the maximal duration ends by itself. -/
def expire (s : Registry Sid) (o : Nat) : Option (Registry Sid) :=
  if (s.observers.workers.get? o).any (·.status = .running) then
    some { s with observers := s.observers.become o .ended }
  else none

/-- What the registry owes its callers. -/
structure Safe (s : Registry Sid) : Prop where
  oneMonitor : ∀ sid m m', s.monitors.runs sid m = true → s.monitors.runs sid m' = true → m = m'
  oneObserver : ∀ sid o o', s.observers.runs sid o = true → s.observers.runs sid o' = true → o = o'
  monitorReachable : ∀ sid m, s.monitors.runs sid m = true → s.monitors.entries.get? sid = some m
  observerReachable : ∀ sid o, s.observers.runs sid o = true → s.observers.entries.get? sid = some o
  quietWhenStopped : ∀ sid ∈ s.stopped, s.monitors.Idle sid ∧ s.observers.Idle sid

theorem Safe.of_tracked (hmonitors : s.monitors.Tracked) (hobservers : s.observers.Tracked)
    (hstopped : ∀ sid ∈ s.stopped, s.monitors.Idle sid ∧ s.observers.Idle sid) : s.Safe where
  oneMonitor sid m m' hm hm' := by
    have hentry := hmonitors sid m hm
    rw [hmonitors sid m' hm', Option.some.injEq] at hentry
    exact hentry.symm
  oneObserver sid o o' ho ho' := by
    have hentry := hobservers sid o ho
    rw [hobservers sid o' ho', Option.some.injEq] at hentry
    exact hentry.symm
  monitorReachable := hmonitors
  observerReachable := hobservers
  quietWhenStopped := hstopped

structure Calms (s s' : Registry Sid) : Prop where
  safe : s'.Safe
  monitors : ∀ sid id, s'.monitors.runs sid id = true → s.monitors.runs sid id = true
  observers : ∀ sid id, s'.observers.runs sid id = true → s.observers.runs sid id = true

theorem Calms.refl (h : s.Safe) : s.Calms s := ⟨h, fun _ _ h => h, fun _ _ h => h⟩

theorem Calms.trans {s'' : Registry Sid} (h : s.Calms s') (h' : s'.Calms s'') : s.Calms s'' where
  safe := h'.safe
  monitors sid id hrun := h.monitors sid id (h'.monitors sid id hrun)
  observers sid id hrun := h.observers sid id (h'.observers sid id hrun)

theorem Safe.calms_monitors {r : Roster Sid} (h : s.Safe) (htracked : r.Tracked)
    (hruns : ∀ sid id, r.runs sid id = true → s.monitors.runs sid id = true) :
    s.Calms { s with monitors := r } where
  safe := by
    apply Safe.of_tracked
    · exact htracked
    · exact h.observerReachable
    · intro sid hsid
      obtain ⟨hm, ho⟩ := h.quietWhenStopped sid hsid
      exact ⟨hm.mono hruns, ho⟩
  monitors := hruns
  observers _ _ hrun := hrun

theorem Safe.calms_observers {r : Roster Sid} (h : s.Safe) (htracked : r.Tracked)
    (hruns : ∀ sid id, r.runs sid id = true → s.observers.runs sid id = true) :
    s.Calms { s with observers := r } where
  safe := by
    apply Safe.of_tracked
    · exact h.monitorReachable
    · exact htracked
    · intro sid hsid
      obtain ⟨hm, ho⟩ := h.quietWhenStopped sid hsid
      exact ⟨hm, ho.mono hruns⟩
  monitors _ _ hrun := hrun
  observers := hruns

theorem Safe.stopped {stopped : List Sid} (h : s.Safe)
    (hstopped : ∀ sid ∈ stopped, sid ∈ s.stopped ∨ s.monitors.Idle sid ∧ s.observers.Idle sid) :
    s.Calms { s with stopped := stopped } where
  safe := by
    apply Safe.of_tracked
    · exact h.monitorReachable
    · exact h.observerReachable
    · intro sid hsid
      rcases hstopped sid hsid with hold | hidle
      · exact h.quietWhenStopped sid hold
      · exact hidle
  monitors _ _ hrun := hrun
  observers _ _ hrun := hrun

end Registry

/-- What a call relies on at its await: a `stop` has nothing left to find behind it. -/
def RegistryPc.Quiet (s : Registry Sid) : RegistryPc Sid → Prop
  | .stopMonitor sid _ _ => s.monitors.Idle sid
  | .stopObserver sid _ _ => s.monitors.Idle sid ∧ s.observers.Idle sid
  | _ => True

namespace Registry

variable {s s' : Registry Sid} {sid : Sid} {id : Nat} {rest : Option (List Sid)} {sids : List Sid}

theorem Safe.pop_observer (sid : Sid) (h : s.Safe) :
    s.Calms { s with observers := (s.observers.pop sid).1 } :=
  h.calms_observers (Roster.Tracked.pop sid h.observerReachable).1 fun _ _ => Roster.runs_of_pop

theorem Safe.pop_monitor (sid : Sid) (h : s.Safe) :
    s.Calms { s with monitors := (s.monitors.pop sid).1 } :=
  h.calms_monitors (Roster.Tracked.pop sid h.monitorReachable).1 fun _ _ => Roster.runs_of_pop

theorem Safe.end_observer {o : Nat} (h : s.Safe) :
    s.Calms { s with observers := s.observers.become o .ended } := by
  apply h.calms_observers (Roster.Tracked.become h.observerReachable (by decide))
  exact fun sid id hrun => ((Roster.runs_become (by decide)).mp hrun).1

theorem Safe.end_monitor {m : Nat} (h : s.Safe) :
    s.Calms { s with monitors := s.monitors.become m .ended } := by
  apply h.calms_monitors (Roster.Tracked.become h.monitorReachable (by decide))
  exact fun sid id hrun => ((Roster.runs_become (by decide)).mp hrun).1

def Settles (s : Registry Sid) (r : Registry Sid × RegistryPc Sid) : Prop :=
  s.Calms r.1 ∧ r.2.Quiet r.1

theorem Settles.result {r : Registry Sid × RegistryPc Sid} {pc : RegistryPc Sid} (hr : s.Settles r)
    (h : some r = some (s', pc)) : s.Settles (s', pc) := by
  rw [Option.some.injEq] at h
  exact h ▸ hr

theorem undoStart_settles (h : s.Safe) : s.Settles (s.undoStart sid) := by
  have hcalms := h.pop_observer sid
  unfold undoStart
  split <;> rename_i hpop <;> rw [hpop] at hcalms <;> exact ⟨hcalms, trivial⟩

theorem stopObserver_calms (rest : Option (List Sid)) (h : s.Safe) (hidle : s.monitors.Idle sid) :
    s.Calms (s.stopObserver sid rest).1
      ∧ ∀ pc, (s.stopObserver sid rest).2 = some pc → pc.Quiet (s.stopObserver sid rest).1 := by
  have hcalms := h.pop_observer sid
  have hpopped := (Roster.Tracked.pop sid h.observerReachable).2
  unfold stopObserver
  split <;> rename_i hpop <;> rw [hpop] at hcalms hpopped
  · constructor
    · apply hcalms.trans
      apply hcalms.safe.stopped
      intro sid' hsid'
      rcases List.mem_cons.mp hsid' with rfl | hold
      · exact Or.inr ⟨hidle, hpopped⟩
      · exact Or.inl hold
    · intro pc hpc
      cases hpc
  · refine ⟨hcalms, ?_⟩
    intro pc hpc
    cases hpc
    exact ⟨hidle, hpopped⟩

theorem stop_calms (sid : Sid) (rest : Option (List Sid)) (h : s.Safe) : s.Calms (s.stop sid rest).1
    ∧ ∀ pc, (s.stop sid rest).2 = some pc → pc.Quiet (s.stop sid rest).1 := by
  have hcalms := h.pop_monitor sid
  have hpopped := (Roster.Tracked.pop sid h.monitorReachable).2
  unfold stop
  split <;> rename_i hpop <;> rw [hpop] at hcalms hpopped
  · obtain ⟨hrest, hquiet⟩ := stopObserver_calms rest hcalms.safe hpopped
    exact ⟨hcalms.trans hrest, hquiet⟩
  · refine ⟨hcalms, ?_⟩
    intro pc hpc
    cases hpc
    exact hpopped

theorem stopObservers_settles (sids : List Sid) (h : s.Safe) :
    s.Settles (s.stopObservers sids) := by
  induction sids generalizing s with
  | nil => exact ⟨Calms.refl h, trivial⟩
  | cons sid sids ih =>
      have hcalms := h.pop_observer sid
      simp only [stopObservers]
      split <;> rename_i hpop <;> rw [hpop] at hcalms
      · obtain ⟨hrest, hquiet⟩ := ih hcalms.safe
        exact ⟨hcalms.trans hrest, hquiet⟩
      · exact ⟨hcalms, trivial⟩

theorem stopMonitors_settles (sids : List Sid) (h : s.Safe) : s.Settles (s.stopMonitors sids) := by
  induction sids generalizing s with
  | nil => exact stopObservers_settles _ h
  | cons sid sids ih =>
      obtain ⟨hcalms, hquiet⟩ := stop_calms sid (some sids) h
      simp only [stopMonitors]
      split <;> rename_i hstop <;> rw [hstop] at hcalms hquiet
      · obtain ⟨hrest, hquiet'⟩ := ih hcalms.safe
        exact ⟨hcalms.trans hrest, hquiet'⟩
      · exact ⟨hcalms, hquiet _ rfl⟩

theorem resume_settles {r : Registry Sid × Option (RegistryPc Sid)} (hcalms : s.Calms r.1)
    (hquiet : ∀ pc, r.2 = some pc → pc.Quiet r.1) : s.Settles (resume rest r) := by
  obtain ⟨s', pc⟩ := r
  cases pc with
  | some pc => exact ⟨hcalms, hquiet pc rfl⟩
  | none =>
      cases rest with
      | none => exact ⟨hcalms, trivial⟩
      | some sids =>
          obtain ⟨hrest, hquiet'⟩ := stopMonitors_settles sids hcalms.safe
          exact ⟨hcalms.trans hrest, hquiet'⟩

/-- A step registers something new, or nothing new runs after it. -/
theorem step_cases {gns3Client : Bool} {pc pc' : RegistryPc Sid} {a : Awaited}
    (h : step gns3Client s pc a = some (s', pc')) (hsafe : s.Safe) (hquiet : pc.Quiet s) :
    s.Settles (s', pc')
      ∨ (∃ sid gns3Sid, pc = .startRow sid ∧ a = .ok (some gns3Sid) ∧ gns3Sid ≠ ""
          ∧ s' = { s with observers := s.observers.register sid } ∧ pc' = .startArm sid)
      ∨ (∃ sid gns3Sid, pc = .startSession sid ∧ a = .ok gns3Sid
          ∧ s' = { s with monitors := s.monitors.register sid } ∧ pc' = .returned) := by
  have hstays : ∀ pc'' : RegistryPc Sid, pc''.Quiet s → s.Settles (s, pc'') := fun _ hpc =>
    ⟨Calms.refl hsafe, hpc⟩
  cases pc with
  | called call =>
      left
      cases call with
      | start sid =>
          have hcalms : s.Calms { s with stopped := s.stopped.filter (· ≠ sid) } :=
            hsafe.stopped fun sid' hsid' => Or.inl (List.mem_of_mem_filter hsid')
          simp only [step] at h
          split at h
          · cases h
            exact ⟨hcalms, trivial⟩
          · split at h <;> cases h <;> exact ⟨hcalms, trivial⟩
      | stop sid =>
          obtain ⟨hcalms, hpc⟩ := stop_calms sid none hsafe
          exact (resume_settles hcalms hpc).result h
      | stopAll => exact (stopMonitors_settles _ hsafe).result h
  | startRow sid =>
      cases a with
      | failed => exact Or.inl ((hstays (.startArm sid) trivial).result h)
      | ok gns3Sid =>
          cases gns3Sid with
          | none => exact Or.inl ((hstays (.startArm sid) trivial).result h)
          | some gns3Sid =>
              simp only [step] at h
              split at h
              · exact Or.inl ((hstays (.startArm sid) trivial).result h)
              · rename_i hne
                cases h
                exact Or.inr (Or.inl ⟨sid, gns3Sid, rfl, rfl, hne, rfl, rfl⟩)
  | startArm sid =>
      left
      cases a with
      | failed => exact (undoStart_settles hsafe).result h
      | ok gns3Sid => exact (hstays (.startSession sid) trivial).result h
  | startSession sid =>
      cases a with
      | failed => exact Or.inl ((undoStart_settles hsafe).result h)
      | ok gns3Sid =>
          cases h
          exact Or.inr (Or.inr ⟨sid, gns3Sid, rfl, rfl, rfl, rfl⟩)
  | startUndo o =>
      cases h
      exact Or.inl ⟨hsafe.end_observer, trivial⟩
  | stopMonitor sid m rest =>
      left
      have hended := hsafe.end_monitor (m := m)
      have hidle := Roster.Idle.mono hquiet hended.monitors
      obtain ⟨hcalms, hpc⟩ := stopObserver_calms rest hended.safe hidle
      exact (resume_settles (hended.trans hcalms) hpc).result h
  | stopObserver sid o rest =>
      left
      have hended := hsafe.end_observer (o := o)
      have hobservers := Roster.Idle.mono hquiet.2 hended.observers
      have hreturned : s.Calms { s with
          observers := s.observers.become o .ended, stopped := sid :: s.stopped } := by
        apply hended.trans
        apply hended.safe.stopped
        intro sid' hsid'
        rcases List.mem_cons.mp hsid' with rfl | hold
        · exact Or.inr ⟨hquiet.1, hobservers⟩
        · exact Or.inl hold
      apply (resume_settles hreturned _).result h
      intro pc hpc
      cases hpc
  | stopAllObserver o rest =>
      left
      have hended := hsafe.end_observer (o := o)
      obtain ⟨hcalms, hpc⟩ := stopObservers_settles rest hended.safe
      exact Settles.result ⟨hended.trans hcalms, hpc⟩ h
  | returned | raised => cases h

end Registry

def registrySystem (gns3Client : Bool) :
    System (Registry Sid) (RegistryPc Sid) Nat (RegistryCall Sid) Awaited where
  env := Registry.expire
  spawn := .called
  step := Registry.step gns3Client

abbrev Calls (Sid : Type) := Conf (Registry Sid) (RegistryPc Sid)

abbrev CallMove (Sid : Type) := Label Nat (RegistryCall Sid) Awaited

/-- Whether the call is a `stop` of the session that has looked for its monitor. -/
def RegistryPc.tookMonitor (sid : Sid) : RegistryPc Sid → Bool
  | .stopMonitor sid' _ _ | .stopObserver sid' _ _ => sid' = sid
  | _ => false

/-- Whether the call is a `stop` of the session that has looked for its observer as well. -/
def RegistryPc.tookObserver (sid : Sid) : RegistryPc Sid → Bool
  | .stopObserver sid' _ _ => sid' = sid
  | _ => false

/-- A `start` that registers its observer or its monitor over one that runs, behind a `stop` that
has already looked for it, or after a `stop` that has returned since `start` was last called. -/
def registersLate (c : Calls Sid) : CallMove Sid → Bool
  | .run pid (.ok gns3Sid) =>
      match c.procs[pid]? with
      | some (.startRow sid) =>
          gns3Sid.any (· ≠ "") && (c.shared.observers.occupied sid
            || c.procs.any (·.tookObserver sid) || sid ∈ c.shared.stopped)
      | some (.startSession sid) =>
          c.shared.monitors.occupied sid || c.procs.any (·.tookMonitor sid)
            || sid ∈ c.shared.stopped
      | _ => false
  | _ => false

def noCalls : Calls Sid := ⟨{}, []⟩

namespace Registry

variable {gns3Client : Bool} {s s' : Registry Sid} {sid : Sid} {c c' : Calls Sid} {l : CallMove Sid}

/-- The registry is safe, and every call at an await has what it relies on. -/
def Holds (c : Calls Sid) : Prop := c.shared.Safe ∧ ∀ pc ∈ c.procs, pc.Quiet c.shared

theorem safe_empty : ({} : Registry Sid).Safe := by
  apply Safe.of_tracked
  · intro sid id hrun
    cases hrun
  · intro sid id hrun
    cases hrun
  · intro sid hsid
    cases hsid

theorem Calms.quiet {pc : RegistryPc Sid} (h : s.Calms s') (hpc : pc.Quiet s) :
    pc.Quiet s' := by
  cases pc with
  | stopMonitor sid m rest => exact Roster.Idle.mono hpc h.monitors
  | stopObserver sid o rest =>
      exact ⟨Roster.Idle.mono hpc.1 h.monitors, Roster.Idle.mono hpc.2 h.observers⟩
  | _ => trivial

/-- A registration over nothing that runs, of a session no `stop` has returned for. -/
theorem Safe.register_observer (h : s.Safe) (hfree : s.observers.occupied sid = false)
    (hunstopped : sid ∉ s.stopped) : ({ s with observers := s.observers.register sid }).Safe := by
  apply Safe.of_tracked
  · exact h.monitorReachable
  · exact Roster.Tracked.register h.observerReachable hfree
  · intro sid' hsid'
    obtain ⟨hm, ho⟩ := h.quietWhenStopped sid' hsid'
    refine ⟨hm, ho.register ?_⟩
    rintro rfl
    exact hunstopped hsid'

theorem Safe.register_monitor (h : s.Safe) (hfree : s.monitors.occupied sid = false)
    (hunstopped : sid ∉ s.stopped) : ({ s with monitors := s.monitors.register sid }).Safe := by
  apply Safe.of_tracked
  · exact Roster.Tracked.register h.monitorReachable hfree
  · exact h.observerReachable
  · intro sid' hsid'
    obtain ⟨hm, ho⟩ := h.quietWhenStopped sid' hsid'
    refine ⟨hm.register ?_, ho⟩
    rintro rfl
    exact hunstopped hsid'

/-- Over a running worker or after a returned `stop`, a registration breaks the registry at once.
Behind a `stop` still at work it does so when that returns. -/
theorem not_safe_register_observer (h : s.observers.occupied sid = true ∨ sid ∈ s.stopped) :
    ¬ ({ s with observers := s.observers.register sid }).Safe := by
  intro hsafe
  rcases h with hoccupied | hstopped
  · obtain ⟨o, hne, hrun⟩ := Roster.two_run_of_occupied hoccupied
    exact hne (hsafe.oneObserver sid o _ hrun Roster.runs_register_new)
  · have hidle := (hsafe.quietWhenStopped sid hstopped).2 s.observers.workers.size
    exact Bool.false_ne_true (hidle.symm.trans Roster.runs_register_new)

theorem not_safe_register_monitor (h : s.monitors.occupied sid = true ∨ sid ∈ s.stopped) :
    ¬ ({ s with monitors := s.monitors.register sid }).Safe := by
  intro hsafe
  rcases h with hoccupied | hstopped
  · obtain ⟨m, hne, hrun⟩ := Roster.two_run_of_occupied hoccupied
    exact hne (hsafe.oneMonitor sid m _ hrun Roster.runs_register_new)
  · have hidle := (hsafe.quietWhenStopped sid hstopped).1 s.monitors.workers.size
    exact Bool.false_ne_true (hidle.symm.trans Roster.runs_register_new)

theorem quiet_register_observer {pc : RegistryPc Sid} (hpc : pc.Quiet s)
    (htook : pc.tookObserver sid = false) :
    pc.Quiet { s with observers := s.observers.register sid } := by
  cases pc with
  | stopMonitor sid' m rest => exact hpc
  | stopObserver sid' o rest =>
      refine ⟨hpc.1, hpc.2.register ?_⟩
      simpa [RegistryPc.tookObserver] using htook
  | _ => trivial

theorem quiet_register_monitor {pc : RegistryPc Sid} (hpc : pc.Quiet s)
    (htook : pc.tookMonitor sid = false) :
    pc.Quiet { s with monitors := s.monitors.register sid } := by
  cases pc with
  | stopMonitor sid' m rest =>
      apply Roster.Idle.register hpc
      simpa [RegistryPc.tookMonitor] using htook
  | stopObserver sid' o rest =>
      refine ⟨hpc.1.register ?_, hpc.2⟩
      simpa [RegistryPc.tookMonitor] using htook
  | _ => trivial

theorem Holds.next (hc : Holds c) (hlate : registersLate c l = false)
    (h : (registrySystem gns3Client).next c l = some c') : Holds c' := by
  obtain ⟨hsafe, hquiet⟩ := hc
  rcases (registrySystem gns3Client).next_cases h with
    ⟨o, s, rfl, henv, rfl⟩ | ⟨call, rfl, rfl⟩ | ⟨pid, a, pc, s, pc', rfl, hpid, hstep, rfl⟩
  · change expire c.shared o = some s at henv
    unfold expire at henv
    split at henv
    · cases henv
      have hcalms := hsafe.end_observer (o := o)
      exact ⟨hcalms.safe, fun pc hpc => hcalms.quiet (hquiet pc hpc)⟩
    · cases henv
  · exact ⟨hsafe, forall_mem_append hquiet trivial⟩
  · have hpc := hquiet pc (mem_of_getElem? hpid)
    rcases step_cases hstep hsafe hpc with
      ⟨hcalms, hpc'⟩ | ⟨sid, gns3Sid, rfl, rfl, hne, rfl, rfl⟩ | ⟨sid, gns3Sid, rfl, rfl, rfl, rfl⟩
    · exact ⟨hcalms.safe, forall_mem_set (fun q hq => hcalms.quiet (hquiet q hq)) hpc'⟩
    · simp only [registersLate, hpid, Option.any_some, hne, ne_eq, not_false_eq_true, decide_true,
        Bool.true_and, Bool.or_eq_false_iff, decide_eq_false_iff_not, List.any_eq_false,
        Bool.not_eq_true] at hlate
      obtain ⟨⟨hfree, htook⟩, hunstopped⟩ := hlate
      refine ⟨hsafe.register_observer hfree hunstopped, forall_mem_set ?_ trivial⟩
      exact fun q hq => quiet_register_observer (hquiet q hq) (htook q hq)
    · simp only [registersLate, hpid, Bool.or_eq_false_iff, decide_eq_false_iff_not,
        List.any_eq_false, Bool.not_eq_true] at hlate
      obtain ⟨⟨hfree, htook⟩, hunstopped⟩ := hlate
      refine ⟨hsafe.register_monitor hfree hunstopped, forall_mem_set ?_ trivial⟩
      exact fun q hq => quiet_register_monitor (hquiet q hq) (htook q hq)

end Registry

/-- **The registry of monitors.** In every run whose registrations are all on time, at every moment
at most one monitor and one observer run for a session, each is registered, and none runs for a
session whose `stop` has returned with no `start` called since. -/
theorem registry_safe {gns3Client : Bool} {moves : List (CallMove Sid)}
    (htimely : (registrySystem gns3Client).Along (fun c l => registersLate c l = false)
      noCalls moves) :
    (registrySystem gns3Client).Throughout (fun c => c.shared.Safe) noCalls moves := by
  have hstart : Registry.Holds (noCalls : Calls Sid) := by
    refine ⟨Registry.safe_empty, ?_⟩
    intro pc hpc
    cases hpc
  have hholds := (registrySystem gns3Client).throughout_of_along (P := Registry.Holds)
    (fun c l c' hc hlate h => hc.next hlate h) hstart htimely
  exact System.Throughout.mono _ (fun c hc => hc.1) hholds

/-- The boot restores two sessions, one of which cannot be monitored and the other is ended. -/
def restoredAndEnded : List (CallMove String) :=
  [.spawn (.start "first"), .spawn (.start "second"), .run 0 (.ok none), .run 1 (.ok none),
    .run 0 (.ok (some "gns3")), .run 1 (.ok (some "gns3")), .run 0 (.ok none), .run 1 (.ok none),
    .run 0 (.ok none), .spawn (.stop "first"), .run 2 (.ok none), .run 1 .failed, .run 1 (.ok none),
    .run 2 (.ok none), .run 2 (.ok none)]

theorem registry_safe_restoredAndEnded :
    (registrySystem true).Throughout (fun c => c.shared.Safe) noCalls restoredAndEnded :=
  registry_safe (by decide)

example : ((registrySystem true).exec noCalls restoredAndEnded).map
    (fun c => (c.procs, c.shared.stopped)) = some ([.returned, .raised, .returned], ["first"]) := by
  decide

def startedTwice : List (CallMove String) :=
  [.spawn (.start "session"), .spawn (.start "session"), .run 0 (.ok none), .run 1 (.ok none),
    .run 0 (.ok (some "gns3")), .run 1 (.ok (some "gns3")), .run 0 (.ok none), .run 1 (.ok none),
    .run 0 (.ok none), .run 1 (.ok none)]

/-- The learner ends the lab while the boot starts its monitor. -/
def stoppedInsideStart : List (CallMove String) :=
  [.spawn (.start "session"), .run 0 (.ok none), .run 0 (.ok none), .spawn (.stop "session"),
    .run 1 (.ok none), .run 0 (.ok none), .run 0 (.ok none)]

/-- **Overlapping calls leak monitors.** Two run where one is registered, and one runs after its
`stop`. -/
theorem overlapping_calls_leak :
    ¬ (registrySystem true).Throughout (fun c => c.shared.Safe) noCalls startedTwice
      ∧ ¬ (registrySystem true).Throughout (fun c => c.shared.Safe) noCalls stoppedInsideStart := by
  constructor
  · intro h
    have hrun : ((registrySystem true).exec noCalls startedTwice).map
        (fun c => (c.shared.monitors.runs "session" 0, c.shared.monitors.runs "session" 1))
        = some (true, true) := by
      decide
    obtain ⟨c, hexec, hlast⟩ := Option.map_eq_some_iff.mp hrun
    rw [Prod.mk.injEq] at hlast
    have hsafe : c.shared.Safe := System.Throughout.exec _ h hexec
    cases hsafe.oneMonitor "session" 0 1 hlast.1 hlast.2
  · intro h
    have hrun : ((registrySystem true).exec noCalls stoppedInsideStart).map
        (fun c => (c.shared.stopped, c.shared.monitors.runs "session" 0)) = some (["session"],
          true) := by
      decide
    obtain ⟨c, hexec, hlast⟩ := Option.map_eq_some_iff.mp hrun
    rw [Prod.mk.injEq] at hlast
    have hsafe : c.shared.Safe := System.Throughout.exec _ h hexec
    have hidle :=
      (hsafe.quietWhenStopped "session" (by rw [hlast.1]; exact List.mem_singleton.mpr rfl)).1 0
    rw [hlast.2] at hidle
    cases hidle

end OnlinetLabs.Sessions
