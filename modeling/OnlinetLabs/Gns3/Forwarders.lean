import OnlinetLabs.Gns3.WsProxy

/-!
# Forwarders and projects

A stop that comes while a start awaits the lock finds nothing to cancel: the start goes on with a
lock that the stop has released, and registers its forwarder behind it. A client that connects
starts the project of the row it has read though the session is being closed, or is closed already.
And a project is left behind when its row changes under a reset, or changes in a commit that raises.
-/

namespace OnlinetLabs.Gns3.WsProxy

open Interleaving

/-- The project whose forwarder the next step of a call takes out of the register. -/
def Call.aboutToStop? : Call → Option ProjectId
  | .stopping _ project .calling => some project
  | _ => none

/-- The project whose forwarder a call of a session has taken out of the register. -/
def Call.stops? : Call → Option ProjectId
  | .stopping .heartbeat _ _ | .stopping _ _ .calling => none
  | .stopping _ project _ => some project
  | _ => none

def Call.released? : Call → Option ProjectId
  | .stopping .heartbeat _ .released => none
  | .stopping _ project .released => some project
  | _ => none

def Proxy.Active (s : Proxy) (project : ProjectId) : Prop :=
  ∃ row ∈ s.rows, row.gns3ProjectId = project ∧ row.status = .active

/-- No forwarder outlives a `stop_project` that has returned, nor does the lock, and when everything
is at rest a forwarder runs for the current project of an active session. -/
structure MatchesProjects (c : Conf Proxy Call) : Prop where
  stopped : ∀ project ∈ c.shared.stopped,
    (∀ f ∈ c.shared.running, f.project ≠ project) ∧ c.shared.locks.get? project ≠ some .this
  quiescent : (∀ q ∈ c.procs, q = .ended) → (∀ f ∈ c.shared.running, f.cancelled = false) →
    ∀ f ∈ c.shared.running, c.shared.Active f.project

/-- No call is stopping the project or has stopped it since it was started last. -/
def Unstopped (c : Conf Proxy Call) (project : ProjectId) : Prop :=
  (∀ q ∈ c.procs, q.stops? ≠ some project) ∧ project ∉ c.shared.stopped

/-- The lock is taken, and the forwarder registered, for a project that is not stopped, and a
forwarder only for the project of an active session or one that a call is about to stop. A stop
releases the lock and returns when the cancelled forwarders have ended. A row goes on to another
project, or is closed, once its project has no forwarder, or is reset by the call that stops its
project next. -/
def Orderly (c : Conf Proxy Call) : Call → Answer → Prop
  | .starting project _ .setting, .wrote true _ =>
      c.shared.locks.get? project = none → Unstopped c project
  | .starting project _ (.answered true), .done =>
      Unstopped c project ∧ c.shared.tasks.get? project = none
        ∧ (c.shared.Active project ∨ ∃ q ∈ c.procs, q.aboutToStop? = some project)
  | .stopping stopper project .releasing, .wrote false _ =>
      stopper ≠ .heartbeat → c.shared.locks.get? project ≠ some .this
  | .stopping stopper project .released, .done =>
      stopper ≠ .heartbeat → ∀ f ∈ c.shared.running, f.project = project → f.cancelled = false
  | .duplicating session old, .wrote true ok =>
      ∀ row ∈ c.shared.rows[session]?,
        c.shared.tasks.get? row.gns3ProjectId = none ∨ (row.gns3ProjectId = old ∧ ok = true)
  | .closing session, .wrote true _ =>
      ∀ row ∈ c.shared.rows[session]?, c.shared.tasks.get? row.gns3ProjectId = none
  | _, _ => True

def KeepsTrack (c : Conf Proxy Call) : Label Move Request Answer → Prop
  | .run pid a => ∀ q ∈ c.procs[pid]?, Orderly c q a
  | _ => True

/-! ### What a step does -/

variable {s s' : Proxy} {q q' : Call} {a : Answer}

structure Proxy.Same (s s' : Proxy) : Prop where
  rows : s'.rows = s.rows
  tasks : s'.tasks = s.tasks
  running : s'.running = s.running
  locks : s'.locks = s.locks
  stopped : ∀ project ∈ s'.stopped, project ∈ s.stopped

theorem Proxy.Same.refl (s : Proxy) : s.Same s := ⟨rfl, rfl, rfl, rfl, fun _ h => h⟩

inductive Moves (s : Proxy) : Call → Answer → Proxy → Call → Prop where
  | waits {q q' : Call} {a : Answer} {s' : Proxy} (same : s.Same s') (hnot : q.aboutToStop? = none)
      (hstops : ∀ project, q'.stops? = some project → q.stops? = some project)
        (hreleased : q'.released? = none) :
      Moves s q a s' q'
  | creates {q q' : Call} {a : Answer} {s' : Proxy} (row : Row) (hrows : s'.rows = s.rows ++ [row])
      (same : { s with rows := s'.rows }.Same s') (hnot : q.aboutToStop? = none)
        (hstops : q'.stops? = none)
      (hreleased : q'.released? = none) : Moves s q a s' q'
  | resets (session : SessionId) (old : ProjectId) (ok : Bool) {q' : Call}
      (hnew : (ok = true → q'.aboutToStop? = some old) ∧ q'.stops? = none ∧ q'.released? = none) :
      Moves s (.duplicating session old) (.wrote true ok)
        { s.setRow session fun row => { row with gns3ProjectId := s.nextProject } with
          nextProject := s.nextProject + 1 } q'
  | closes (session : SessionId) (ok : Bool) :
      Moves s (.closing session) (.wrote true ok)
        (s.setRow session fun row => { row with status := .closed })
        .ended
  | sets (project : ProjectId) (session : SessionId) (ok locked : Bool) :
      Moves s (.starting project session .setting) (.wrote true ok) (s.setLock project)
        (.starting project session (.answered locked))
  | registers (project : ProjectId) (session : SessionId) :
      Moves s (.starting project session (.answered true)) .done (s.register project session) .ended
  | pops (stopper : Stopper) (project : ProjectId) (id : Nat)
      (htask : s.tasks.get? project = some id) :
      Moves s (.stopping stopper project .calling) .done
        { s.cancel id with tasks := s.tasks.erase project }
        (.stopping stopper project (.cancelling id))
  | findsNone (stopper : Stopper) (project : ProjectId) {s' : Proxy} {pc : StopPc}
      (same : s.Same s')
      (htask : s.tasks.get? project = none) (hpc : pc ≠ .calling ∧ pc ≠ .released) :
      Moves s (.stopping stopper project .calling) .done s' (.stopping stopper project pc)
  | releases (stopper : Stopper) (project : ProjectId) (took ok : Bool) :
      Moves s (.stopping stopper project .releasing) (.wrote took ok)
        (if took then s.releaseLock project else s)
        (.stopping stopper project .released)
  | returns (stopper : Stopper) (project : ProjectId) (hstopper : stopper ≠ .heartbeat) {q' : Call}
      (hnot : q'.aboutToStop? = none ∧ q'.stops? = none ∧ q'.released? = none) :
      Moves s (.stopping stopper project .released) .done
        { s with stopped := project :: s.stopped } q'

theorem popHeartbeat_same {project : ProjectId} {pc : StopPc}
    (h : popHeartbeat s project = (s', pc)) :
    s.Same s' ∧ pc ≠ .calling ∧ pc ≠ .released := by
  unfold popHeartbeat at h
  split at h
  · cases h
    exact ⟨⟨rfl, rfl, rfl, rfl, fun _ hp => hp⟩, by simp⟩
  · cases h
    exact ⟨.refl s, by simp⟩

theorem stops?_eq_some_iff {stopper : Stopper} {project p : ProjectId} {pc : StopPc} :
    (Call.stopping stopper project pc).stops? = some p
      ↔ stopper ≠ .heartbeat ∧ pc ≠ .calling ∧ project = p := by
  cases stopper <;> cases pc <;> simp [Call.stops?]

theorem released?_eq_some_iff {stopper : Stopper} {project p : ProjectId} {pc : StopPc} :
    (Call.stopping stopper project pc).released? = some p
      ↔ stopper ≠ .heartbeat ∧ pc = .released ∧ project = p := by
  cases stopper <;> cases pc <;> simp [Call.released?]

theorem released?_eq_none {stopper : Stopper} {project : ProjectId} {pc : StopPc}
    (hpc : pc ≠ .released) :
    (Call.stopping stopper project pc).released? = none := by
  cases hreleased : (Call.stopping stopper project pc).released? with
  | none => rfl
  | some p => exact absurd (released?_eq_some_iff.mp hreleased).2.1 hpc

theorem Request.step_moves {request : Request} (h : request.step s a = some (s', q')) :
    Moves s (.requested request) a s' q' := by
  have hwait : ∀ q, q.stops? = none → q.released? = none → Moves s (.requested request) a s q := by
    intro q hstops hreleased
    refine .waits (.refl s) rfl (fun project hp => ?_) hreleased
    rw [hstops] at hp
    cases hp
  unfold Request.step at h
  split at h
  -- The new row is committed, or may be.
  · rename_i took ok
    have hcreates : ∀ q, q.stops? = none → q.released? = none →
        Moves s (.requested .createSession) (.wrote took ok)
          { s with
            rows := s.rows ++ [{ gns3ProjectId := s.nextProject }]
            nextProject := s.nextProject + 1 } q :=
      fun q hstops hreleased =>
        .creates { gns3ProjectId := s.nextProject } rfl ⟨rfl, rfl, rfl, rfl, fun _ hp => hp⟩ rfl
          hstops hreleased
    cases ok with
    | true =>
        cases took with
        | true =>
            cases h
            exact hcreates _ rfl rfl
        | false => cases h
    | false =>
        cases h
        cases took with
        | true => exact hcreates _ rfl rfl
        | false => exact hwait _ rfl rfl
  -- The row is read.
  · split at h
    · cases h
      exact hwait _ rfl rfl
    · cases h
      split
      · exact hwait _ rfl rfl
      · exact hwait _ rfl rfl
  · split at h
    · cases h
      exact hwait _ rfl rfl
    · cases h
      split
      · exact hwait _ rfl rfl
      · exact hwait _ rfl rfl
  · split at h
    · cases h
      exact hwait _ rfl rfl
    · cases h
      exact hwait _ rfl rfl
  · split at h
    · cases h
    · cases h
      exact hwait _ rfl rfl
  · cases h
    exact hwait _ rfl rfl
  · cases h

theorem start_moves {project : ProjectId} {session : SessionId} {pc : StartPc}
    {next : Option StartPc}
    (h : pc.step s project session a = some (s', next)) :
    Moves s (.starting project session pc) a s' (.afterStart project session next) := by
  have hwait : ∀ {s'} (next : Option StartPc), s.Same s' →
      Moves s (.starting project session pc) a s' (.afterStart project session next) := by
    intro s' next hsame
    refine .waits hsame rfl (fun p hp => ?_) ?_
    · cases next <;> cases hp
    · cases next <;> rfl
  unfold StartPc.step at h
  split at h
  · cases h
    exact hwait _ ⟨rfl, rfl, rfl, rfl, fun p hp => List.mem_of_mem_filter hp⟩
  · rename_i took ok
    split at h
    · cases h
    · cases h
      cases took with
      | true => exact .sets project session ok _
      | false => exact hwait (some _) (.refl s)
  · rename_i locked
    cases h
    cases locked with
    | true => exact .registers project session
    | false => exact hwait none (.refl s)
  · cases h

theorem stop_moves {stopper : Stopper} {project : ProjectId} {pc pc' : StopPc}
    (h : pc.step s project a = some (s', pc')) :
    Moves s (.stopping stopper project pc) a s' (.stopping stopper project pc') := by
  have hwait : ∀ {s'} {pc pc' : StopPc}, s.Same s' → pc ≠ .calling → pc' ≠ .released →
      Moves s (.stopping stopper project pc) a s' (.stopping stopper project pc') := by
    intro s' pc pc' hsame hpc hpc'
    refine .waits hsame ?_ (fun p hp => ?_) ?_
    · cases pc <;> first | rfl | exact absurd rfl hpc
    · obtain ⟨hstopper, -, heq⟩ := stops?_eq_some_iff.mp hp
      exact stops?_eq_some_iff.mpr ⟨hstopper, hpc, heq⟩
    · exact released?_eq_none hpc'
  unfold StopPc.step at h
  split at h
  · split at h
    · rename_i id htask
      cases h
      exact .pops stopper project id htask
    · rename_i htask
      obtain ⟨hsame, hcalling, hreleased⟩ := popHeartbeat_same (Option.some.inj h)
      exact .findsNone stopper project hsame htask ⟨hcalling, hreleased⟩
  · split at h
    · obtain ⟨hsame, -, hreleased⟩ := popHeartbeat_same (Option.some.inj h)
      exact hwait hsame (by simp) hreleased
    · cases h
  · cases h
    exact hwait (.refl s) (by simp) (by simp)
  · rename_i took ok
    cases h
    exact .releases stopper project took ok
  · cases h

theorem Call.step_moves (h : q.step s a = some (s', q')) : Moves s q a s' q' := by
  have hwait : ∀ q q' a, q.aboutToStop? = none → q'.stops? = none → q'.released? = none →
      Moves s q a s q' := by
    intro q q' a hnot hstops hreleased
    refine .waits (.refl s) hnot (fun p hp => ?_) hreleased
    rw [hstops] at hp
    cases hp
  unfold Call.step at h
  split at h
  · exact Request.step_moves h
  · rename_i session old took ok
    cases took with
    | true =>
        cases ok <;> cases h <;> exact .resets session old _ ⟨by simp [aboutToStop?], rfl, rfl⟩
    | false =>
        cases ok with
        | true => cases h
        | false =>
            cases h
            exact hwait _ _ _ rfl rfl rfl
  · cases h
    exact hwait _ _ _ rfl rfl rfl
  · obtain ⟨⟨s₁, next⟩, hpc, heq⟩ := Option.map_eq_some_iff.mp h
    cases heq
    exact start_moves hpc
  · rename_i stopper project
    cases stopper with
    | reset session new =>
        cases h
        exact .returns _ project (by simp) ⟨rfl, rfl, rfl⟩
    | delete session =>
        cases h
        exact .returns _ project (by simp) ⟨rfl, rfl, rfl⟩
    | heartbeat =>
        cases h
        exact hwait _ _ _ rfl rfl rfl
  · rename_i project id
    obtain ⟨hs, hq⟩ := Prod.mk.inj (Option.some.inj h)
    have hpop : popHeartbeat s project = ((popHeartbeat s project).1, (popHeartbeat s project).2) :=
      rfl
    obtain ⟨hsame, -, hreleased⟩ := popHeartbeat_same hpop
    rw [← hs, ← hq]
    exact .waits hsame rfl (fun p hp => absurd rfl (stops?_eq_some_iff.mp hp).1)
      (released?_eq_none hreleased)
  · cases h
    exact hwait _ _ _ rfl rfl rfl
  · obtain ⟨⟨s₁, pc'⟩, hpc, heq⟩ := Option.map_eq_some_iff.mp h
    cases heq
    exact stop_moves hpc
  · rename_i session took ok
    cases h
    cases took with
    | true => exact .closes session ok
    | false => exact hwait _ _ _ rfl rfl rfl
  · cases h

/-! ### Every forwarder is registered, cancelled or claimed -/

structure Tracked (c : Conf Proxy Call) : Prop where
  registered : ∀ f ∈ c.shared.running, f.cancelled = true
    ∨ c.shared.tasks.get? f.project = some f.id
  claimed : ∀ project, c.shared.tasks.get? project ≠ none →
    c.shared.Active project ∨ ∃ q ∈ c.procs, q.aboutToStop? = some project
  underWay : ∀ q ∈ c.procs, ∀ project, q.stops? = some project → c.shared.tasks.get? project = none
  released : ∀ q ∈ c.procs, ∀ project, q.released? = some project →
    c.shared.locks.get? project ≠ some .this
  stopped : ∀ project ∈ c.shared.stopped,
    (∀ f ∈ c.shared.running, f.project ≠ project) ∧ c.shared.locks.get? project ≠ some .this

theorem Tracked.matches {c : Conf Proxy Call} (h : Tracked c) : MatchesProjects c := by
  refine ⟨h.stopped, fun hended hcancelled f hf => ?_⟩
  have htask : c.shared.tasks.get? f.project ≠ none := by
    rcases h.registered f hf with hc | htask
    · rw [hcancelled f hf] at hc
      cases hc
    · rw [htask]
      simp
  rcases h.claimed f.project htask with hactive | ⟨q, hq, habout⟩
  · exact hactive
  · rw [hended q hq] at habout
    cases habout

theorem stops?_of_released? {project : ProjectId} (h : q.released? = some project) :
    q.stops? = some project := by
  cases q with
  | stopping stopper p pc =>
      obtain ⟨hstopper, hpc, heq⟩ := released?_eq_some_iff.mp h
      exact stops?_eq_some_iff.mpr ⟨hstopper, by simp [hpc], heq⟩
  | _ => cases h

theorem Proxy.Active.setRow {project : ProjectId} {session : SessionId} {f : Row → Row}
    (h : s.Active project)
    (hother : ∀ row ∈ s.rows[session]?, row.gns3ProjectId ≠ project) :
    (s.setRow session f).Active project := by
  obtain ⟨row, hmem, hproject, hstatus⟩ := h
  unfold Proxy.setRow
  split
  · exact ⟨row, hmem, hproject, hstatus⟩
  · obtain ⟨i, hi⟩ := List.getElem?_of_mem hmem
    have hne : session ≠ i := by
      rintro rfl
      exact hother row hi hproject
    refine ⟨row, ?_, hproject, hstatus⟩
    apply List.mem_of_getElem? (i := i)
    rw [List.getElem?_set_ne hne]
    exact hi

theorem Proxy.setRow_same (session : SessionId) (f : Row → Row) :
    { s with rows := (s.setRow session f).rows }.Same (s.setRow session f) := by
  unfold Proxy.setRow
  split
  · exact .refl s
  · exact ⟨rfl, rfl, rfl, rfl, fun _ hp => hp⟩

theorem get?_releaseLock {project p : ProjectId} (h : p = project ∨ s.locks.get? p ≠ some .this) :
    (s.releaseLock project).locks.get? p ≠ some .this := by
  unfold Proxy.releaseLock
  split
  · simp only [Dict.get?_erase]
    split
    · simp
    · rename_i hne
      exact h.resolve_left hne
  · rename_i hnot
    rcases h with rfl | h
    · exact hnot
    · exact h

theorem get?_setLock {project p : ProjectId} (hp : s.locks.get? p ≠ some .this)
    (hfree : s.locks.get? project = none → p ≠ project) :
    (s.setLock project).locks.get? p ≠ some .this := by
  unfold Proxy.setLock
  split
  · rename_i hnone
    rw [Dict.get?_set, if_neg (hfree hnone)]
    exact hp
  · exact hp

section Step

variable {procs : List Call} {pid : Nat} {p : ProjectId}

/-- A step registers a forwarder, takes one out of the register, or leaves them as they are. -/
theorem Moves.running_cases (hmoves : Moves s q a s' q') :
    (s'.tasks = s.tasks ∧ s'.running = s.running)
      ∨ (∃ project session, q = .starting project session (.answered true) ∧ a = .done
          ∧ s' = s.register project session)
      ∨ (∃ stopper project id, q = .stopping stopper project .calling
        ∧ s.tasks.get? project = some id
          ∧ s' = { s.cancel id with tasks := s.tasks.erase project }) := by
  cases hmoves with
  | waits same | findsNone _ _ same => exact Or.inl ⟨same.tasks, same.running⟩
  | creates row hrows same => exact Or.inl ⟨same.tasks, same.running⟩
  | resets session | closes session =>
      exact Or.inl ⟨(Proxy.setRow_same session _).tasks, (Proxy.setRow_same session _).running⟩
  | sets project =>
      left
      unfold Proxy.setLock
      split <;> exact ⟨rfl, rfl⟩
  | registers project session => exact Or.inr (Or.inl ⟨project, session, rfl, rfl, rfl⟩)
  | pops stopper project id htask => exact Or.inr (Or.inr ⟨stopper, project, id, rfl, htask, rfl⟩)
  | releases stopper project took ok =>
      left
      unfold Proxy.releaseLock
      split
      · split <;> exact ⟨rfl, rfl⟩
      · exact ⟨rfl, rfl⟩
  | returns => exact Or.inl ⟨rfl, rfl⟩

/-- A step takes a lock, releases one, or leaves them as they are. -/
theorem Moves.locks_cases (hmoves : Moves s q a s' q') :
    s'.locks = s.locks
      ∨ (∃ project session ok, q = .starting project session .setting ∧ a = .wrote true ok
          ∧ s' = s.setLock project)
      ∨ (∃ stopper project, q = .stopping stopper project .releasing
        ∧ s' = s.releaseLock project) := by
  cases hmoves with
  | waits same | findsNone _ _ same => exact Or.inl same.locks
  | creates row hrows same => exact Or.inl same.locks
  | resets session | closes session => exact Or.inl (Proxy.setRow_same session _).locks
  | sets project session ok => exact Or.inr (Or.inl ⟨project, session, ok, rfl, rfl, rfl⟩)
  | releases stopper project took ok =>
      cases took with
      | true => exact Or.inr (Or.inr ⟨stopper, project, rfl, rfl⟩)
      | false => exact Or.inl rfl
  | registers | pops | returns => exact Or.inl rfl

theorem registered_moves (h : Tracked ⟨s, procs⟩) (horderly : Orderly ⟨s, procs⟩ q a)
    (hmoves : Moves s q a s' q') :
    ∀ f ∈ s'.running, f.cancelled = true ∨ s'.tasks.get? f.project = some f.id := by
  rcases hmoves.running_cases with ⟨htasks, hrunning⟩ | ⟨project, session, rfl, rfl, rfl⟩
    | ⟨stopper, project, id, rfl, htask, rfl⟩
  · rw [htasks, hrunning]
    exact h.registered
  · obtain ⟨-, hnone, -⟩ := horderly
    intro f hf
    simp only [Proxy.register, List.mem_append, List.mem_singleton] at hf
    simp only [Proxy.register, Dict.get?_set]
    rcases hf with hf | rfl
    · rcases h.registered f hf with hc | htask
      · exact Or.inl hc
      · right
        rw [if_neg, htask]
        intro heq
        rw [heq] at htask
        exact absurd (htask.symm.trans hnone) (by simp)
    · simp
  · intro f hf
    obtain ⟨g, hg, rfl⟩ := List.mem_map.mp hf
    split
    · exact Or.inl rfl
    · rename_i hid
      rcases h.registered g hg with hc | hgtask
      · exact Or.inl hc
      · right
        rw [Dict.get?_erase, if_neg]
        · exact hgtask
        · intro heq
          rw [heq, htask] at hgtask
          exact hid (Option.some.inj hgtask).symm

/-- What a call stops gets no forwarder. -/
theorem Moves.get?_tasks (hmoves : Moves s q a s' q') (horderly : Orderly ⟨s, procs⟩ q a)
    (hstops : ∃ r ∈ procs, r.stops? = some p) (hp : s.tasks.get? p = none) :
    s'.tasks.get? p = none := by
  rcases hmoves.running_cases with ⟨htasks, -⟩ | ⟨project, session, rfl, rfl, rfl⟩
    | ⟨stopper, project, id, rfl, -, rfl⟩
  · rw [htasks]
    exact hp
  · obtain ⟨⟨hnot, -⟩, -⟩ := horderly
    obtain ⟨r, hr, hstops⟩ := hstops
    simp only [Proxy.register, Dict.get?_set]
    rw [if_neg]
    · exact hp
    · rintro rfl
      exact hnot r hr hstops
  · simp [Dict.get?_erase, hp]

/-- What a call stops, or has stopped, is not locked again. -/
theorem Moves.get?_locks (hmoves : Moves s q a s' q') (horderly : Orderly ⟨s, procs⟩ q a)
    (hstops : (∃ r ∈ procs, r.stops? = some p) ∨ p ∈ s.stopped) (hp : s.locks.get? p ≠ some .this) :
    s'.locks.get? p ≠ some .this := by
  rcases hmoves.locks_cases with hlocks | ⟨project, session, ok, rfl, rfl, rfl⟩
    | ⟨stopper, project, -, rfl⟩
  · rw [hlocks]
    exact hp
  · apply get?_setLock hp
    rintro hfree rfl
    obtain ⟨hnot, hunstopped⟩ := horderly hfree
    rcases hstops with ⟨r, hr, hstops⟩ | hmem
    · exact hnot r hr hstops
    · exact hunstopped hmem
  · exact get?_releaseLock (Or.inr hp)

theorem underWay_moves (h : Tracked ⟨s, procs⟩) (horderly : Orderly ⟨s, procs⟩ q a)
    (hmoves : Moves s q a s' q')
    (hpid : procs[pid]? = some q) :
    ∀ r ∈ procs.set pid q', ∀ project, r.stops? = some project → s'.tasks.get? project = none := by
  have hothers : ∀ r ∈ procs, ∀ project, r.stops? = some project → s'.tasks.get? project = none :=
    fun r hr project hstops => hmoves.get?_tasks horderly ⟨r, hr, hstops⟩
      (h.underWay r hr project hstops)
  refine forall_mem_set hothers fun project hstops => ?_
  have hmem : q ∈ procs := mem_of_getElem? hpid
  cases hmoves with
  | waits _ _ hstops' => exact hothers q hmem project (hstops' project hstops)
  | creates _ _ _ _ hnone =>
      rw [hnone] at hstops
      cases hstops
  | resets _ _ _ hnew =>
      rw [hnew.2.1] at hstops
      cases hstops
  | closes | sets | registers => cases hstops
  | pops stopper p id =>
      obtain ⟨-, -, rfl⟩ := stops?_eq_some_iff.mp hstops
      simp [Dict.get?_erase]
  | findsNone stopper p same htask =>
      obtain ⟨-, -, rfl⟩ := stops?_eq_some_iff.mp hstops
      rw [same.tasks]
      exact htask
  | releases stopper p =>
      obtain ⟨hstopper, -, rfl⟩ := stops?_eq_some_iff.mp hstops
      exact hothers _ hmem p (stops?_eq_some_iff.mpr ⟨hstopper, by simp, rfl⟩)
  | returns _ _ _ hnot =>
      rw [hnot.2.1] at hstops
      cases hstops

theorem released_moves (h : Tracked ⟨s, procs⟩) (horderly : Orderly ⟨s, procs⟩ q a)
    (hmoves : Moves s q a s' q') :
    ∀ r ∈ procs.set pid q', ∀ project, r.released? = some project →
      s'.locks.get? project ≠ some .this := by
  have hothers : ∀ r ∈ procs, ∀ project, r.released? = some project →
      s'.locks.get? project ≠ some .this := by
    intro r hr project hreleased
    have hstops : r.stops? = some project := stops?_of_released? hreleased
    exact hmoves.get?_locks horderly (Or.inl ⟨r, hr, hstops⟩) (h.released r hr project hreleased)
  refine forall_mem_set hothers fun project hreleased => ?_
  cases hmoves with
  | waits _ _ _ hnone | creates _ _ _ _ _ hnone =>
      rw [hnone] at hreleased
      cases hreleased
  | resets _ _ _ hnew =>
      rw [hnew.2.2] at hreleased
      cases hreleased
  | closes | sets | registers => cases hreleased
  | pops => exact absurd (released?_eq_some_iff.mp hreleased).2.1 (by simp)
  | findsNone _ _ _ _ hpc => exact absurd (released?_eq_some_iff.mp hreleased).2.1 hpc.2
  | releases stopper p took ok =>
      obtain ⟨hstopper, -, rfl⟩ := released?_eq_some_iff.mp hreleased
      cases took with
      | true => exact get?_releaseLock (Or.inl rfl)
      | false => exact horderly hstopper
  | returns _ _ _ hnot =>
      rw [hnot.2.2] at hreleased
      cases hreleased

theorem claimed_moves (h : Tracked ⟨s, procs⟩) (horderly : Orderly ⟨s, procs⟩ q a)
    (hmoves : Moves s q a s' q')
    (hpid : procs[pid]? = some q) :
    ∀ project, s'.tasks.get? project ≠ none →
      s'.Active project ∨ ∃ r ∈ procs.set pid q', r.aboutToStop? = some project := by
  have hclaim : ∀ project, q.aboutToStop? ≠ some project → (s.Active project → s'.Active project) →
      (s.Active project ∨ ∃ r ∈ procs, r.aboutToStop? = some project) →
      s'.Active project ∨ ∃ r ∈ procs.set pid q', r.aboutToStop? = some project := by
    intro project hnot hactive hclaimed
    rcases hclaimed with hold | habout
    · exact Or.inl (hactive hold)
    · exact Or.inr (exists_mem_set habout hpid fun hq => absurd hq hnot)
  have hrows : s'.rows = s.rows → ∀ project, s.Active project → s'.Active project := by
    intro hrows project hactive
    unfold Proxy.Active
    rw [hrows]
    exact hactive
  intro project htask
  cases hmoves with
  | waits same hnot =>
      rw [same.tasks] at htask
      exact hclaim project (by simp [hnot]) (hrows same.rows project) (h.claimed project htask)
  | creates row hnew same hnot =>
      rw [same.tasks] at htask
      refine hclaim project (by simp [hnot]) ?_ (h.claimed project htask)
      rintro ⟨row, hmem, hactive⟩
      refine ⟨row, ?_, hactive⟩
      rw [hnew]
      exact List.mem_append_left _ hmem
  | resets session old ok hnew =>
      have hheld : s.tasks.get? project ≠ none := by
        rw [← (Proxy.setRow_same session _).tasks]
        exact htask
      by_cases hreset : project = old ∧ ok = true
      · obtain ⟨rfl, rfl⟩ := hreset
        obtain ⟨hlt, -⟩ := List.getElem?_eq_some_iff.mp hpid
        exact Or.inr ⟨q', List.mem_set hlt q', hnew.1 rfl⟩
      · refine hclaim project (by simp [Call.aboutToStop?]) (fun hactive => ?_)
          (h.claimed project hheld)
        apply Proxy.Active.setRow hactive
        rintro row hrow rfl
        rcases horderly row hrow with hnone | hold
        · exact hheld hnone
        · exact hreset hold
  | closes session ok =>
      have hheld : s.tasks.get? project ≠ none := by
        rw [← (Proxy.setRow_same session _).tasks]
        exact htask
      refine hclaim project (by simp [Call.aboutToStop?]) (fun hactive => ?_)
        (h.claimed project hheld)
      apply Proxy.Active.setRow hactive
      rintro row hrow rfl
      exact hheld (horderly row hrow)
  | sets p =>
      obtain ⟨htasks, hsame⟩ : (s.setLock p).tasks = s.tasks ∧ (s.setLock p).rows = s.rows := by
        unfold Proxy.setLock
        split <;> exact ⟨rfl, rfl⟩
      rw [htasks] at htask
      exact hclaim project (by simp [Call.aboutToStop?]) (hrows hsame project)
        (h.claimed project htask)
  | registers p session =>
      refine hclaim project (by simp [Call.aboutToStop?]) (hrows rfl project) ?_
      by_cases heq : project = p
      · subst heq
        exact horderly.2.2
      · apply h.claimed project
        simpa [Proxy.register, Dict.get?_set, heq] using htask
  | pops stopper p id =>
      rw [Dict.get?_erase] at htask
      split at htask
      · exact absurd rfl htask
      · rename_i hne
        have hnot : (Call.stopping stopper p .calling).aboutToStop? ≠ some project := by
          simpa [Call.aboutToStop?] using Ne.symm hne
        exact hclaim project hnot (hrows rfl project) (h.claimed project htask)
  | findsNone stopper p same hnone =>
      rw [same.tasks] at htask
      have hnot : (Call.stopping stopper p .calling).aboutToStop? ≠ some project := by
        rintro ⟨⟩
        exact htask hnone
      exact hclaim project hnot (hrows same.rows project) (h.claimed project htask)
  | releases stopper p took ok =>
      obtain ⟨htasks, hsame⟩ : (if took then s.releaseLock p else s).tasks = s.tasks
          ∧ (if took then s.releaseLock p else s).rows = s.rows := by
        unfold Proxy.releaseLock
        split
        · split <;> exact ⟨rfl, rfl⟩
        · exact ⟨rfl, rfl⟩
      rw [htasks] at htask
      exact hclaim project (by simp [Call.aboutToStop?]) (hrows hsame project)
        (h.claimed project htask)
  | returns =>
      exact hclaim project (by simp [Call.aboutToStop?]) (hrows rfl project)
        (h.claimed project htask)

theorem Moves.ne_project (hmoves : Moves s q a s' q') (horderly : Orderly ⟨s, procs⟩ q a)
    (hmem : p ∈ s.stopped)
    (hp : ∀ f ∈ s.running, f.project ≠ p) : ∀ f ∈ s'.running, f.project ≠ p := by
  rcases hmoves.running_cases with ⟨-, hrunning⟩ | ⟨project, session, rfl, rfl, rfl⟩
    | ⟨stopper, project, id, -, -, rfl⟩
  · rw [hrunning]
    exact hp
  · obtain ⟨⟨-, hnot⟩, -⟩ := horderly
    refine forall_mem_append hp ?_
    rintro rfl
    exact hnot hmem
  · intro f hf
    obtain ⟨g, hg, rfl⟩ := List.mem_map.mp hf
    split <;> exact hp g hg

theorem stopped_moves (h : Tracked ⟨s, procs⟩) (horderly : Orderly ⟨s, procs⟩ q a)
    (hmoves : Moves s q a s' q')
    (hpid : procs[pid]? = some q) :
    ∀ project ∈ s'.stopped,
      (∀ f ∈ s'.running, f.project ≠ project) ∧ s'.locks.get? project ≠ some .this := by
  have hold : ∀ project ∈ s.stopped,
      (∀ f ∈ s'.running, f.project ≠ project) ∧ s'.locks.get? project ≠ some .this := by
    intro project hmem
    obtain ⟨hrunning, hlock⟩ := h.stopped project hmem
    exact ⟨hmoves.ne_project horderly hmem hrunning, hmoves.get?_locks horderly (Or.inr hmem) hlock⟩
  intro project hmem
  cases hmoves with
  | waits same => exact hold project (same.stopped project hmem)
  | creates _ _ same => exact hold project (same.stopped project hmem)
  | resets session | closes session =>
      exact hold project ((Proxy.setRow_same session _).stopped project hmem)
  | sets p =>
      apply hold project
      unfold Proxy.setLock at hmem
      split at hmem <;> exact hmem
  | registers | pops => exact hold project hmem
  | findsNone _ _ same => exact hold project (same.stopped project hmem)
  | releases _ p took =>
      apply hold project
      unfold Proxy.releaseLock at hmem
      split at hmem
      · split at hmem <;> exact hmem
      · exact hmem
  | returns stopper p hstopper =>
      rcases List.mem_cons.mp hmem with rfl | hmem
      · have hq : Call.stopping stopper project .released ∈ procs := mem_of_getElem? hpid
        have htask : s.tasks.get? project = none :=
          h.underWay _ hq project (stops?_eq_some_iff.mpr ⟨hstopper, by simp, rfl⟩)
        refine ⟨fun f hf heq =>
          ?_, h.released _ hq project (released?_eq_some_iff.mpr ⟨hstopper, rfl, rfl⟩)⟩
        -- A forwarder of the project is cancelled, as it is not registered, and none that is
        -- cancelled runs.
        rcases h.registered f hf with hc | hregistered
        · rw [horderly hstopper f hf heq] at hc
          cases hc
        · simp only [heq, htask] at hregistered
          cases hregistered
      · exact hold project hmem

theorem tracked_moves (h : Tracked ⟨s, procs⟩) (horderly : Orderly ⟨s, procs⟩ q a)
    (hmoves : Moves s q a s' q')
    (hpid : procs[pid]? = some q) : Tracked ⟨s', procs.set pid q'⟩ where
  registered := registered_moves h horderly hmoves
  claimed := claimed_moves h horderly hmoves hpid
  underWay := underWay_moves h horderly hmoves hpid
  released := released_moves h horderly hmoves
  stopped := stopped_moves h horderly hmoves hpid

end Step

/-! ### All runs -/

variable {c c' : Conf Proxy Call} {l : Label Move Request Answer}

theorem tracked_env (h : Tracked c) (move : Move) : Tracked ⟨c.shared.env move, c.procs⟩ := by
  have hlocked : ∀ locks : Dict ProjectId Instance,
      (∀ p, c.shared.locks.get? p ≠ some .this → locks.get? p ≠ some .this) →
      Tracked ⟨{ c.shared with locks }, c.procs⟩ := fun locks hlocks =>
    ⟨h.registered, h.claimed, h.underWay, fun q hq p hp => hlocks p (h.released q hq p hp),
      fun p hp => ⟨(h.stopped p hp).1, hlocks p (h.stopped p hp).2⟩⟩
  cases move with
  | ends id =>
      refine ⟨fun f hf => h.registered f (List.mem_of_mem_filter hf), h.claimed, h.underWay,
        h.released, ?_⟩
      exact fun p hp =>
        ⟨fun f hf => (h.stopped p hp).1 f (List.mem_of_mem_filter hf), (h.stopped p hp).2⟩
  | expires project =>
      apply hlocked
      intro p hp
      rw [Dict.get?_erase]
      split
      · simp
      · exact hp
  | takes project =>
      simp only [Proxy.env]
      split
      · apply hlocked
        intro p hp
        rw [Dict.get?_set]
        split
        · simp
        · exact hp
      · exact h
  | releases project =>
      simp only [Proxy.env]
      split
      · apply hlocked
        intro p hp
        rw [Dict.get?_erase]
        split
        · simp
        · exact hp
      · exact h

theorem tracked_next (h : Tracked c) (hkeeps : KeepsTrack c l)
    (hnext : wsProxy.next c l = some c') :
    Tracked c' := by
  rcases wsProxy.next_cases hnext with ⟨move, s, rfl, henv, rfl⟩ | ⟨request, rfl, rfl⟩
    | ⟨pid, a, q, s, q', rfl, hpid, hstep, rfl⟩
  · cases henv
    exact tracked_env h move
  · refine ⟨h.registered, fun p hp => ?_, ?_, ?_, h.stopped⟩
    · rcases h.claimed p hp with hactive | ⟨q, hq, habout⟩
      · exact Or.inl hactive
      · exact Or.inr ⟨q, List.mem_append_left _ hq, habout⟩
    · exact forall_mem_append h.underWay (by rintro p ⟨⟩)
    · exact forall_mem_append h.released (by rintro p ⟨⟩)
  · exact tracked_moves h (hkeeps q hpid) (Call.step_moves hstep) hpid

theorem tracked_start (rows : List Row) (nextProject : ProjectId)
    (locks : Dict ProjectId Instance) :
    Tracked ⟨{ rows, nextProject, locks }, []⟩ where
  registered := List.forall_mem_nil _
  claimed := fun _ htask => absurd rfl htask
  underWay := List.forall_mem_nil _
  released := List.forall_mem_nil _
  stopped := List.forall_mem_nil _

/-- **When forwarders match the projects.** As long as no project is locked or gets a forwarder
while it is stopped, a stop releases the lock and waits for what it cancels, and no row leaves a
project that has a forwarder, no forwarder outlives the stop of its project. -/
theorem forwarders_match (rows : List Row) (nextProject : ProjectId)
    (locks : Dict ProjectId Instance)
    (ls : List (Label Move Request Answer))
    (h : wsProxy.Along KeepsTrack ⟨{ rows, nextProject, locks }, []⟩ ls) :
    wsProxy.Throughout MatchesProjects ⟨{ rows, nextProject, locks }, []⟩ ls := by
  have hall := System.throughout_of_along _ (fun _ _ _ => tracked_next)
      (tracked_start rows nextProject locks) h
  exact hall.mono _ fun c hc => hc.matches

instance (s : Proxy) (project : ProjectId) : Decidable (s.Active project) :=
  inferInstanceAs (Decidable (∃ row ∈ s.rows, row.gns3ProjectId = project ∧ row.status = .active))

instance (c : Conf Proxy Call) (project : ProjectId) : Decidable (Unstopped c project) :=
  inferInstanceAs
    (Decidable ((∀ q ∈ c.procs, q.stops? ≠ some project) ∧ project ∉ c.shared.stopped))

instance (c : Conf Proxy Call) (q : Call) (a : Answer) : Decidable (Orderly c q a) := by
  unfold Orderly
  split <;> infer_instance

instance (c : Conf Proxy Call) : DecidablePred (KeepsTrack c)
  | .run pid a => inferInstanceAs (Decidable (∀ q ∈ c.procs[pid]?, Orderly c q a))
  | .env _ => .isTrue trivial
  | .spawn _ => .isTrue trivial

/-- A `start_project` that takes the lock. -/
def starts (pid : Nat) : List (Label Move Request Answer) :=
  [.run pid .done, .run pid (.wrote true true), .run pid .done]

/-- A `stop_project` that finds a forwarder. -/
def stops (pid forwarder : Nat) : List (Label Move Request Answer) :=
  [.run pid .done, .env (.ends forwarder), .run pid .done, .run pid .done,
    .run pid (.wrote true true), .run pid .done]

/-- A session is created, reset, watched and deleted. -/
def oneAfterAnother : List (Label Move Request Answer) :=
  [.spawn .createSession, .run 0 (.wrote true true)] ++ starts 0
    ++ [.spawn (.resetProject 0), .run 1 .done, .run 1 (.wrote true true)] ++ stops 1 0 ++ starts 1
    ++ [.spawn (.wsSessionEvents 0), .run 2 .done, .run 2 .done]
    ++ [.spawn (.deleteSession 0), .run 3 .done] ++ stops 3 2 ++ [.run 3 (.wrote true true)]

theorem forwarders_match_oneAfterAnother : wsProxy.Along KeepsTrack ⟨{}, []⟩ oneAfterAnother
    ∧ wsProxy.Throughout MatchesProjects ⟨{}, []⟩ oneAfterAnother :=
  have hkeeps : wsProxy.Along KeepsTrack ⟨{}, []⟩ oneAfterAnother := by decide
  ⟨hkeeps, forwarders_match [] 0 {} oneAfterAnother hkeeps⟩

/-- A client connects to a session that is deleted before Redis has answered. -/
def deletedUnderTheStart : List (Label Move Request Answer) :=
  [.spawn (.wsSessionEvents 0), .run 0 .done, .run 0 .done, .run 0 (.wrote true true),
    .spawn (.deleteSession 0), .run 1 .done, .run 1 .done, .run 1 (.wrote true true), .run 1 .done,
    .run 0 .done]

theorem forwarder_of_stopped_project :
    ¬ wsProxy.Throughout MatchesProjects
      ⟨{ rows := [{ gns3ProjectId := 0 }], nextProject := 1 }, []⟩
      deletedUnderTheStart := by
  have hrun : (wsProxy.exec ⟨{ rows := [{ gns3ProjectId := 0 }], nextProject := 1 }, []⟩
      deletedUnderTheStart).map
      (fun c => (c.shared.stopped, c.shared.running.map Forwarder.project)) = some ([0], [0]) := by
        decide
  obtain ⟨c, hexec, heq⟩ := Option.map_eq_some_iff.mp hrun
  obtain ⟨hstopped, hprojects⟩ := Prod.mk.inj heq
  intro hall
  have hmem : 0 ∈ c.shared.running.map Forwarder.project := by
    rw [hprojects]
    exact List.mem_singleton_self 0
  obtain ⟨f, hf, hproject⟩ := List.mem_map.mp hmem
  have hstop : 0 ∈ c.shared.stopped := by
    rw [hstopped]
    exact List.mem_singleton_self 0
  exact ((hall.exec _ hexec).stopped 0 hstop).1 f hf hproject

end OnlinetLabs.Gns3.WsProxy
