import OnlinetLabs.Sessions.Finalized

/-!
# A monitor and its session

A monitor is registered by the launch, after the row became visible as active, and taken out by the
paths that end a lab, before they commit `ended_at`. With `start` and `stop` atomic that is enough
to keep every registered monitor within the life of its session, unless a session is ended by a path
that does not stop the monitor, a launch starts it for a session that was ended meanwhile, or an
erasure takes the row away.
-/

namespace OnlinetLabs.Sessions

open Interleaving

variable {cfg : Config} {s s' : Shared} {p p' : Proc} {a : Answer} {c c' : World} {l : Move}
  {sid : SessionId}

/-- A monitor is registered only for a session whose row is there with no `ended_at`. -/
def MonitorsWithin (c : World) : Prop :=
  ∀ sid ∈ c.shared.monitors, isOpen sid c.shared.sessions = true

/-- The next move leaves a monitor without its session: an end that is committed while the monitor
is registered, a monitor started for a session that is ended or gone, or an erasure under a
monitor. -/
def leavesMonitor (c : World) : Move → Bool
  | .env (.erase userId) =>
      c.shared.monitors.any fun sid => (c.shared.sessions.get? sid).any (·.userId == userId)
  | .run pid a =>
      match c.procs[pid]? with
      | some (.finalize (.commit loaded _) _) => loaded.id ∈ c.shared.monitors
      | some (.launch _ (.startMonitor session)) => a = .ok && !isOpen session.id c.shared.sessions
      | _ => false
  | _ => false

def Proc.computesMetrics (sid : SessionId) (s : Shared) : Proc → Bool
  | .finalize (.metrics session _) _ => session.id == sid && (s.sessions.get? sid).isSome
  | _ => false

/-- The move computes the ExperimentMetrics row of the session. -/
def computesMetrics (sid : SessionId) : World → Move → Bool := moves (Proc.computesMetrics sid)

theorem get?_of_isOpen {sessions : SessionTable} (h : isOpen sid sessions = true) :
    ∃ r, sessions.get? sid = some r := by
  obtain ⟨r, hr, -⟩ := (Option.any_eq_true _ _).mp h
  exact ⟨r, hr⟩

/-- The registry changes by a stop, or by the start of a launch. -/
theorem Proc.step_monitors (h : p.step cfg s a = some (s', p')) :
    (∀ sid ∈ s'.monitors, sid ∈ s.monitors)
      ∨ ∃ req session, p = .launch req (.startMonitor session) ∧ a = .ok
          ∧ s'.monitors = s.monitors.insert session.id ∧ s'.sessions = s.sessions := by
  cases p with
  | done => cases h
  | launch req pc =>
      cases pc with
      | startMonitor session =>
          cases h
          by_cases ha : a = .ok
          · exact Or.inr ⟨req, session, rfl, ha, if_pos ha, rfl⟩
          · left
            intro sid hsid
            rwa [if_neg ha] at hsid
      | lock | lookup | acquire | relookup | checks | recount | insert | create | finalizeGet
        | finalizeCommit | finalizeRefresh =>
          left
          simp only [step, LaunchPc.step] at h
          repeat' split at h
          all_goals
            cases h
            try exact fun _ hsid => hsid
      | dequeue | enqueue | resume | release =>
          cases h
          exact Or.inl fun _ hsid => hsid
  | finalize pc caller =>
      left
      cases pc with
      | commit | refresh | metrics =>
          simp only [step, FinalizePc.step] at h
          split at h
          all_goals
            cases h
            exact fun _ hsid => hsid
      | release =>
          cases h
          exact fun _ hsid => hsid
  | endLabRead | endSessionRead | sweepRead | sweepState | reapGet =>
      left
      simp only [step] at h
      repeat' split at h
      all_goals
        cases h
        exact fun _ hsid => hsid
  | endLabStop | reapStop =>
      cases h
      exact Or.inl fun _ hsid => List.mem_of_mem_erase hsid
  | reapSelect | teardown =>
      cases h
      exact Or.inl fun _ hsid => hsid

theorem isOpen_deleteWhere {sessions : SessionTable} {userId : UserId}
    (hopen : isOpen sid sessions = true) :
    isOpen sid (sessions.deleteWhere (·.userId == userId))
      = !(sessions.get? sid).any (·.userId == userId) := by
  obtain ⟨r, hr⟩ := get?_of_isOpen hopen
  rw [isOpen, hr] at hopen
  rw [isOpen, Table.get?_deleteWhere, hr]
  cases huser : r.userId == userId with
  | true => simp [Option.filter, huser]
  | false => simpa [Option.filter, huser] using hopen

theorem leavesMonitor_of_ends {pid : Nat} (hpid : c.procs[pid]? = some p)
    (hends : p.ends sid c.shared = true) (hsid : sid ∈ c.shared.monitors) :
    leavesMonitor c (.run pid a) = true := by
  cases p with
  | finalize pc caller =>
      cases pc with
      | commit loaded status =>
          rw [Proc.ends, Bool.and_eq_true, beq_iff_eq] at hends
          simp only [leavesMonitor, hpid, hends.1, hsid, decide_true]
      | _ => cases hends
  | _ => cases hends

theorem MonitorsWithin.step {pid : Nat} (hwf : Wf c) (h : MonitorsWithin c)
    (hpid : c.procs[pid]? = some p) (hstep : p.step cfg c.shared a = some (s', p'))
    (hkeeps : leavesMonitor c (.run pid a) = false) :
    ∀ sid ∈ s'.monitors, isOpen sid s'.sessions = true := by
  have hp := hwf.procs p (mem_of_getElem? hpid)
  rcases Proc.step_monitors hstep with hsub | ⟨req, session, rfl, rfl, hmonitors, hsessions⟩
  · intro sid hsid
    have hopen := h sid (hsub sid hsid)
    obtain ⟨r, hr⟩ := get?_of_isOpen hopen
    have hends : p.ends sid c.shared = false := by
      by_contra hends
      have hleaves := leavesMonitor_of_ends (a := a) hpid (by simpa using hends) (hsub sid hsid)
      exact Bool.false_ne_true (hkeeps.symm.trans hleaves)
    have hsame :=
      ((Proc.step_writes hstep).isOpen_eq hp (Option.isSome_iff_exists.mpr ⟨r, hr⟩) hends).2
    exact hsame.trans hopen
  · intro sid hsid
    rw [hsessions]
    rw [hmonitors] at hsid
    rcases List.mem_insert_iff.mp hsid with rfl | hold
    · simpa [leavesMonitor, hpid] using hkeeps
    · exact h sid hold

theorem MonitorsWithin.next (hwf : Wf c) (h : MonitorsWithin c) (hkeeps : leavesMonitor c l = false)
    (hnext : (platform cfg).next c l = some c') : MonitorsWithin c' := by
  rcases (platform cfg).next_cases hnext with ⟨e, s, rfl, hs, rfl⟩ | ⟨i, rfl, rfl⟩
    | ⟨pid, a, p, s, p', rfl, hpid, hstep, rfl⟩
  · cases e with
    | tick d =>
        cases hs
        exact h
    | erase userId =>
        cases hs
        intro sid hsid
        have hother := List.any_eq_false.mp hkeeps sid hsid
        change isOpen sid (c.shared.sessions.deleteWhere _) = true
        rw [isOpen_deleteWhere (h sid hsid)]
        simpa using hother
  · exact h
  · exact h.step hwf hpid hstep hkeeps

/-- Each of the three moves leaves a monitor registered with no open session behind it. -/
theorem not_monitorsWithin_of_leaves (hwf : Wf c) (h : MonitorsWithin c)
    (hleaves : leavesMonitor c l = true) (hnext : (platform cfg).next c l = some c') :
    ¬ MonitorsWithin c' := by
  intro hwithin
  rcases (platform cfg).next_cases hnext with ⟨e, s, rfl, hs, rfl⟩ | ⟨i, rfl, rfl⟩
    | ⟨pid, a, p, s, p', rfl, hpid, hstep, rfl⟩
  · cases e with
    | tick d => cases hleaves
    | erase userId =>
        cases hs
        obtain ⟨sid, hsid, howned⟩ := List.any_eq_true.mp hleaves
        have hopen : isOpen sid (c.shared.sessions.deleteWhere (·.userId == userId)) = true :=
          hwithin sid hsid
        rw [isOpen_deleteWhere (h sid hsid), howned] at hopen
        cases hopen
  · cases hleaves
  · have hstep' : p.step cfg c.shared a = some (s, p') := hstep
    cases p with
    | finalize pc caller =>
        cases pc with
        | commit loaded status =>
            have hsid : loaded.id ∈ c.shared.monitors := by
              simpa [leavesMonitor, hpid] using hleaves
            obtain ⟨r, hr⟩ := get?_of_isOpen (h loaded.id hsid)
            have hends : (Proc.finalize (.commit loaded status) caller).ends loaded.id c.shared
                = true := by
              simp [Proc.ends, hr]
            have hclosed := (Proc.closes hstep' (hwf.procs _ (mem_of_getElem? hpid)) hends).2
            have hsame : s.monitors = c.shared.monitors := by
              simp only [Proc.step, FinalizePc.step, hr] at hstep'
              cases hstep'
              rfl
            have hopen : isOpen loaded.id s.sessions = true := hwithin loaded.id (hsame.symm ▸ hsid)
            exact Bool.false_ne_true (hclosed.symm.trans hopen)
        | _ => simp [leavesMonitor, hpid] at hleaves
    | launch req pc =>
        cases pc with
        | startMonitor session =>
            obtain ⟨rfl, hclosed⟩ : a = .ok ∧ isOpen session.id c.shared.sessions = false := by
              simpa [leavesMonitor, hpid] using hleaves
            cases hstep'
            have hopen : isOpen session.id c.shared.sessions = true :=
              hwithin session.id (List.mem_insert_self ..)
            exact Bool.false_ne_true (hclosed.symm.trans hopen)
        | _ => simp [leavesMonitor, hpid] at hleaves
    | _ => simp [leavesMonitor, hpid] at hleaves

theorem monitorsWithin_iff (cfg : Config) (ls : List Move) :
    (platform cfg).Throughout MonitorsWithin World.init ls
      ↔ (platform cfg).Along (fun c l => leavesMonitor c l = false) World.init ls := by
  apply (platform cfg).throughout_iff_along (I := Wf) (fun _ _ _ hwf hnext => hwf.next hnext)
  · intro c l c' hwf h hnext
    constructor
    · intro hwithin
      by_contra hleaves
      exact not_monitorsWithin_of_leaves hwf h (by simpa using hleaves) hnext hwithin
    · exact fun hkeeps => h.next hwf hkeeps hnext
  · exact wf_init
  · intro sid hsid
    cases hsid

/-! ### After the metrics -/

structure Closed (sid : SessionId) (c : World) : Prop where
  lt : sid < c.shared.sessions.size
  closed : isOpen sid c.shared.sessions = false

/-- Whoever has the metrics of a session still to write finds it closed. -/
def MetricsAfterEnd (c : World) : Prop :=
  ∀ p ∈ c.procs, ∀ sid, p.owesMetrics sid = true → Closed sid c

theorem Proc.step_closed (h : p.step cfg s a = some (s', p')) (hp : p.Wf s.sessions)
    (hlt : sid < s.sessions.size) (hclosed : isOpen sid s.sessions = false) :
    sid < s'.sessions.size ∧ isOpen sid s'.sessions = false := by
  have hwrites := Proc.step_writes h
  have hev := hwrites.evolves hp
  refine ⟨Nat.lt_of_lt_of_le hlt hev.size_le, ?_⟩
  cases hrow : s'.sessions.get? sid with
  | none => rw [isOpen, hrow, Option.any_none]
  | some r' =>
      obtain ⟨r, hr, -⟩ := hev.same sid r' hlt hrow
      have hpresent : (s.sessions.get? sid).isSome := Option.isSome_iff_exists.mpr ⟨r, hr⟩
      cases hends : p.ends sid s with
      | true => exact (Proc.closes h hp hends).2
      | false => exact (hwrites.isOpen_eq hp hpresent hends).2.trans hclosed

theorem Closed.next (hwf : Wf c) (h : Closed sid c) (hnext : (platform cfg).next c l = some c') :
    Closed sid c' := by
  rcases (platform cfg).next_cases hnext with ⟨e, s, rfl, hs, rfl⟩ | ⟨i, rfl, rfl⟩
    | ⟨pid, a, p, s, p', rfl, hpid, hstep, rfl⟩
  · cases e with
    | tick d =>
        cases hs
        exact ⟨h.lt, h.closed⟩
    | erase userId =>
        cases hs
        refine ⟨by simpa [eraseSubject] using h.lt, ?_⟩
        by_contra hopen
        obtain ⟨r, hr, hunended⟩ := (Option.any_eq_true _ _).mp (eq_true_of_ne_false hopen)
        have hclosed := h.closed
        rw [isOpen, Table.get?_of_get?_deleteWhere hr, Option.any_some, hunended] at hclosed
        cases hclosed
  · exact ⟨h.lt, h.closed⟩
  · obtain ⟨hlt, hclosed⟩ :=
      Proc.step_closed hstep (hwf.procs p (mem_of_getElem? hpid)) h.lt h.closed
    exact ⟨hlt, hclosed⟩

/-- Only the commit of an end takes on the metrics of its session. -/
theorem Proc.owesMetrics_of_step (h : p.step cfg s a = some (s', p')) (hkeyed : Keyed s.sessions)
    (howes : p'.owesMetrics sid = true) : p.owesMetrics sid = true ∨ p.ends sid s = true := by
  cases p with
  | done => cases h
  | launch req pc =>
      have hrelease := (LaunchPc.pays sid h).release
      rw [if_pos (Proc.owesRelease_of_owesMetrics howes)] at hrelease
      simp [owesRelease, releasesFor, ends] at hrelease
  | finalize pc caller =>
      cases pc with
      | commit loaded status =>
          simp only [step, FinalizePc.step] at h
          split at h
          · cases h
            rw [Caller.raise_owes.1] at howes
            cases howes
          · rename_i current hrow
            cases h
            have hid : (loaded.id == sid) = true := howes
            rw [beq_iff_eq] at hid
            subst hid
            right
            simp [ends, hrow]
      | refresh session wasActive =>
          simp only [step, FinalizePc.step] at h
          split at h
          · cases h
            rw [Caller.raise_owes.1] at howes
            cases howes
          · rename_i row hrow
            cases h
            rw [owesMetrics, hkeyed _ _ hrow] at howes
            exact Or.inl howes
      | metrics session wasActive =>
          simp only [step, FinalizePc.step] at h
          split at h
          · cases h
            rw [Caller.raise_owes.1] at howes
            cases howes
          · cases h
            cases howes
          · cases h
            cases howes
      | release session wasActive =>
          cases h
          rw [Caller.resume_owes.1] at howes
          cases howes
  | endLabRead | endSessionRead | sweepRead | sweepState | reapGet =>
      simp only [step] at h
      repeat' split at h
      all_goals
        cases h
        first
          | cases howes
          | rw [markEndedAndFinalize_owes.1] at howes
            cases howes
          | rw [Caller.resume_owes.1] at howes
            cases howes
  | endLabStop =>
      cases h
      rw [markEndedAndFinalize_owes.1] at howes
      cases howes
  | reapSelect | teardown =>
      cases h
      rw [reapNext_owes.1] at howes
      cases howes
  | reapStop =>
      cases h
      cases howes

theorem MetricsAfterEnd.next (hwf : Wf c) (h : MetricsAfterEnd c)
    (hnext : (platform cfg).next c l = some c') : MetricsAfterEnd c' := by
  have hstable : ∀ sid, Closed sid c → Closed sid c' := fun sid hclosed => hclosed.next hwf hnext
  have hkept : ∀ q ∈ c.procs, ∀ sid, q.owesMetrics sid = true → Closed sid c' :=
    fun q hq sid howes => hstable sid (h q hq sid howes)
  rcases (platform cfg).next_cases hnext with ⟨e, s, rfl, hs, rfl⟩ | ⟨i, rfl, rfl⟩
    | ⟨pid, a, p, s, p', rfl, hpid, hstep, rfl⟩
  · exact hkept
  · apply forall_mem_append hkept
    intro sid howes
    have howesNot : ((platform cfg).spawn i).owesMetrics sid = false := (Request.spawn_owes i).1
    exact absurd howes (by simp [howesNot])
  · apply forall_mem_set hkept
    intro sid howes
    have hstep' : p.step cfg c.shared a = some (s, p') := hstep
    have hmem := mem_of_getElem? hpid
    rcases Proc.owesMetrics_of_step hstep' hwf.keyed howes with hold | hends
    · exact hstable sid (h p hmem sid hold)
    · have hclosed := (Proc.closes hstep' (hwf.procs p hmem) hends).2
      have hpresent : (c.shared.sessions.get? sid).isSome := by
        cases p with
        | finalize pc caller =>
            cases pc with
            | commit loaded status => exact (Bool.and_eq_true_iff.mp hends).2
            | _ => cases hends
        | _ => cases hends
      obtain ⟨r, hr⟩ := Option.isSome_iff_exists.mp hpresent
      have hlt := Table.lt_size_of_get? hr
      have hev := (Proc.step_writes hstep').evolves (hwf.procs p hmem)
      exact ⟨Nat.lt_of_lt_of_le hlt hev.size_le, hclosed⟩

theorem MetricsAfterEnd.closed_of_computes (h : MetricsAfterEnd c)
    (hmark : computesMetrics sid c l = true) : Closed sid c := by
  cases l with
  | env e => cases hmark
  | spawn i => cases hmark
  | run pid a =>
      obtain ⟨p, hpid, hcomputes⟩ := (Option.any_eq_true _ _).mp hmark
      apply h p (mem_of_getElem? hpid)
      cases p with
      | finalize pc caller =>
          cases pc with
          | metrics session wasActive => exact (Bool.and_eq_true_iff.mp hcomputes).1
          | _ => cases hcomputes
      | _ => cases hcomputes

/-- **No monitor outlives its session.** In a run none of whose moves leaves a monitor, every
registered monitor has an open session, and from the computation of a session's metrics on its
monitor, which alone records its events and interventions, is not registered. -/
theorem monitors_within_sessions (cfg : Config) (ls : List Move) (c : World)
    (hkeeps : (platform cfg).Along (fun c l => leavesMonitor c l = false) World.init ls)
    (hexec : (platform cfg).exec World.init ls = some c) :
    (∀ sid ∈ c.shared.monitors, isOpen sid c.shared.sessions = true)
      ∧ ∀ sid, 0 < (platform cfg).countMoves (computesMetrics sid) World.init ls →
          sid ∉ c.shared.monitors := by
  have hwithin : MonitorsWithin c :=
    System.Throughout.exec _ ((monitorsWithin_iff cfg ls).mpr hkeeps) hexec
  refine ⟨hwithin, ?_⟩
  intro sid hcomputed hregistered
  have hinv : (platform cfg).Throughout (fun c => Wf c ∧ MetricsAfterEnd c) World.init ls := by
    apply (platform cfg).throughout_of_preserved
    · exact fun c l c' h hnext => ⟨h.1.next hnext, h.2.next h.1 hnext⟩
    · refine ⟨wf_init, ?_⟩
      intro p hp
      cases hp
  have hclosed : Closed sid ((platform cfg).last World.init ls) := by
    apply (platform cfg).last_of_countMoves_pos _ _ hinv (Or.inr hcomputed)
    · intro c l c' hc hmark hnext
      exact (hc.2.closed_of_computes hmark).next hc.1 hnext
    · exact fun c l c' hc h hnext => h.next hc.1 hnext
  rw [(platform cfg).last_of_exec hexec] at hclosed
  exact Bool.false_ne_true (hclosed.closed.symm.trans (hwithin sid hregistered))

def launched : List Move :=
  [Label.spawn (Request.launch "ann" "vlan")] ++ List.replicate 13 (Label.run 0 Answer.ok)

def launchedAndEnded : List Move :=
  launched ++ [Label.spawn (Request.endLab 0 "ann")] ++ List.replicate 7 (Label.run 1 Answer.ok)

theorem monitors_within_sessions_launchedAndEnded :
    ∃ c, (platform (.uniform 10 2 (minutes 480))).exec World.init launchedAndEnded = some c
      ∧ (∀ sid ∈ c.shared.monitors, isOpen sid c.shared.sessions = true)
        ∧ 0 ∉ c.shared.monitors := by
  have hsome :
      ((platform (.uniform 10 2 (minutes 480))).exec World.init launchedAndEnded).isSome := by
    decide
  obtain ⟨c, hexec⟩ := Option.isSome_iff_exists.mp hsome
  obtain ⟨hwithin, hsilent⟩ := monitors_within_sessions _ _ c (by decide) hexec
  exact ⟨c, hexec, hwithin, hsilent 0 (by decide)⟩

def sweptAway : List Move :=
  launched
    ++ [Label.spawn (Request.state 0 "ann"), Label.run 1 Answer.ok, Label.run 1 Answer.notFound]
    ++ List.replicate 4 (Label.run 1 Answer.ok)

/-- The learner ends the lab between the commit of the launch and the start of its monitor. -/
def endedBeforeStart : List Move :=
  [Label.spawn (Request.launch "ann" "vlan")] ++ List.replicate 12 (Label.run 0 Answer.ok)
    ++ [Label.spawn (Request.endLab 0 "ann")] ++ List.replicate 7 (Label.run 1 Answer.ok)
    ++ [Label.run 0 Answer.ok]

def erasedUnderMonitor : List Move :=
  launched ++ [Label.env (Env.erase "ann")]

/-- The run ends with everybody at rest, a registered monitor, and no open session for it. -/
def LeavesAMonitor (ls : List Move) : Prop :=
  ∃ c, (platform (.uniform 10 2 (minutes 480))).exec World.init ls = some c
    ∧ (∀ p ∈ c.procs, p = .done) ∧ ¬ MonitorsWithin c

theorem leavesAMonitor_of_exec {ls : List Move}
    (hrun : ((platform (.uniform 10 2 (minutes 480))).exec World.init ls).map
        (fun c => (c.procs.all fun p => decide (p = .done), c.shared.monitors,
          isOpen 0 c.shared.sessions))
        = some (true, [0], false)) :
    LeavesAMonitor ls := by
  obtain ⟨c, hexec, hlast⟩ := Option.map_eq_some_iff.mp hrun
  rw [Prod.mk.injEq, Prod.mk.injEq, List.all_eq_true] at hlast
  obtain ⟨hdone, hmonitors, hclosed⟩ := hlast
  refine ⟨c, hexec, fun p hp => of_decide_eq_true (hdone p hp), ?_⟩
  intro hwithin
  have hopen := hwithin 0 (hmonitors ▸ List.mem_singleton.mpr rfl)
  exact Bool.false_ne_true (hclosed.symm.trans hopen)

/-- **Monitors outlive their sessions**, in each of the three ways. -/
theorem monitor_outlives_session :
    LeavesAMonitor sweptAway ∧ LeavesAMonitor endedBeforeStart
      ∧ LeavesAMonitor erasedUnderMonitor :=
  ⟨leavesAMonitor_of_exec (by decide), leavesAMonitor_of_exec (by decide),
    leavesAMonitor_of_exec (by decide)⟩

end OnlinetLabs.Sessions
