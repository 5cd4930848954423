import OnlinetLabs.Sessions.WellFormed

/-!
# Queue slots

A slot is taken in the launch endpoint, before there is a row, and given back either there or by
whoever ends the row. So it has an owner at every moment: first the request, from the insert on the
row, and from the commit of `ended_at` on the process that wrote it. Slots are conserved as long as
every hand-over has two sides. Three steps can break that, and `Proc.keepsSlot` says of each when it
does not: the insert of a row by a request that holds no slot, the finalization of a row that has
been ended since, and the end of a row that holds no slot any more.

The queue has one counter for each lab and one for all, and the statements below are about both: a
`Scope` is the choice.
-/

namespace OnlinetLabs.Sessions

open Interleaving

variable {cfg : Config} {s s' : Shared} {p p' : Proc} {a : Answer} {c c' : World} {l : Move}
  {req : LaunchRequest} {scope : Scope}

def LearningSession.holdsIn (scope : Scope) (r : LearningSession) : Bool :=
  r.stillLive && scope.covers r.labSlug

/-- Whether a launch holds a slot of its own: after the acquire and before the insert, and again
once it has written `error` on its row. -/
def LaunchPc.holdsSlot : LaunchPc → Bool
  | .dequeue => true
  | .relookup isNew => isNew
  | .resume isNew => isNew
  | .checks isNew => isNew
  | .lock isNew => isNew
  | .recount isNew => isNew
  | .insert isNew => isNew
  | .finalizeRefresh isNew _ .error => isNew
  | .release => true
  | _ => false

/-- The lab of the slot a process has still to give back or to hand over. An end in progress holds
the slot of the row it has marked. -/
def Proc.slot : Proc → Option Slug
  | .launch req pc => if pc.holdsSlot then some req.labSlug else none
  | .finalize (.refresh session _) _ => some session.labSlug
  | .finalize (.metrics session _) _ => some session.labSlug
  | .finalize (.release session _) _ => some session.labSlug
  | _ => none

def Proc.holdsIn (scope : Scope) (p : Proc) : Bool := p.slot.any scope.covers

/-- The slots that somebody owns: the sessions created and not ended, the launches in flight that
hold one, and the ends that have not given theirs back yet. -/
def slotsHeld (scope : Scope) (c : World) : Nat :=
  c.shared.sessions.count (·.holdsIn scope) + c.procs.countP (Proc.holdsIn scope)

/-- `active_sessions:{lab}` and `active_sessions_total` count the slots that are held. -/
def SlotsConserved (c : World) : Prop :=
  ∀ scope : Scope, c.shared.queue.counter scope = slotsHeld scope c

/-- The process is about to make a successful `try_acquire`. -/
def Proc.acquires (cfg : Config) (scope : Scope) (s : Shared) : Proc → Bool
  | .launch req .acquire =>
      (s.queue.tryAcquire (cfg.capacity.caps req.labSlug) req.labSlug).1 && scope.covers req.labSlug
  | _ => false

/-- The process is about to call `release`. -/
def Proc.releases (scope : Scope) : Proc → Bool
  | .launch req .release => scope.covers req.labSlug
  | .finalize (.release session _) _ => scope.covers session.labSlug
  | _ => false

def acquires (cfg : Config) (scope : Scope) (c : World) : Move → Bool
  | .run pid _ => (c.procs[pid]?).any (·.acquires cfg scope c.shared)
  | _ => false

def releases (scope : Scope) (c : World) : Move → Bool
  | .run pid _ => (c.procs[pid]?).any (·.releases scope)
  | _ => false

/-- The step hands a slot over with two sides, or hands none over.

A row is inserted only by a request that took a slot. A finalization finds its row not ended, or it
succeeds in writing `active`. An end finds its row holding a slot: neither ended by another end
since the row was loaded, nor left behind by a failed launch. -/
def Proc.keepsSlot (cfg : Config) (s : Shared) : Proc → Bool
  | .launch req (.insert isNew) =>
      isNew || decide (req.userId ∈ s.erased) || liveTwin s.sessions (provisioningRow cfg s req)
  | .launch _ (.finalizeCommit _ loaded result) =>
      (s.sessions.get? loaded.id).all fun current =>
        current.endedAt.isNone
          || (result.isActive && !liveTwin s.sessions (result.assign current))
  | .finalize (.commit loaded _) _ => (s.sessions.get? loaded.id).all (·.stillLive)
  | _ => true

def keepsSlots (cfg : Config) (c : World) : Move → Bool
  | .run pid _ => (c.procs[pid]?).all (·.keepsSlot cfg c.shared)
  | _ => true

/-- Requests, background passes and the clock, but no account is erased. -/
def withoutErasure : Move → Bool
  | .env (.erase _) => false
  | _ => true

/-! ### What goes with the counts -/

def Complete (sessions : SessionTable) : Prop :=
  ∀ k < sessions.size, (sessions.get? k).isSome

/-- A launch that has inserted its row took a slot for it. -/
def Proc.tookSlot : Proc → Prop
  | .launch _ (.create isNew _) => isNew = true
  | .launch _ (.finalizeGet isNew _ _) => isNew = true
  | .launch _ (.finalizeCommit isNew _ _) => isNew = true
  | .launch _ (.finalizeRefresh isNew _ _) => isNew = true
  | _ => True

theorem Complete.get? (h : Complete s.sessions) {sid : SessionId} (hlt : sid < s.sessions.size) :
    s.sessions.get? sid ≠ none :=
  Option.ne_none_iff_isSome.mpr (h sid hlt)

theorem Writes.complete {sessions : SessionTable} (h : Writes cfg s p sessions p')
    (hcomplete : Complete s.sessions) : Complete sessions := by
  intro k hk
  cases h with
  | nothing => exact hcomplete k hk
  | insert hfree =>
      rw [Table.get?_insert]
      split
      · rfl
      · rename_i hne
        rw [Table.size_insert] at hk
        exact hcomplete k (Nat.lt_of_le_of_ne (Nat.le_of_lt_succ hk) hne)
  | finalize hrow hfree =>
      rw [Table.get?_set hrow]
      rw [Table.size_set] at hk
      split
      · rfl
      · exact hcomplete k hk
  | markEnded hrow =>
      rw [Table.get?_set hrow]
      rw [Table.size_set] at hk
      split
      · rfl
      · exact hcomplete k hk

theorem launch_holdsIn {pc : LaunchPc} :
    (Proc.launch req pc).holdsIn scope = (pc.holdsSlot && scope.covers req.labSlug) := by
  cases hslot : pc.holdsSlot <;> simp [Proc.holdsIn, Proc.slot, hslot]

/-- A request that gives up keeps the slot it took until it has released it. -/
theorem releaseIfNew_holdsIn {pc : LaunchPc} {isNew : Bool} (h : pc.holdsSlot = isNew) :
    (releaseIfNew req isNew).holdsIn scope = (Proc.launch req pc).holdsIn scope := by
  rw [launch_holdsIn, h]
  cases isNew <;> rfl

theorem reapNext_holdsIn {rest : List LearningSession} : (reapNext rest).holdsIn scope = false := by
  cases rest <;> rfl

theorem Caller.resume_holdsIn {caller : Caller} {session : LearningSession} :
    (caller.resume session).holdsIn scope = false := by
  cases caller with
  | endSession | sweep => rfl
  | endLab =>
      simp only [resume]
      split <;> rfl
  | reaper gns3Sid rest =>
      cases gns3Sid with
      | none => exact reapNext_holdsIn
      | some gns3Sid => rfl

theorem markEndedAndFinalize_holdsIn {session : LearningSession} {status : EndStatus}
    {caller : Caller} : (markEndedAndFinalize session status caller).holdsIn scope = false := by
  unfold markEndedAndFinalize
  split
  · exact Caller.resume_holdsIn
  · rfl

/-! ### One step -/

/-- What one step does to the counter, to the rows and to the process, where `into` and `out` say
that it acquires or releases a slot of the scope: the counter follows the calls, and what is held
changes hands. -/
structure Balanced (scope : Scope) (s s' : Shared) (p p' : Proc) (into out : Bool) : Prop where
  counter : s'.queue.counter scope + (if out then 1 else 0)
    = s.queue.counter scope + (if into then 1 else 0)
  held : s'.sessions.count (·.holdsIn scope) + (if p'.holdsIn scope then 1 else 0)
      + (if out then 1 else 0)
    = s.sessions.count (·.holdsIn scope) + (if p.holdsIn scope then 1 else 0)
      + (if into then 1 else 0)

/-- A step that touches neither the counters nor the rows, and leaves the slot where it was. -/
theorem Balanced.keep (hcounter : s'.queue.counter scope = s.queue.counter scope)
    (hsessions : s'.sessions = s.sessions) (hslot : p'.holdsIn scope = p.holdsIn scope) :
    Balanced scope s s' p p' false false where
  counter := by simp [hcounter]
  held := by simp [hsessions, hslot]

/-- The commit of an `error` or `active` finalization, on a row its launch has still to finalize. -/
theorem holdsIn_assign {current : LearningSession} {result : Provisioned} {isNew : Bool}
    (scope : Scope) (sid : SessionId) (hawaits : current.AwaitsGns3)
    (hlab : current.labSlug = req.labSlug)
    (hnew : isNew = true) (hkeep : current.endedAt.isNone = true ∨ result.isActive = true) :
    (if (result.assign current).holdsIn scope then 1 else 0)
        + (if (Proc.launch req (.finalizeRefresh isNew sid result)).holdsIn scope then 1 else 0)
      = if current.holdsIn scope then 1 else 0 := by
  subst hnew
  cases result with
  | active gns3 =>
      rcases hawaits.2 with ⟨hprov, hopen⟩ | ⟨hend, hended⟩
      · simp [Provisioned.assign, LearningSession.holdsIn, LearningSession.stillLive, Proc.holdsIn,
          Proc.slot, LaunchPc.holdsSlot, Status.isLive, hprov, hopen]
      · simp [Provisioned.assign, LearningSession.holdsIn, LearningSession.stillLive, Proc.holdsIn,
          Proc.slot, LaunchPc.holdsSlot, Option.isSome_iff_ne_none.mp hended]
  | error =>
      have hopen : current.endedAt = none := by
        rcases hkeep with hnone | hactive
        · simpa using hnone
        · cases hactive
      have hprov : current.status = .provisioning := by
        rcases hawaits.2 with ⟨hprov, -⟩ | ⟨-, hended⟩
        · exact hprov
        · simp [hopen] at hended
      simp [Provisioned.assign, LearningSession.holdsIn, LearningSession.stillLive, Proc.holdsIn,
        Proc.slot, LaunchPc.holdsSlot, Status.isLive, hprov, hopen, hlab]

theorem LaunchPc.insert_balanced {isNew : Bool}
    (h : (LaunchPc.insert isNew).step cfg s req a = some (s', p'))
    (hkeep : (Proc.launch req (.insert isNew)).keepsSlot cfg s = true) :
    Balanced scope s s' (.launch req (.insert isNew)) p'
      ((Proc.launch req (.insert isNew)).acquires cfg scope s)
      ((Proc.launch req (.insert isNew)).releases scope) := by
  simp only [step] at h
  split at h
  · cases h
    exact .keep rfl rfl (releaseIfNew_holdsIn rfl)
  · rename_i hno
    cases h
    -- the request's slot becomes the row's
    have htook : isNew = true := by
      simpa [Proc.keepsSlot, not_or.mp hno] using hkeep
    subst htook
    refine ⟨rfl, ?_⟩
    change (s.sessions.insert (provisioningRow cfg s req)).count _ + _ + _ = _
    rw [Table.count_insert, launch_holdsIn, launch_holdsIn]
    simp [Proc.acquires, Proc.releases, holdsSlot, LearningSession.holdsIn,
      LearningSession.stillLive, provisioningRow, Status.isLive]

/-- The row that is committed takes over the slot of the request. -/
theorem LaunchPc.finalizeCommit_balanced {isNew : Bool} {loaded : LearningSession}
    {result : Provisioned}
    (h : (LaunchPc.finalizeCommit isNew loaded result).step cfg s req a = some (s', p'))
    (hkeyed : Keyed s.sessions) (hone : OneLive s.sessions) (hcomplete : Complete s.sessions)
    (hp : (LaunchPc.finalizeCommit isNew loaded result).Wf s.sessions req)
    (hnew : (Proc.launch req (.finalizeCommit isNew loaded result)).tookSlot)
    (hkeep : (Proc.launch req (.finalizeCommit isNew loaded result)).keepsSlot cfg s = true) :
    Balanced scope s s' (.launch req (.finalizeCommit isNew loaded result)) p'
      ((Proc.launch req (.finalizeCommit isNew loaded result)).acquires cfg scope s)
      ((Proc.launch req (.finalizeCommit isNew loaded result)).releases scope) := by
  simp only [step] at h
  split at h
  · rename_i hnone
    exact absurd hnone (hcomplete.get? hp.1.lt)
  · rename_i current hrow
    obtain ⟨huser, hlab, hawaits⟩ := hp.1.row current hrow
    rw [LearningSession.flush_assign hp.2] at h
    simp only [Proc.keepsSlot, hrow, Option.all_some, Bool.or_eq_true, Bool.and_eq_true,
      Bool.not_eq_true'] at hkeep
    have hfree : liveTwin s.sessions (result.assign current) = false := by
      rcases hkeep with hopen | ⟨-, hfree⟩
      · rcases hawaits.2 with ⟨hprov, -⟩ | ⟨-, hended⟩
        · exact hone.liveTwin_assign hkeyed hrow (by rw [hprov]; rfl)
        · simp [Option.isSome_iff_ne_none.mp hended] at hopen
      · exact hfree
    simp only [hfree, Bool.false_eq_true, if_false] at h
    cases h
    refine ⟨rfl, ?_⟩
    have hcount := Table.count_set (·.holdsIn scope) hrow (result.assign current)
    have hhand := holdsIn_assign scope loaded.id hawaits hlab hnew
      (hkeep.imp_right And.left)
    have hbefore : (Proc.launch req (.finalizeCommit isNew loaded result)).holdsIn scope = false :=
      rfl
    simp only [Proc.acquires, Proc.releases, hbefore, Bool.false_eq_true, if_false]
    omega

theorem LaunchPc.step_balanced {pc : LaunchPc} (h : pc.step cfg s req a = some (s', p'))
    (hkeyed : Keyed s.sessions) (hone : OneLive s.sessions) (hcomplete : Complete s.sessions)
    (hp : pc.Wf s.sessions req) (hnew : (Proc.launch req pc).tookSlot)
    (hkeep : (Proc.launch req pc).keepsSlot cfg s = true)
    (hpos : ∀ sc : Scope, (Proc.launch req pc).holdsIn sc = true → 0 < s.queue.counter sc) :
    Balanced scope s s' (.launch req pc) p' ((Proc.launch req pc).acquires cfg scope s)
      ((Proc.launch req pc).releases scope) := by
  cases pc with
  | lookup =>
      simp only [step] at h
      split at h
      all_goals
        cases h
        exact .keep rfl rfl rfl
  | acquire =>
      simp only [step] at h
      split at h
      · rename_i queue hacquire
        cases h
        have hcounter := QueueState.tryAcquire_granted scope hacquire
        constructor
        · simpa [Proc.acquires, Proc.releases, hacquire] using hcounter
        · simp [Proc.acquires, Proc.releases, hacquire, Proc.holdsIn, Proc.slot, holdsSlot]
      · rename_i queue hacquire
        cases h
        have hqueue := QueueState.tryAcquire_refused hacquire
        have hinto : (Proc.launch req .acquire).acquires cfg scope s = false := by
          simp [Proc.acquires, hacquire]
        rw [hinto]
        exact .keep (by rw [hqueue]) rfl rfl
  | dequeue =>
      cases h
      exact .keep QueueState.counter_dequeue rfl rfl
  | enqueue =>
      cases h
      exact .keep QueueState.counter_enqueue rfl rfl
  | relookup isNew =>
      simp only [step] at h
      split at h
      all_goals
        cases h
        exact .keep rfl rfl rfl
  | resume isNew =>
      cases h
      exact .keep rfl rfl (releaseIfNew_holdsIn rfl)
  | checks isNew =>
      simp only [step] at h
      repeat' split at h
      · cases h
        exact .keep rfl rfl (releaseIfNew_holdsIn rfl)
      · cases h
        exact .keep rfl rfl rfl
      · cases h
        exact .keep rfl rfl (releaseIfNew_holdsIn rfl)
  | lock isNew =>
      simp only [step] at h
      split at h
      · cases h
      · cases h
        exact .keep rfl rfl rfl
  | recount isNew =>
      simp only [step] at h
      split at h
      · cases h
        exact .keep rfl rfl (releaseIfNew_holdsIn rfl)
      · cases h
        exact .keep rfl rfl rfl
  | insert isNew => exact insert_balanced h hkeep
  | create isNew sid =>
      simp only [step] at h
      split at h
      all_goals
        cases h
        exact .keep rfl rfl rfl
  | finalizeGet isNew sid result =>
      simp only [step] at h
      split at h
      · rename_i hnone
        exact absurd hnone (hcomplete.get? hp.lt)
      · cases h
        exact .keep rfl rfl rfl
  | finalizeCommit isNew loaded result =>
      exact finalizeCommit_balanced h hkeyed hone hcomplete hp hnew hkeep
  | finalizeRefresh isNew sid result =>
      obtain ⟨session, hsession⟩ := Option.ne_none_iff_exists'.mp (hcomplete.get? hp)
      cases result with
      | error =>
          simp only [step, hsession] at h
          cases h
          exact .keep rfl rfl (releaseIfNew_holdsIn rfl)
      | active gns3 =>
          simp only [step, hsession] at h
          split at h
          all_goals
            cases h
            exact .keep rfl rfl rfl
  | startMonitor session =>
      cases h
      exact .keep rfl rfl rfl
  | release =>
      cases h
      have hcounter := QueueState.counter_release (q := s.queue) scope fun sc hsc =>
        hpos sc (by rw [launch_holdsIn]; exact hsc)
      constructor
      · exact hcounter
      · cases hcov : scope.covers req.labSlug <;>
          simp [Proc.acquires, Proc.releases, holdsSlot, Proc.holdsIn, Proc.slot, hcov]

theorem FinalizePc.step_balanced {pc : FinalizePc} {caller : Caller}
    (h : pc.step s caller a = some (s', p')) (hcomplete : Complete s.sessions)
    (hp : pc.Wf s.sessions) (hkeep : (Proc.finalize pc caller).keepsSlot cfg s = true)
    (hpos : ∀ sc : Scope, (Proc.finalize pc caller).holdsIn sc = true → 0 < s.queue.counter sc) :
    Balanced scope s s' (.finalize pc caller) p' false
      ((Proc.finalize pc caller).releases scope) := by
  cases pc with
  | commit loaded status =>
      obtain ⟨current, hrow⟩ := Option.ne_none_iff_exists'.mp (hcomplete.get? hp.1.1)
      simp only [step, hrow] at h
      rw [LearningSession.flush_markEnded hp.2.1 hp.2.2] at h
      cases h
      -- the row's slot becomes the process's
      refine ⟨rfl, ?_⟩
      have hlab : current.labSlug = loaded.labSlug := (hp.1.2 current hrow).labSlug
      have hholds : current.stillLive = true := by
        simpa [Proc.keepsSlot, hrow] using hkeep
      have hcount := Table.count_set (·.holdsIn scope) hrow (markEnded s.now status current)
      have hended : (markEnded s.now status current).holdsIn scope = false := by
        simp [markEnded, LearningSession.holdsIn, LearningSession.stillLive]
      have hafter : (Proc.finalize (.refresh (markEnded s.now status loaded)
          (loaded.status == .active)) caller).holdsIn scope = current.holdsIn scope := by
        simp [Proc.holdsIn, Proc.slot, markEnded, LearningSession.holdsIn, hholds, hlab]
      have hbefore : (Proc.finalize (.commit loaded status) caller).holdsIn scope = false := rfl
      rw [hended] at hcount
      simp only [hafter, hbefore, Proc.releases, Bool.false_eq_true, if_false] at hcount ⊢
      omega
  | refresh session wasActive =>
      obtain ⟨row, hrow⟩ := Option.ne_none_iff_exists'.mp (hcomplete.get? hp.1)
      simp only [step, hrow] at h
      cases h
      have hlab : row.labSlug = session.labSlug := (hp.2 row hrow).labSlug
      exact .keep rfl rfl (by simp [Proc.holdsIn, Proc.slot, hlab])
  | metrics session wasActive =>
      obtain ⟨row, hrow⟩ := Option.ne_none_iff_exists'.mp (hcomplete.get? hp.1)
      simp only [step, hrow] at h
      cases h
      exact .keep rfl rfl rfl
  | release session wasActive =>
      cases h
      have hcounter := QueueState.counter_release (q := s.queue) scope fun sc hsc =>
        hpos sc hsc
      refine ⟨hcounter, ?_⟩
      rw [Caller.resume_holdsIn]
      cases hcov : scope.covers session.labSlug <;>
        simp [Proc.releases, Proc.holdsIn, Proc.slot, hcov]

theorem Proc.step_balanced (h : p.step cfg s a = some (s', p')) (hkeyed : Keyed s.sessions)
    (hone : OneLive s.sessions) (hcomplete : Complete s.sessions) (hp : p.Wf s.sessions)
    (hnew : p.tookSlot) (hkeep : p.keepsSlot cfg s = true)
    (hpos : ∀ sc : Scope, p.holdsIn sc = true → 0 < s.queue.counter sc) :
    Balanced scope s s' p p' (p.acquires cfg scope s) (p.releases scope) := by
  cases p with
  | launch req pc => exact LaunchPc.step_balanced h hkeyed hone hcomplete hp hnew hkeep hpos
  | finalize pc caller => exact FinalizePc.step_balanced h hcomplete hp.1 hkeep hpos
  | done => cases h
  | endLabRead | sweepRead =>
      simp only [step] at h
      repeat' split at h
      all_goals
        cases h
        exact .keep rfl rfl rfl
  | endSessionRead | sweepState =>
      simp only [step] at h
      split at h
      all_goals
        cases h
        first
          | exact .keep rfl rfl rfl
          | exact .keep rfl rfl markEndedAndFinalize_holdsIn
  | reapGet =>
      simp only [step] at h
      split at h
      · cases h
        exact .keep rfl rfl Caller.resume_holdsIn
      · cases h
        exact .keep rfl rfl markEndedAndFinalize_holdsIn
  | endLabStop =>
      cases h
      exact .keep rfl rfl markEndedAndFinalize_holdsIn
  | reapSelect | teardown =>
      cases h
      exact .keep rfl rfl reapNext_holdsIn
  | reapStop =>
      cases h
      exact .keep rfl rfl rfl

theorem releaseIfNew_tookSlot {isNew : Bool} : (releaseIfNew req isNew).tookSlot := by
  cases isNew <;> trivial

theorem reapNext_tookSlot {rest : List LearningSession} : (reapNext rest).tookSlot := by
  cases rest <;> trivial

theorem Caller.resume_tookSlot {caller : Caller} {session : LearningSession} :
    (caller.resume session).tookSlot := by
  cases caller with
  | endSession | sweep => trivial
  | endLab =>
      simp only [resume]
      split <;> trivial
  | reaper gns3Sid rest =>
      cases gns3Sid with
      | none => exact reapNext_tookSlot
      | some gns3Sid => trivial

theorem Caller.raise_tookSlot {caller : Caller} : caller.raise.tookSlot := by
  cases caller with
  | reaper gns3Sid rest => exact reapNext_tookSlot
  | _ => trivial

theorem markEndedAndFinalize_tookSlot {session : LearningSession} {status : EndStatus}
    {caller : Caller} : (markEndedAndFinalize session status caller).tookSlot := by
  unfold markEndedAndFinalize
  split
  · exact Caller.resume_tookSlot
  · trivial

theorem LaunchPc.step_tookSlot {pc : LaunchPc} (h : pc.step cfg s req a = some (s', p'))
    (hnew : (Proc.launch req pc).tookSlot) (hkeep : (Proc.launch req pc).keepsSlot cfg s = true) :
    p'.tookSlot := by
  cases pc with
  | insert isNew =>
      simp only [step] at h
      split at h
      · cases h
        exact releaseIfNew_tookSlot
      · rename_i hno
        cases h
        have htook : isNew = true := by
          simpa [Proc.keepsSlot, not_or.mp hno] using hkeep
        exact htook
  | lock isNew =>
      simp only [step] at h
      split at h
      · cases h
      · cases h
        trivial
  | lookup | acquire | relookup | checks | recount | create | finalizeGet | finalizeCommit
  | finalizeRefresh =>
      simp only [step] at h
      repeat' split at h
      all_goals
        cases h
        first
          | trivial
          | exact hnew
          | exact releaseIfNew_tookSlot
  | resume isNew =>
      cases h
      exact releaseIfNew_tookSlot
  | dequeue | enqueue | startMonitor | release =>
      cases h
      trivial

theorem Proc.step_tookSlot (h : p.step cfg s a = some (s', p')) (hnew : p.tookSlot)
    (hkeep : p.keepsSlot cfg s = true) : p'.tookSlot := by
  cases p with
  | launch req pc => exact LaunchPc.step_tookSlot h hnew hkeep
  | done => cases h
  | finalize pc caller =>
      cases pc with
      | commit | refresh | metrics =>
          simp only [step, FinalizePc.step] at h
          split at h
          all_goals
            cases h
            first
              | trivial
              | exact Caller.raise_tookSlot
      | release =>
          cases h
          exact Caller.resume_tookSlot
  | endLabRead | endSessionRead | sweepRead | sweepState | reapGet =>
      simp only [step] at h
      repeat' split at h
      all_goals
        cases h
        first
          | trivial
          | exact markEndedAndFinalize_tookSlot
          | exact Caller.resume_tookSlot
  | endLabStop =>
      cases h
      exact markEndedAndFinalize_tookSlot
  | reapSelect | teardown =>
      cases h
      exact reapNext_tookSlot
  | reapStop =>
      cases h
      trivial

/-! ### Whole runs -/

structure SlotInv (c : World) : Prop where
  wf : Wf c
  complete : Complete c.shared.sessions
  took : ∀ p ∈ c.procs, p.tookSlot
  conserved : SlotsConserved c

theorem slotInv_init : SlotInv World.init where
  wf := wf_init
  complete := fun _ hk => absurd hk (Nat.not_lt_zero _)
  took := fun _ hp => absurd hp List.not_mem_nil
  conserved := fun scope => by cases scope <;> rfl

/-- What a process holds is among the slots that are held, so no release meets the clamp. -/
theorem SlotInv.counter_pos (h : SlotInv c) {pid : Nat} (hpid : c.procs[pid]? = some p)
    (hholds : p.holdsIn scope = true) : 0 < c.shared.queue.counter scope := by
  have hcount : 0 < c.procs.countP (Proc.holdsIn scope) :=
    List.countP_pos_iff.mpr ⟨p, mem_of_getElem? hpid, hholds⟩
  rw [h.conserved scope]
  exact Nat.add_pos_right _ hcount

theorem SlotInv.balanced (h : SlotInv c) (scope : Scope) {pid : Nat} (hpid : c.procs[pid]? = some p)
    (hstep : p.step cfg c.shared a = some (s', p')) (hkeep : p.keepsSlot cfg c.shared = true) :
    Balanced scope c.shared s' p p' (p.acquires cfg scope c.shared) (p.releases scope) := by
  have hmem := mem_of_getElem? hpid
  exact Proc.step_balanced hstep h.wf.keyed h.wf.oneLive h.complete (h.wf.procs p hmem)
    (h.took p hmem) hkeep fun sc hsc => h.counter_pos hpid hsc

theorem SlotInv.next (h : SlotInv c) (hkeep : keepsSlots cfg c l = true)
    (hhist : withoutErasure l = true) (hnext : (platform cfg).next c l = some c') :
    SlotInv c' := by
  have hwf' := h.wf.next hnext
  rcases (platform cfg).next_cases hnext with ⟨e, s, rfl, hs, rfl⟩ | ⟨i, rfl, rfl⟩
    | ⟨pid, a, p, s, p', rfl, hpid, hstep, rfl⟩
  · cases e with
    | tick d =>
        cases hs
        exact ⟨hwf', h.complete, h.took, h.conserved⟩
    | erase userId => cases hhist
  · refine ⟨hwf', h.complete, forall_mem_append h.took (by cases i <;> trivial), fun scope => ?_⟩
    have hidle : ((platform cfg).spawn i).holdsIn scope = false := by cases i <;> rfl
    simpa [slotsHeld, hidle] using h.conserved scope
  · have hkeep' : p.keepsSlot cfg c.shared = true := by
      simpa [keepsSlots, hpid] using hkeep
    have hstep' : p.step cfg c.shared a = some (s, p') := hstep
    refine ⟨hwf', (Proc.step_writes hstep').complete h.complete,
      forall_mem_set h.took (Proc.step_tookSlot hstep' (h.took p (mem_of_getElem? hpid)) hkeep'),
      fun scope => ?_⟩
    obtain ⟨hcounter, hheld⟩ := h.balanced scope hpid hstep' hkeep'
    have hprocs := countP_set_add (Proc.holdsIn scope) hpid p'
    have hbefore := h.conserved scope
    simp only [slotsHeld] at hbefore ⊢
    omega

/-- The counters move by the calls alone: the clamp never acts. -/
theorem SlotInv.counter_next (h : SlotInv c) (hkeep : keepsSlots cfg c l = true)
    (hhist : withoutErasure l = true) (hnext : (platform cfg).next c l = some c') :
    c'.shared.queue.counter scope + (if releases scope c l then 1 else 0)
      = c.shared.queue.counter scope + (if acquires cfg scope c l then 1 else 0) := by
  rcases (platform cfg).next_cases hnext with ⟨e, s, rfl, hs, rfl⟩ | ⟨i, rfl, rfl⟩
    | ⟨pid, a, p, s, p', rfl, hpid, hstep, rfl⟩
  · cases e with
    | tick d =>
        cases hs
        rfl
    | erase userId => cases hhist
  · rfl
  · have hkeep' : p.keepsSlot cfg c.shared = true := by
      simpa [keepsSlots, hpid] using hkeep
    simpa [releases, acquires, hpid] using (h.balanced scope hpid hstep hkeep').counter

/-- **Slot conservation.** In a history without erasures in which every step keeps its slot, each
counter equals the number of slots held in every state, and up to any moment no more slots have been
released than acquired. -/
theorem slots_conserved (cfg : Config) (ls : List Move) (hhist : ∀ l ∈ ls, withoutErasure l = true)
    (hkeep : (platform cfg).Along (fun c l => keepsSlots cfg c l = true) World.init ls) :
    (platform cfg).Throughout SlotsConserved World.init ls
      ∧ ∀ scope : Scope, (platform cfg).countMoves (releases scope) World.init ls
          ≤ (platform cfg).countMoves (acquires cfg scope) World.init ls := by
  have halong := System.Along.and_forall_mem (platform cfg) hkeep hhist
  have hinv : (platform cfg).Throughout SlotInv World.init ls :=
    (platform cfg).throughout_of_along
      (fun c l c' h hq hnext => h.next hq.1 hq.2 hnext) slotInv_init halong
  refine ⟨System.Throughout.mono (platform cfg) (fun c h => h.conserved) hinv, fun scope => ?_⟩
  have hledger := (platform cfg).last_add_countMoves
    (fun c => c.shared.queue.counter scope) (acquires cfg scope) (releases scope)
    (fun c l c' h hq hnext => h.counter_next hq.1 hq.2 hnext) hinv halong
  have hzero : World.init.shared.queue.counter scope = 0 := by cases scope <;> rfl
  simp only [hzero] at hledger
  omega

/-- A launch that fails at GNS3, a second launch that succeeds, and the end of the second
session. -/
def launchFailsLaunchEnds : List Move :=
  [Label.spawn (Request.launch "ann" "vlan")] ++ List.replicate 8 (Label.run 0 Answer.ok)
    ++ List.replicate 5 (Label.run 0 Answer.fail) ++ [Label.spawn (Request.launch "bob" "vlan")]
    ++ List.replicate 13 (Label.run 1 Answer.ok) ++ [Label.spawn (Request.endLab 1 "bob")]
    ++ List.replicate 7 (Label.run 2 Answer.ok)

theorem slots_conserved_launchFailsLaunchEnds :
    (platform (.uniform 10 2 (minutes 480))).Throughout SlotsConserved World.init
        launchFailsLaunchEnds
      ∧ ∀ scope : Scope,
        (platform (.uniform 10 2 (minutes 480))).countMoves (releases scope) World.init
            launchFailsLaunchEnds
          ≤ (platform (.uniform 10 2 (minutes 480))).countMoves
            (acquires (.uniform 10 2 (minutes 480)) scope) World.init launchFailsLaunchEnds :=
  slots_conserved (.uniform 10 2 (minutes 480)) launchFailsLaunchEnds (by decide) (by decide)

/-- The first learner ends the row of the launch that failed. -/
def endsFailedLaunch : List Move :=
  [Label.spawn (Request.launch "ann" "vlan")] ++ List.replicate 8 (Label.run 0 Answer.ok)
    ++ List.replicate 5 (Label.run 0 Answer.fail) ++ [Label.spawn (Request.launch "bob" "vlan")]
    ++ List.replicate 13 (Label.run 1 Answer.ok) ++ [Label.spawn (Request.endLab 0 "ann")]
    ++ List.replicate 6 (Label.run 2 Answer.ok)

/-- The end releases the slot of the other learner's running session: the counter says that no
session runs. -/
theorem end_of_failed_launch_releases_twice :
    ¬ ∀ (cfg : Config) (ls : List Move), (∀ l ∈ ls, withoutErasure l = true) →
      (platform cfg).Throughout SlotsConserved World.init ls
        ∧ ∀ scope : Scope, (platform cfg).countMoves (releases scope) World.init ls
          ≤ (platform cfg).countMoves (acquires cfg scope) World.init ls := by
  intro h
  have hrun : ((platform (.uniform 10 2 (minutes 480))).exec World.init endsFailedLaunch).map
      (fun c => (c.shared.queue.counter (.lab "vlan"), slotsHeld (.lab "vlan") c))
      = some (0, 1) := by
    decide
  obtain ⟨c, hexec, hcounts⟩ := Option.map_eq_some_iff.mp hrun
  have hconserved := (h _ _ (by decide)).1.exec _ hexec (.lab "vlan")
  rw [Prod.mk.injEq] at hcounts
  rw [hcounts.1, hcounts.2] at hconserved
  cases hconserved

end OnlinetLabs.Sessions
