import OnlinetLabs.Sessions.Slots

/-!
# How often a session is finalized

Whoever gets past the guard of `_mark_ended_and_finalize` commits `ended_at`, and each such commit
brings a row of metrics and a release of the slot behind it, on whichever row it fell. The guard
looks at the copy its caller loaded. So the metrics and the releases of a session count the commits,
the first of which ends the row, and the session is finalized once exactly when there is no second
one.
-/

namespace OnlinetLabs.Sessions

open Interleaving

variable {cfg : Config} {s s' : Shared} {p p' : Proc} {a : Answer} {c c' : World} {l : Move}
  {sid : SessionId} {pid : Nat}

/-- Past the commit of `ended_at`, with the metrics still to write. -/
def Proc.owesMetrics (sid : SessionId) : Proc → Bool
  | .finalize (.refresh session _) _ => session.id == sid
  | .finalize (.metrics session _) _ => session.id == sid
  | _ => false

/-- Past the commit of `ended_at`, with the slot still to release. -/
def Proc.owesRelease (sid : SessionId) : Proc → Bool
  | .finalize (.refresh session _) _ => session.id == sid
  | .finalize (.metrics session _) _ => session.id == sid
  | .finalize (.release session _) _ => session.id == sid
  | _ => false

def Proc.releasesFor (sid : SessionId) : Proc → Bool
  | .finalize (.release session _) _ => session.id == sid
  | _ => false

/-- About to commit `ended_at` on the session's row. -/
def Proc.ends (sid : SessionId) (s : Shared) : Proc → Bool
  | .finalize (.commit loaded _) _ => loaded.id == sid && (s.sessions.get? sid).isSome
  | _ => false

/-- The same, though the row has been ended since it was loaded. -/
def Proc.endsAgain (sid : SessionId) (s : Shared) (p : Proc) : Bool :=
  p.ends sid s && (s.sessions.get? sid).any (·.endedAt.isSome)

def moves (mark : Shared → Proc → Bool) (c : World) : Move → Bool
  | .run pid _ => (c.procs[pid]?).any (mark c.shared)
  | _ => false

def releasesFor (sid : SessionId) : World → Move → Bool := moves fun _ => Proc.releasesFor sid

def ends (sid : SessionId) : World → Move → Bool := moves (Proc.ends sid)

def endsAgain (sid : SessionId) : World → Move → Bool := moves (Proc.endsAgain sid)

def metricsRows (sid : SessionId) (c : World) : Nat := c.shared.metrics.countP (·.1 == sid)

/-- Whether the session's row is there, with no `ended_at`. -/
def isOpen (sid : SessionId) (sessions : SessionTable) : Bool :=
  (sessions.get? sid).any (·.endedAt.isNone)

theorem Proc.owesRelease_of_owesMetrics (h : p.owesMetrics sid = true) :
    p.owesRelease sid = true := by
  cases p with
  | finalize pc caller =>
      cases pc with
      | refresh | metrics => exact h
      | _ => cases h
  | _ => cases h

/-! ### Who owes nothing -/

theorem releaseIfNew_owes {req : LaunchRequest} {isNew : Bool} :
    (releaseIfNew req isNew).owesMetrics sid = false
      ∧ (releaseIfNew req isNew).owesRelease sid = false := by
  cases isNew <;> exact ⟨rfl, rfl⟩

theorem reapNext_owes {rest : List LearningSession} :
    (reapNext rest).owesMetrics sid = false ∧ (reapNext rest).owesRelease sid = false := by
  cases rest <;> exact ⟨rfl, rfl⟩

theorem Caller.resume_owes {caller : Caller} {session : LearningSession} :
    (caller.resume session).owesMetrics sid = false
      ∧ (caller.resume session).owesRelease sid = false := by
  cases caller with
  | endSession | sweep => exact ⟨rfl, rfl⟩
  | endLab =>
      simp only [Caller.resume]
      split <;> exact ⟨rfl, rfl⟩
  | reaper gns3Sid rest =>
      cases gns3Sid with
      | none => exact reapNext_owes
      | some gns3Sid => exact ⟨rfl, rfl⟩

theorem Caller.raise_owes {caller : Caller} :
    caller.raise.owesMetrics sid = false ∧ caller.raise.owesRelease sid = false := by
  cases caller with
  | endSession | sweep | endLab => exact ⟨rfl, rfl⟩
  | reaper gns3Sid rest => exact reapNext_owes

theorem markEndedAndFinalize_owes {session : LearningSession} {status : EndStatus}
    {caller : Caller} :
    (markEndedAndFinalize session status caller).owesMetrics sid = false
      ∧ (markEndedAndFinalize session status caller).owesRelease sid = false := by
  unfold markEndedAndFinalize
  split
  · exact Caller.resume_owes
  · exact ⟨rfl, rfl⟩

/-! ### What a step is worth -/

/-- A step pays what its process owes, or takes on the debt of the commit it makes. -/
structure Pays (sid : SessionId) (s s' : Shared) (p p' : Proc) : Prop where
  metrics : s'.metrics.countP (·.1 == sid) + (if p'.owesMetrics sid then 1 else 0)
    = s.metrics.countP (·.1 == sid) + (if p.owesMetrics sid then 1 else 0)
      + (if p.ends sid s then 1 else 0)
  release : (if p'.owesRelease sid then 1 else 0) + (if p.releasesFor sid then 1 else 0)
    = (if p.owesRelease sid then 1 else 0) + (if p.ends sid s then 1 else 0)

theorem pays_nothing (hmetrics : s'.metrics = s.metrics)
    (hp : p.owesMetrics sid = false ∧ p.owesRelease sid = false) (hends : p.ends sid s = false)
    (hreleases : p.releasesFor sid = false)
    (hp' : p'.owesMetrics sid = false ∧ p'.owesRelease sid = false) : Pays sid s s' p p' where
  metrics := by
    rw [hmetrics, hp.1, hp'.1, hends]
    rfl
  release := by
    rw [hp.2, hp'.2, hends, hreleases]

theorem LaunchPc.pays (sid : SessionId) {pc : LaunchPc} {req : LaunchRequest}
    (h : pc.step cfg s req a = some (s', p')) :
    Pays sid s s' (.launch req pc) p' := by
  cases pc with
  | lock | lookup | acquire | relookup | checks | recount | insert | create | finalizeGet
    | finalizeCommit | finalizeRefresh =>
      simp only [step] at h
      repeat' split at h
      all_goals
        first
          | cases h; done
          | cases h
            exact pays_nothing rfl ⟨rfl, rfl⟩ rfl rfl ⟨rfl, rfl⟩
          | cases h
            exact pays_nothing rfl ⟨rfl, rfl⟩ rfl rfl releaseIfNew_owes
  | resume isNew =>
      cases h
      exact pays_nothing rfl ⟨rfl, rfl⟩ rfl rfl releaseIfNew_owes
  | dequeue | enqueue | startMonitor | release =>
      cases h
      exact pays_nothing rfl ⟨rfl, rfl⟩ rfl rfl ⟨rfl, rfl⟩

theorem FinalizePc.pays {pc : FinalizePc} {caller : Caller} (h : pc.step s caller a = some (s', p'))
    (hkeyed : Keyed s.sessions) (hpresent : (s.sessions.get? sid).isSome) :
    Pays sid s s' (.finalize pc caller) p' := by
  -- a row that is gone is another one
  have hother : ∀ k, s.sessions.get? k = none → (k == sid) = false := by
    intro k hnone
    rw [beq_eq_false_iff_ne]
    rintro rfl
    rw [hnone] at hpresent
    cases hpresent
  cases pc with
  | commit loaded status =>
      simp only [step] at h
      split at h
      · rename_i hnone
        cases h
        apply pays_nothing rfl ⟨rfl, rfl⟩ _ rfl Caller.raise_owes
        rw [Proc.ends, hother _ hnone, Bool.false_and]
      · cases h
        constructor
        · simp only [Proc.owesMetrics, Proc.ends, markEnded, hpresent, Bool.and_true,
            Bool.false_eq_true, if_false, Nat.add_zero]
          rfl
        · simp only [Proc.owesRelease, Proc.releasesFor, Proc.ends, markEnded, hpresent,
            Bool.and_true, Bool.false_eq_true, if_false, Nat.add_zero, Nat.zero_add]
          rfl
  | refresh session wasActive =>
      simp only [step] at h
      split at h
      · rename_i hnone
        cases h
        apply pays_nothing rfl _ rfl rfl Caller.raise_owes
        exact ⟨hother _ hnone, hother _ hnone⟩
      · rename_i row hrow
        cases h
        have hid := hkeyed _ _ hrow
        constructor
        · simp only [Proc.owesMetrics, Proc.ends, hid, Bool.false_eq_true, if_false, Nat.add_zero]
          rfl
        · simp only [Proc.owesRelease, Proc.releasesFor, Proc.ends, hid,
            Bool.false_eq_true, if_false, Nat.add_zero]
          rfl
  | metrics session wasActive =>
      simp only [step] at h
      split at h
      · rename_i hnone
        cases h
        apply pays_nothing rfl _ rfl rfl Caller.raise_owes
        exact ⟨hother _ hnone, hother _ hnone⟩
      · rename_i hnone _
        cases h
        apply pays_nothing rfl _ rfl rfl _
        · exact ⟨hother _ hnone, hother _ hnone⟩
        · exact ⟨rfl, hother _ hnone⟩
      · cases h
        constructor
        · simp only [Proc.owesMetrics, Proc.ends, List.countP_append, List.countP_singleton,
            Bool.false_eq_true, if_false, Nat.add_zero]
          rfl
        · simp only [Proc.owesRelease, Proc.releasesFor, Proc.ends, Bool.false_eq_true, if_false,
            Nat.add_zero]
          rfl
  | release session wasActive =>
      cases h
      have howes := @Caller.resume_owes sid caller session
      constructor
      · rw [howes.1]
        rfl
      · rw [howes.2, if_neg Bool.false_ne_true, Nat.zero_add]
        rfl

theorem Proc.pays (h : p.step cfg s a = some (s', p')) (hkeyed : Keyed s.sessions)
    (hpresent : (s.sessions.get? sid).isSome) : Pays sid s s' p p' := by
  cases p with
  | launch req pc => exact LaunchPc.pays sid h
  | finalize pc caller => exact FinalizePc.pays h hkeyed hpresent
  | done => cases h
  | endLabRead | endSessionRead | sweepRead | sweepState | reapGet =>
      simp only [step] at h
      repeat' split at h
      all_goals
        cases h
        first
          | exact pays_nothing rfl ⟨rfl, rfl⟩ rfl rfl ⟨rfl, rfl⟩
          | exact pays_nothing rfl ⟨rfl, rfl⟩ rfl rfl markEndedAndFinalize_owes
          | exact pays_nothing rfl ⟨rfl, rfl⟩ rfl rfl Caller.resume_owes
  | endLabStop =>
      cases h
      exact pays_nothing rfl ⟨rfl, rfl⟩ rfl rfl markEndedAndFinalize_owes
  | reapSelect | teardown =>
      cases h
      exact pays_nothing rfl ⟨rfl, rfl⟩ rfl rfl reapNext_owes
  | reapStop =>
      cases h
      exact pays_nothing rfl ⟨rfl, rfl⟩ rfl rfl ⟨rfl, rfl⟩

/-! ### The row -/

theorem Proc.closes (h : p.step cfg s a = some (s', p')) (hp : p.Wf s.sessions)
    (hends : p.ends sid s = true) :
    (s'.sessions.get? sid).isSome ∧ isOpen sid s'.sessions = false := by
  cases p with
  | finalize pc caller =>
      cases pc with
      | commit loaded status =>
          rw [Proc.ends, Bool.and_eq_true, beq_iff_eq] at hends
          obtain ⟨rfl, hpresent⟩ := hends
          obtain ⟨current, hrow⟩ := Option.isSome_iff_exists.mp hpresent
          simp only [Proc.step, FinalizePc.step, hrow] at h
          cases h
          rw [LearningSession.flush_markEnded hp.1.2.1 hp.1.2.2, isOpen, Table.get?_set_self hrow]
          exact ⟨rfl, rfl⟩
      | _ => cases hends
  | _ => cases hends

theorem Writes.isOpen_eq {sessions : SessionTable} (h : Writes cfg s p sessions p')
    (hp : p.Wf s.sessions) (hpresent : (s.sessions.get? sid).isSome)
    (hends : p.ends sid s = false) :
    (sessions.get? sid).isSome ∧ isOpen sid sessions = isOpen sid s.sessions := by
  obtain ⟨r, hr⟩ := Option.isSome_iff_exists.mp hpresent
  cases h with
  | nothing => exact ⟨hpresent, rfl⟩
  | insert hfree =>
      rw [isOpen, isOpen, Table.get?_insert_of_some hr, hr]
      exact ⟨rfl, rfl⟩
  | @finalize req isNew loaded current result hrow hfree =>
      rw [LearningSession.flush_assign hp.2, isOpen, isOpen, Table.get?_set hrow]
      by_cases hid : sid = loaded.id
      · rw [if_pos hid, hid, hrow]
        cases result <;> exact ⟨rfl, rfl⟩
      · rw [if_neg hid]
        exact ⟨hpresent, rfl⟩
  | @markEnded loaded current status caller hrow =>
      have hid : sid ≠ loaded.id := by
        rintro rfl
        rw [Proc.ends, beq_self_eq_true, hrow] at hends
        cases hends
      rw [isOpen, isOpen, Table.get?_set_of_ne hrow hid]
      exact ⟨hpresent, rfl⟩

/-! ### A history of one session -/

structure Present (sid : SessionId) (c : World) : Prop where
  wf : Wf c
  row : (c.shared.sessions.get? sid).isSome

/-- What is owed for the ends that were committed. -/
def owedMetrics (sid : SessionId) (c : World) : Nat := c.procs.countP (Proc.owesMetrics sid)

def owedReleases (sid : SessionId) (c : World) : Nat := c.procs.countP (Proc.owesRelease sid)

structure Settles (sid : SessionId) (c : World) (l : Move) (c' : World) : Prop where
  present : Present sid c'
  metrics : metricsRows sid c' + owedMetrics sid c'
    = metricsRows sid c + owedMetrics sid c + (if ends sid c l then 1 else 0)
  release : owedReleases sid c' + (if releasesFor sid c l then 1 else 0)
    = owedReleases sid c + (if ends sid c l then 1 else 0)
  row : isOpen sid c'.shared.sessions = (isOpen sid c.shared.sessions && !ends sid c l)

theorem Request.spawn_owes (i : Request) :
    i.spawn.owesMetrics sid = false ∧ i.spawn.owesRelease sid = false := by
  cases i <;> exact ⟨rfl, rfl⟩

theorem Present.settles (h : Present sid c) (hl : withoutErasure l = true)
    (hnext : (platform cfg).next c l = some c') : Settles sid c l c' := by
  have hwf := h.wf.next hnext
  rcases (platform cfg).next_cases hnext with ⟨e, s, rfl, hs, rfl⟩ | ⟨i, rfl, rfl⟩
    | ⟨pid, a, p, s, p', rfl, hpid, hstep, rfl⟩
  · cases e with
    | tick d =>
        cases hs
        exact ⟨⟨hwf, h.row⟩, rfl, rfl, (Bool.and_true _).symm⟩
    | erase userId => cases hl
  · have howes := @Request.spawn_owes sid i
    refine ⟨⟨hwf, h.row⟩, ?_, ?_, (Bool.and_true _).symm⟩
    · simp only [owedMetrics, List.countP_append, List.countP_singleton, platform, howes.1]
      rfl
    · simp only [owedReleases, List.countP_append, List.countP_singleton, platform, howes.2]
      rfl
  · have hp := h.wf.procs p (mem_of_getElem? hpid)
    have hstep' : p.step cfg c.shared a = some (s, p') := hstep
    have hpays := Proc.pays hstep' h.wf.keyed h.row
    have hends : ends sid c (.run pid a) = p.ends sid c.shared := by
      rw [ends, moves, hpid]
      rfl
    have hreleases : releasesFor sid c (.run pid a) = p.releasesFor sid := by
      rw [releasesFor, moves, hpid]
      rfl
    have hmetrics := countP_set_add (Proc.owesMetrics sid) hpid p'
    have hrelease := countP_set_add (Proc.owesRelease sid) hpid p'
    have hpaidMetrics := hpays.metrics
    have hpaidRelease := hpays.release
    have hrow : (s.sessions.get? sid).isSome
        ∧ isOpen sid s.sessions = (isOpen sid c.shared.sessions && !p.ends sid c.shared) := by
      cases hended : p.ends sid c.shared with
      | true =>
          obtain ⟨hpresent, hclosed⟩ := Proc.closes hstep' hp hended
          exact ⟨hpresent, hclosed.trans (Bool.and_false _).symm⟩
      | false =>
          obtain ⟨hpresent, hsame⟩ := (Proc.step_writes hstep').isOpen_eq hp h.row hended
          exact ⟨hpresent, hsame.trans (Bool.and_true _).symm⟩
    refine ⟨⟨hwf, hrow.1⟩, ?_, ?_, hends ▸ hrow.2⟩
    · rw [hends]
      simp only [metricsRows, owedMetrics]
      omega
    · rw [hends, hreleases]
      simp only [owedReleases]
      omega

/-! ### Once -/

theorem Present.endsAgain_eq (h : Present sid c) (l : Move) :
    endsAgain sid c l = (ends sid c l && !isOpen sid c.shared.sessions) := by
  obtain ⟨r, hr⟩ := Option.isSome_iff_exists.mp h.row
  have hclosed : (c.shared.sessions.get? sid).any (·.endedAt.isSome)
      = !isOpen sid c.shared.sessions := by
    rw [isOpen, hr]
    simp only [Option.any_some]
    cases r.endedAt <;> rfl
  cases l with
  | env e => rfl
  | spawn i => rfl
  | run pid a =>
      rw [endsAgain, ends, moves, moves]
      cases c.procs[pid]? with
      | none => rfl
      | some p => simp only [Option.any_some, Proc.endsAgain, hclosed]

/-- The commits of an end, and how many of them fell on a row that was ended already. -/
theorem ends_ledger {ls : List Move} (hls : ∀ l ∈ ls, withoutErasure l = true) (h : Present sid c)
    (hexec : (platform cfg).exec c ls = some c') :
    metricsRows sid c' + owedMetrics sid c'
        = metricsRows sid c + owedMetrics sid c + (platform cfg).countMoves (ends sid) c ls
      ∧ owedReleases sid c' + (platform cfg).countMoves (releasesFor sid) c ls
        = owedReleases sid c + (platform cfg).countMoves (ends sid) c ls
      ∧ (if isOpen sid c'.shared.sessions then 1 else 0) + (platform cfg).countMoves (ends sid) c ls
        = (if isOpen sid c.shared.sessions then 1 else 0)
          + (platform cfg).countMoves (endsAgain sid) c ls := by
  have halong : (platform cfg).Along (fun _ l => withoutErasure l = true) c ls :=
    (platform cfg).along_of_forall_mem hls
  have hpresent : (platform cfg).Throughout (Present sid) c ls :=
    (platform cfg).throughout_of_along
      (fun _ _ _ h hl hnext => (h.settles hl hnext).present) h halong
  have hlast := (platform cfg).last_of_exec hexec
  have hnever : (platform cfg).countMoves (fun _ _ => false) c ls = 0 :=
    (platform cfg).countMoves_eq_zero_iff.mpr
      ((platform cfg).along_of_forall_mem fun _ _ => rfl)
  refine ⟨?_, ?_, ?_⟩
  · have hledger := (platform cfg).last_add_countMoves
      (fun c => metricsRows sid c + owedMetrics sid c) (ends sid) (fun _ _ => false)
      (fun _ _ _ h hl hnext => (h.settles hl hnext).metrics) hpresent halong
    rw [hlast, hnever] at hledger
    exact hledger
  · have hledger := (platform cfg).last_add_countMoves (owedReleases sid) (ends sid)
        (releasesFor sid)
      (fun _ _ _ h hl hnext => (h.settles hl hnext).release) hpresent halong
    rw [hlast] at hledger
    exact hledger
  · have hledger := (platform cfg).last_add_countMoves
      (fun c => if isOpen sid c.shared.sessions then 1 else 0) (endsAgain sid) (ends sid)
      (fun c l c' h hl hnext => ?_) hpresent halong
    · rw [hlast] at hledger
      exact hledger
    · have hrow := (h.settles hl hnext).row
      rw [hrow, h.endsAgain_eq l]
      cases ends sid c l <;> cases isOpen sid c.shared.sessions <;> rfl

/-- **Finalized once.** In a history without erasures that ends a session and then leaves it alone,
the session has one row of metrics and one release exactly when no `ended_at` is committed on its
row after the first. -/
theorem finalized_once_iff (cfg : Config) (sid : SessionId) (c c' : World) (ls : List Move)
    (hwf : Wf c) (hopen : isOpen sid c.shared.sessions = true) (hnew : metricsRows sid c = 0)
    (hidle : ∀ p ∈ c.procs, p.owesRelease sid = false)
    (hhist : ∀ l ∈ ls, withoutErasure l = true) (hexec : (platform cfg).exec c ls = some c')
    (hended : isOpen sid c'.shared.sessions = false)
    (hquiet : ∀ p ∈ c'.procs, p.owesRelease sid = false) :
    (metricsRows sid c' = 1 ∧ (platform cfg).countMoves (releasesFor sid) c ls = 1)
      ↔ (platform cfg).Along (fun c l => endsAgain sid c l = false) c ls := by
  have hpresent : Present sid c := by
    refine ⟨hwf, ?_⟩
    rw [isOpen] at hopen
    cases hrow : c.shared.sessions.get? sid with
    | none =>
        rw [hrow] at hopen
        cases hopen
    | some r => rfl
  -- who owes no release owes no metrics
  have hnothing : ∀ d : World, (∀ p ∈ d.procs, p.owesRelease sid = false) →
      owedReleases sid d = 0 ∧ owedMetrics sid d = 0 := by
    intro d hd
    constructor
    · rw [owedReleases, List.countP_eq_zero]
      intro p hp
      rw [hd p hp]
      exact Bool.false_ne_true
    · rw [owedMetrics, List.countP_eq_zero]
      intro p hp howes
      exact Bool.false_ne_true ((hd p hp).symm.trans (Proc.owesRelease_of_owesMetrics howes))
  obtain ⟨hmetrics, hrelease, hrow⟩ := ends_ledger hhist hpresent hexec
  rw [(hnothing c hidle).1, (hnothing c' hquiet).1] at hrelease
  rw [hnew, (hnothing c hidle).2, (hnothing c' hquiet).2] at hmetrics
  rw [hopen, hended, if_neg Bool.false_ne_true, if_pos rfl] at hrow
  rw [← (platform cfg).countMoves_eq_zero_iff]
  omega

def runningSession : World :=
  ⟨{ Shared.init with
      sessions := ⟨[some ⟨0, "ann", "vlan", .active, 0, none, some (minutes 480), some ⟨0⟩⟩]⟩
      monitors := [0] }, []⟩

theorem get?_runningSession {k : SessionId} {r : LearningSession}
    (h : runningSession.shared.sessions.get? k = some r) :
    k = 0 ∧ r = ⟨0, "ann", "vlan", .active, 0, none, some (minutes 480), some ⟨0⟩⟩ := by
  have hlt : k < 1 := Table.lt_size_of_get? h
  obtain rfl : k = 0 := Nat.lt_one_iff.mp hlt
  cases h
  exact ⟨rfl, rfl⟩

theorem wf_runningSession : Wf runningSession where
  keyed := by
    intro k r h
    obtain ⟨rfl, rfl⟩ := get?_runningSession h
    rfl
  oneLive := by
    intro k k' r r' h h' _ _ _ _
    rw [(get?_runningSession h).1, (get?_runningSession h').1]
  recorded := by
    intro k r h hend
    obtain ⟨rfl, rfl⟩ := get?_runningSession h
    cases hend
  procs := fun _ h => absurd h List.not_mem_nil
  exclusive := fun _ => exclusive_nil _

def endedTwice : List Move :=
  [Label.spawn (Request.endLab 0 "ann")] ++ List.replicate 7 (Label.run 0 Answer.ok)
    ++ [Label.spawn (Request.endLab 0 "ann")] ++ List.replicate 3 (Label.run 1 Answer.ok)

theorem finalized_once_endedTwice :
    ∃ c', (platform (.uniform 10 2 (minutes 480))).exec runningSession endedTwice = some c'
      ∧ metricsRows 0 c' = 1
      ∧ (platform (.uniform 10 2 (minutes 480))).countMoves (releasesFor 0)
        runningSession endedTwice
          = 1 := by
  have hrun : ((platform (.uniform 10 2 (minutes 480))).exec runningSession endedTwice).map
      (fun c => (isOpen 0 c.shared.sessions, c.procs.all fun p => !p.owesRelease 0))
      = some (false, true) := by
    decide
  obtain ⟨c', hexec, hlast⟩ := Option.map_eq_some_iff.mp hrun
  rw [Prod.mk.injEq, List.all_eq_true] at hlast
  refine ⟨c', hexec,
    (finalized_once_iff (.uniform 10 2 (minutes 480)) 0 runningSession c' endedTwice
      wf_runningSession rfl rfl (fun _ h => absurd h List.not_mem_nil) (by decide) hexec hlast.1
    fun p hp => ?_).mpr (by decide)⟩
  have hidle := hlast.2 p hp
  rwa [Bool.not_eq_true'] at hidle

def endsOnly : Move → Bool
  | .env (.tick _) => true
  | .env (.erase _) => false
  | .spawn (.launch _ _) => false
  | .spawn _ => true
  | .run _ _ => true

def endedFromTwoTabs : List Move :=
  [Label.spawn (Request.endLab 0 "ann"), Label.spawn (Request.endLab 0 "ann")]
    ++ List.replicate 2 (Label.run 0 Answer.ok) ++ List.replicate 2 (Label.run 1 Answer.ok)
    ++ List.replicate 5 (Label.run 0 Answer.ok) ++ List.replicate 5 (Label.run 1 Answer.ok)

/-- **Both ends finalize the session.** -/
theorem two_tabs_finalize_twice :
    ¬ ∀ (cfg : Config) (sid : SessionId) (c c' : World) (ls : List Move), Wf c → c.procs = [] →
      isOpen sid c.shared.sessions = true → metricsRows sid c = 0 → (∀ l ∈ ls, endsOnly l = true) →
      (platform cfg).exec c ls = some c' → (∀ p ∈ c'.procs, p = .done) →
      isOpen sid c'.shared.sessions = false →
        metricsRows sid c' = 1 ∧ (platform cfg).countMoves (releasesFor sid) c ls = 1 := by
  intro h
  have hrun : ((platform (.uniform 10 2 (minutes 480))).exec runningSession endedFromTwoTabs).map
      (fun c => (isOpen 0 c.shared.sessions, c.procs.all fun p => decide (p = .done),
        metricsRows 0 c))
      = some (false, true, 2) := by
    decide
  obtain ⟨c', hexec, hlast⟩ := Option.map_eq_some_iff.mp hrun
  rw [Prod.mk.injEq, Prod.mk.injEq, List.all_eq_true] at hlast
  have hone :=
    (h (.uniform 10 2 (minutes 480)) 0 runningSession c' endedFromTwoTabs wf_runningSession rfl rfl
      rfl (by decide) hexec (fun p hp => of_decide_eq_true (hlast.2.1 p hp)) hlast.1).1
  rw [hlast.2.2] at hone
  cases hone

end OnlinetLabs.Sessions
