import OnlinetLabs.Sessions.WellFormed

/-!
# GNS3 environments

The id of an environment is known to one process first, the launch whose `create_session` returned
it. From then on it must always be somewhere: with that launch, in the `meta` of a live row, or with
a process that will call `delete_session` on it. `Covered` says so, and where nothing is in flight
any more the first and the last of these are gone.

Four steps can lose an id. A launch comes back to a row that is gone or ended. An end marks a live
row without the row's id, which the reaper does when it selected the row before the launch wrote
`meta`. The row an end is working on disappears before the end has its id, or disappears later and
takes the rest of the function with it. `keepsGns3` excludes these, each up to another process that
has the id as well.
-/

namespace OnlinetLabs.Sessions

open Interleaving

variable {cfg : Config} {s s' : Shared} {p p' q : Proc} {a : Answer} {c c' : World} {l : Move}
  {sessions : SessionTable} {session r : LearningSession} {gid : Gns3Id}

/-- The id a caller of `_mark_ended_and_finalize` tears down once it has `session` back. -/
def Caller.teardownOf (session : LearningSession) : Caller → Option Gns3Id
  | .endLab => session.gns3Sid
  | .reaper gns3Sid _ => gns3Sid
  | .endSession => none
  | .sweep => none

def anyHas (rest : List LearningSession) (gid : Gns3Id) : Bool :=
  rest.any (·.gns3Sid == some gid)

/-- What the reaper still tears down when it goes on to its next row. -/
def Caller.later (gid : Gns3Id) : Caller → Bool
  | .reaper _ rest => anyHas rest gid
  | _ => false

/-- The process holds the id and needs no row to tear it down. -/
def Proc.willDelete (gid : Gns3Id) : Proc → Bool
  | .endLabStop session => session.endedAt.isSome && session.gns3Sid == some gid
  | .reapStop session rest => anyHas (session :: rest) gid
  | .reapGet session rest => anyHas (session :: rest) gid
  | .finalize (.commit _ _) caller => caller.later gid
  | .finalize (.refresh _ _) caller => caller.later gid
  | .finalize (.metrics session _) caller =>
      caller.teardownOf session == some gid || caller.later gid
  | .finalize (.release session _) caller =>
      caller.teardownOf session == some gid || caller.later gid
  | .teardown gns3Sid rest => gns3Sid == gid || anyHas rest gid
  | _ => false

/-- The process will tear the id down if it finds it in the row it loads next. -/
def Proc.willReload (sessions : SessionTable) (gid : Gns3Id) : Proc → Bool
  | .endLabRead sid userId => (getOwnedSession sessions sid userId).any (·.gns3Sid == some gid)
  | .endLabStop session =>
      session.endedAt.isNone && (sessions.get? session.id).any (·.gns3Sid == some gid)
  | .finalize (.commit loaded _) caller =>
      (sessions.get? loaded.id).any fun row =>
        row.gns3Sid == some gid && caller.teardownOf row == some gid
  | .finalize (.refresh session _) caller =>
      (sessions.get? session.id).any fun row =>
        row.gns3Sid == some gid && caller.teardownOf row == some gid
  | _ => false

/-- The launch that has the id from GNS3 and has not stored it yet. -/
def Proc.brings (gid : Gns3Id) : Proc → Bool
  | .launch _ (.finalizeGet _ _ (.active gns3)) => gns3 == gid
  | .launch _ (.finalizeCommit _ _ (.active gns3)) => gns3 == gid
  | _ => false

def Proc.carries (sessions : SessionTable) (gid : Gns3Id) (p : Proc) : Bool :=
  p.brings gid || p.willDelete gid || p.willReload sessions gid

/-- An end of the lab that is under way and has still to load or to reload the row. -/
def Proc.endsLater (row : LearningSession) : Proc → Bool
  | .endLabRead sid userId => sid == row.id && userId == row.userId
  | .endLabStop session => session.endedAt.isNone && session.id == row.id
  | .finalize (.commit loaded _) .endLab => loaded.id == row.id
  | .finalize (.refresh session _) .endLab => session.id == row.id
  | _ => false

/-- Stored in the `meta` of a row that is still live. -/
def StoredLive (sessions : SessionTable) (gid : Gns3Id) : Prop :=
  ∃ (k : SessionId) (r : LearningSession),
    sessions.get? k = some r ∧ r.stillLive = true ∧ r.gns3Sid = some gid

/-- Somebody or something has the id: it was deleted, or a live row stores it, or a process carries
it. -/
def Covered (c : World) (gid : Gns3Id) : Prop :=
  gid ∈ c.shared.deleteCalls ∨ StoredLive c.shared.sessions gid
    ∨ ∃ p ∈ c.procs, p.carries c.shared.sessions gid = true

/-- No request and no background pass is in flight. -/
def Quiescent (c : World) : Prop := ∀ p ∈ c.procs, p = .done

/-- In a quiescent state every environment ever created is stored in a live row, or
`delete_session` was called on it. -/
def NoLeak (c : World) : Prop :=
  Quiescent c → ∀ gid < c.shared.created,
    StoredLive c.shared.sessions gid ∨ gid ∈ c.shared.deleteCalls

/-- A process other than the one that moves has the id, or it was deleted. -/
def coveredElsewhere (c : World) (pid : Nat) (gid : Gns3Id) : Bool :=
  c.shared.deleteCalls.contains gid
    || (c.procs.eraseIdx pid).any (·.carries c.shared.sessions gid)

/-- The step of process `pid` loses no id. -/
def Proc.keepsGns3 (c : World) (pid : Nat) (a : Answer) : Proc → Bool
  -- the row is there when the launch returns from GNS3
  | .launch _ (.finalizeGet _ sid (.active _)) => (c.shared.sessions.get? sid).isSome
  -- and live when it is written, or somebody is about to end the lab and will read what is written
  | .launch _ (.finalizeCommit _ loaded (.active gns3)) =>
      (c.shared.sessions.get? loaded.id).any fun current =>
        current.stillLive
          || (!liveTwin c.shared.sessions ((Provisioned.active gns3).assign current)
            && c.procs.any (·.endsLater current))
  -- who ends a live row has its id, or will reload it
  | .finalize (.commit loaded _) caller =>
      (c.shared.sessions.get? loaded.id).all fun current =>
        !current.stillLive || current.gns3Sid.all fun gid =>
          caller.teardownOf current == some gid || coveredElsewhere c pid gid
  -- the metrics do not fail on a vanished row while the process has an id to tear down
  | .finalize (.metrics session _) caller =>
      (c.shared.sessions.get? session.id).isSome || a != .fail
        || (caller.teardownOf session).all (coveredElsewhere c pid)
  | _ => true

/-- An erasure deletes no row whose id is needed: it was deleted, or a process has it. -/
def Env.keepsGns3 (c : World) : Env → Bool
  | .tick _ => true
  | .erase userId =>
      c.shared.sessions.rows.all fun r =>
        r.userId != userId || r.gns3Sid.all fun gid =>
          c.shared.deleteCalls.contains gid || c.procs.any (·.willDelete gid)

def keepsGns3 (c : World) : Move → Bool
  | .env e => e.keepsGns3 c
  | .spawn _ => true
  | .run pid a => (c.procs[pid]?).all (·.keepsGns3 c pid a)

/-! ### Processes that do not move -/

theorem LearningSession.Continues.gns3Sid {r' : LearningSession} (h : r'.Continues r)
    (hgid : r.gns3Sid = some gid) : r'.gns3Sid = some gid := by
  obtain ⟨m, hm, rfl⟩ := Option.map_eq_some_iff.mp hgid
  simp [LearningSession.gns3Sid, h.metaJson m hm]

def Persists (before after : SessionTable) : Prop :=
  ∀ (k : SessionId) (r : LearningSession), before.get? k = some r →
    ∃ r', after.get? k = some r' ∧ r'.Continues r

theorem Writes.persists (h : Writes cfg s p sessions p') (hp : p.Wf s.sessions) :
    Persists s.sessions sessions := by
  intro k r hk
  have hsome : (sessions.get? k).isSome := by
    cases h with
    | nothing => simp [hk]
    | insert hfree => simp [Table.get?_insert_of_some hk]
    | finalize hrow hfree =>
        rw [Table.get?_set hrow]
        split
        · rfl
        · simp [hk]
    | markEnded hrow =>
        rw [Table.get?_set hrow]
        split
        · rfl
        · simp [hk]
  obtain ⟨r', hr'⟩ := Option.isSome_iff_exists.mp hsome
  obtain ⟨r₀, hr₀, hcont⟩ := (h.evolves hp).same k r' (Table.lt_size_of_get? hk) hr'
  rw [hk, Option.some.injEq] at hr₀
  exact ⟨r', hr', hr₀ ▸ hcont⟩

theorem Persists.carries {before after : SessionTable} (h : Persists before after)
    (hcarries : p.carries before gid = true) : p.carries after gid = true := by
  have hrow : ∀ {k : SessionId} {P P' : LearningSession → Bool},
      (∀ r r', r'.Continues r → P r = true → P' r' = true) →
        (before.get? k).any P = true → (after.get? k).any P' = true := by
    intro k P P' hP hany
    obtain ⟨r, hr, hPr⟩ := (Option.any_eq_true _ _).mp hany
    obtain ⟨r', hr', hcont⟩ := h k r hr
    exact (Option.any_eq_true _ _).mpr ⟨r', hr', hP r r' hcont hPr⟩
  have hgid : ∀ r r' : LearningSession, r'.Continues r → (r.gns3Sid == some gid) = true →
      (r'.gns3Sid == some gid) = true := fun r r' hcont hr => by
    simpa using hcont.gns3Sid (by simpa using hr)
  have hboth : ∀ (caller : Caller) (r r' : LearningSession), r'.Continues r →
      (r.gns3Sid == some gid && caller.teardownOf r == some gid) = true →
        (r'.gns3Sid == some gid && caller.teardownOf r' == some gid) = true := by
    intro caller r r' hcont hr
    rw [Bool.and_eq_true] at hr ⊢
    refine ⟨hgid r r' hcont hr.1, ?_⟩
    cases caller with
    | endLab => exact hgid r r' hcont hr.1
    | _ => exact hr.2
  simp only [Proc.carries, Bool.or_eq_true] at hcarries ⊢
  refine hcarries.imp_right fun hreload => ?_
  cases p with
  | endLabRead sid userId =>
      simp only [Proc.willReload, getOwnedSession, Option.any_filter] at hreload ⊢
      refine hrow (fun r r' hcont hr => ?_) hreload
      rw [Bool.and_eq_true] at hr ⊢
      exact ⟨by rw [hcont.userId]; exact hr.1, hgid r r' hcont hr.2⟩
  | endLabStop session =>
      simp only [Proc.willReload, Bool.and_eq_true] at hreload ⊢
      exact ⟨hreload.1, hrow hgid hreload.2⟩
  | finalize pc caller =>
      cases pc with
      | commit loaded status => exact hrow (hboth caller) hreload
      | refresh session wasActive => exact hrow (hboth caller) hreload
      | _ => cases hreload
  | _ => cases hreload

/-! ### The process that moves -/

theorem anyHas_cons {rest : List LearningSession} :
    anyHas (session :: rest) gid = (session.gns3Sid == some gid || anyHas rest gid) := rfl

theorem carries_of_brings (h : p.brings gid = true) : p.carries sessions gid = true := by
  simp [Proc.carries, h]

theorem carries_of_willDelete (h : p.willDelete gid = true) : p.carries sessions gid = true := by
  simp [Proc.carries, h]

theorem carries_of_willReload (h : p.willReload sessions gid = true) :
    p.carries sessions gid = true := by
  simp [Proc.carries, h]

theorem reapNext_willDelete {rest : List LearningSession} (h : anyHas rest gid = true) :
    (reapNext rest).willDelete gid = true := by
  cases rest with
  | nil => cases h
  | cons session rest => exact h

theorem Caller.raise_willDelete {caller : Caller} (h : caller.later gid = true) :
    caller.raise.willDelete gid = true := by
  cases caller with
  | reaper gns3Sid rest => exact reapNext_willDelete h
  | _ => cases h

theorem Caller.resume_willDelete {caller : Caller}
    (h : (caller.teardownOf session == some gid || caller.later gid) = true) :
    (caller.resume session).willDelete gid = true := by
  cases caller with
  | endSession | sweep => cases h
  | endLab =>
      simp only [teardownOf, later, Bool.or_false, beq_iff_eq] at h
      simp [resume, h, Proc.willDelete]
  | reaper gns3Sid rest =>
      cases gns3Sid with
      | none =>
          simp only [teardownOf, later, Bool.or_eq_true, beq_iff_eq, reduceCtorEq, false_or] at h
          exact reapNext_willDelete h
      | some gns3Sid => simpa [teardownOf, later, resume, Proc.willDelete] using h

/-- An ended row is returned as it is, and a row just loaded is still there. -/
theorem markEndedAndFinalize_carries {status : EndStatus} {caller : Caller}
    (hrow : sessions.get? session.id = some session)
    (h : session.gns3Sid = some gid ∧ caller.teardownOf session = some gid
      ∨ caller.later gid = true) :
    (markEndedAndFinalize session status caller).carries sessions gid = true := by
  unfold markEndedAndFinalize
  split
  · refine carries_of_willDelete (Caller.resume_willDelete ?_)
    rcases h with ⟨-, hteardown⟩ | hlater
    · simp [hteardown]
    · simp [hlater]
  · rcases h with ⟨hgid, hteardown⟩ | hlater
    · exact carries_of_willReload (by simp [Proc.willReload, hrow, hgid, hteardown])
    · exact carries_of_willDelete hlater

/-- The end that has just marked the row will reload it with its id. -/
theorem refresh_carries {loaded current : LearningSession} {now : Time} {status : EndStatus}
    {wasActive : Bool} {caller : Caller} (hrow : sessions.get? loaded.id = some current)
    (hgid : current.gns3Sid = some gid) (hteardown : caller.teardownOf current = some gid) :
    (Proc.finalize (.refresh (markEnded now status loaded) wasActive) caller).carries
      (sessions.set loaded.id (markEnded now status current)) gid = true := by
  have hmarked : (markEnded now status current).gns3Sid = some gid := hgid
  have hteardown' : caller.teardownOf (markEnded now status current) = some gid := by
    cases caller with
    | endLab => exact hmarked
    | _ => exact hteardown
  refine carries_of_willReload ?_
  change ((sessions.set loaded.id (markEnded now status current)).get? loaded.id).any _ = true
  simp [Table.get?_set_self hrow, hmarked, hteardown']

theorem FinalizePc.step_carries {pc : FinalizePc} {caller : Caller}
    (h : pc.step s caller a = some (s', p')) (hp : pc.Wf s.sessions)
    (hcarries : (Proc.finalize pc caller).carries s.sessions gid = true)
    (hmetrics : ∀ session wasActive, pc = .metrics session wasActive →
      s.sessions.get? session.id = none → a = .fail → caller.teardownOf session ≠ some gid) :
    p'.carries s'.sessions gid = true := by
  simp only [Proc.carries, Proc.brings, Bool.false_or, Bool.or_eq_true] at hcarries
  cases pc with
  | commit loaded status =>
      simp only [step] at h
      split at h
      · rename_i hnone
        cases h
        rcases hcarries with hlater | hreload
        · exact carries_of_willDelete (Caller.raise_willDelete hlater)
        · simp [Proc.willReload, hnone] at hreload
      · rename_i current hrow
        cases h
        rcases hcarries with hlater | hreload
        · exact carries_of_willDelete hlater
        · rw [LearningSession.flush_markEnded hp.2.1 hp.2.2]
          simp only [Proc.willReload, hrow, Option.any_some, Bool.and_eq_true,
            beq_iff_eq] at hreload
          exact refresh_carries hrow hreload.1 hreload.2
  | refresh session wasActive =>
      simp only [step] at h
      split at h
      · rename_i hnone
        cases h
        rcases hcarries with hlater | hreload
        · exact carries_of_willDelete (Caller.raise_willDelete hlater)
        · simp [Proc.willReload, hnone] at hreload
      · rename_i row hrow
        cases h
        refine carries_of_willDelete ?_
        rcases hcarries with hlater | hreload
        · have hlater' : caller.later gid = true := hlater
          simp [Proc.willDelete, hlater']
        · simp only [Proc.willReload, hrow, Option.any_some, Bool.and_eq_true] at hreload
          simp only [Proc.willDelete, hreload.2, Bool.true_or]
  | metrics session wasActive =>
      have hdelete : (caller.teardownOf session == some gid || caller.later gid) = true :=
        hcarries.resolve_right (by rintro ⟨⟩)
      simp only [step] at h
      split at h
      · rename_i hnone
        cases h
        have hlater : caller.later gid = true := by
          have hno := hmetrics session wasActive rfl hnone rfl
          simpa [hno] using hdelete
        exact carries_of_willDelete (Caller.raise_willDelete hlater)
      · cases h
        exact carries_of_willDelete hdelete
      · cases h
        exact carries_of_willDelete hdelete
  | release session wasActive =>
      cases h
      exact carries_of_willDelete (Caller.resume_willDelete (hcarries.resolve_right (by rintro ⟨⟩)))

/-- What a process carries, it still carries after its step, or it has deleted it. The launch that
brings an id from GNS3 is not meant, nor a failure of the metrics of a vanished row. -/
theorem Proc.step_carries (h : p.step cfg s a = some (s', p')) (hkeyed : Keyed s.sessions)
    (hp : p.Wf s.sessions) (hbrings : p.brings gid = false)
    (hcarries : p.carries s.sessions gid = true)
    (hmetrics : ∀ session wasActive caller, p = .finalize (.metrics session wasActive) caller →
      s.sessions.get? session.id = none → a = .fail → caller.teardownOf session ≠ some gid) :
    p'.carries s'.sessions gid = true ∨ gid ∈ s'.deleteCalls := by
  have hdelete : p.willDelete gid = true ∨ p.willReload s.sessions gid = true := by
    simpa [Proc.carries, hbrings] using hcarries
  cases p with
  | finalize pc caller =>
      exact Or.inl (FinalizePc.step_carries h hp.1 hcarries
        fun session wasActive heq => hmetrics session wasActive caller (by rw [heq]))
  | endLabRead sid userId =>
      have hreload := hdelete.resolve_left (by rintro ⟨⟩)
      obtain ⟨row, hrow, hgid⟩ := (Option.any_eq_true _ _).mp hreload
      have hget := (getOwnedSession_eq_some hrow).1
      have hid := hkeyed _ _ hget
      simp only [step, hrow] at h
      cases h
      left
      cases hended : row.endedAt with
      | some endedAt => exact carries_of_willDelete (by simp [willDelete, hended, hgid])
      | none =>
          have hgid' : row.gns3Sid = some gid := by simpa using hgid
          exact carries_of_willReload (by simp [willReload, hended, hid, hget, hgid'])
  | endLabStop session =>
      cases h
      left
      cases hended : session.endedAt with
      | some endedAt =>
          have hgid : session.gns3Sid = some gid := by
            simpa [willDelete, willReload, hended] using hdelete
          unfold markEndedAndFinalize
          simp only [hended, Option.isSome_some, if_true]
          exact carries_of_willDelete (Caller.resume_willDelete (by simp [Caller.teardownOf, hgid]))
      | none =>
          have hreload : (s.sessions.get? session.id).any (·.gns3Sid == some gid) = true := by
            simpa [willDelete, willReload, hended] using hdelete
          obtain ⟨row, hrow, hgid⟩ := (Option.any_eq_true _ _).mp hreload
          have hgid' : row.gns3Sid = some gid := by simpa using hgid
          unfold markEndedAndFinalize
          simp only [hended, Option.isSome_none, Bool.false_eq_true, if_false]
          exact carries_of_willReload (by simp [willReload, hrow, hgid', Caller.teardownOf])
  | reapStop session rest =>
      cases h
      exact Or.inl (carries_of_willDelete (hdelete.resolve_right (by rintro ⟨⟩)))
  | reapGet session rest =>
      have hhas : anyHas (session :: rest) gid = true := hdelete.resolve_right (by rintro ⟨⟩)
      rw [anyHas_cons, Bool.or_eq_true] at hhas
      left
      simp only [step] at h
      split at h
      · cases h
        refine carries_of_willDelete (Caller.resume_willDelete ?_)
        simpa [Caller.teardownOf, Caller.later] using hhas
      · rename_i row hrow
        cases h
        have hid := hkeyed _ _ hrow
        refine markEndedAndFinalize_carries (by rw [hid]; exact hrow) ?_
        refine hhas.imp_left fun hgid => ?_
        have hgid' : session.gns3Sid = some gid := by simpa using hgid
        exact ⟨(hp.1.2 row hrow).gns3Sid hgid', hgid'⟩
  | teardown gns3Sid rest =>
      have hhas := hdelete.resolve_right (by rintro ⟨⟩)
      simp only [willDelete, Bool.or_eq_true, beq_iff_eq] at hhas
      cases h
      rcases hhas with rfl | hrest
      · exact Or.inr (by simp)
      · exact Or.inl (carries_of_willDelete (reapNext_willDelete hrest))
  | launch | endSessionRead | sweepRead | sweepState | reapSelect | done =>
      exact absurd hdelete (by simp [willDelete, willReload])

/-! ### Whole runs -/

theorem mem_set_of_mem_eraseIdx {procs : List Proc} {pid : Nat} (h : q ∈ procs.eraseIdx pid) :
    q ∈ procs.set pid p' := by
  obtain ⟨j, hne, hj⟩ := List.mem_eraseIdx_iff_getElem?.mp h
  exact List.mem_of_getElem? ((List.getElem?_set_ne hne.symm).trans hj)

theorem Covered.of_elsewhere {pid : Nat} (h : coveredElsewhere c pid gid = true)
    (hpersists : Persists c.shared.sessions s'.sessions)
    (hdeletes : ∀ g ∈ c.shared.deleteCalls, g ∈ s'.deleteCalls) :
    Covered ⟨s', c.procs.set pid p'⟩ gid := by
  simp only [coveredElsewhere, Bool.or_eq_true, List.contains_iff_mem, List.any_eq_true] at h
  rcases h with hmem | ⟨q, hq, hcarries⟩
  · exact Or.inl (hdeletes gid hmem)
  · exact Or.inr (Or.inr ⟨q, mem_set_of_mem_eraseIdx hq, hpersists.carries hcarries⟩)

theorem FinalizePc.step_deleteCalls {pc : FinalizePc} {caller : Caller}
    (h : pc.step s caller a = some (s', p')) : s'.deleteCalls = s.deleteCalls := by
  cases pc with
  | commit | refresh | metrics =>
      simp only [step] at h
      split at h
      all_goals
        cases h
        rfl
  | release =>
      cases h
      rfl

theorem LaunchPc.step_deleteCalls {req : LaunchRequest} {pc : LaunchPc}
    (h : pc.step cfg s req a = some (s', p')) : s'.deleteCalls = s.deleteCalls := by
  cases pc with
  | lock isNew =>
      simp only [step] at h
      split at h
      · cases h
      · cases h
        rfl
  | lookup | acquire | relookup | checks | recount | insert | create | finalizeGet | finalizeCommit
  | finalizeRefresh =>
      simp only [step] at h
      repeat' split at h
      all_goals
        cases h
        rfl
  | dequeue | enqueue | resume | startMonitor | release =>
      cases h
      rfl

theorem Proc.step_deleteCalls (h : p.step cfg s a = some (s', p')) :
    ∀ g ∈ s.deleteCalls, g ∈ s'.deleteCalls := by
  intro g hg
  cases p with
  | launch req pc => rwa [LaunchPc.step_deleteCalls h]
  | finalize pc caller => rwa [FinalizePc.step_deleteCalls h]
  | done => cases h
  | endLabRead | endSessionRead | sweepRead | sweepState | reapGet =>
      simp only [step] at h
      repeat' split at h
      all_goals
        cases h
        exact hg
  | endLabStop | reapSelect | reapStop =>
      cases h
      exact hg
  | teardown gns3Sid rest =>
      cases h
      exact List.mem_append_left _ hg

/-- Only a successful `create_session` makes a new id, and the launch that made the call has it. -/
theorem Proc.step_created (h : p.step cfg s a = some (s', p')) :
    s'.created = s.created ∨ s'.created = s.created + 1 ∧ p'.brings s.created = true := by
  cases p with
  | launch req pc =>
      cases pc with
      | create isNew sid =>
          simp only [step, LaunchPc.step] at h
          split at h
          · cases h
            exact Or.inr ⟨rfl, by simp [brings]⟩
          · cases h
            exact Or.inl rfl
      | lock isNew =>
          simp only [step, LaunchPc.step] at h
          split at h
          · cases h
          · cases h
            exact Or.inl rfl
      | lookup | acquire | relookup | checks | recount | insert | finalizeGet | finalizeCommit
      | finalizeRefresh =>
          simp only [step, LaunchPc.step] at h
          repeat' split at h
          all_goals
            cases h
            exact Or.inl rfl
      | dequeue | enqueue | resume | startMonitor | release =>
          cases h
          exact Or.inl rfl
  | finalize pc caller =>
      cases pc with
      | commit | refresh | metrics =>
          simp only [step, FinalizePc.step] at h
          split at h
          all_goals
            cases h
            exact Or.inl rfl
      | release =>
          cases h
          exact Or.inl rfl
  | done => cases h
  | endLabRead | endSessionRead | sweepRead | sweepState | reapGet =>
      simp only [step] at h
      repeat' split at h
      all_goals
        cases h
        exact Or.inl rfl
  | endLabStop | reapSelect | reapStop | teardown =>
      cases h
      exact Or.inl rfl

/-- An end that loads the row later finds the id there. -/
theorem Proc.carries_of_endsLater (hends : q.endsLater r = true)
    (hrow : sessions.get? r.id = some r) (hgid : r.gns3Sid = some gid) :
    q.carries sessions gid = true := by
  refine carries_of_willReload ?_
  cases q with
  | endLabRead sid userId =>
      simp only [endsLater, Bool.and_eq_true, beq_iff_eq] at hends
      simp [willReload, getOwnedSession, hends.1, hends.2, hrow, hgid]
  | endLabStop session =>
      simp only [endsLater, Bool.and_eq_true, beq_iff_eq] at hends
      simp only [willReload, hends.1, hends.2, hrow, hgid, Option.any_some, beq_self_eq_true,
        Bool.and_self]
  | finalize pc caller =>
      cases caller with
      | endLab =>
          cases pc with
          | commit loaded status =>
              simp only [endsLater, beq_iff_eq] at hends
              simp [willReload, hends, hrow, hgid, Caller.teardownOf]
          | refresh session wasActive =>
              simp only [endsLater, beq_iff_eq] at hends
              simp [willReload, hends, hrow, hgid, Caller.teardownOf]
          | _ => cases hends
      | _ => cases pc <;> cases hends
  | _ => cases hends

/-- The launch that brings the id stores it in a live row, or where an end will find it. -/
theorem Covered.of_brings {pid : Nat} (hwf : Wf c) (hpid : c.procs[pid]? = some p)
    (hstep : p.step cfg c.shared a = some (s', p')) (hkeep : p.keepsGns3 c pid a = true)
    (hbrings : p.brings gid = true) (hp' : p' ∈ c.procs.set pid p') :
    Covered ⟨s', c.procs.set pid p'⟩ gid := by
  have hp := hwf.procs p (mem_of_getElem? hpid)
  cases p with
  | launch req pc =>
      cases pc with
      | finalizeGet isNew sid result =>
          cases result with
          | error => cases hbrings
          | active gns3 =>
              obtain ⟨loaded, hloaded⟩ := Option.isSome_iff_exists.mp hkeep
              simp only [Proc.step, LaunchPc.step, hloaded] at hstep
              cases hstep
              exact Or.inr (Or.inr ⟨_, hp', carries_of_brings hbrings⟩)
      | finalizeCommit isNew loaded result =>
          cases result with
          | error => cases hbrings
          | active gns3 =>
              have hgns3 : gns3 = gid := by simpa [Proc.brings] using hbrings
              obtain ⟨current, hrow, hcond⟩ := (Option.any_eq_true _ _).mp hkeep
              have hid := hwf.keyed _ _ hrow
              simp only [Bool.or_eq_true, Bool.and_eq_true, Bool.not_eq_true',
                List.any_eq_true] at hcond
              have hfree : liveTwin c.shared.sessions ((Provisioned.active gns3).assign current)
                  = false := by
                rcases hcond with hlive | ⟨hfree, -⟩
                · rw [LearningSession.stillLive, Bool.and_eq_true] at hlive
                  exact hwf.oneLive.liveTwin_assign hwf.keyed hrow hlive.1
                · exact hfree
              simp only [Proc.step, LaunchPc.step, hrow, LearningSession.flush_assign hp.2, hfree,
                Bool.false_eq_true, if_false] at hstep
              cases hstep
              have hstored :=
                Table.get?_set_self (a := (Provisioned.active gns3).assign current) hrow
              have hrowid : ((Provisioned.active gns3).assign current).id = loaded.id := hid
              rcases hcond with hlive | ⟨-, q, hq, hends⟩
              · rw [LearningSession.stillLive, Bool.and_eq_true] at hlive
                refine Or.inr (Or.inl ⟨loaded.id, _, hstored, ?_, ?_⟩)
                · simp only [LearningSession.stillLive, Provisioned.assign, Status.isLive,
                    Bool.true_and]
                  exact hlive.2
                · simp [LearningSession.gns3Sid, Provisioned.assign, hgns3]
              · obtain ⟨j, hj⟩ := List.mem_iff_getElem?.mp hq
                have hne : pid ≠ j := by
                  rintro rfl
                  rw [hpid, Option.some.injEq] at hj
                  rw [← hj] at hends
                  cases hends
                refine Or.inr
                  (Or.inr ⟨q, List.mem_of_getElem? ((List.getElem?_set_ne hne).trans hj),
                    Proc.carries_of_endsLater (r := (Provisioned.active gns3).assign current) hends
                    (by rw [hrowid]; exact hstored) ?_⟩)
                simp [LearningSession.gns3Sid, Provisioned.assign, hgns3]
      | _ => cases hbrings
  | _ => cases hbrings

/-- An id in a live row stays there, or the end that marks the row has it too, or somebody else. -/
theorem Covered.of_stored {pid : Nat} (hwf : Wf c) (hpid : c.procs[pid]? = some p)
    (hstep : p.step cfg c.shared a = some (s', p')) (hkeep : p.keepsGns3 c pid a = true)
    (hstored : StoredLive c.shared.sessions gid) (hp' : p' ∈ c.procs.set pid p') :
    Covered ⟨s', c.procs.set pid p'⟩ gid := by
  obtain ⟨k, r, hr, hlive, hgid⟩ := hstored
  have hp := hwf.procs p (mem_of_getElem? hpid)
  have hwrites : Writes cfg c.shared p s'.sessions p' := Proc.step_writes hstep
  have hafter : StoredLive s'.sessions gid ∨ p'.carries s'.sessions gid = true
      ∨ coveredElsewhere c pid gid = true := by
    generalize s'.sessions = sessions at hwrites
    cases hwrites with
    | nothing => exact Or.inl ⟨k, r, hr, hlive, hgid⟩
    | insert hfree => exact Or.inl ⟨k, r, Table.get?_insert_of_some hr, hlive, hgid⟩
    | @finalize req isNew loaded current result hrow hfree =>
        by_cases hk : k = loaded.id
        · rw [hk, hrow, Option.some.injEq] at hr
          have hnone := (hp.1.row current hrow).2.2.1
          simp [LearningSession.gns3Sid, ← hr, hnone] at hgid
        · exact Or.inl ⟨k, r, (Table.get?_set_of_ne hrow hk).trans hr, hlive, hgid⟩
    | @markEnded loaded current status caller hrow =>
        by_cases hk : k = loaded.id
        · rw [hk, hrow, Option.some.injEq] at hr
          subst hr
          simp only [Proc.keepsGns3, hrow, Option.all_some, hlive, hgid, Bool.not_true,
            Bool.false_or, Bool.or_eq_true, beq_iff_eq] at hkeep
          rw [LearningSession.flush_markEnded hp.1.2.1 hp.1.2.2]
          exact Or.inr (hkeep.imp_left fun hteardown => refresh_carries hrow hgid hteardown)
        · exact Or.inl ⟨k, r, (Table.get?_set_of_ne hrow hk).trans hr, hlive, hgid⟩
  rcases hafter with hstored | hcarries | helsewhere
  · exact Or.inr (Or.inl hstored)
  · exact Or.inr (Or.inr ⟨p', hp', hcarries⟩)
  · exact .of_elsewhere helsewhere (hwrites.persists hp) (Proc.step_deleteCalls hstep)

theorem Covered.run {pid : Nat} (hwf : Wf c) (hpid : c.procs[pid]? = some p)
    (hstep : p.step cfg c.shared a = some (s', p')) (hkeep : p.keepsGns3 c pid a = true)
    (h : Covered c gid) : Covered ⟨s', c.procs.set pid p'⟩ gid := by
  have hp := hwf.procs p (mem_of_getElem? hpid)
  have hp' : p' ∈ c.procs.set pid p' := List.mem_set (List.getElem?_eq_some_iff.mp hpid).1 p'
  have hpersists : Persists c.shared.sessions s'.sessions := (Proc.step_writes hstep).persists hp
  have hdeletes := Proc.step_deleteCalls hstep
  rcases h with hmem | hstored | ⟨q, hq, hcarries⟩
  · exact Or.inl (hdeletes gid hmem)
  · exact .of_stored hwf hpid hstep hkeep hstored hp'
  · obtain ⟨j, hj⟩ := List.mem_iff_getElem?.mp hq
    by_cases hne : pid = j
    · rw [← hne, hpid, Option.some.injEq] at hj
      subst hj
      by_cases hbrings : p.brings gid = true
      · exact .of_brings hwf hpid hstep hkeep hbrings hp'
      · by_cases hmetrics : ∃ session wasActive caller,
            p = .finalize (.metrics session wasActive) caller
              ∧ c.shared.sessions.get? session.id = none ∧ a = .fail
              ∧ caller.teardownOf session = some gid
        · obtain ⟨session, wasActive, caller, rfl, hnone, rfl, hteardown⟩ := hmetrics
          simp only [Proc.keepsGns3, hnone, hteardown, Option.isSome_none, bne_self_eq_false,
            Bool.false_or, Option.all_some] at hkeep
          exact .of_elsewhere hkeep hpersists hdeletes
        · rcases Proc.step_carries hstep hwf.keyed hp (by simpa using hbrings) hcarries
            (fun session wasActive caller heq hnone hfail hteardown =>
              hmetrics ⟨session, wasActive, caller, heq, hnone, hfail, hteardown⟩) with hc | hd
          · exact Or.inr (Or.inr ⟨p', hp', hc⟩)
          · exact Or.inl hd
    · exact Or.inr (Or.inr ⟨q, List.mem_of_getElem? ((List.getElem?_set_ne hne).trans hj),
        hpersists.carries hcarries⟩)

theorem Proc.willReload_row (h : q.willReload sessions gid = true) :
    ∃ (k : SessionId) (r : LearningSession), sessions.get? k = some r ∧ r.gns3Sid = some gid
      ∧ ∀ after : SessionTable, after.get? k = some r → q.willReload after gid = true := by
  cases q with
  | endLabRead sid userId =>
      obtain ⟨r, hr, hgid⟩ := (Option.any_eq_true _ _).mp h
      obtain ⟨hget, huser⟩ := getOwnedSession_eq_some hr
      have hgid' : r.gns3Sid = some gid := by simpa using hgid
      exact ⟨sid, r, hget, hgid', fun after hafter => by
        simp [willReload, getOwnedSession, hafter, huser, hgid']⟩
  | endLabStop session =>
      simp only [willReload, Bool.and_eq_true] at h
      obtain ⟨r, hr, hgid⟩ := (Option.any_eq_true _ _).mp h.2
      exact ⟨session.id, r, hr, by simpa using hgid, fun after hafter => by
        simp only [willReload, h.1, hafter, Option.any_some, hgid, Bool.and_self]⟩
  | finalize pc caller =>
      cases pc with
      | commit loaded status =>
          obtain ⟨r, hr, hgid⟩ := (Option.any_eq_true _ _).mp h
          rw [Bool.and_eq_true] at hgid
          exact ⟨loaded.id, r, hr, by simpa using hgid.1, fun after hafter => by
            simp only [willReload, hafter, Option.any_some, hgid, Bool.and_self]⟩
      | refresh session wasActive =>
          obtain ⟨r, hr, hgid⟩ := (Option.any_eq_true _ _).mp h
          rw [Bool.and_eq_true] at hgid
          exact ⟨session.id, r, hr, by simpa using hgid.1, fun after hafter => by
            simp only [willReload, hafter, Option.any_some, hgid, Bool.and_self]⟩
      | _ => cases h
  | _ => cases h

/-- An erasure may take the row an id is stored in, or one that an end was going to reload, but then
a process has the id without it. -/
theorem Covered.erase {userId : UserId} (hkeep : (Env.erase userId).keepsGns3 c = true)
    (h : Covered c gid) : Covered { c with shared := eraseSubject c.shared userId } gid := by
  -- the row that has the id is deleted, or it is the same afterwards
  have hrow : ∀ (k : SessionId) (r : LearningSession), c.shared.sessions.get? k = some r →
      r.gns3Sid = some gid → Covered { c with shared := eraseSubject c.shared userId } gid
        ∨ (eraseSubject c.shared userId).sessions.get? k = some r := by
    intro k r hr hgid
    by_cases huser : r.userId = userId
    · left
      have hall := List.all_eq_true.mp hkeep r (Table.mem_rows.mpr ⟨k, hr⟩)
      simp only [huser, hgid, bne_self_eq_false, Bool.false_or, Option.all_some, Bool.or_eq_true,
        List.contains_iff_mem, List.any_eq_true] at hall
      rcases hall with hmem | ⟨q, hq, hdelete⟩
      · exact Or.inl hmem
      · exact Or.inr (Or.inr ⟨q, hq, carries_of_willDelete hdelete⟩)
    · right
      simp [eraseSubject, Table.get?_deleteWhere, hr, huser]
  rcases h with hmem | ⟨k, r, hr, hlive, hgid⟩ | ⟨q, hq, hcarries⟩
  · exact Or.inl hmem
  · exact (hrow k r hr hgid).elim id fun hafter => Or.inr (Or.inl ⟨k, r, hafter, hlive, hgid⟩)
  · simp only [Proc.carries, Bool.or_eq_true] at hcarries
    rcases hcarries with (hbrings | hdelete) | hreload
    · exact Or.inr (Or.inr ⟨q, hq, carries_of_brings hbrings⟩)
    · exact Or.inr (Or.inr ⟨q, hq, carries_of_willDelete hdelete⟩)
    · obtain ⟨k, r, hr, hgid, hsame⟩ := Proc.willReload_row hreload
      exact (hrow k r hr hgid).elim id fun hafter =>
        Or.inr (Or.inr ⟨q, hq, carries_of_willReload (hsame _ hafter)⟩)

structure Gns3Inv (c : World) : Prop where
  wf : Wf c
  covered : ∀ gid < c.shared.created, Covered c gid

theorem gns3Inv_init : Gns3Inv World.init where
  wf := wf_init
  covered := fun _ hlt => absurd hlt (Nat.not_lt_zero _)

theorem Gns3Inv.next (h : Gns3Inv c) (hkeep : keepsGns3 c l = true)
    (hnext : (platform cfg).next c l = some c') : Gns3Inv c' := by
  refine ⟨h.wf.next hnext, ?_⟩
  rcases (platform cfg).next_cases hnext with ⟨e, s, rfl, hs, rfl⟩ | ⟨i, rfl, rfl⟩
    | ⟨pid, a, p, s, p', rfl, hpid, hstep, rfl⟩
  · intro gid hlt
    cases e with
    | tick d =>
        cases hs
        exact h.covered gid hlt
    | erase userId =>
        cases hs
        exact (h.covered gid hlt).erase hkeep
  · intro gid hlt
    rcases h.covered gid hlt with hmem | hstored | ⟨q, hq, hcarries⟩
    · exact Or.inl hmem
    · exact Or.inr (Or.inl hstored)
    · exact Or.inr (Or.inr ⟨q, List.mem_append_left _ hq, hcarries⟩)
  · have hkeep' : p.keepsGns3 c pid a = true := by
      simpa [keepsGns3, hpid] using hkeep
    have hstep' : p.step cfg c.shared a = some (s, p') := hstep
    intro gid hlt
    by_cases hold : gid < c.shared.created
    · exact (h.covered gid hold).run h.wf hpid hstep' hkeep'
    · -- the id that this step created
      rcases Proc.step_created hstep' with hsame | ⟨hnew, hbrings⟩
      · exact absurd (by rw [← hsame]; exact hlt) hold
      · have hgid : gid = c.shared.created := by
          change gid < s.created at hlt
          rw [hnew] at hlt
          exact Nat.le_antisymm (Nat.le_of_lt_succ hlt) (Nat.le_of_not_lt hold)
        refine Or.inr (Or.inr ⟨p', ?_, carries_of_brings (hgid ▸ hbrings)⟩)
        exact List.mem_set (List.getElem?_eq_some_iff.mp hpid).1 p'

/-- **No leaked environment.** In a run whose every step keeps the ids it is responsible for, every
environment of a quiescent state is stored in a live row or was deleted. -/
theorem noLeak_of_keepsGns3 (cfg : Config) (ls : List Move)
    (hkeep : (platform cfg).Along (fun c l => keepsGns3 c l = true) World.init ls) :
    (platform cfg).Throughout NoLeak World.init ls := by
  have hinv : (platform cfg).Throughout Gns3Inv World.init ls :=
    (platform cfg).throughout_of_along (fun c l c' h hq hnext => h.next hq hnext) gns3Inv_init hkeep
  refine System.Throughout.mono (platform cfg) (fun c h hquiet gid hlt => ?_) hinv
  rcases h.covered gid hlt with hmem | hstored | ⟨p, hp, hcarries⟩
  · exact Or.inr hmem
  · exact Or.inl hstored
  · rw [hquiet p hp] at hcarries
    cases hcarries

/-- A session that is launched, ended and then erased. -/
def launchEndErase : List Move :=
  [Label.spawn (Request.launch "ann" "vlan")] ++ List.replicate 13 (Label.run 0 Answer.ok)
    ++ [Label.spawn (Request.endLab 0 "ann")] ++ List.replicate 7 (Label.run 1 Answer.ok)
    ++ [Label.env (Env.erase "ann")]

theorem noLeak_launchEndErase :
    (platform (.uniform 10 2 (minutes 480))).Throughout NoLeak World.init launchEndErase :=
  noLeak_of_keepsGns3 (.uniform 10 2 (minutes 480)) launchEndErase (by decide)

def erasedWhileProvisioning : List Move :=
  [Label.spawn (Request.launch "ann" "vlan")] ++ List.replicate 8 (Label.run 0 Answer.ok)
    ++ [Label.env (Env.erase "ann")] ++ List.replicate 3 (Label.run 0 Answer.ok)

/-- The launch comes back to no row and gives up, and nobody has the id of the environment. -/
theorem erasure_leaks_environment :
    ¬ ∀ (cfg : Config) (ls : List Move), (platform cfg).Throughout NoLeak World.init ls := by
  intro h
  have hrun : ((platform (.uniform 10 2 (minutes 480))).exec World.init erasedWhileProvisioning).map
      (fun c => (c.procs, c.shared.created, c.shared.sessions.rows, c.shared.deleteCalls))
      = some ([.done], 1, [], []) := by
    decide
  obtain ⟨c, hexec, hfinal⟩ := Option.map_eq_some_iff.mp hrun
  simp only [Prod.mk.injEq] at hfinal
  obtain ⟨hprocs, hcreated, hrows, hcalls⟩ := hfinal
  have hquiet : Quiescent c := by
    intro p hp
    rw [hprocs] at hp
    exact List.mem_singleton.mp hp
  rcases (h _ _).exec _ hexec hquiet 0 (by rw [hcreated]; exact Nat.one_pos) with
    ⟨k, r, hr, -, -⟩ | hmem
  · have := Table.mem_rows.mpr ⟨k, hr⟩
    rw [hrows] at this
    cases this
  · rw [hcalls] at hmem
    cases hmem

end OnlinetLabs.Sessions
