import OnlinetLabs.Sessions.System

/-!
# What the processes do to the rows

Of the thirty-odd steps of the platform four write to `learning_sessions`, so a statement about the
table has four cases and never thirty. Two families of facts follow from that one inversion.

The first is what no commit can undo: the owner, the lab and the key of a row, and its `meta` once
it has one. A copy a process loaded minutes ago may have a stale status, a stale `ended_at` and no
`meta` yet, but the row under its key, if there still is one, has the copy's owner and lab.

The second is what a launch may rely on between its two transactions. Its row has no `meta` yet, it
is provisioning unless somebody ended it, and no other launch is finalizing it.
-/

namespace OnlinetLabs.Sessions

open Interleaving

variable {cfg : Config} {s s' : Shared} {p p' : Proc} {a : Answer} {sessions : SessionTable}
  {session r : LearningSession} {sid : SessionId} {req : LaunchRequest}

/-- The steps that write the table, with the table and the process they leave. -/
inductive Writes (cfg : Config) (s : Shared) : Proc → SessionTable → Proc → Prop where
  | nothing {p p' : Proc} : Writes cfg s p s.sessions p'
  | insert {req : LaunchRequest} {isNew : Bool}
      (hfree : liveTwin s.sessions (provisioningRow cfg s req) = false) :
      Writes cfg s (.launch req (.insert isNew)) (s.sessions.insert (provisioningRow cfg s req))
        (.launch req (.create isNew s.sessions.size))
  | finalize {req : LaunchRequest} {isNew : Bool} {loaded current : LearningSession}
      {result : Provisioned} (hrow : s.sessions.get? loaded.id = some current)
      (hfree : liveTwin s.sessions (loaded.flush (result.assign loaded) current) = false) :
      Writes cfg s (.launch req (.finalizeCommit isNew loaded result))
        (s.sessions.set loaded.id (loaded.flush (result.assign loaded) current))
        (.launch req (.finalizeRefresh isNew loaded.id result))
  | markEnded {loaded current : LearningSession} {status : EndStatus} {caller : Caller}
      (hrow : s.sessions.get? loaded.id = some current) :
      Writes cfg s (.finalize (.commit loaded status) caller)
        (s.sessions.set loaded.id (loaded.flush (markEnded s.now status loaded) current))
        (.finalize (.refresh (markEnded s.now status loaded) (loaded.status == .active)) caller)

theorem LaunchPc.step_writes {pc : LaunchPc} (h : pc.step cfg s req a = some (s', p')) :
    Writes cfg s (.launch req pc) s'.sessions p' := by
  cases pc with
  | insert isNew =>
      simp only [step] at h
      split at h
      · cases h
        exact .nothing
      · rename_i hno
        cases h
        exact .insert (by simpa using (not_or.mp hno).2)
  | finalizeCommit isNew loaded result =>
      simp only [step] at h
      split at h
      · cases h
        exact .nothing
      · rename_i current hrow
        split at h
        · cases h
          exact .nothing
        · rename_i hfree
          cases h
          exact .finalize hrow (by simpa using hfree)
  | lock isNew =>
      simp only [step] at h
      split at h
      · cases h
      · cases h
        exact .nothing
  | lookup | acquire | relookup | checks | recount | create | finalizeGet | finalizeRefresh =>
      simp only [step] at h
      repeat' split at h
      all_goals
        cases h
        exact .nothing
  | dequeue | enqueue | resume | startMonitor | release =>
      cases h
      exact .nothing

theorem FinalizePc.step_writes {pc : FinalizePc} {caller : Caller}
    (h : pc.step s caller a = some (s', p')) :
    Writes cfg s (.finalize pc caller) s'.sessions p' := by
  cases pc with
  | commit loaded status =>
      simp only [step] at h
      split at h
      · cases h
        exact .nothing
      · rename_i current hrow
        cases h
        exact .markEnded hrow
  | refresh | metrics =>
      simp only [step] at h
      split at h
      all_goals
        cases h
        exact .nothing
  | release =>
      cases h
      exact .nothing

theorem Proc.step_writes (h : p.step cfg s a = some (s', p')) : Writes cfg s p s'.sessions p' := by
  cases p with
  | launch req pc => exact LaunchPc.step_writes h
  | finalize pc caller => exact FinalizePc.step_writes h
  | done => cases h
  | endLabRead | endSessionRead | sweepRead | sweepState | reapGet =>
      simp only [step] at h
      repeat' split at h
      all_goals
        cases h
        exact .nothing
  | endLabStop | reapSelect | reapStop | teardown =>
      cases h
      exact .nothing

/-! ### What no write undoes -/

/-- The columns that no commit assigns are the same, and `meta` is assigned once. -/
structure LearningSession.Continues (r s : LearningSession) : Prop where
  id : r.id = s.id
  userId : r.userId = s.userId
  labSlug : r.labSlug = s.labSlug
  metaJson : ∀ m, s.metaJson = some m → r.metaJson = some m

theorem LearningSession.Continues.refl (r : LearningSession) : r.Continues r :=
  ⟨rfl, rfl, rfl, fun _ h => h⟩

theorem LearningSession.Continues.trans {r s t : LearningSession} (hrs : r.Continues s)
    (hst : s.Continues t) : r.Continues t :=
  ⟨hrs.id.trans hst.id, hrs.userId.trans hst.userId, hrs.labSlug.trans hst.labSlug,
    fun m h => hrs.metaJson m (hst.metaJson m h)⟩

/-- Keys are never reused, and a row that survives continues the one it was. -/
structure Evolves (before after : SessionTable) : Prop where
  size_le : before.size ≤ after.size
  same : ∀ (k : SessionId) (r' : LearningSession), k < before.size → after.get? k = some r' →
    ∃ r, before.get? k = some r ∧ r'.Continues r

theorem Evolves.refl (sessions : SessionTable) : Evolves sessions sessions :=
  ⟨Nat.le_refl _, fun _ r' _ h => ⟨r', h, .refl _⟩⟩

theorem Evolves.set {current row : LearningSession} (hrow : sessions.get? sid = some current)
    (hsame : row.Continues current) : Evolves sessions (sessions.set sid row) := by
  refine ⟨by simp, fun k r' _ hk => ?_⟩
  rw [Table.get?_set hrow] at hk
  split at hk
  · rename_i heq
    cases hk
    exact ⟨current, heq ▸ hrow, hsame⟩
  · exact ⟨r', hk, .refl _⟩

theorem Evolves.insert : Evolves sessions (sessions.insert session) := by
  refine ⟨by simp, fun k r' hlt hk => ?_⟩
  rw [Table.get?_insert, if_neg (Nat.ne_of_lt hlt)] at hk
  exact ⟨r', hk, .refl _⟩

theorem Evolves.deleteWhere {P : LearningSession → Bool} :
    Evolves sessions (sessions.deleteWhere P) :=
  ⟨by simp, fun _ r' _ hk => ⟨r', Table.get?_of_get?_deleteWhere hk, .refl _⟩⟩

/-- A copy that was once loaded from the table. The row may have changed or gone since, but the row
under the copy's key continues it. -/
def CopyOf (sessions : SessionTable) (session : LearningSession) : Prop :=
  session.id < sessions.size
    ∧ ∀ r, sessions.get? session.id = some r → r.Continues session

theorem CopyOf.evolves {before after : SessionTable} (h : CopyOf before session)
    (hev : Evolves before after) : CopyOf after session := by
  refine ⟨Nat.lt_of_lt_of_le h.1 hev.size_le, fun r' hr' => ?_⟩
  obtain ⟨r, hr, hcont⟩ := hev.same _ r' h.1 hr'
  exact hcont.trans (h.2 r hr)

theorem CopyOf.markEnded (h : CopyOf sessions session) (now : Time) (status : EndStatus) :
    CopyOf sessions (markEnded now status session) := by
  refine ⟨h.1, fun r hr => ?_⟩
  obtain ⟨hid, huser, hlab, hmeta⟩ := h.2 r hr
  exact ⟨hid, huser, hlab, hmeta⟩

def Keyed (sessions : SessionTable) : Prop :=
  ∀ (k : SessionId) (r : LearningSession), sessions.get? k = some r → r.id = k

theorem Keyed.copyOf (h : Keyed sessions) (hrow : sessions.get? sid = some session) :
    CopyOf sessions session := by
  have hid := h _ _ hrow
  subst hid
  refine ⟨Table.lt_size_of_get? hrow, fun r hr => ?_⟩
  rw [hrow, Option.some.injEq] at hr
  subst hr
  exact .refl _

theorem Keyed.copyOf_of_mem (h : Keyed sessions) (hmem : session ∈ sessions.rows) :
    CopyOf sessions session := by
  obtain ⟨k, hk⟩ := Table.mem_rows.mp hmem
  exact h.copyOf hk

theorem Keyed.set {current row : LearningSession} (h : Keyed sessions)
    (hrow : sessions.get? sid = some current) (hid : row.id = sid) :
    Keyed (sessions.set sid row) := by
  intro k r hk
  rw [Table.get?_set hrow] at hk
  split at hk
  · rename_i heq
    cases hk
    rw [hid, heq]
  · exact h k r hk

theorem Writes.keyed (h : Writes cfg s p sessions p') (hkeyed : Keyed s.sessions) :
    Keyed sessions := by
  cases h with
  | nothing => exact hkeyed
  | insert hfree =>
      intro k r hk
      rw [Table.get?_insert] at hk
      split at hk
      · rename_i heq
        cases hk
        exact heq.symm
      · exact hkeyed k r hk
  | finalize hrow hfree =>
      have hid := hkeyed _ _ hrow
      exact hkeyed.set hrow hid
  | markEnded hrow =>
      have hid := hkeyed _ _ hrow
      exact hkeyed.set hrow hid

end OnlinetLabs.Sessions
