import OnlinetLabs.Sessions.Rows

/-!
# What holds in every reachable state

A copy goes stale, but never in a way that matters to the commit it is loaded for. Whoever ends a
row loaded it without an `ended_at`, so its copy does not have an end status either and both columns
are written. Whoever finalizes a launch loaded a row that nobody else finalizes, so its copy has no
`meta` and is neither active nor failed, and every column it assigns is written too. Both commits
therefore assign their columns on the row as it is at that moment, whatever the copy says:
`flush_markEnded` and `flush_assign`.

`Wf` collects what this argument needs, with the uniqueness of the live row of a learner and a lab.
Every move of the platform preserves it.
-/

namespace OnlinetLabs.Sessions

open Interleaving

variable {cfg : Config} {s s' : Shared} {p p' q : Proc} {a : Answer} {sessions : SessionTable}
  {session loaded current r : LearningSession} {sid : SessionId} {req : LaunchRequest}
  {result : Provisioned} {status : EndStatus} {now : Time}

namespace LearningSession

/-- An end status comes with an `ended_at`. The converse is not an invariant. -/
def EndRecorded (session : LearningSession) : Prop :=
  session.status.isEnd → session.endedAt.isSome

/-- The row of a launch that has not been finalized: it has no `meta`, and only an end has touched
it. -/
def AwaitsGns3 (session : LearningSession) : Prop :=
  session.metaJson = none
    ∧ (session.status = .provisioning ∧ session.endedAt = none
      ∨ session.status.isEnd ∧ session.endedAt.isSome)

theorem EndRecorded.isEnd_eq_false (h : session.EndRecorded) (hopen : session.endedAt = none) :
    session.status.isEnd = false := by
  by_contra hend
  simpa [hopen] using h (by simpa using hend)

/-- The commit of `_mark_ended_and_finalize` writes its columns on the row it finds. -/
theorem flush_markEnded (hrec : loaded.EndRecorded) (hopen : loaded.endedAt = none) :
    loaded.flush (markEnded now status loaded) current = markEnded now status current := by
  have hstatus : status.toStatus ≠ loaded.status := by
    intro heq
    have := hrec.isEnd_eq_false hopen
    rw [← heq, EndStatus.isEnd_toStatus] at this
    exact Bool.noConfusion this
  simp [flush, markEnded, hopen, hstatus]

/-- The commit of `_finalize_session_row` writes its columns on the row it finds. -/
theorem flush_assign (h : loaded.AwaitsGns3) :
    loaded.flush (result.assign loaded) current = result.assign current := by
  obtain ⟨hmeta, hstatus⟩ := h
  have hactive : Status.active ≠ loaded.status := by
    rintro heq
    rcases hstatus with ⟨hprov, -⟩ | ⟨hend, -⟩
    · exact Status.noConfusion (heq.trans hprov)
    · simp [← heq, Status.isEnd] at hend
  have herror : Status.error ≠ loaded.status := by
    rintro heq
    rcases hstatus with ⟨hprov, -⟩ | ⟨hend, -⟩
    · exact Status.noConfusion (heq.trans hprov)
    · simp [← heq, Status.isEnd] at hend
  cases result with
  | active gns3 => simp [flush, Provisioned.assign, hactive, hmeta]
  | error => simp [flush, Provisioned.assign, herror]

end LearningSession

/-! ### One live row for a learner and a lab -/

/-- What `uq_learning_sessions_one_live` maintains. -/
def OneLive (sessions : SessionTable) : Prop :=
  ∀ (k k' : SessionId) (r r' : LearningSession),
    sessions.get? k = some r → sessions.get? k' = some r' →
      r.status.isLive → r'.status.isLive → r.userId = r'.userId → r.labSlug = r'.labSlug → k = k'

theorem liveTwin_eq_false_iff : liveTwin sessions session = false ↔
    (session.status.isLive → ∀ r ∈ sessions.rows, r.status.isLive → r.userId = session.userId →
      r.labSlug = session.labSlug → r.id = session.id) := by
  unfold liveTwin
  rw [Bool.and_eq_false_iff, List.any_eq_false]
  constructor
  · rintro (hdead | hnone) hlive r hr hrlive huser hlab
    · rw [hdead] at hlive
      exact Bool.noConfusion hlive
    · by_contra hid
      exact hnone r hr (by simp [hid, hrlive, huser, hlab])
  · intro h
    by_cases hlive : session.status.isLive = true
    · refine Or.inr fun r hr hall => ?_
      simp only [Bool.and_eq_true, bne_iff_ne, beq_iff_eq] at hall
      exact hall.1.1.1 (h hlive r hr hall.2 hall.1.1.2 hall.1.2)
    · exact Or.inl (by simpa using hlive)

theorem OneLive.insert (h : OneLive sessions) (hkeyed : Keyed sessions)
    (hid : session.id = sessions.size) (hfree : liveTwin sessions session = false) :
    OneLive (sessions.insert session) := by
  -- no old row is live for the same learner and lab
  have hold : ∀ (k : SessionId) (r : LearningSession), sessions.get? k = some r →
      session.status.isLive → r.status.isLive → r.userId = session.userId →
      r.labSlug = session.labSlug → False := by
    intro k r hk hlive hrlive huser hlab
    have heq :=
      liveTwin_eq_false_iff.mp hfree hlive r (Table.mem_rows.mpr ⟨k, hk⟩) hrlive huser hlab
    rw [hkeyed k r hk, hid] at heq
    exact Nat.ne_of_lt (Table.lt_size_of_get? hk) heq
  intro k k' r r' hk hk' hlive hlive' huser hlab
  rw [Table.get?_insert] at hk hk'
  split at hk <;> split at hk'
  · rename_i hksize hk'size
    rw [hksize, hk'size]
  · cases hk
    exact (hold k' r' hk' hlive hlive' huser.symm hlab.symm).elim
  · cases hk'
    exact (hold k r hk hlive' hlive huser hlab).elim
  · exact h k k' r r' hk hk' hlive hlive' huser hlab

theorem OneLive.set (h : OneLive sessions) (hkeyed : Keyed sessions)
    (hrow : sessions.get? sid = some current) (hid : session.id = sid)
    (hfree : liveTwin sessions session = false) : OneLive (sessions.set sid session) := by
  have hold : ∀ (k : SessionId) (r : LearningSession), sessions.get? k = some r →
      session.status.isLive → r.status.isLive → r.userId = session.userId →
      r.labSlug = session.labSlug → k = sid := by
    intro k r hk hlive hrlive huser hlab
    have heq :=
      liveTwin_eq_false_iff.mp hfree hlive r (Table.mem_rows.mpr ⟨k, hk⟩) hrlive huser hlab
    rwa [hkeyed k r hk, hid] at heq
  intro k k' r r' hk hk' hlive hlive' huser hlab
  rw [Table.get?_set hrow] at hk hk'
  split at hk <;> split at hk'
  · rename_i hksid hk'sid
    rw [hksid, hk'sid]
  · rename_i hksid _
    cases hk
    rw [hksid, hold k' r' hk' hlive hlive' huser.symm hlab.symm]
  · rename_i _ hk'sid
    cases hk'
    rw [hk'sid, hold k r hk hlive' hlive huser hlab]
  · exact h k k' r r' hk hk' hlive hlive' huser hlab

theorem OneLive.deleteWhere (h : OneLive sessions) (P : LearningSession → Bool) :
    OneLive (sessions.deleteWhere P) :=
  fun k k' r r' hk hk' => h k k' r r' (Table.get?_of_get?_deleteWhere hk)
    (Table.get?_of_get?_deleteWhere hk')

/-- A live row has no live twin, so the unique index lets every finalization of it through. -/
theorem OneLive.liveTwin_assign {sessions : SessionTable} {current : LearningSession}
    {result : Provisioned} {sid : SessionId} (hone : OneLive sessions) (hkeyed : Keyed sessions)
    (hrow : sessions.get? sid = some current) (hlive : current.status.isLive) :
    liveTwin sessions (result.assign current) = false := by
  have hassign : (result.assign current).userId = current.userId
      ∧ (result.assign current).labSlug = current.labSlug
      ∧ (result.assign current).id = current.id := by
    cases result <;> exact ⟨rfl, rfl, rfl⟩
  refine liveTwin_eq_false_iff.mpr fun _ r hr hrlive huser hlab => ?_
  obtain ⟨k, hk⟩ := Table.mem_rows.mp hr
  rw [hassign.1] at huser
  rw [hassign.2.1] at hlab
  have heq := hone k sid r current hk hrow hrlive hlive huser hlab
  rw [hassign.2.2, hkeyed _ _ hk, hkeyed _ _ hrow, heq]

/-! ### What a process may rely on -/

structure Unfinalized (sessions : SessionTable) (req : LaunchRequest) (sid : SessionId) : Prop where
  lt : sid < sessions.size
  row : ∀ r, sessions.get? sid = some r →
    r.userId = req.userId ∧ r.labSlug = req.labSlug ∧ r.AwaitsGns3

/-- The row between whose insert and whose finalization a launch stands. -/
def LaunchPc.launching : LaunchPc → Option SessionId
  | .create _ sid => some sid
  | .finalizeGet _ sid _ => some sid
  | .finalizeCommit _ loaded _ => some loaded.id
  | _ => none

def Proc.launching : Proc → Option SessionId
  | .launch _ pc => pc.launching
  | _ => none

def LaunchPc.Wf (sessions : SessionTable) (req : LaunchRequest) : LaunchPc → Prop
  | .create _ sid => Unfinalized sessions req sid
  | .finalizeGet _ sid _ => Unfinalized sessions req sid
  | .finalizeCommit _ loaded _ => Unfinalized sessions req loaded.id ∧ loaded.AwaitsGns3
  | .finalizeRefresh _ sid _ => sid < sessions.size
  | _ => True

def FinalizePc.Wf (sessions : SessionTable) : FinalizePc → Prop
  | .commit loaded _ => CopyOf sessions loaded ∧ loaded.EndRecorded ∧ loaded.endedAt = none
  | .refresh session _ => CopyOf sessions session
  | .metrics session _ => CopyOf sessions session
  | .release session _ => CopyOf sessions session

def Caller.Wf (sessions : SessionTable) : Caller → Prop
  | .reaper _ rest => ∀ r ∈ rest, CopyOf sessions r
  | _ => True

def Proc.Wf (sessions : SessionTable) : Proc → Prop
  | .launch req pc => pc.Wf sessions req
  | .endLabStop session => CopyOf sessions session ∧ session.EndRecorded
  | .sweepState session => CopyOf sessions session ∧ session.EndRecorded
  | .reapStop session rest => CopyOf sessions session ∧ ∀ r ∈ rest, CopyOf sessions r
  | .reapGet session rest => CopyOf sessions session ∧ ∀ r ∈ rest, CopyOf sessions r
  | .finalize pc caller => pc.Wf sessions ∧ caller.Wf sessions
  | .teardown _ rest => ∀ r ∈ rest, CopyOf sessions r
  | _ => True

theorem Proc.Wf.unfinalized (h : p.Wf sessions) (hsid : p.launching = some sid) :
    ∃ req pc, p = .launch req pc ∧ Unfinalized sessions req sid := by
  cases p with
  | launch req pc =>
      refine ⟨req, pc, rfl, ?_⟩
      cases pc with
      | create | finalizeGet =>
          cases hsid
          exact h
      | finalizeCommit =>
          cases hsid
          exact h.1
      | _ => cases hsid
  | _ => cases hsid

/-- Where every row that is left was there before, a process keeps what it relies on. -/
theorem Proc.Wf.mono {before after : SessionTable} (h : p.Wf before) (hev : Evolves before after)
    (hrow : ∀ sid req, p.launching = some sid → Unfinalized before req sid →
      Unfinalized after req sid) : p.Wf after := by
  have hcopies : ∀ {rest : List LearningSession}, (∀ r ∈ rest, CopyOf before r) →
      ∀ r ∈ rest, CopyOf after r := fun hrest r hr => (hrest r hr).evolves hev
  cases p with
  | launch req pc =>
      cases pc with
      | create isNew sid => exact hrow sid req rfl h
      | finalizeGet isNew sid result => exact hrow sid req rfl h
      | finalizeCommit isNew loaded result => exact ⟨hrow loaded.id req rfl h.1, h.2⟩
      | finalizeRefresh isNew sid result => exact Nat.lt_of_lt_of_le h hev.size_le
      | _ => trivial
  | endLabStop session => exact ⟨h.1.evolves hev, h.2⟩
  | sweepState session => exact ⟨h.1.evolves hev, h.2⟩
  | reapStop session rest => exact ⟨h.1.evolves hev, hcopies h.2⟩
  | reapGet session rest => exact ⟨h.1.evolves hev, hcopies h.2⟩
  | teardown gns3Sid rest => exact hcopies h
  | finalize pc caller =>
      refine ⟨?_, ?_⟩
      · cases pc with
        | commit loaded status => exact ⟨h.1.1.evolves hev, h.1.2⟩
        | refresh | metrics | release => exact h.1.evolves hev
      · cases caller with
        | reaper gns3Sid rest => exact hcopies h.2
        | _ => trivial
  | _ => trivial

end OnlinetLabs.Sessions
