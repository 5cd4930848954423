import OnlinetLabs.Lib.Table

/-!
# The learning_sessions table

A row is written by three parties that do not wait for each other: the launch that created it, the
paths that end it, and an erasure that deletes it. Each loads a copy, assigns columns on the copy
and commits, and the commit writes back only the columns whose value differs from the loaded one. So
a commit can never be read as "the row is now this copy": what it leaves behind also depends on what
others committed since the copy was loaded. `LearningSession.flush` is that merge.
-/

namespace OnlinetLabs.Sessions

open OnlinetLabs

abbrev UserId := String

abbrev Slug := String

abbrev SessionId := Nat

/-- A session id of the GNS3 service. -/
abbrev Gns3Id := Nat

/-- Microseconds on the server's clock. -/
abbrev Time := Nat

def minutes (n : Nat) : Time := n * 60 * 1000000

/-- The values the platform writes to `learning_sessions.status`. -/
inductive Status where
  | provisioning
  | active
  | error
  | ended
  | completed
deriving Repr, DecidableEq

/-- `status IN ('active', 'provisioning')`: the predicate of the per-user count, of the reaper and
of the partial unique index. -/
def Status.isLive : Status → Bool
  | .provisioning | .active => true
  | .error | .ended | .completed => false

/-- The statuses that only a commit which also sets `ended_at` writes. -/
def Status.isEnd : Status → Bool
  | .ended | .completed => true
  | .provisioning | .active | .error => false

/-- The statuses a caller passes to `_mark_ended_and_finalize`. -/
inductive EndStatus where
  | ended
  | completed
deriving Repr, DecidableEq

def EndStatus.toStatus : EndStatus → Status
  | .ended => .ended
  | .completed => .completed

@[simp] theorem EndStatus.isLive_toStatus (status : EndStatus) :
    status.toStatus.isLive = false := by
  cases status <;> rfl

@[simp] theorem EndStatus.isEnd_toStatus (status : EndStatus) : status.toStatus.isEnd = true := by
  cases status <;> rfl

/-- What `launch_session` stores about the environment. Of its keys only the one every terminator
reads is kept. -/
structure Meta where
  gns3ServiceSessionId : Gns3Id
deriving Repr, DecidableEq

structure LearningSession where
  id : SessionId
  userId : UserId
  labSlug : Slug
  status : Status
  startedAt : Time
  endedAt : Option Time
  expiresAt : Option Time
  metaJson : Option Meta
deriving Repr, DecidableEq

namespace LearningSession

/-- `(session.meta or {}).get("gns3_service_session_id")`. -/
def gns3Sid (s : LearningSession) : Option Gns3Id := s.metaJson.map (·.gns3ServiceSessionId)

/-- A created session that is not ended. What a failed launch leaves behind is none. -/
def stillLive (s : LearningSession) : Bool := s.status.isLive && s.endedAt.isNone

/-- The UPDATE of a commit: of the columns assigned on a loaded copy, those whose value changed. -/
def flush (loaded assigned current : LearningSession) : LearningSession :=
  { current with
    status := if assigned.status = loaded.status then current.status else assigned.status
    endedAt := if assigned.endedAt = loaded.endedAt then current.endedAt else assigned.endedAt
    metaJson := if assigned.metaJson = loaded.metaJson then current.metaJson
      else assigned.metaJson }

@[simp] theorem flush_id (loaded assigned current : LearningSession) :
    (flush loaded assigned current).id = current.id := rfl

@[simp] theorem flush_userId (loaded assigned current : LearningSession) :
    (flush loaded assigned current).userId = current.userId := rfl

@[simp] theorem flush_labSlug (loaded assigned current : LearningSession) :
    (flush loaded assigned current).labSlug = current.labSlug := rfl

end LearningSession

abbrev SessionTable := Table LearningSession

/-- Another live row of the same learner and lab, which the partial unique index
`uq_learning_sessions_one_live` does not let a write join. -/
def liveTwin (sessions : SessionTable) (s : LearningSession) : Bool :=
  s.status.isLive && sessions.rows.any fun r =>
    r.id != s.id && r.userId == s.userId && r.labSlug == s.labSlug && r.status.isLive

/-- `get_active_session`. The unique index leaves at most one such row. -/
def getActiveSession (sessions : SessionTable) (userId : UserId) (labSlug : Slug) :
    Option LearningSession :=
  sessions.rows.find? fun r => r.userId == userId && r.labSlug == labSlug && r.status == .active

def getOwnedSession (sessions : SessionTable) (sessionId : SessionId) (userId : UserId) :
    Option LearningSession :=
  (sessions.get? sessionId).filter fun r => r.userId == userId

def countActiveSessions (sessions : SessionTable) (userId : UserId) : Nat :=
  sessions.count fun r => r.userId == userId && r.status.isLive

/-- Provisioning takes about half a minute. -/
def staleProvisioning : Time := minutes 15

/-- The filter of `reap_expired_sessions`: past the deadline, or stuck in provisioning. -/
def isReapable (now : Time) (r : LearningSession) : Bool :=
  r.status.isLive
    && ((match r.expiresAt with
          | none => false
          | some expiresAt => decide (expiresAt < now))
      || (r.status == .provisioning && decide (r.startedAt + staleProvisioning < now)))

theorem getOwnedSession_eq_some {sessions : SessionTable} {sessionId : SessionId} {userId : UserId}
    {s : LearningSession} (h : getOwnedSession sessions sessionId userId = some s) :
    sessions.get? sessionId = some s ∧ s.userId = userId := by
  unfold getOwnedSession at h
  rw [Option.filter_eq_some_iff] at h
  exact ⟨h.1, by simpa using h.2⟩

end OnlinetLabs.Sessions
