import OnlinetLabs.Sessions.Models

/-!
# Erasure of a subject

The tables of the registry, by which columns erasure finds the rows of a subject, and the foreign
keys that a row of them must satisfy. Of a row only these columns are kept.
-/

namespace OnlinetLabs.Users

open Sessions (UserId SessionId)

/-! ### The registry -/

inductive RegistryTable where
  | mcpAudit
  | agentActivityEvents
  | platformEvents
  | behavioralEvents
  | chatMessages
  | validationRuns
  | learningSessions
  | consents
  | labProgress
  | courseProgress
  | stepAttempts
  | processStateSamples
  | experimentMetrics
  | interventionDecisions
  | sessionEvidenceSnapshots
  | regimeAnnotations
  | groundingComparisons
  | cycleLatencySamples
  | studyParticipants
deriving Repr, DecidableEq

/-- What the deletion of a referenced row does to the row that references it. -/
inductive OnDelete where
  | cascade
  | setNull
deriving Repr, DecidableEq

namespace RegistryTable

/-- `ADMIN_TABLES`, in its order. -/
def adminTables : List RegistryTable :=
  [mcpAudit, agentActivityEvents, platformEvents, behavioralEvents, chatMessages, validationRuns,
    learningSessions, consents, labProgress, courseProgress, stepAttempts, processStateSamples,
    experimentMetrics, interventionDecisions, sessionEvidenceSnapshots, regimeAnnotations,
    groundingComparisons, cycleLatencySamples, studyParticipants]

def name : RegistryTable → String
  | mcpAudit => "mcp_audit"
  | agentActivityEvents => "agent_activity_events"
  | platformEvents => "platform_events"
  | behavioralEvents => "behavioral_events"
  | chatMessages => "chat_messages"
  | validationRuns => "validation_runs"
  | learningSessions => "learning_sessions"
  | consents => "consents"
  | labProgress => "lab_progress"
  | courseProgress => "course_progress"
  | stepAttempts => "step_attempts"
  | processStateSamples => "process_state_samples"
  | experimentMetrics => "experiment_metrics"
  | interventionDecisions => "intervention_decisions"
  | sessionEvidenceSnapshots => "session_evidence_snapshots"
  | regimeAnnotations => "regime_annotations"
  | groundingComparisons => "grounding_comparisons"
  | cycleLatencySamples => "cycle_latency_samples"
  | studyParticipants => "study_participants"

def hasUserId : RegistryTable → Bool
  | chatMessages | validationRuns | regimeAnnotations | groundingComparisons
  | cycleLatencySamples => false
  | _ => true

def hasSessionId : RegistryTable → Bool
  | learningSessions | consents | labProgress | courseProgress | stepAttempts | studyParticipants =>
      false
  | _ => true

/-- The foreign key of `user_id`. -/
def userKey : RegistryTable → Option OnDelete
  | mcpAudit | agentActivityEvents | consents => none
  | chatMessages | validationRuns | regimeAnnotations | groundingComparisons
  | cycleLatencySamples => none
  | platformEvents => some .setNull
  | _ => some .cascade

/-- The foreign key of `session_id`. -/
def sessionKey : RegistryTable → Option OnDelete
  | mcpAudit | agentActivityEvents => none
  | learningSessions | consents | labProgress | courseProgress | stepAttempts | studyParticipants =>
      none
  | platformEvents => some .setNull
  | _ => some .cascade

/-- A column of the table names a subject and is no foreign key. -/
def unkeyed (table : RegistryTable) : Bool :=
  table.hasUserId && table.userKey.isNone || table.hasSessionId && table.sessionKey.isNone

theorem unkeyed_iff (table : RegistryTable) :
    table.unkeyed = true ↔ table ∈ [mcpAudit, agentActivityEvents, consents] := by
  cases table <;> decide

def deferred : List RegistryTable := [learningSessions, studyParticipants]

end RegistryTable

def unattributableTables : List String :=
  (RegistryTable.adminTables.filter fun table => !table.hasUserId && !table.hasSessionId).map
    RegistryTable.name

example : unattributableTables = [] := by decide

/-! ### The store -/

structure Row where
  table : RegistryTable
  /-- The id of a learning session. -/
  ownId : Option SessionId := none
  userId : Option UserId := none
  sessionId : Option SessionId := none
deriving Repr, DecidableEq

/-- A row of the table about a user and a session. -/
def RegistryTable.row (table : RegistryTable) (userId : UserId)
    (sessionId : Option SessionId) : Row where
  table
  userId := if table.hasUserId then some userId else none
  sessionId := if table.hasSessionId then sessionId else none

structure Store where
  users : List UserId := []
  rows : List Row := []

namespace Store

variable (s : Store)

def hasSession (sessionId : SessionId) : Bool :=
  s.rows.any fun row => row.table == .learningSessions && row.ownId == some sessionId

/-- `get_owned_session`. -/
def owns (userId : UserId) (sessionId : SessionId) : Bool :=
  s.rows.any fun row =>
    row.table == .learningSessions && row.ownId == some sessionId && row.userId == some userId

/-- The row references nothing that is not there. -/
def admits (row : Row) : Bool :=
  (row.table.userKey.isNone || row.userId.all (s.users.contains ·))
    && (row.table.sessionKey.isNone || row.sessionId.all s.hasSession)

def sessionIds (userId : UserId) : List SessionId :=
  (s.rows.filter fun row => row.table == .learningSessions && row.userId == some userId).filterMap
    Row.ownId

end Store

/-! ### Deletion -/

/-- What a row becomes when sessions are deleted. -/
def Row.releaseSessions (sessionIds : List SessionId) (row : Row) : Option Row :=
  if row.sessionId.any (· ∈ sessionIds) then
    match row.table.sessionKey with
    | some .cascade => none
    | some .setNull => some { row with sessionId := none }
    | none => some row
  else some row

/-- What a row becomes when a user is deleted. -/
def Row.releaseUser (userId : UserId) (row : Row) : Option Row :=
  if row.userId = some userId then
    match row.table.userKey with
    | some .cascade => none
    | some .setNull => some { row with userId := none }
    | none => some row
  else some row

namespace Store

/-- `DELETE FROM table WHERE condition`, with the number of rows deleted. -/
def deleteRows (s : Store) (table : RegistryTable) (condition : Row → Bool) : Store × Nat :=
  let gone := s.rows.filter fun row => row.table == table && condition row
  let kept := s.rows.filter fun row => !(row.table == table && condition row)
  let rows :=
    if table = .learningSessions
      then kept.filterMap (Row.releaseSessions (gone.filterMap Row.ownId)) else kept
  ({ s with rows }, gone.length)

/-- `DELETE FROM users WHERE id = user_id`. -/
def deleteUser (s : Store) (userId : UserId) : Store × Nat :=
  let rows := (s.rows.filterMap (Row.releaseUser userId)).filterMap
    (Row.releaseSessions (s.sessionIds userId))
  if userId ∈ s.users then ({ users := s.users.filter (· != userId), rows }, 1) else (s, 0)

/-! ### Erasure -/

def subjectFilter (table : RegistryTable) (userId : UserId) (sessionIds : List SessionId) :
    Option (Row → Bool) :=
  if table.hasUserId then some fun row => row.userId == some userId
  else if table.hasSessionId then
    if sessionIds.isEmpty then none else some fun row => row.sessionId.any (· ∈ sessionIds)
  else none

/-- One turn of the loops of `erase_subject`. -/
def eraseTable (userId : UserId) (sessionIds : List SessionId)
    (erasing : Store × List (String × Nat))
    (table : RegistryTable) : Store × List (String × Nat) :=
  match subjectFilter table userId sessionIds with
  | none => (erasing.1, erasing.2 ++ [(table.name, 0)])
  | some condition =>
      let deleted := erasing.1.deleteRows table condition
      (deleted.1, erasing.2 ++ [(table.name, deleted.2)])

def eraseSubject (s : Store) (userId : UserId) (deleteAccount : Bool := true) :
    Store × List (String × Nat) :=
  let erase := eraseTable userId (s.sessionIds userId)
  let first := (RegistryTable.adminTables.filter (· ∉ RegistryTable.deferred)).foldl erase (s, [])
  let last := RegistryTable.deferred.foldl erase first
  if deleteAccount then
    let deleted := last.1.deleteUser userId
    (deleted.1, last.2 ++ [("users", deleted.2)])
  else last

end Store

/-! ### What erasure leaves -/

variable {s : Store} {row row' : Row} {table : RegistryTable} {condition : Row → Bool}
  {userId : UserId}
  {sessionIds : List SessionId}

theorem Row.table_releaseSessions (h : row.releaseSessions sessionIds = some row') :
    row'.table = row.table := by
  unfold Row.releaseSessions at h
  split at h
  · split at h
    · cases h
    · cases h
      rfl
    · cases h
      rfl
  · cases h
    rfl

theorem Row.releaseSessions_session (htable : row.table = .learningSessions) :
    row.releaseSessions sessionIds = some row := by
  unfold Row.releaseSessions
  rw [htable]
  split <;> rfl

theorem Row.releaseUser_session (htable : row.table = .learningSessions)
    (h : row.releaseUser userId = some row') : row' = row := by
  unfold Row.releaseUser at h
  rw [htable] at h
  split at h
  · cases h
  · exact (Option.some.inj h).symm

theorem Row.table_releaseUser (h : row.releaseUser userId = some row') :
    row'.table = row.table := by
  unfold Row.releaseUser at h
  split at h
  · split at h
    · cases h
    · cases h
      rfl
    · cases h
      rfl
  · cases h
    rfl

/-- The sessions that are there when sessions have been deleted were there before. -/
theorem Row.mem_of_mem_releaseSessions {rows : List Row}
    (h : row ∈ rows.filterMap (Row.releaseSessions sessionIds))
    (htable : row.table = .learningSessions) :
    row ∈ rows := by
  obtain ⟨row₀, hmem, hrow⟩ := List.mem_filterMap.mp h
  have htable₀ : row₀.table = .learningSessions :=
    (Row.table_releaseSessions hrow).symm.trans htable
  rw [Row.releaseSessions_session htable₀, Option.some.injEq] at hrow
  exact hrow ▸ hmem

namespace Store

theorem mem_deleteRows (h : row ∈ (s.deleteRows table condition).1.rows)
    (htable : row.table = .learningSessions) :
    row ∈ s.rows ∧ (table = .learningSessions → condition row = false) := by
  have hkept : row ∈ s.rows.filter fun row => !(row.table == table && condition row) := by
    unfold deleteRows at h
    dsimp only at h
    split at h
    · exact Row.mem_of_mem_releaseSessions h htable
    · exact h
  obtain ⟨hmem, hcondition⟩ := List.mem_filter.mp hkept
  refine ⟨hmem, fun hsessions => ?_⟩
  simpa [htable, hsessions] using hcondition

theorem mem_deleteUser (h : row ∈ (s.deleteUser userId).1.rows)
    (htable : row.table = .learningSessions) :
    row ∈ s.rows := by
  unfold deleteUser at h
  split at h
  · have hrow := Row.mem_of_mem_releaseSessions h htable
    obtain ⟨row₀, hmem, hrow₀⟩ := List.mem_filterMap.mp hrow
    have htable₀ : row₀.table = .learningSessions := (Row.table_releaseUser hrow₀).symm.trans htable
    exact Row.releaseUser_session htable₀ hrow₀ ▸ hmem
  · exact h

theorem mem_users_deleteUser (s : Store) (userId other : UserId) :
    other ∈ (s.deleteUser userId).1.users ↔ other ∈ s.users ∧ other ≠ userId := by
  unfold deleteUser
  split
  · simp
  · rename_i hnot
    exact ⟨fun h => ⟨h, fun heq => hnot (heq ▸ h)⟩, fun h => h.1⟩

/-- The sessions left by the loops were there, and are not the subject's if the loops have come to
them. -/
theorem mem_eraseTables {tables : List RegistryTable} {erasing : Store × List (String × Nat)}
    (h : row ∈ (tables.foldl (eraseTable userId sessionIds) erasing).1.rows)
    (htable : row.table = .learningSessions) :
    row ∈ erasing.1.rows ∧ (.learningSessions ∈ tables → row.userId ≠ some userId) := by
  induction tables generalizing erasing with
  | nil => exact ⟨h, nofun⟩
  | cons table tables ih =>
      rw [List.foldl_cons] at h
      obtain ⟨hmem, hlater⟩ := ih h
      have hhead : row ∈ erasing.1.rows
          ∧ (table = .learningSessions → row.userId ≠ some userId) := by
        unfold eraseTable at hmem
        split at hmem
        · rename_i hnone
          refine ⟨hmem, fun heq => ?_⟩
          subst heq
          cases hnone
        · rename_i condition hcondition
          obtain ⟨hold, hkept⟩ := mem_deleteRows hmem htable
          refine ⟨hold, fun heq => ?_⟩
          subst heq
          cases hcondition
          simpa using hkept rfl
      refine ⟨hhead.1, fun hsessions => ?_⟩
      rcases List.mem_cons.mp hsessions with heq | hrest
      · exact hhead.2 heq.symm
      · exact hlater hrest

theorem users_eraseTables {tables : List RegistryTable} {erasing : Store × List (String × Nat)} :
    (tables.foldl (eraseTable userId sessionIds) erasing).1.users = erasing.1.users := by
  induction tables generalizing erasing with
  | nil => rfl
  | cons table tables ih =>
      rw [List.foldl_cons, ih]
      unfold eraseTable
      split <;> rfl

/-- **What erasure leaves.** Of the sessions, those that were there and are not the subject's, and
of the users, all others. -/
theorem mem_eraseSubject (h : row ∈ (s.eraseSubject userId).1.rows)
    (htable : row.table = .learningSessions) :
    row ∈ s.rows ∧ row.userId ≠ some userId := by
  have hlast := mem_deleteUser h htable
  obtain ⟨hfirst, hother⟩ := mem_eraseTables hlast htable
  exact ⟨(mem_eraseTables hfirst htable).1, hother (by decide)⟩

theorem mem_users_eraseSubject {other : UserId} :
    other ∈ (s.eraseSubject userId).1.users ↔ other ∈ s.users ∧ other ≠ userId := by
  have hlast :=
    mem_users_deleteUser (RegistryTable.deferred.foldl (eraseTable userId (s.sessionIds userId))
      ((RegistryTable.adminTables.filter (· ∉ RegistryTable.deferred)).foldl
      (eraseTable userId (s.sessionIds userId)) (s, []))).1 userId other
  rw [users_eraseTables, users_eraseTables] at hlast
  exact hlast

end Store

end OnlinetLabs.Users
