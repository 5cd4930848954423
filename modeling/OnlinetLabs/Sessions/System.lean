import OnlinetLabs.Sessions.Queue

/-!
# The life of a session

The requests and background passes that write a session's row, as processes over the database, the
redis counters, the GNS3 service and the monitor registry. A process moves from one await to the
next, so everything the source does between two awaits is one step, and every commit and every
script is atomic. A row a process has loaded travels in its program counter as a copy, which may be
out of date by the time it is used.

Of the awaits that only talk to GNS3 or redis without changing anything modelled here (starting the
nodes, saving their configuration, issuing a ticket, reading the queue's depth) none has a step of
its own. Only GNS3 calls fail; a database step fails where the row it names is gone or where the
unique index rejects it.
-/

namespace OnlinetLabs.Sessions

open Interleaving

structure Lab where
  enabled : Bool
  /-- `template_project_id_for`, or `none` where it raises. -/
  templateProjectId : Option String

structure Config where
  capacity : CapacityConfig
  labs : Slug → Option Lab

/-- A deployment with one cap for every lab, each of them enabled and with a template. -/
def Config.uniform (cap maxSessionsPerUser : Nat) (sessionMaxTime : Time) : Config where
  capacity := ⟨cap, fun _ => none, maxSessionsPerUser, sessionMaxTime⟩
  labs := fun _ => some ⟨true, some "template"⟩

structure Shared where
  now : Time
  sessions : SessionTable
  queue : QueueState
  /-- `active_sessions_gauge`, by lab. -/
  gauge : Slug → Int
  /-- How many sessions the GNS3 service has handed out: their ids are those below. -/
  created : Nat
  /-- The ids `gns3_client.delete_session` was called on. -/
  deleteCalls : List Gns3Id
  /-- The session ids the monitor registry holds. -/
  monitors : List SessionId
  /-- The ExperimentMetrics rows, by session and learner. -/
  metrics : List (SessionId × UserId)
  /-- The learners whose advisory lock a transaction holds. -/
  advisory : List UserId
  /-- The accounts an erasure deleted. -/
  erased : List UserId

def Shared.init : Shared where
  now := 0
  sessions := {}
  queue := .init
  gauge := fun _ => 0
  created := 0
  deleteCalls := []
  monitors := []
  metrics := []
  advisory := []
  erased := []

/-- How an awaited GNS3 call, or a step that may raise, comes back. -/
inductive Answer where
  | ok
  | fail
  | notFound
deriving Repr, DecidableEq

structure LaunchRequest where
  userId : UserId
  labSlug : Slug
deriving Repr, DecidableEq

/-- What `_finalize_session_row` is told: `active` with the meta, or `error` without. -/
inductive Provisioned where
  | active (gns3 : Gns3Id)
  | error
deriving Repr, DecidableEq

def Provisioned.isActive : Provisioned → Bool
  | .active _ => true
  | .error => false

/-- The columns `_finalize_session_row` assigns on the row it loaded. -/
def Provisioned.assign (result : Provisioned) (session : LearningSession) : LearningSession :=
  match result with
  | .active gns3 => { session with status := .active, metaJson := some ⟨gns3⟩ }
  | .error => { session with status := .error }

/-- Where a launch stands. `isNew` is `is_new_launch`: whether the request holds a queue slot. -/
inductive LaunchPc where
  | lookup
  | acquire
  | dequeue
  | enqueue
  | relookup (isNew : Bool)
  | resume (isNew : Bool)
  | checks (isNew : Bool)
  | lock (isNew : Bool)
  | recount (isNew : Bool)
  | insert (isNew : Bool)
  | create (isNew : Bool) (sid : SessionId)
  | finalizeGet (isNew : Bool) (sid : SessionId) (result : Provisioned)
  | finalizeCommit (isNew : Bool) (loaded : LearningSession) (result : Provisioned)
  | finalizeRefresh (isNew : Bool) (sid : SessionId) (result : Provisioned)
  | startMonitor (session : LearningSession)
  | release
deriving Repr, DecidableEq

/-- Who called `_mark_ended_and_finalize`. The reaper brings the GNS3 id of the copy it selected and
the rows it has still to end. -/
inductive Caller where
  | endSession
  | endLab
  | sweep
  | reaper (gns3Sid : Option Gns3Id) (rest : List LearningSession)
deriving Repr, DecidableEq

/-- Where `_mark_ended_and_finalize` stands, past its guard. -/
inductive FinalizePc where
  | commit (loaded : LearningSession) (status : EndStatus)
  | refresh (session : LearningSession) (wasActive : Bool)
  | metrics (session : LearningSession) (wasActive : Bool)
  | release (session : LearningSession) (wasActive : Bool)
deriving Repr, DecidableEq

inductive Proc where
  | launch (req : LaunchRequest) (pc : LaunchPc)
  | endLabRead (sid : SessionId) (userId : UserId)
  | endLabStop (session : LearningSession)
  | endSessionRead (sid : SessionId) (userId : UserId) (status : EndStatus)
  | sweepRead (sid : SessionId) (userId : UserId)
  | sweepState (session : LearningSession)
  | reapSelect
  | reapStop (session : LearningSession) (rest : List LearningSession)
  | reapGet (session : LearningSession) (rest : List LearningSession)
  | finalize (pc : FinalizePc) (caller : Caller)
  | teardown (gns3Sid : Gns3Id) (rest : List LearningSession)
  | done
deriving Repr, DecidableEq

/-- The loop of `reap_expired_sessions` over the rows it selected. -/
def reapNext : List LearningSession → Proc
  | [] => .done
  | session :: rest => .reapStop session rest

/-- What the caller does once `_mark_ended_and_finalize` has returned `session`. -/
def Caller.resume (session : LearningSession) : Caller → Proc
  | .endSession => .done
  | .sweep => .done
  | .endLab =>
      match session.gns3Sid with
      | some gns3Sid => .teardown gns3Sid []
      | none => .done
  | .reaper (some gns3Sid) rest => .teardown gns3Sid rest
  | .reaper none rest => reapNext rest

/-- Where an exception out of `_mark_ended_and_finalize` leaves the caller: a request fails, and the
reaper logs it and goes on to its next row. -/
def Caller.raise : Caller → Proc
  | .endSession => .done
  | .sweep => .done
  | .endLab => .done
  | .reaper _ rest => reapNext rest

/-- `_mark_ended_and_finalize`, up to its first await: a row that is already ended is left alone. -/
def markEndedAndFinalize (session : LearningSession) (status : EndStatus)
    (caller : Caller) : Proc :=
  if session.endedAt.isSome then caller.resume session
  else .finalize (.commit session status) caller

/-- The `except` branches of `launch_endpoint`, and the slot of a session that was only resumed. -/
def releaseIfNew (req : LaunchRequest) (isNew : Bool) : Proc :=
  if isNew then .launch req .release else .done

/-- The end of the transaction that took the learner's advisory lock. -/
def Shared.unlock (s : Shared) (userId : UserId) : Shared :=
  { s with advisory := s.advisory.erase userId }

def provisioningRow (cfg : Config) (s : Shared) (req : LaunchRequest) : LearningSession where
  id := s.sessions.size
  userId := req.userId
  labSlug := req.labSlug
  status := .provisioning
  startedAt := s.now
  endedAt := none
  expiresAt := some (s.now + cfg.capacity.sessionMaxTime)
  metaJson := none

/-- One step of `launch_endpoint` and the `launch_session` it calls. -/
def LaunchPc.step (cfg : Config) (s : Shared) (req : LaunchRequest) (a : Answer) :
    LaunchPc → Option (Shared × Proc)
  | .lookup =>
      match getActiveSession s.sessions req.userId req.labSlug with
      | some _ => some (s, .launch req (.relookup false))
      | none => some (s, .launch req .acquire)
  | .acquire =>
      match s.queue.tryAcquire (cfg.capacity.caps req.labSlug) req.labSlug with
      | (true, queue) => some ({ s with queue }, .launch req .dequeue)
      | (false, queue) => some ({ s with queue }, .launch req .enqueue)
  | .dequeue =>
      some ({ s with queue := s.queue.dequeue req.userId req.labSlug },
        .launch req (.relookup true))
  | .enqueue => some ({ s with queue := (s.queue.enqueue req.userId req.labSlug).2 }, .done)
  -- launch_session looks again: another launch may have made the session active meanwhile
  | .relookup isNew =>
      match getActiveSession s.sessions req.userId req.labSlug with
      | some _ => some (s, .launch req (.resume isNew))
      | none => some (s, .launch req (.checks isNew))
  | .resume isNew => some (s, releaseIfNew req isNew)
  | .checks isNew =>
      if countActiveSessions s.sessions req.userId ≥ cfg.capacity.maxSessionsPerUser then
        some (s, releaseIfNew req isNew)
      else
        match cfg.labs req.labSlug with
        | some ⟨true, some _⟩ => some (s, .launch req (.lock isNew))
        | _ => some (s, releaseIfNew req isNew)
  -- _create_provisioning_row; the advisory lock is held until the transaction ends
  | .lock isNew =>
      if req.userId ∈ s.advisory then none
      else some ({ s with advisory := req.userId :: s.advisory }, .launch req (.recount isNew))
  | .recount isNew =>
      if countActiveSessions s.sessions req.userId ≥ cfg.capacity.maxSessionsPerUser then
        some (s.unlock req.userId, releaseIfNew req isNew)
      else some (s, .launch req (.insert isNew))
  | .insert isNew =>
      let session := provisioningRow cfg s req
      let s' := s.unlock req.userId
      if req.userId ∈ s.erased ∨ liveTwin s.sessions session then some (s', releaseIfNew req isNew)
      else
        some ({ s' with sessions := s.sessions.insert session },
          .launch req (.create isNew session.id))
  | .create isNew sid =>
      match a with
      | .ok =>
          some ({ s with created := s.created + 1 },
            .launch req (.finalizeGet isNew sid (.active s.created)))
      | _ => some (s, .launch req (.finalizeGet isNew sid .error))
  -- _finalize_session_row: load the row, assign, commit, refresh
  | .finalizeGet isNew sid result =>
      match s.sessions.get? sid with
      | none => some (s, releaseIfNew req isNew)
      | some loaded => some (s, .launch req (.finalizeCommit isNew loaded result))
  | .finalizeCommit isNew loaded result =>
      match s.sessions.get? loaded.id with
      | none => some (s, releaseIfNew req isNew)
      | some current =>
          let row := loaded.flush (result.assign loaded) current
          if liveTwin s.sessions row then some (s, releaseIfNew req isNew)
          else
            some ({ s with sessions := s.sessions.set loaded.id row },
              .launch req (.finalizeRefresh isNew loaded.id result))
  | .finalizeRefresh isNew sid result =>
      match s.sessions.get? sid, result with
      | some session, .active _ =>
          if session.status = .active then some (s, .launch req (.startMonitor session))
          else some (s, .done)
      | _, _ => some (s, releaseIfNew req isNew)
  -- a registry that fails to start the monitor is logged
  | .startMonitor session =>
      some ({ s with
        monitors := if a = .ok then s.monitors.insert session.id else s.monitors
        gauge := Function.update s.gauge req.labSlug (s.gauge req.labSlug + 1) }, .done)
  | .release => some ({ s with queue := s.queue.release req.labSlug }, .done)

/-- The columns `_mark_ended_and_finalize` assigns on the row it was given. -/
def markEnded (now : Time) (status : EndStatus) (session : LearningSession) : LearningSession :=
  { session with status := status.toStatus, endedAt := some now }

/-- One step of `_mark_ended_and_finalize`. The metrics are best-effort, but where the row is gone
the failed write can also take the rest of the function with it. -/
def FinalizePc.step (s : Shared) (caller : Caller) (a : Answer) :
    FinalizePc → Option (Shared × Proc)
  | .commit loaded status =>
      match s.sessions.get? loaded.id with
      | none => some (s, caller.raise)
      | some current =>
          let session := markEnded s.now status loaded
          some ({ s with sessions := s.sessions.set loaded.id (loaded.flush session current) },
            .finalize (.refresh session (loaded.status == .active)) caller)
  | .refresh session wasActive =>
      match s.sessions.get? session.id with
      | none => some (s, caller.raise)
      | some session => some (s, .finalize (.metrics session wasActive) caller)
  | .metrics session wasActive =>
      match s.sessions.get? session.id, a with
      | none, .fail => some (s, caller.raise)
      | none, _ => some (s, .finalize (.release session wasActive) caller)
      | some _, _ =>
          some ({ s with metrics := s.metrics ++ [(session.id, session.userId)] },
            .finalize (.release session wasActive) caller)
  -- _release_slot; the gauge counts only sessions that reached active
  | .release session wasActive =>
      some ({ s with
        queue := s.queue.release session.labSlug
        gauge := if wasActive then
          Function.update s.gauge session.labSlug (s.gauge session.labSlug - 1) else s.gauge },
        caller.resume session)

def Proc.step (cfg : Config) (s : Shared) (p : Proc) (a : Answer) : Option (Shared × Proc) :=
  match p with
  | .launch req pc => pc.step cfg s req a
  -- end_lab
  | .endLabRead sid userId =>
      match getOwnedSession s.sessions sid userId with
      | none => some (s, .done)
      | some session => some (s, .endLabStop session)
  | .endLabStop session =>
      some ({ s with monitors := s.monitors.erase session.id },
        markEndedAndFinalize session .ended .endLab)
  -- end_session
  | .endSessionRead sid userId status =>
      match getOwnedSession s.sessions sid userId with
      | none => some (s, .done)
      | some session => some (s, markEndedAndFinalize session status .endSession)
  -- get_session_state: a 404 from GNS3 ends the orphaned row
  | .sweepRead sid userId =>
      match getOwnedSession s.sessions sid userId with
      | none => some (s, .done)
      | some session =>
          match session.gns3Sid with
          | none => some (s, .done)
          | some _ => some (s, .sweepState session)
  | .sweepState session =>
      match a with
      | .notFound => some (s, markEndedAndFinalize session .ended .sweep)
      | _ => some (s, .done)
  -- reap_expired_sessions and its _end_one
  | .reapSelect => some (s, reapNext (s.sessions.rows.filter (isReapable s.now)))
  | .reapStop session rest =>
      some ({ s with monitors := s.monitors.erase session.id }, .reapGet session rest)
  | .reapGet session rest =>
      match s.sessions.get? session.id with
      | none => some (s, (Caller.reaper session.gns3Sid rest).resume session)
      | some row =>
          some (s, markEndedAndFinalize row .ended (.reaper session.gns3Sid rest))
  | .finalize pc caller => pc.step s caller a
  -- the call counts whether or not it fails: its exception is logged
  | .teardown gns3Sid rest =>
      some ({ s with deleteCalls := s.deleteCalls ++ [gns3Sid] }, reapNext rest)
  | .done => none

inductive Request where
  | launch (userId : UserId) (labSlug : Slug)
  | endLab (sid : SessionId) (userId : UserId)
  | endSession (sid : SessionId) (userId : UserId) (status : EndStatus)
  | state (sid : SessionId) (userId : UserId)
  | reap
deriving Repr, DecidableEq

def Request.spawn : Request → Proc
  | .launch userId labSlug => .launch ⟨userId, labSlug⟩ .lookup
  | .endLab sid userId => .endLabRead sid userId
  | .endSession sid userId status => .endSessionRead sid userId status
  | .state sid userId => .sweepRead sid userId
  | .reap => .reapSelect

/-- What moves without a process: the clock, and `erase_subject`, whose deletes share one commit. -/
inductive Env where
  | tick (d : Time)
  | erase (userId : UserId)
deriving Repr, DecidableEq

def eraseSubject (s : Shared) (userId : UserId) : Shared :=
  { s with
    sessions := s.sessions.deleteWhere (·.userId == userId)
    metrics := s.metrics.filter (·.2 != userId)
    erased := userId :: s.erased }

def Env.apply (s : Shared) : Env → Option Shared
  | .tick d => some { s with now := s.now + d }
  | .erase userId => some (eraseSubject s userId)

abbrev Platform := System Shared Proc Env Request Answer

abbrev World := Conf Shared Proc

abbrev Move := Label Env Request Answer

def platform (cfg : Config) : Platform where
  env := Env.apply
  spawn := Request.spawn
  step := Proc.step cfg

def World.init : World := ⟨.init, []⟩

end OnlinetLabs.Sessions
