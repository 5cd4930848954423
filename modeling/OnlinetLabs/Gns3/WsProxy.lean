import OnlinetLabs.Gns3.StateSnapshot
import OnlinetLabs.Lib.Interleaving

/-!
# The GNS3 websocket proxy

`Gns3WsProxy` runs one forwarder for each project, and a lock in Redis keeps the other instances of
the service away from it. `start_project` takes the lock and then registers the forwarder;
`stop_project` takes the forwarder out of the register, cancels it, waits for it, does the same with
the heartbeat and releases the lock.

A session's calls use the two as follows: `create_session` starts the project once the row is
committed, `reset_project` stops the old and starts the new one once the row has changed,
`delete_session` stops the project before the row is closed, and `ws_session_events` starts the
project of the row it has read, whatever its status. A heartbeat that finds the lock lost stops its
project; here one may come to that at any time.
-/

namespace OnlinetLabs.Gns3.WsProxy

open Interleaving

abbrev SessionId := Nat

/-- A forwarder publishes to the channel of its session until it is cancelled and has ended. -/
structure Forwarder where
  id : Nat
  project : ProjectId
  session : SessionId
  cancelled : Bool := false
deriving Repr, DecidableEq

/-- Who holds the lock of a project. -/
inductive Instance where
  | this
  | other
deriving Repr, DecidableEq

/-- The rows of the sessions, by their ids, and one instance of the proxy. `stopped` are the
projects of which a `stop_project` has returned and no `start_project` was called since. -/
structure Proxy where
  rows : List Row := []
  nextProject : ProjectId := 0
  tasks : Dict ProjectId Nat := {}
  heartbeatTasks : Dict ProjectId Nat := {}
  running : List Forwarder := []
  nextTask : Nat := 0
  locks : Dict ProjectId Instance := {}
  stopped : List ProjectId := []
deriving Repr, DecidableEq

/-- What an await gives. What is written to Redis or committed may be there though the await
raises. -/
inductive Answer where
  | done
  | failed
  | wrote (took ok : Bool)
deriving Repr, DecidableEq

namespace Proxy

variable (s : Proxy)

def cancel (id : Nat) : Proxy :=
  { s with running := s.running.map fun f => if f.id = id then { f with cancelled := true } else f }

/-- The forwarder is created and registered, with its heartbeat. -/
def register (project : ProjectId) (session : SessionId) : Proxy :=
  { s with
    tasks := s.tasks.set project s.nextTask
    heartbeatTasks := s.heartbeatTasks.set project (s.nextTask + 1)
    running := s.running ++ [{ id := s.nextTask, project, session }]
    nextTask := s.nextTask + 2 }

/-- `SET key instance NX EX`. -/
def setLock (project : ProjectId) : Proxy :=
  if s.locks.get? project = none then { s with locks := s.locks.set project .this } else s

/-- `_LUA_RELEASE`. -/
def releaseLock (project : ProjectId) : Proxy :=
  if s.locks.get? project = some .this then { s with locks := s.locks.erase project } else s

def setRow (session : SessionId) (f : Row → Row) : Proxy :=
  match s.rows[session]? with
  | none => s
  | some row => { s with rows := s.rows.set session (f row) }

end Proxy

inductive StartPc where
  | calling
  | setting
  | answered (locked : Bool)
deriving Repr, DecidableEq

/-- `start_project`: where it goes on, or `none` once it has returned. -/
def StartPc.step (s : Proxy) (project : ProjectId) (session : SessionId) :
    StartPc → Answer → Option (Proxy × Option StartPc)
  | .calling, .done =>
      let s := { s with stopped := s.stopped.filter (· ≠ project) }
      some (s, if (s.tasks.get? project).isSome then none else some .setting)
  | .setting, .wrote took ok =>
      if ok && !took then none
      else
        let free := decide (s.locks.get? project = none)
        some (if took then s.setLock project else s, some (.answered (ok && free)))
  | .answered locked, .done => some (if locked then s.register project session else s, none)
  | _, _ => none

inductive StopPc where
  | calling
  | cancelling (forwarder : Nat)
  | waiting
  | releasing
  | released
deriving Repr, DecidableEq

/-- The heartbeat is taken out of its register and cancelled, if there is one. -/
def popHeartbeat (s : Proxy) (project : ProjectId) : Proxy × StopPc :=
  match s.heartbeatTasks.get? project with
  | some _ => ({ s with heartbeatTasks := s.heartbeatTasks.erase project }, .waiting)
  | none => (s, .releasing)

/-- `stop_project` up to its return. -/
def StopPc.step (s : Proxy) (project : ProjectId) : StopPc → Answer → Option (Proxy × StopPc)
  | .calling, .done =>
      match s.tasks.get? project with
      | some id => some ({ s.cancel id with tasks := s.tasks.erase project }, .cancelling id)
      | none => some (popHeartbeat s project)
  | .cancelling id, .done =>
      if ∀ f ∈ s.running, f.id ≠ id then some (popHeartbeat s project) else none
  | .waiting, .done => some (s, .releasing)
  -- A release that raises is logged.
  | .releasing, .wrote took _ => some (if took then s.releaseLock project else s, .released)
  | _, _ => none

/-- What comes after a `stop_project`. -/
inductive Stopper where
  | reset (session : SessionId) (new : ProjectId)
  | delete (session : SessionId)
  | heartbeat
deriving Repr, DecidableEq

inductive Request where
  | createSession
  | resetProject (session : SessionId)
  | deleteSession (session : SessionId)
  | wsSessionEvents (session : SessionId)
  | heartbeat (project : ProjectId)
deriving Repr, DecidableEq

/-- A call between two of its awaits. A call is over once it has nothing to do with the proxy any
more. -/
inductive Call where
  | requested (request : Request)
  | duplicating (session : SessionId) (old : ProjectId)
  | starting (project : ProjectId) (session : SessionId) (pc : StartPc)
  | stopping (stopper : Stopper) (project : ProjectId) (pc : StopPc)
  | closing (session : SessionId)
  | ended
deriving Repr, DecidableEq

/-- The first step of a call: the commit of the new row, or the read of the row. -/
def Request.step (s : Proxy) : Request → Answer → Option (Proxy × Call)
  | .createSession, .wrote took ok =>
      let s' := { s with
        rows := s.rows ++ [{ gns3ProjectId := s.nextProject }]
        nextProject := s.nextProject + 1 }
      if ok then
        if took then some (s', .starting s.nextProject s.rows.length .calling) else none
      else some (if took then s' else s, .ended)
  | .resetProject session, .done =>
      match s.rows[session]? with
      | none => some (s, .ended)
      | some row =>
          some (s, if row.status = .closed then .ended else .duplicating session row.gns3ProjectId)
  | .deleteSession session, .done =>
      match s.rows[session]? with
      | none => some (s, .ended)
      | some row =>
          some (s, if row.status = .closed then .ended
            else .stopping (.delete session) row.gns3ProjectId .calling)
  | .wsSessionEvents session, .done =>
      match s.rows[session]? with
      | none => some (s, .ended)
      | some row => some (s, .starting row.gns3ProjectId session .calling)
  | .heartbeat project, .done =>
      if s.locks.get? project = some .this then none
      else some (s, .stopping .heartbeat project .calling)
  | _, .failed => some (s, .ended)
  | _, _ => none

/-- `stop_project` returns to its caller. The heartbeat has no caller that waits for it. -/
def Stopper.resume (s : Proxy) (project : ProjectId) : Stopper → Proxy × Call
  | .reset session new =>
      ({ s with stopped := project :: s.stopped }, .starting new session .calling)
  | .delete session => ({ s with stopped := project :: s.stopped }, .closing session)
  | .heartbeat => (s, .ended)

/-- What a call goes on with after a step of its `start_project`. -/
def Call.afterStart (project : ProjectId) (session : SessionId) : Option StartPc → Call
  | some pc => .starting project session pc
  | none => .ended

def Call.step (s : Proxy) : Call → Answer → Option (Proxy × Call)
  | .requested request, a => request.step s a
  | .duplicating session old, .wrote took ok =>
      let s' := { s.setRow session fun row => { row with gns3ProjectId := s.nextProject } with
        nextProject := s.nextProject + 1 }
      if ok then
        if took then some (s', .stopping (.reset session s.nextProject) old .calling) else none
      else some (if took then s' else s, .ended)
  | .duplicating .., .failed => some (s, .ended)
  | .starting project session pc, a =>
      (pc.step s project session a).map fun r => (r.1, .afterStart project session r.2)
  | .stopping stopper project .released, .done => some (stopper.resume s project)
  -- A heartbeat that is cancelled goes on past the tasks it awaits, and not past the release.
  | .stopping .heartbeat project (.cancelling _), .failed =>
      let (s, pc) := popHeartbeat s project
      some (s, .stopping .heartbeat project pc)
  | .stopping .heartbeat _ .releasing, .failed => some (s, .ended)
  | .stopping stopper project pc, a =>
      (pc.step s project a).map fun r => (r.1, .stopping stopper project r.2)
  | .closing session, .wrote took _ =>
      some (if took then s.setRow session fun row => { row with status := .closed } else s, .ended)
  | _, _ => none

/-- A cancelled forwarder ends. A lock expires, and other instances take the locks that are free and
release their own. -/
inductive Move where
  | ends (forwarder : Nat)
  | expires (project : ProjectId)
  | takes (project : ProjectId)
  | releases (project : ProjectId)
deriving Repr, DecidableEq

def Proxy.env (s : Proxy) : Move → Proxy
  | .ends id => { s with running := s.running.filter fun f => !(f.cancelled && decide (f.id = id)) }
  | .expires project => { s with locks := s.locks.erase project }
  | .takes project =>
      if s.locks.get? project = none then { s with locks := s.locks.set project .other } else s
  | .releases project =>
      if s.locks.get? project = some .other then { s with locks := s.locks.erase project } else s

def wsProxy : System Proxy Call Move Request Answer where
  env s move := some (s.env move)
  spawn := .requested
  step s call a := call.step s a

end OnlinetLabs.Gns3.WsProxy
