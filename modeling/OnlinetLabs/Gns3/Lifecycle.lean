import OnlinetLabs.Gns3.StateSnapshot
import OnlinetLabs.Lib.Interleaving

/-!
# The life of a session

`SessionService` resets, acts on, reads and deletes a session that was created before. Every request
has its own database session: it reads the row once, at its beginning, and a commit writes only the
columns the request has changed. The project of the row is one of those that were made for the
session on the GNS3 server; the first of them came with the session.

The effects on the row and on the nodes are counted, so that a read can be dated by the number of
effects before it. `settled` is the latest effect of the operations that have returned.
-/

namespace OnlinetLabs.Gns3

open Interleaving

/-- What was read, and after how many effects. -/
structure Dated (α : Type) where
  value : α
  taken : Nat
deriving Repr, DecidableEq

structure Snapshot where
  state : SessionStateResponse
  rowAt : Nat
  nodesAt : Nat
  linksAt : Nat
deriving Repr, DecidableEq

structure Service where
  clock : Int := 0
  row : Row := {}
  /-- The projects made for the session that exist. -/
  projects : List ProjectId := [0]
  nextProject : ProjectId := 1
  cache : StateCache Snapshot := {}
  effects : Nat := 0
  settled : Nat := 0
deriving Repr, DecidableEq

/-- An operation whose last effect was the given one returns. -/
def Service.settle (s : Service) (effect : Nat) :
    Service := { s with settled := max s.settled effect }

/-- What the awaits of a call give: they return or raise, or return what was asked for. A call of
the GNS3 client may try more than once, so `duplicate_project` may make more than the project it
returns, and the last one it made is the one it returns. -/
inductive Answer where
  | done
  | failed
  | duplicated (made : Nat) (ok : Bool)
  | committed (ok took : Bool)
  | nodes (raw : List RawNode)
  | links (raw : List LinkState)
  | resumed (now : Int)
deriving Repr, DecidableEq

/-- The calls of `reset_project` between the duplication and the commit. -/
inductive ResetCall where
  | openProject
  | userRole
  | createAcl
deriving Repr, DecidableEq

def ResetCall.next : ResetCall → Option ResetCall
  | .openProject => some .userRole
  | .userRole => some .createAcl
  | .createAcl => none

/-- `made` are the projects the call has duplicated. -/
inductive ResetPc where
  | start
  | duplicating (old : ProjectId)
  | calling (p : ResetCall) (old new : ProjectId) (made : List ProjectId)
  | committing (old new : ProjectId) (made : List ProjectId)
  | deletingOld (old new : ProjectId) (effect : Nat)
  | returned (new : ProjectId)
  | raised (made : List ProjectId)
deriving Repr, DecidableEq

def ResetPc.step (s : Service) : ResetPc → Answer → Option (Service × ResetPc)
  | .start, .done =>
      some (s, if s.row.status = .closed then .raised [] else .duplicating s.row.gns3ProjectId)
  | .start, .failed => some (s, .raised [])
  | .duplicating old, .duplicated made ok =>
      let ids := List.range' s.nextProject made
      let s := { s with projects := s.projects ++ ids, nextProject := s.nextProject + made }
      if ok then
        match ids.getLast? with
        | none => none
        | some new => some (s, .calling .openProject old new ids)
      else some (s, .raised ids)
  | .calling p old new made, .done =>
      match p.next with
      | some p => some (s, .calling p old new made)
      | none => some (s, .committing old new made)
  | .calling _ _ _ made, .failed => some (s, .raised made)
  | .committing old new made, .committed ok took =>
      let s' := if took
          then { s with row := { s.row with gns3ProjectId := new }, effects := s.effects + 1 }
          else s
      if ok then
        if took then some (s', .deletingOld old new (s.effects + 1)) else none
      else some (s', .raised made)
  -- The forwarder is moved before, and what fails there or here is logged.
  | .deletingOld old new effect, .done =>
      some ({ s.settle effect with projects := s.projects.filter (· ≠ old) }, .returned new)
  | .deletingOld _ new effect, .failed => some (s.settle effect, .returned new)
  | _, _ => none

inductive DeletePc where
  | start
  | found (project : ProjectId)
  | deletingProject (project : ProjectId)
  | closing
  | closed (effect : Nat)
  | returned
  | raised
deriving Repr, DecidableEq

def DeletePc.step (sessionId : String) (s : Service) :
    DeletePc → Answer → Option (Service × DeletePc)
  | .start, .done =>
      some (s, if s.row.status = .closed then .returned else .found s.row.gns3ProjectId)
  | .start, .failed => some (s, .raised)
  -- The forwarder, the nodes and the account come next, and what fails there is logged.
  | .found project, .done =>
      some ({ s with cache := s.cache.invalidate sessionId }, .deletingProject project)
  | .deletingProject project, .done =>
      some ({ s with projects := s.projects.filter (· ≠ project) }, .closing)
  | .deletingProject _, .failed => some (s, .closing)
  | .closing, .committed ok took =>
      let s' := if took
          then { s with row := { s.row with status := .closed }, effects := s.effects + 1 } else s
      if ok then
        if took then some (s', .closed (s.effects + 1)) else none
      else some (s', .raised)
  | .closed effect, .done => some (s.settle effect, .returned)
  | _, _ => none

/-- `node_action` and `bulk_node_action`. GNS3 has acted before it answers. -/
inductive ActionPc where
  | start
  | acting
  | acted (effect : Nat)
  | returned
  | raised
deriving Repr, DecidableEq

def ActionPc.step (sessionId : String) (s : Service) :
    ActionPc → Answer → Option (Service × ActionPc)
  | .start, .done => some (s, if s.row.status = .active then .acting else .raised)
  | .start, .failed => some (s, .raised)
  | .acting, .done => some ({ s with effects := s.effects + 1 }, .acted (s.effects + 1))
  | .acting, .failed => some (s, .raised)
  | .acted effect, .done =>
      some ({ s.settle effect with cache := s.cache.invalidate sessionId }, .returned)
  | .acted _, .failed => some (s, .raised)
  | _, _ => none

/-- `since` is the latest effect that had settled when the call started. -/
inductive StatePc where
  | start
  | reading (since : Nat)
  | gathering (since : Nat) (row : Dated Row) (nodes : Option (Dated (List RawNode)))
      (links : Option (Dated (List LinkState)))
  | returned (since : Nat) (snapshot : Snapshot)
  | raised
deriving Repr, DecidableEq

def StatePc.step (sessionId : String) (s : Service) : StatePc → Answer → Option (Service × StatePc)
  | .start, .done =>
      match s.cache.get s.clock sessionId with
      | some snapshot => some (s, .returned s.settled snapshot)
      | none => some (s, .reading s.settled)
  | .reading since, .done => some (s, .gathering since ⟨s.row, s.effects⟩ none none)
  | .reading _, .failed => some (s, .raised)
  | .gathering since row none links, .nodes raw =>
      some (s, .gathering since row (some ⟨raw, s.effects⟩) links)
  | .gathering since row nodes none, .links raw =>
      some (s, .gathering since row nodes (some ⟨raw, s.effects⟩))
  | .gathering since row (some nodes) (some links), .resumed now =>
      match buildState sessionId row.value nodes.value links.value now with
      | none => some (s, .raised)
      | some state =>
          let snapshot := ⟨state, row.taken, nodes.taken, links.taken⟩
          some ({ s with cache := s.cache.set s.clock sessionId snapshot },
            .returned since snapshot)
  | .gathering .., .failed => some (s, .raised)
  | _, _ => none

inductive Operation where
  | resetProject
  | deleteSession
  | nodeAction
  | bulkNodeAction
  | getState
deriving Repr, DecidableEq

inductive Call where
  | reset (pc : ResetPc)
  | delete (pc : DeletePc)
  | action (pc : ActionPc)
  | state (pc : StatePc)
deriving Repr, DecidableEq

def Call.start : Operation → Call
  | .resetProject => .reset .start
  | .deleteSession => .delete .start
  | .nodeAction | .bulkNodeAction => .action .start
  | .getState => .state .start

def Call.step (sessionId : String) (s : Service) : Call → Answer → Option (Service × Call)
  | .reset pc, a => (pc.step s a).map fun r => (r.1, .reset r.2)
  | .delete pc, a => (pc.step sessionId s a).map fun r => (r.1, .delete r.2)
  | .action pc, a => (pc.step sessionId s a).map fun r => (r.1, .action r.2)
  | .state pc, a => (pc.step sessionId s a).map fun r => (r.1, .state r.2)

/-- Time goes on, and the cache is swept now and then. -/
inductive Move where
  | tick (seconds : Nat)
  | sweep
deriving Repr, DecidableEq

def Service.env (s : Service) : Move → Service
  | .tick seconds => { s with clock := s.clock + seconds }
  | .sweep => { s with cache := s.cache.sweepStale s.clock 10 }

def lifecycle (sessionId : String) : System Service Call Move Operation Answer where
  env s move := some (s.env move)
  spawn := Call.start
  step s call a := call.step sessionId s a

end OnlinetLabs.Gns3
