import OnlinetLabs.Consent.Interface
import OnlinetLabs.Lib.Interleaving
import OnlinetLabs.Users.DataExport

/-!
# What goes on in the background

The tasks that write to the registry hold the ids they write for themselves: the collector, the
analysis loop and the observer of a session, the reaper and every request. A call of the control
interface ends in its audit, whatever its gates answer. Activity is queued, and one writer empties
the queue.

Erasure stops none of them. It is one step here: what others commit while it runs is before its
commit.
-/

namespace OnlinetLabs.Users

open Sessions (UserId SessionId)
open Analytics (classify Denial)
open Consents (ToolKind)
open Interleaving

/-! ### The platform -/

/-- `AgentActivityEvent`. -/
structure ActivityEvent where
  sessionId : SessionId
  userId : UserId
deriving Repr, DecidableEq

def ActivityEvent.row (event : ActivityEvent) : Row :=
  RegistryTable.agentActivityEvents.row event.userId (some event.sessionId)

structure Subject where
  userId : UserId
  sessions : List SessionId
deriving Repr, DecidableEq

structure Platform extends Store where
  /-- The writes of `AgentActivityLog` that are queued. -/
  writes : List ActivityEvent := []
  queueSize : Nat := 2000
  /-- The erasures that were committed. -/
  erased : List Subject := []
  /-- Every row that was written, and the erasures committed before it. -/
  made : List (Row × List Subject) := []

namespace Platform

variable (p : Platform)

/-- An insert and its commit. A row that a foreign key rejects is not written. -/
def commit (row : Row) : Platform :=
  if p.admits row then { p with rows := p.rows ++ [row], made := p.made ++ [(row, p.erased)] }
  else p

/-- `emit`. A full queue drops the event. -/
def emit (event : ActivityEvent) : Platform :=
  if p.writes.length < p.queueSize then { p with writes := p.writes ++ [event] } else p

/-- An id that `uuid4` may give to a session. -/
def FreshSession (sessionId : SessionId) : Prop :=
  p.hasSession sessionId = false ∧ ∀ subject ∈ p.erased, sessionId ∉ subject.sessions

instance (sessionId : SessionId) : Decidable (p.FreshSession sessionId) :=
  inferInstanceAs (Decidable (_ ∧ _))

def FreshUser (userId : UserId) :
    Prop := userId ∉ p.users ∧ ∀ subject ∈ p.erased, subject.userId ≠ userId

instance (userId : UserId) : Decidable (p.FreshUser userId) := inferInstanceAs (Decidable (_ ∧ _))

end Platform

inductive PlatformMove where
  | signUp (userId : UserId)
  | erase (userId : UserId)
  /-- The writer takes the next event from the queue. -/
  | persist (ok : Bool)
  /-- `_prune`, with the rows it finds stale. -/
  | prune (stale : List Row)
deriving Repr, DecidableEq

def Platform.move (p : Platform) : PlatformMove → Option Platform
  | .signUp userId =>
      if p.FreshUser userId then
        some (Platform.commit { p with users := p.users ++ [userId] }
          (RegistryTable.studyParticipants.row userId none))
      else none
  | .erase userId =>
      some { p with
        toStore := (p.toStore.eraseSubject userId).1
        erased := p.erased ++ [⟨userId, p.sessionIds userId⟩] }
  | .persist ok =>
      match p.writes with
      | [] => none
      | event :: writes =>
          let p := { p with writes }
          some (if ok then p.commit event.row else p)
  | .prune stale =>
      some { p with
        rows := p.rows.filter fun row => !(row.table == .agentActivityEvents && row ∈ stale) }

/-! ### The tasks -/

structure AuditEntry where
  tool : String
  kind : ToolKind
  success : Bool
  error : Option String
deriving Repr, DecidableEq

/-- Where a task stands in a call of the control interface. -/
inductive TaskPc where
  | idle
  | isolation (tool : String) (kind : ToolKind)
  | consent (tool : String) (kind : ToolKind)
  /-- The call of the MCP server, or the last gates of an act. -/
  | passing (tool : String) (kind : ToolKind)
  /-- An act that is authorized, and not yet recorded. -/
  | acting (tool : String)
  | audit (entry : AuditEntry)
  | ended
deriving Repr, DecidableEq

inductive TaskKind where
  | collector
  | analysis
  | observer
  | reaper
  | request
deriving Repr, DecidableEq

/-- The calls of the control interface that tasks of this kind make. -/
def TaskKind.calls : TaskKind → Option ToolKind
  | .collector => some .observe
  | .analysis => some .act
  | .observer | .reaper | .request => none

def TaskKind.emits : TaskKind → Bool
  | .analysis | .request => true
  | .collector | .observer | .reaper => false

/-- The tables that tasks of this kind insert into, besides audits, activity, consents and
sessions. -/
def TaskKind.tables : TaskKind → List RegistryTable
  | .collector => [.behavioralEvents, .sessionEvidenceSnapshots]
  | .analysis =>
      [.processStateSamples, .cycleLatencySamples, .behavioralEvents, .interventionDecisions,
        .groundingComparisons]
  | .observer => [.behavioralEvents]
  | .reaper => [.experimentMetrics]
  | .request =>
      [.platformEvents, .behavioralEvents, .chatMessages, .validationRuns, .labProgress,
        .stepAttempts,
      .experimentMetrics, .regimeAnnotations, .studyParticipants]

structure Task where
  kind : TaskKind
  userId : UserId
  sessionId : Option SessionId
  pc : TaskPc := .idle
deriving Repr, DecidableEq

inductive TaskStep where
  | call (tool : String)
  | own
  /-- What `has_consent` answers. -/
  | consent (granted : Bool)
  /-- The server has answered, or the call raised an exception of this name. -/
  | answer (error : Option String)
  /-- The arm and the rate let the act pass, or one of them denies it. -/
  | gates (denial : Option Denial)
  | record (success : Bool)
  | audit (ok : Bool)
  | emit (sessionId : SessionId)
  | write (table : RegistryTable) (sessionId : Option SessionId) (ok : Bool)
  | recordConsent (ok : Bool)
  | launch (sessionId : SessionId)
  /-- What the task does raises. -/
  | fail
  | stop
deriving Repr, DecidableEq

namespace Task

variable (t : Task)

/-- The row `_audit` writes. -/
def auditRow : Row := RegistryTable.mcpAudit.row t.userId t.sessionId

def names (sessionId : Option SessionId) : Bool := t.kind == .request || t.sessionId == sessionId

/-- The next step of a call of `observe`, or of `authorize_act` and `record_act`. -/
def interface (p : Platform) : TaskStep → Option (Platform × Task)
  | .call tool =>
      match t.pc, t.kind.calls with
      | .idle, some kind =>
          if classify tool = some kind then some (p, { t with pc := .isolation tool kind })
          else some (p,
            { t with pc := .audit ⟨tool, kind, false, some Denial.unclassified.reason⟩ })
      | _, _ => none
  | .own =>
      match t.pc with
      | .isolation tool kind =>
          if t.sessionId.any (p.owns t.userId) then some (p, { t with pc := .consent tool kind })
          else some (p, { t with pc := .audit ⟨tool, kind, false, some Denial.isolation.reason⟩ })
      | _ => none
  | .consent granted =>
      match t.pc with
      | .consent tool kind =>
          if granted then some (p, { t with pc := .passing tool kind })
          else some (p, { t with pc := .audit ⟨tool, kind, false, some Denial.consent.reason⟩ })
      | _ => none
  | .answer error =>
      match t.pc with
      | .passing tool .observe =>
          some (p, { t with pc := .audit ⟨tool, .observe, error.isNone, error⟩ })
      | _ => none
  | .gates denial =>
      match t.pc, denial with
      | .passing tool .act, none => some (p, { t with pc := .acting tool })
      | .passing tool .act, some denial =>
          some (p, { t with pc := .audit ⟨tool, .act, false, some denial.reason⟩ })
      | _, _ => none
  | .record success =>
      match t.pc with
      | .acting tool => some (p, { t with pc := .audit ⟨tool, .act, success, none⟩ })
      | _ => none
  | .audit ok =>
      match t.pc with
      | .audit _ => some (if ok then p.commit t.auditRow else p, { t with pc := .idle })
      | _ => none
  | _ => none

def step (p : Platform) : TaskStep → Option (Platform × Task)
  | .emit sessionId =>
      if t.pc ≠ .ended ∧ t.kind.emits ∧ t.names (some sessionId) then
        some (p.emit ⟨sessionId, t.userId⟩, t)
      else none
  | .write table sessionId ok =>
      if t.pc ≠ .ended ∧ table ∈ t.kind.tables ∧ t.names sessionId then
        some (if ok then p.commit (table.row t.userId sessionId) else p, t)
      else none
  | .recordConsent ok =>
      if t.pc ≠ .ended ∧ t.kind = .request then
        some (if ok then p.commit (RegistryTable.consents.row t.userId none) else p, t)
      else none
  | .launch sessionId =>
      if t.pc ≠ .ended ∧ t.kind = .request ∧ p.FreshSession sessionId then
        some (p.commit { RegistryTable.learningSessions.row t.userId none with
          ownId := some sessionId }, t)
      else none
  | .fail => if t.pc ≠ .ended then some (p, { t with pc := .idle }) else none
  | .stop => some (p, { t with pc := .ended })
  | call => t.interface p call

end Task

def background :
    System Platform Task PlatformMove (TaskKind × UserId × Option SessionId) TaskStep where
  env := Platform.move
  spawn start := { kind := start.1, userId := start.2.1, sessionId := start.2.2 }
  step p t := t.step p

end OnlinetLabs.Users
