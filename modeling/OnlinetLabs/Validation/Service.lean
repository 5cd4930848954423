import OnlinetLabs.Progress.Concurrent
import OnlinetLabs.Sessions.Models
import OnlinetLabs.Validation.Agreement

/-!
# Validation requests

`validate_lab` takes the lab from the path and the environment from the session. A request reads the
session once, runs the checks of the lab one after the other, and carries what they come to into the
learner's progress on the lab. Sessions are launched, ended and erased meanwhile, and any number of
requests run at once.
-/

namespace OnlinetLabs.Validation

open Interleaving
open Sessions (SessionId UserId Slug Gns3Id Time LearningSession SessionTable Status EndStatus
  getOwnedSession)
open Progress (LabProgress recordLabValidation)

inductive ValidationError where
  | sessionNotFound
  | labSpecNotFound
  | gns3SessionMissing
deriving Repr, DecidableEq

/-- The error of `validate_lab` for it, with its status code. -/
def ValidationError.response : ValidationError → String × Nat
  | .sessionNotFound => ("error.session.not_found", 404)
  | .labSpecNotFound => ("error.validation.spec_not_found", 404)
  | .gns3SessionMissing => ("error.validation.gns3_not_active", 400)

/-- `prepare_validation`. `labs` is `load_lab_spec`. -/
def prepareValidation (labs : Slug → Option Spec) (sessions : SessionTable) (sessionId : SessionId)
    (labSlug : Slug) (userId : UserId) : Except ValidationError (Spec × Gns3Id) :=
  match getOwnedSession sessions sessionId userId with
  | none => .error .sessionNotFound
  | some session =>
      match labs labSlug with
      | none => .error .labSpecNotFound
      | some spec =>
          match session.gns3Sid with
          | none => .error .gns3SessionMissing
          | some gns3Sid => .ok (spec, gns3Sid)

/-! ### What the requests share -/

/-- A commit of `record_lab_validation`. -/
structure Update (S : Type) where
  userId : UserId
  labSlug : Slug
  version : LabProgress S
  gns3Sid : Gns3Id
  /-- The sessions as they were when each of its checks was executed. -/
  ran : List SessionTable

structure Platform (S : Type) where
  sessions : SessionTable := ⟨[]⟩
  /-- The session each environment of the GNS3 service was created for. -/
  environments : List SessionId := []
  progress : UserId → Slug → Option (LabProgress S)
  /-- The newest first. -/
  updates : List (Update S) := []

inductive SessionMove where
  | launched (userId : UserId) (labSlug : Slug) (now : Time) (expiresAt : Option Time)
  | provisioned (id : SessionId)
  | marked (id : SessionId) (status : Status)
  | ended (id : SessionId) (status : EndStatus) (now : Time)
  | erased (userId : UserId)
deriving Repr, DecidableEq

variable {S : Type}

/-- What the rest of the platform does to the sessions. An erasure deletes the learner's progress as
well, which is left out: what was recorded stays on the account. -/
def Platform.move (s : Platform S) : SessionMove → Option (Platform S)
  | .launched userId labSlug now expiresAt =>
      some { s with sessions := s.sessions.insert {
        id := s.sessions.size
        userId
        labSlug
        status := .provisioning
        startedAt := now
        endedAt := none
        expiresAt
        metaJson := none } }
  | .provisioned id =>
      match s.sessions.get? id with
      | none => none
      | some row =>
          if row.metaJson.isSome then none
          else some { s with
            sessions := s.sessions.set id { row with
              status := .active, metaJson := some ⟨s.environments.length⟩ }
            environments := s.environments ++ [id] }
  | .marked id status =>
      (s.sessions.get? id).map fun row =>
        { s with sessions := s.sessions.set id { row with status } }
  | .ended id status now =>
      (s.sessions.get? id).map fun row => { s with
        sessions := s.sessions.set id { row with status := status.toStatus, endedAt := some now } }
  | .erased userId => some { s with sessions := s.sessions.deleteWhere (·.userId == userId) }

def Platform.record (s : Platform S) (update : Update S) : Platform S :=
  { s with
    progress := fun userId labSlug =>
      if userId = update.userId ∧ labSlug = update.labSlug then some update.version
      else s.progress userId labSlug
    updates := update :: s.updates }

/-! ### A request -/

inductive RequestPc (S : Type) where
  | requested
  | rejected (error : ValidationError)
  | prepared (spec : Spec)
  | running (spec : Spec) (locale : Locale) (taken : List Outcome)
  | finished (steps : List StepRecord)
  | selected (steps : List StepRecord) (row : Option (LabProgress S))
  | returned
  | raised

structure Request (S : Type) where
  userId : UserId
  labSlug : Slug
  sessionId : SessionId
  /-- Where it runs its checks, once prepared. -/
  gns3Sid : Option Gns3Id := none
  /-- The sessions as they were when each check was executed. -/
  ran : List SessionTable := []
  pc : RequestPc S := .requested

/-- What the surroundings answer: how a check comes out, or that something raises or the client is
gone before `run.finish`. -/
inductive Answer where
  | prepare
  | opened (locale : Locale)
  | check (outcome : Outcome)
  | finish
  | select
  | commit (now : Nat)
  | failed

def Spec.checks (spec : Spec) : List Check := spec.steps.flatMap (·.checks)

def outcomesOf (spec : Spec) (taken : List Outcome) : Outcomes := fun n idx =>
  taken.getD (((spec.steps.take n).flatMap (·.checks)).length + idx) .unknown

/-- Of a record `record_lab_validation` reads the verdicts. -/
def StepRecord.verdicts (record : StepRecord) : Progress.StepRecord :=
  { ok := record.ok, checks := record.checks.map (·.ok) }

section Steps

variable [LinearOrder S] [Zero S] (catalogs : Catalogs) (labs : Slug → Option Spec)
  (share : Nat → Nat → S)

/-- The version a commit leaves, or `none` where the row has come or gone since the select. -/
def committed (steps : List StepRecord) (now : Nat) :
    Option (LabProgress S) → Option (LabProgress S) → Option (LabProgress S)
  | none, none => some (recordLabValidation share (steps.map (·.verdicts)) now none)
  | some loaded, some current =>
      some (loaded.flush
        (recordLabValidation share (steps.map (·.verdicts)) now (some loaded)) current)
  | _, _ => none

/-- `validate_lab` up to its next await. -/
def Request.step (s : Platform S) (p : Request S) (a : Answer) : Option (Platform S × Request S) :=
  match p.pc, a with
  | .rejected _, _ | .returned, _ | .raised, _ => none
  | _, .failed => some (s, { p with pc := .raised })
  | .requested, .prepare =>
      match prepareValidation labs s.sessions p.sessionId p.labSlug p.userId with
      | .error error => some (s, { p with pc := .rejected error })
      | .ok (spec, gns3Sid) => some (s, { p with gns3Sid := some gns3Sid, pc := .prepared spec })
  | .prepared spec, .opened locale => some (s, { p with pc := .running spec locale [] })
  | .running spec locale taken, .check outcome =>
      match spec.checks[taken.length]? with
      | none => none
      | some check =>
          let p := { p with ran := p.ran ++ [s.sessions] }
          match checkRecord catalogs locale check (evalCheck check outcome) with
          | none => some (s, { p with pc := .raised })
          | some _ => some (s, { p with pc := .running spec locale (taken ++ [outcome]) })
  | .running spec locale taken, .finish =>
      if taken.length < spec.checks.length then none
      else
        match finish? (runValidation catalogs locale (outcomesOf spec taken) spec) with
        | none => some (s, { p with pc := .raised })
        -- `if final_steps`
        | some (_, steps) =>
            some (s, { p with pc := if steps.isEmpty then .returned else .finished steps })
  | .finished steps, .select =>
      some (s, { p with pc := .selected steps (s.progress p.userId p.labSlug) })
  | .selected steps row, .commit now =>
      match p.gns3Sid, committed share steps now row (s.progress p.userId p.labSlug) with
      | some gns3Sid, some version =>
          some (s.record
            { userId := p.userId, labSlug := p.labSlug, version, gns3Sid, ran := p.ran },
            { p with pc := .returned })
      | _, _ => some (s, { p with pc := .raised })
  | _, _ => none

def validating :
    System (Platform S) (Request S) SessionMove (UserId × Slug × SessionId) Answer where
  env := Platform.move
  spawn request := { userId := request.1, labSlug := request.2.1, sessionId := request.2.2 }
  step s p a := p.step catalogs labs share s a

end Steps

end OnlinetLabs.Validation
