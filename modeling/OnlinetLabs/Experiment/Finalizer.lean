import OnlinetLabs.Analytics.ControlLaw
import OnlinetLabs.Progress.Service

/-!
# The metrics of a session

`compute_session_metrics` and what `_finalize_experiment_metrics` passes to it. The outcome of the
lab is read from the `current_step` column of the progress row, not from the columns a validation
run writes.
-/

namespace OnlinetLabs.Experiment

open Sessions (LearningSession SessionId Slug UserId)
open Analytics (BehavioralEvent ControlArm)
open Progress (LabProgress)

structure SessionMetrics (S : Type) where
  experimentGroup : String
  agentBackend : Option String
  /-- In microseconds. -/
  totalTime : Int
  stepsCompleted : Nat
  totalErrors : Nat
  repeatedErrors : Nat
  uniqueErrorTypes : Nat
  interventionsReceived : Nat
  interventionsSucceeded : Nat
  interventionsFailed : Nat
  interventionsAccepted : Nat
  finalScore : S
  completed : Bool
  completedAt : Option Nat
  controlArm : Option String
  baseArm : Option String
  escalations : Nat
  wouldInterventions : Nat
  l1Interventions : Nat
  l2UnassistedPass : Option Bool
deriving Repr, DecidableEq

structure ExperimentMetrics (S : Type) extends SessionMetrics S where
  sessionId : SessionId
  userId : UserId
  labSlug : Slug
deriving Repr, DecidableEq

/-- The columns of `users` that the experiment reads. -/
structure User where
  experimentGroup : Option String := none
  controlArm : Option String := none
deriving Repr, DecidableEq

structure LabSpec where
  /-- The ids of the steps. -/
  steps : List String
deriving Repr, DecidableEq

/-- `_max_consecutive_errors`. The longest run so far, the current run and the message it
repeats. -/
def maxConsecutiveErrors (errorEvents : List BehavioralEvent) : Nat :=
  let scan := fun (best, run, prev) (event : BehavioralEvent) =>
    if event.message = prev ∧ prev.isSome then (max best (run + 1), run + 1, event.message)
    else (best, 1, event.message)
  (errorEvents.foldl scan ((0, 1, none) : Nat × Nat × Option String)).1

variable {S : Type} [Zero S]

def computeSessionMetrics (share : Nat → Nat → S) (events : List BehavioralEvent)
    (startedAt endedAt stepsCompleted totalSteps : Nat) (experimentGroup : String)
    (agentBackend controlArm baseArm : Option String) (l2InterventionCap : Nat) (isL2 : Bool) :
    SessionMetrics S :=
  let errorEvents := events.filter (·.eventType = "error")
  let interventionEvents := events.filter (·.eventType = "intervention")
  let interventionsReceived := interventionEvents.length
  let interventionsSucceeded := (interventionEvents.filter (·.success)).length
  let completed := decide (totalSteps ≤ stepsCompleted)
  { experimentGroup := experimentGroup
    agentBackend := agentBackend
    totalTime := endedAt - startedAt
    stepsCompleted := stepsCompleted
    totalErrors := errorEvents.length
    repeatedErrors := maxConsecutiveErrors errorEvents
    uniqueErrorTypes := ((errorEvents.filterMap (·.message)).filter (· ≠ "")).eraseDups.length
    interventionsReceived := interventionsReceived
    interventionsSucceeded := interventionsSucceeded
    interventionsFailed := interventionsReceived - interventionsSucceeded
    interventionsAccepted := 0
    finalScore := if 0 < totalSteps then share stepsCompleted totalSteps else 0
    completed := completed
    completedAt := if completed then some endedAt else none
    controlArm := controlArm
    baseArm := baseArm
    escalations := (events.filter (·.eventType = "escalation")).length
    wouldInterventions := (events.filter (·.eventType = "would_intervene")).length
    l1Interventions := interventionsReceived
    l2UnassistedPass :=
      if isL2 then some (completed && decide (interventionsReceived ≤ l2InterventionCap))
      else none }

/-- `(lp.current_step or 0) if lp else 0`. -/
def stepsCompleted (row : Option (LabProgress S)) : Nat := (row.bind (·.currentStep)).getD 0

/-- The steps of the YAML specification, else the `lab_steps` rows, else one. -/
def totalSteps (spec : Option LabSpec) (labSteps : List Slug) : Nat :=
  let specified := (spec.map (·.steps.length)).getD 0
  if specified = 0 then (if labSteps.length = 0 then 1 else labSteps.length) else specified

/-- What the finalization reads besides the progress row and the arm. -/
structure FinalizerReads where
  events : List BehavioralEvent
  user : Option User
  spec : Option LabSpec
  labSteps : List Slug
  l2InterventionCap : Nat
  now : Nat

/-- The row `_finalize_experiment_metrics` adds. -/
def experimentMetrics (share : Nat → Nat → S) (session : LearningSession) (reads : FinalizerReads)
    (row : Option (LabProgress S)) (arm : ControlArm) (l2 : Bool) : ExperimentMetrics S where
  toSessionMetrics := computeSessionMetrics share
    (reads.events.filter (·.sessionId = session.id)) session.startedAt
    (session.endedAt.getD reads.now) (stepsCompleted row) (totalSteps reads.spec reads.labSteps)
    -- an empty group reads as a missing one
    (((reads.user.bind (·.experimentGroup)).filter (· ≠ "")).getD "unknown") none (some arm.value)
    (reads.user.bind (·.controlArm)) reads.l2InterventionCap l2
  sessionId := session.id
  userId := session.userId
  labSlug := session.labSlug

theorem totalSteps_pos (spec : Option LabSpec) (labSteps : List Slug) :
    0 < totalSteps spec labSteps := by
  unfold totalSteps
  dsimp only
  split
  · split <;> omega
  · omega

end OnlinetLabs.Experiment
