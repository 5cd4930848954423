import OnlinetLabs.Experiment.Finalizer

/-!
# Two records of one outcome

A learner's work on a lab reaches the database by validation runs alone, and they write the status
and the score of the progress row. The metrics of the session are computed from its `current_step`,
which only the simulated learners write.
-/

namespace OnlinetLabs.Experiment

open Sessions (LearningSession)
open Analytics (ControlArm)
open Progress (LabProgress StepRecord allPassed scoreFromSteps recordLabValidation startLab)

variable {S : Type} [LinearOrder S] [Zero S] {share : Nat → Nat → S}

inductive ProgressCall where
  | started (now : Nat)
  | validated (steps : List StepRecord) (now : Nat)
deriving Repr, DecidableEq

namespace ProgressCall

/-- `start_lab`, or the end of `stream_validation`, which records no run without steps. -/
def apply (share : Nat → Nat → S) (row : Option (LabProgress S)) :
    ProgressCall → Option (LabProgress S)
  | .started now => some (startLab now row)
  | .validated steps now =>
      if steps.isEmpty then row else some (recordLabValidation share steps now row)

def recordedRun : ProgressCall → Option (List StepRecord)
  | .started _ => none
  | .validated steps _ => if steps.isEmpty then none else some steps

end ProgressCall

def progressAfter (share : Nat → Nat → S) (calls : List ProgressCall) : Option (LabProgress S) :=
  calls.foldl (ProgressCall.apply share) none

def recordedRuns (calls : List ProgressCall) : List (List StepRecord) :=
  calls.filterMap ProgressCall.recordedRun

def labCompleted (row : Option (LabProgress S)) : Bool := row.any (·.status = .completed)

def passedSteps (steps : List StepRecord) : Nat := steps.countP (·.ok)

def IsBest (share : Nat → Nat → S) (runs : List (List StepRecord)) (run : List StepRecord) : Prop :=
  run ∈ runs ∧ ∀ other ∈ runs, (scoreFromSteps share other).1 ≤ (scoreFromSteps share run).1

/-- The metrics of a session say of the lab what the progress row and the best recorded run say. -/
def OutcomeAgrees (share : Nat → Nat → S) (calls : List ProgressCall) (session : LearningSession)
    (reads : FinalizerReads) (arm : ControlArm) (l2 : Bool) : Prop :=
  let row := progressAfter share calls
  let metrics := experimentMetrics share session reads row arm l2
  (metrics.completed = true ↔ labCompleted row = true)
    ∧ ∀ run, IsBest share (recordedRuns calls) run → metrics.stepsCompleted = passedSteps run

theorem stepsCompleted_apply (row : Option (LabProgress S)) (call : ProgressCall) :
    stepsCompleted (call.apply share row) = stepsCompleted row := by
  cases call with
  | started now =>
      cases row with
      | none => rfl
      | some lp => rfl
  | validated steps now =>
      simp only [ProgressCall.apply]
      split
      · rfl
      · cases row with
        | none => simp [stepsCompleted, recordLabValidation, LabProgress.currentStep_withRun]
        | some lp => simp [stepsCompleted, recordLabValidation, LabProgress.currentStep_withRun]

theorem stepsCompleted_progressAfter (share : Nat → Nat → S) (calls : List ProgressCall) :
    stepsCompleted (progressAfter share calls) = 0 := by
  have hfold : ∀ row : Option (LabProgress S),
      stepsCompleted (calls.foldl (ProgressCall.apply share) row) = stepsCompleted row := by
    induction calls with
    | nil => exact fun _ => rfl
    | cons call calls ih => exact fun row => (ih _).trans (stepsCompleted_apply row call)
  exact hfold none

/-- A lab is completed by a recorded run that passed, and stays so. -/
theorem labCompleted_apply (row : Option (LabProgress S)) (call : ProgressCall) :
    labCompleted (call.apply share row) = true
      ↔ labCompleted row = true ∨ call.recordedRun.any allPassed = true := by
  cases call with
  | started now =>
      cases row with
      | none => simp [ProgressCall.apply, startLab, labCompleted, ProgressCall.recordedRun]
      | some lp => simp [ProgressCall.apply, startLab, labCompleted, ProgressCall.recordedRun]
  | validated steps now =>
      simp only [ProgressCall.apply, ProgressCall.recordedRun]
      by_cases hempty : steps.isEmpty = true
      · simp [hempty]
      · rw [if_neg hempty, if_neg hempty]
        cases row with
        | none => simp [labCompleted, recordLabValidation, LabProgress.status_withRun]
        | some lp =>
            simp [labCompleted, recordLabValidation, LabProgress.status_withRun, or_comm]

theorem labCompleted_progressAfter (calls : List ProgressCall) :
    labCompleted (progressAfter share calls) = true ↔ ∃ run ∈ recordedRuns calls,
      allPassed run = true := by
  have hfold : ∀ row : Option (LabProgress S),
      labCompleted (calls.foldl (ProgressCall.apply share) row) = true
        ↔ labCompleted row = true ∨ ∃ run ∈ recordedRuns calls, allPassed run = true := by
    induction calls with
    | nil => simp [recordedRuns]
    | cons call calls ih =>
        intro row
        rw [List.foldl_cons, ih, labCompleted_apply, or_assoc]
        cases hrun : call.recordedRun with
        | none => simp [recordedRuns, hrun]
        | some run => simp [recordedRuns, hrun]
  rw [progressAfter, hfold none]
  simp [labCompleted]

/-- Whatever a learner has done, the metrics count no step, no completion and no pass without
help. -/
theorem metrics_of_learner (share : Nat → Nat → S) (calls : List ProgressCall)
    (session : LearningSession) (reads : FinalizerReads) (arm : ControlArm) (l2 : Bool) :
    let metrics := experimentMetrics share session reads (progressAfter share calls) arm l2
    metrics.stepsCompleted = 0 ∧ metrics.completed = false
      ∧ metrics.l2UnassistedPass ≠ some true := by
  have hsteps := stepsCompleted_progressAfter share calls
  have htotal := totalSteps_pos reads.spec reads.labSteps
  have hcompleted : decide (totalSteps reads.spec reads.labSteps ≤ 0) = false :=
    decide_eq_false (Nat.not_le.mpr htotal)
  refine ⟨hsteps, ?_, ?_⟩
  · simp only [experimentMetrics, computeSessionMetrics, hsteps, hcompleted]
  · simp only [experimentMetrics, computeSessionMetrics, hsteps, hcompleted, Bool.false_and]
    split <;> simp

/-- **When the two records agree**: exactly when no recorded run passed the lab, and the best of
them passed no step. -/
theorem outcome_agrees_iff (share : Nat → Nat → S) (calls : List ProgressCall)
    (session : LearningSession)
    (reads : FinalizerReads) (arm : ControlArm) (l2 : Bool) :
    OutcomeAgrees share calls session reads arm l2
      ↔ (∀ run ∈ recordedRuns calls, allPassed run = false)
        ∧ ∀ run, IsBest share (recordedRuns calls) run → passedSteps run = 0 := by
  obtain ⟨hsteps, hcompleted, -⟩ := metrics_of_learner share calls session reads arm l2
  have hstatus : (false = true ↔ labCompleted (progressAfter share calls) = true)
      ↔ ∀ run ∈ recordedRuns calls, allPassed run = false := by
    rw [labCompleted_progressAfter]
    simp
  unfold OutcomeAgrees
  dsimp only
  rw [hcompleted, hsteps, hstatus]
  exact and_congr_right fun _ => forall₂_congr fun _ _ => eq_comm

def solved : List ProgressCall := [.started 0, .validated [⟨true, [true]⟩, ⟨true, [true, true]⟩] 10]

def learnersSession : LearningSession where
  id := 0
  userId := "ann"
  labSlug := "ospf-1"
  status := .ended
  startedAt := 0
  endedAt := some 60
  expiresAt := none
  metaJson := none

def twoStepLab : FinalizerReads where
  events := []
  user := some { controlArm := some "closed" }
  spec := some ⟨["interfaces", "neighbours"]⟩
  labSteps := []
  l2InterventionCap := 0
  now := 60

/-- **A solved lab is recorded as unsolved.** -/
theorem solved_lab_unrecorded :
    ¬ OutcomeAgrees (fun part whole => 1000 * part / whole) solved learnersSession twoStepLab
      .closed false := by
  intro hagrees
  have hstatus : labCompleted (progressAfter (fun part whole => 1000 * part / whole) solved)
      = true := by
    decide +kernel
  have hcompleted := hagrees.1.mpr hstatus
  revert hcompleted
  decide +kernel

end OnlinetLabs.Experiment
