import Mathlib.Order.Lattice

/-!
# Progress on a lab

What a validation run leaves in a learner's `lab_progress` row. A score is what
`round(part / whole * 100, 1)` gives for two counts. It is a parameter `share` with values in an
ordered type, so that nothing below depends on how floating-point numbers are rounded.
-/

namespace OnlinetLabs.Progress

/-- The record of one step of a validation run, with the `ok` of each of its checks. -/
structure StepRecord where
  ok : Bool
  checks : List Bool
deriving Repr, DecidableEq

inductive LabStatus where
  | notStarted
  | inProgress
  | completed
deriving Repr, DecidableEq

@[ext] structure LabProgress (S : Type) where
  status : LabStatus := .notStarted
  score : Option S := none
  currentStep : Option Nat := none
  startedAt : Option Nat := none
  completedAt : Option Nat := none
deriving Repr, DecidableEq

variable {S : Type} [LinearOrder S] [Zero S] {share : Nat → Nat → S} {steps : List StepRecord}
  {now : Nat} {lp : LabProgress S} {row : Option (LabProgress S)}

def allPassed (steps : List StepRecord) : Bool := !steps.isEmpty && steps.all (·.ok)

def scoreFromSteps (share : Nat → Nat → S) (steps : List StepRecord) : S × Bool :=
  let checks := steps.flatMap (·.checks)
  let total := checks.length
  let passed := checks.count true
  (if total = 0 then 0 else share passed total, allPassed steps)

/-- `lp.score or 0.0`. -/
def LabProgress.best (lp : LabProgress S) : S := lp.score.getD 0

/-- What `record_lab_validation` does to the object it loaded or created. -/
def LabProgress.withRun (share : Nat → Nat → S) (steps : List StepRecord) (now : Nat)
    (lp : LabProgress S) : LabProgress S :=
  let (score, allPassed) := scoreFromSteps share steps
  let lp := { lp with
    startedAt := if lp.startedAt.isNone then some now else lp.startedAt
    score := some (max lp.best score) }
  if allPassed then
    if lp.status ≠ .completed then { lp with status := .completed, completedAt := some now } else lp
  else if lp.status ≠ .completed then { lp with status := .inProgress }
  else lp

def recordLabValidation (share : Nat → Nat → S) (steps : List StepRecord) (now : Nat)
    (row : Option (LabProgress S)) : LabProgress S :=
  (row.getD { startedAt := some now }).withRun share steps now

def startLab (now : Nat) (row : Option (LabProgress S)) : LabProgress S :=
  row.getD { status := .inProgress, startedAt := some now }

namespace LabProgress

theorem best_withRun :
    (lp.withRun share steps now).best = max lp.best (scoreFromSteps share steps).1 := by
  simp only [withRun]
  repeat' split
  all_goals rfl

theorem score_withRun :
    (lp.withRun share steps now).score = some (max lp.best (scoreFromSteps share steps).1) := by
  simp only [withRun]
  repeat' split
  all_goals rfl

/-- A run completes the lab or leaves it in progress, and takes no completion back. -/
theorem status_withRun : (lp.withRun share steps now).status
    = if allPassed steps || lp.status = .completed then .completed else .inProgress := by
  simp only [withRun, scoreFromSteps]
  by_cases hpassed : allPassed steps = true
  · by_cases hstatus : lp.status = .completed
    · simp [hpassed, hstatus]
    · simp [hpassed, hstatus]
  · by_cases hstatus : lp.status = .completed
    · simp [hpassed, hstatus]
    · simp [hpassed, hstatus]

theorem currentStep_withRun : (lp.withRun share steps now).currentStep = lp.currentStep := by
  simp only [withRun]
  repeat' split
  all_goals rfl

end LabProgress

end OnlinetLabs.Progress
