import OnlinetLabs.Analytics.Features

/-!
# identify_regime

A list of rules over the features, of which the first that matches names the struggle. The result is
validated when it is built: a rate or a confidence outside the unit interval raises.
-/

namespace OnlinetLabs.Analytics

variable {K : Type} [Field K] [LinearOrder K]

inductive StruggleType where
  | stuckOnStep
  | repeatingErrors
  | idle
  | trialAndError
deriving Repr, DecidableEq

inductive SuggestedIntervention where
  | hint
  | tutor
  | simplify
  | none
deriving Repr, DecidableEq

def SuggestedIntervention.value : SuggestedIntervention → String
  | .hint => "hint"
  | .tutor => "tutor"
  | .simplify => "simplify"
  | .none => "none"

structure StudentMetrics (K : Type) where
  totalAttempts : Nat
  successRate : K
  avgTimePerStep : K
deriving DecidableEq

/-- Of the difficulty recommendation only the metrics depend on the session. -/
structure AnalyticsResult (K : Type) where
  metrics : StudentMetrics K
  struggleDetected : Bool
  struggleType : Option StruggleType
  suggestedIntervention : SuggestedIntervention
  features : SessionFeatures K
  confidence : K
deriving DecidableEq

structure StruggleRule (K : Type) where
  applies : SessionFeatures K → LearningAnalyticsConfig K → Bool
  struggleType : StruggleType
  intervention : SuggestedIntervention
  confidence : SessionFeatures K → LearningAnalyticsConfig K → Option K

def struggleRules : List (StruggleRule K) := [
  { applies := fun f c => decide (c.errorRepeatThreshold ≤ f.errorRepeatCount)
    struggleType := .repeatingErrors
    intervention := .hint
    confidence := fun f c =>
      (divide (f.errorRepeatCount : K) (c.errorRepeatThreshold + 2)).map (min · 1) },
  { applies := fun f c => decide (c.distinctActualsThreshold < f.distinctFailingActuals)
    struggleType := .trialAndError
    intervention := .tutor
    confidence := fun f _ => some (min (f.distinctFailingActuals / 4) 1) },
  { applies := fun f c => decide (c.unchangedCyclesThreshold ≤ f.cyclesFailingUnchanged)
    struggleType := .stuckOnStep
    intervention := .hint
    confidence := fun _ _ => some (7 / 10) },
  { applies := fun f c =>
      decide (c.entropyThreshold < f.actionSequenceEntropy)
        && decide (c.errorFreqThreshold < f.errorFrequency)
    struggleType := .trialAndError
    intervention := .tutor
    confidence := fun f _ => some (min f.actionSequenceEntropy 1) },
  { applies := fun f c =>
      decide (c.idleThreshold < f.idlePeriods)
        && decide (f.actionRateSlope < c.rateSlopeThreshold)
    struggleType := .idle
    intervention := .tutor
    confidence := fun _ _ => some (7 / 10) },
  { applies := fun f c =>
      decide (c.stuckTimeMultiplier * max f.avgInterActionLatency c.minLatencyFloor
          < f.timeOnCurrentStep)
        && decide (c.minIdleForStuck < f.idlePeriods)
    struggleType := .stuckOnStep
    intervention := .hint
    confidence := fun _ _ => some (3 / 5) }]

/-- `_detect_struggle`: the first match wins. -/
def detectStruggle (features : SessionFeatures K) (cfg : LearningAnalyticsConfig K) :
    Option (Option StruggleType × SuggestedIntervention × K) :=
  match struggleRules.find? (·.applies features cfg) with
  | none => some (none, .none, 0)
  | some rule => (rule.confidence features cfg).map fun confidence =>
      (some rule.struggleType, rule.intervention, confidence)

/-- `Field(ge=0.0, le=1.0)`. -/
def inUnitInterval (x : K) : Bool := decide (0 ≤ x) && decide (x ≤ 1)

/-- `identify_regime`, or `none` where it raises. -/
def identifyRegime (features : SessionFeatures K) (cfg : LearningAnalyticsConfig K) :
    Option (AnalyticsResult K) :=
  let successRate := 1 - features.errorRepeatRate
  if inUnitInterval successRate then
    match detectStruggle features cfg with
    | none => none
    | some (struggleType, intervention, confidence) =>
        if inUnitInterval confidence then some {
          metrics := ⟨features.eventsTotal, successRate, features.avgInterActionLatency⟩
          struggleDetected := struggleType.isSome
          struggleType := struggleType
          suggestedIntervention := intervention
          features := features
          confidence := confidence }
        else none
  else none

end OnlinetLabs.Analytics
