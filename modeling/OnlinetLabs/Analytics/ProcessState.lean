import OnlinetLabs.Analytics.Identifier

/-!
# The state of the controlled process

A regime, and the time spent in it without a change.
-/

namespace OnlinetLabs.Analytics

variable {K : Type}

def StruggleType.toRegime : StruggleType → ProcessRegime
  | .stuckOnStep => .stuckOnStep
  | .repeatingErrors => .repeatingErrors
  | .idle => .idle
  | .trialAndError => .trialAndError

def analysisToRegime (analysis : AnalyticsResult K) : ProcessRegime :=
  if !analysis.struggleDetected then .productive
  else
    match analysis.struggleType with
    | none => .productive
    | some struggleType => struggleType.toRegime

def isBad (regime : ProcessRegime) : Bool := regime != .productive

/-- A bad regime comes from a detected struggle. -/
theorem struggleDetected_of_isBad {analysis : AnalyticsResult K}
    (h : isBad (analysisToRegime analysis) = true) : analysis.struggleDetected = true := by
  unfold analysisToRegime at h
  split at h
  · exact nomatch h
  · rename_i hdetected
    simpa using hdetected

/-- `DwellTracker`: the regime, and since when. -/
structure DwellTracker where
  regime : Option ProcessRegime := none
  since : Nat := 0
deriving Repr, DecidableEq

/-- `DwellTracker.observe`. -/
def DwellTracker.observe [Field K] (tracker : DwellTracker) (regime : ProcessRegime) (now : Nat) :
    DwellTracker × K :=
  if some regime = tracker.regime then (tracker, seconds now tracker.since)
  else (⟨some regime, now⟩, 0)

@[simp] theorem DwellTracker.observe_regime [Field K] {tracker : DwellTracker}
    {regime : ProcessRegime}
    {now : Nat} : (tracker.observe (K := K) regime now).1.regime = some regime := by
  unfold observe
  split
  · rename_i h
    exact h.symm
  · rfl

end OnlinetLabs.Analytics
