import Mathlib.Algebra.Order.Floor.Ring
import OnlinetLabs.Lib.Newest
import OnlinetLabs.Sessions.Models

/-!
# What the loop reads

The rows of `behavioral_events` a session has, the configuration of the loop and the query that
loads its window. Clocks are natural numbers of microseconds; seconds, thresholds and rates are
elements of a field `K`, so nothing below depends on how floating-point numbers are rounded.
-/

namespace OnlinetLabs.Analytics

open Sessions (UserId Slug SessionId)

/-- The columns the loop reads or writes. `eventType` and `action` are free text in the table. -/
structure BehavioralEvent where
  sessionId : SessionId
  userId : UserId
  labSlug : Slug
  timestamp : Nat
  eventType : String
  componentId : Option String
  action : String
  success : Bool
  severity : Option String
  message : Option String
  /-- Each value of the JSON object as the text `json.dumps(value, sort_keys=True)` gives for it. -/
  extraData : Option (List (String × String))
deriving Repr, DecidableEq

/-- `ProcessRegime`: productive, or a struggle. -/
inductive ProcessRegime where
  | productive
  | stuckOnStep
  | repeatingErrors
  | idle
  | trialAndError
deriving Repr, DecidableEq

structure LearningAnalyticsConfig (K : Type) where
  cooldownPeriod : K
  enabled : Bool
  mrtEnabled : Bool
  mrtHoldProbability : K
  mrtTKJitterFrac : K
  groundingAblationEnabled : Bool
  errorRepeatThreshold : Int
  idleThreshold : Int
  entropyThreshold : K
  errorFreqThreshold : K
  distinctActualsThreshold : Int
  unchangedCyclesThreshold : Int
  stuckTimeMultiplier : K
  rateSlopeThreshold : K
  minLatencyFloor : K
  minIdleForStuck : Int
  idleGapSeconds : K
  rateWindowSeconds : K
  minRateWindows : Int
  errorFreqWindowMinutes : K
  /-- A missing key reads as zero. -/
  dwellThresholds : ProcessRegime → Option K
  escalationMaxDwell : K

-- The numerals that several modules share have their instances named here, so that each module
-- elaborates them alike.
scoped instance atLeastTwo_two : Nat.AtLeastTwo 2 := ⟨by decide⟩
scoped instance atLeastTwo_five : Nat.AtLeastTwo 5 := ⟨by decide⟩
scoped instance atLeastTwo_seven : Nat.AtLeastTwo 7 := ⟨by decide⟩
scoped instance atLeastTwo_ten : Nat.AtLeastTwo 10 := ⟨by decide⟩
scoped instance atLeastTwo_sixty : Nat.AtLeastTwo 60 := ⟨by decide⟩
scoped instance atLeastTwo_million : Nat.AtLeastTwo 1000000 := ⟨by decide⟩

def LearningAnalyticsConfig.default {K : Type} [Field K] : LearningAnalyticsConfig K where
  cooldownPeriod := 60
  enabled := true
  mrtEnabled := false
  mrtHoldProbability := 1 / 2
  mrtTKJitterFrac := 1 / 2
  groundingAblationEnabled := false
  errorRepeatThreshold := 3
  idleThreshold := 3
  entropyThreshold := 7 / 10
  errorFreqThreshold := 2 / 5
  distinctActualsThreshold := 2
  unchangedCyclesThreshold := 3
  stuckTimeMultiplier := 2
  rateSlopeThreshold := -1 / 2
  minLatencyFloor := 30
  minIdleForStuck := 2
  idleGapSeconds := 60
  rateWindowSeconds := 120
  minRateWindows := 3
  errorFreqWindowMinutes := 5
  dwellThresholds := fun regime => if regime = .productive then none else some 0
  escalationMaxDwell := 180

/-- `(later - earlier).total_seconds()`. -/
def seconds {K : Type} [Field K] (later earlier : Nat) : K := ((later : K) - earlier) / 1000000

/-! ### The window -/

/-- The rows `_load_new_events` does not filter out. -/
def analysed (rows : List BehavioralEvent) (sessionId : SessionId) : List BehavioralEvent :=
  rows.filter fun e => e.sessionId == sessionId && e.eventType != "intervention"

/-- The query of `_load_new_events`, oldest row first. -/
def analysisWindow (rows : List BehavioralEvent) (sessionId : SessionId) : List BehavioralEvent :=
  ((newestFirst BehavioralEvent.timestamp (analysed rows sessionId)).take 500).reverse

/-- `_load_new_events`: nothing unless the newest row is past the cursor. -/
def loadNewEvents (rows : List BehavioralEvent) (sessionId : SessionId)
    (lastEventAt : Option Nat) : List BehavioralEvent :=
  match ((analysed rows sessionId).map (·.timestamp)).max? with
  | none => []
  | some latest =>
      if lastEventAt.any (latest ≤ ·) then [] else analysisWindow rows sessionId

/-- The newest analysed row is the last of the window. -/
theorem max?_analysed (rows : List BehavioralEvent) (sessionId : SessionId) :
    ((analysed rows sessionId).map (·.timestamp)).max?
      = (analysisWindow rows sessionId).getLast?.map (·.timestamp) := by
  unfold analysisWindow
  rw [List.getLast?_reverse, List.head?_take, if_neg (by decide), Newest.max?_map]
  rfl

end OnlinetLabs.Analytics
