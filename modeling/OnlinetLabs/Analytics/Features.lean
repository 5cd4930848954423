import Mathlib.Data.List.MinMax
import OnlinetLabs.Analytics.Events
import OnlinetLabs.Lib.Rounding

/-!
# FeatureExtractor

Sixteen features and two counters over one list of events, each with its own notion of which events
count. A feature that divides by a configured window raises where the window is zero, so the
extractor returns an option.

Counts in `Counter` keep the order in which their keys first appear, and `most_common` breaks ties
by it. `round` is the rounding of the language, half to even.
-/

namespace OnlinetLabs.Analytics

open Rounding (roundHalfEven)
open Sessions (SessionId)

variable {K : Type} [Field K] [LinearOrder K] [FloorRing K]

structure SessionFeatures (K : Type) where
  avgInterActionLatency : K
  actionRateSlope : K
  idlePeriods : Nat
  totalActiveTime : K
  timeOnCurrentStep : K
  errorRepeatCount : Nat
  errorRepeatRate : K
  actionSequenceEntropy : K
  undoRedoRatio : K
  errorFrequency : K
  errorFrequencySlope : K
  uniqueErrorTypes : Nat
  dominantError : Option String
  componentsTouched : Nat
  actionDiversity : K
  eventsTotal : Nat
  distinctFailingActuals : Nat
  cyclesFailingUnchanged : Nat
  sessionId : SessionId
  computedAt : Nat
deriving DecidableEq

/-! ### The language's arithmetic -/

/-- `round(x, digits)`. -/
def round (digits : Nat) (x : K) : K := (roundHalfEven (x * 10 ^ digits) : K) / 10 ^ digits

/-- `int(x)`: towards zero. -/
def truncate (x : K) : Int := if 0 ≤ x then ⌊x⌋ else ⌈x⌉

/-- A division that raises on zero. -/
def divide (x y : K) : Option K := if y = 0 then none else some (x / y)

def truthy : Option String → Option String
  | some text => if text = "" then none else some text
  | none => none

/-- `Counter(items).most_common(1)`: the first of the most frequent items. -/
def mostCommon (items : List String) : Option String := items.argmax (items.count ·)

/-! ### The features -/

/-- `_student_events`: what the observer's heartbeat writes is no action of the student. -/
def studentEvents (events : List BehavioralEvent) : List BehavioralEvent :=
  events.filter fun e =>
    !(["check_passed", "check_regressed", "check_failing", "check_retry"].contains e.action)

def adjacentGaps : List BehavioralEvent → List K
  | e :: e' :: events => |seconds e'.timestamp e.timestamp| :: adjacentGaps (e' :: events)
  | _ => []

/-- `_inter_action_latencies`, with the gap up to `now`. -/
def interActionLatencies (events : List BehavioralEvent) (now : Nat) : List K :=
  adjacentGaps events ++ (match events.getLast? with
    | none => []
    | some last => [|seconds now last.timestamp|])

/-- `buckets[index] += 1`, with the buckets grown up to the index. A negative index counts from the
end, and raises past the front. -/
def bump (buckets : List Nat) (index : Int) : Option (List Nat) :=
  let buckets := buckets ++ List.replicate (index + 1 - buckets.length).toNat 0
  let index := if 0 ≤ index then index else buckets.length + index
  if index < 0 then none else some (buckets.modify index.toNat (· + 1))

def rateBuckets (start : Nat) (window : K) : List BehavioralEvent → List Nat → Option (List Nat)
  | [], buckets => some buckets
  | e :: events, buckets => do
      let index ← divide (seconds e.timestamp start) window
      rateBuckets start window events (← bump buckets (truncate index))

def bucketSlope (buckets : List Nat) : K :=
  let indices := List.range buckets.length
  let indexMean : K := (indices.sum : K) / buckets.length
  let valueMean : K := (buckets.sum : K) / buckets.length
  let numerator : K := ((indices.zip buckets).map fun xy =>
    ((xy.1 : K) - indexMean) * ((xy.2 : K) - valueMean)).sum
  let denominator : K := (indices.map fun x => ((x : K) - indexMean) ^ 2).sum
  if denominator = 0 then 0 else numerator / denominator

def actionRateSlope (cfg : LearningAnalyticsConfig K) (events : List BehavioralEvent) : Option K :=
  match events, events.getLast? with
  | first :: _ :: _, some last =>
      if (seconds last.timestamp first.timestamp : K)
          < cfg.rateWindowSeconds * cfg.minRateWindows then some 0
      else do
        let buckets ← rateBuckets first.timestamp cfg.rateWindowSeconds events []
        if (buckets.length : Int) < cfg.minRateWindows then some 0 else some (bucketSlope buckets)
  | _, _ => some 0

/-- `_time_on_current_step`: since the first event of the trailing cluster on one component. -/
def timeOnCurrentStep (events : List BehavioralEvent) (now : Nat) : K :=
  match events.getLast? with
  | none => 0
  | some last =>
      match (events.reverse.takeWhile (·.componentId == last.componentId)).getLast? with
      | none => 0
      | some first => seconds now first.timestamp

/-- The loop of `_current_error_run`, from the newest event back. -/
def errorRun : List BehavioralEvent → Nat → Option String → Nat
  | [], run, _ => run
  | e :: events, run, lastMessage =>
      if e.action = "check_passed" then run
      else if e.eventType ≠ "error" then errorRun events run lastMessage
      else
        match lastMessage with
        | none => errorRun events 1 e.message
        | some message =>
            if e.message = some message then errorRun events (run + 1) lastMessage else run

def currentErrorRun (events : List BehavioralEvent) : Nat :=
  let run := errorRun events.reverse 0 none
  if 2 ≤ run then run else 0

/-- `_action_entropy`, with the base-two logarithm as a parameter. -/
def actionEntropy (log2 : K → K) (events : List BehavioralEvent) : K :=
  let names := events.map (·.action)
  let distinct := names.eraseDups
  let total : K := names.length
  let entropy : K := -(distinct.map fun name =>
    ((names.count name : K) / total) * log2 ((names.count name : K) / total)).sum
  let maxEntropy : K := if 1 < distinct.length then log2 distinct.length else 1
  if names = [] then 0 else if 0 < maxEntropy then entropy / maxEntropy else 0

/-- The start/stop/start cycles on one component. -/
def undoRedoCycles : List BehavioralEvent → Nat
  | a :: b :: c :: events =>
      (if c.componentId = a.componentId ∧ c.action = a.action ∧ c.action ≠ b.action then 1 else 0)
        + undoRedoCycles (b :: c :: events)
  | _ => 0

def undoRedoRatio (actionEvents : List BehavioralEvent) : K :=
  if actionEvents.length < 3 then 0
  else (undoRedoCycles actionEvents : K) / actionEvents.length

def errorFrequency (cfg : LearningAnalyticsConfig K)
    (errorEvents allEvents : List BehavioralEvent) :
    Option K :=
  match errorEvents, allEvents.head?, allEvents.getLast? with
  | _ :: _, some first, some last =>
      let durationMinutes : K := max (seconds last.timestamp first.timestamp / 60) (1 / 10)
      let windowMinutes : K := min cfg.errorFreqWindowMinutes durationMinutes
      let windowCutoff : K := (last.timestamp : K) / 1000000 - windowMinutes * 60
      let recent := errorEvents.countP fun e => decide (windowCutoff ≤ (e.timestamp : K) / 1000000)
      divide (recent : K) windowMinutes
  | _, _, _ => some 0

/-- The seconds a half of the errors spans, at least one. -/
def spanSeconds (events : List BehavioralEvent) : K :=
  match events.head?, events.getLast? with
  | some first, some last => max (seconds last.timestamp first.timestamp) 1
  | _, _ => 1

def errorFrequencySlope (errorEvents : List BehavioralEvent) : K :=
  if errorEvents.length < 4 then 0
  else
    let midpoint := errorEvents.length / 2
    let firstHalf := errorEvents.take midpoint
    let secondHalf := errorEvents.drop midpoint
    (secondHalf.length : K) / spanSeconds secondHalf
      - (firstHalf.length : K) / spanSeconds firstHalf

/-- `json.dumps((extra_data or {}).get("actual"), sort_keys=True)`. -/
def BehavioralEvent.actual (e : BehavioralEvent) : String :=
  (e.extraData.bind (·.lookup "actual")).getD "null"

def distinctFailingActuals (events : List BehavioralEvent) : Nat :=
  let failing := events.filter fun e => ["check_failing", "check_retry"].contains e.action
  match mostCommon (failing.filterMap fun e => truthy e.componentId) with
  | none => 0
  | some cid =>
      ((failing.filter fun e => e.componentId == some cid).map (·.actual)).eraseDups.length

/-- The loop of `_cycles_failing_unchanged`, from the newest event back. -/
def failingRun : List BehavioralEvent → Nat → Option String → Nat
  | [], run, _ => run
  | e :: events, run, refCid =>
      if e.action ≠ "check_failing" then run
      else
        match refCid with
        | none => failingRun events (run + 1) e.componentId
        | some cid =>
            if e.componentId = some cid then failingRun events (run + 1) refCid else run

def cyclesFailingUnchanged (events : List BehavioralEvent) : Nat := failingRun events.reverse 0 none

def dominantError (errorEvents : List BehavioralEvent) : Option String :=
  mostCommon (errorEvents.filterMap fun e => truthy e.message)

def emptyFeatures (sessionId : SessionId) (now : Nat) : SessionFeatures K where
  avgInterActionLatency := 0
  actionRateSlope := 0
  idlePeriods := 0
  totalActiveTime := 0
  timeOnCurrentStep := 0
  errorRepeatCount := 0
  errorRepeatRate := 0
  actionSequenceEntropy := 0
  undoRedoRatio := 0
  errorFrequency := 0
  errorFrequencySlope := 0
  uniqueErrorTypes := 0
  dominantError := none
  componentsTouched := 0
  actionDiversity := 0
  eventsTotal := 0
  distinctFailingActuals := 0
  cyclesFailingUnchanged := 0
  sessionId := sessionId
  computedAt := now

/-- `FeatureExtractor.compute`. -/
def compute (log2 : K → K) (cfg : LearningAnalyticsConfig K) (sessionId : SessionId) (now : Nat)
    (events : List BehavioralEvent) : Option (SessionFeatures K) :=
  if events = [] then some (emptyFeatures sessionId now)
  else do
    let sorted := events.insertionSort fun a b => a.timestamp ≤ b.timestamp
    let actionEvents := sorted.filter (·.eventType == "action")
    let errorEvents := sorted.filter (·.eventType == "error")
    let latencies : List K := interActionLatencies (studentEvents sorted) now
    let run := currentErrorRun sorted
    let slope ← actionRateSlope cfg sorted
    let frequency ← errorFrequency cfg errorEvents sorted
    return {
      avgInterActionLatency :=
        round 2 (if latencies = [] then 0 else latencies.sum / latencies.length)
      actionRateSlope := round 4 slope
      idlePeriods := latencies.countP fun delta => decide (cfg.idleGapSeconds < delta)
      totalActiveTime :=
        round 2 (latencies.filter fun delta => decide (delta ≤ cfg.idleGapSeconds)).sum
      timeOnCurrentStep := round 2 (timeOnCurrentStep sorted now)
      errorRepeatCount := run
      errorRepeatRate :=
        round 4 (if errorEvents = [] then 0 else (run : K) / errorEvents.length)
      actionSequenceEntropy := round 4 (actionEntropy log2 sorted)
      undoRedoRatio := round 4 (undoRedoRatio actionEvents)
      errorFrequency := round 4 frequency
      errorFrequencySlope := round 4 (errorFrequencySlope errorEvents)
      uniqueErrorTypes := (errorEvents.filterMap fun e => truthy e.message).eraseDups.length
      dominantError := dominantError errorEvents
      componentsTouched := (sorted.filterMap fun e => truthy e.componentId).eraseDups.length
      actionDiversity := round 4 (((sorted.map (·.action)).eraseDups.length : K) / sorted.length)
      eventsTotal := sorted.length
      distinctFailingActuals := distinctFailingActuals sorted
      cyclesFailingUnchanged := cyclesFailingUnchanged sorted
      sessionId := sessionId
      computedAt := now }

/-- The total counts every row that was loaded, whoever wrote it. -/
theorem eventsTotal_of_compute {log2 : K → K} {cfg : LearningAnalyticsConfig K}
    {sessionId : SessionId} {now : Nat} {events : List BehavioralEvent} {f : SessionFeatures K}
    (h : compute log2 cfg sessionId now events = some f) : f.eventsTotal = events.length := by
  unfold compute at h
  split at h
  · rename_i hnil
    cases h
    rw [hnil]
    rfl
  · simp only [Option.bind_eq_bind, Option.bind_eq_some_iff, Option.pure_def,
      Option.some.injEq] at h
    obtain ⟨slope, -, frequency, -, rfl⟩ := h
    exact List.length_insertionSort _ _

end OnlinetLabs.Analytics
