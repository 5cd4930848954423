import OnlinetLabs.Analytics.OfflinePolicy
import OnlinetLabs.Analytics.ProcessState
import OnlinetLabs.Analytics.Thresholds

/-!
# The operating curve

`harness.py` runs the identifier over the snapshots of a labeled scenario, and asks when its state
has been bad for a threshold. The curve over the thresholds rests on two facts: a higher threshold
is reached later, if at all, and a policy with higher thresholds does not intervene more often,
though it may intervene at other samples.
-/

namespace OnlinetLabs.Analytics.OperatingCurve

open Criterion (Instant toSec Sample Intervention Ascending)
open Rounding (roundHalfEven)
open Thresholds

variable {K : Type} [Field K] [LinearOrder K] [FloorRing K]

def regimeValue : ProcessRegime → String
  | .productive => "productive"
  | .stuckOnStep => "stuck_on_step"
  | .repeatingErrors => "repeating_errors"
  | .idle => "idle"
  | .trialAndError => "trial_and_error"

def processRegimes :
    List ProcessRegime := [.productive, .stuckOnStep, .repeatingErrors, .idle, .trialAndError]

/-- `ProcessRegime(value)`, which raises on a value of no regime. -/
def processRegime (value : String) : Option ProcessRegime :=
  processRegimes.find? fun regime => regimeValue regime == value

structure Snapshot (K : Type) where
  ts : K
  features : SessionFeatures K

structure LabeledScenario (K : Type) where
  snapshots : List (Snapshot K)

structure Detection (K : Type) where
  detected : Bool
  detectedTs : Option (Instant K)
  detectedRegime : Option ProcessRegime

def dayMicroseconds : Int := 86400000000

/-- `_BASE + timedelta(seconds=ts)` in microseconds of the calendar, which ends with the year
9999. -/
def baseAfter (ts : K) : Option Nat :=
  let microseconds := 739616 * dayMicroseconds + roundHalfEven (ts * 1000000)
  if 0 ≤ microseconds ∧ microseconds < 3652059 * dayMicroseconds
    then some microseconds.toNat else none

/-- The loop of `identifier_trace`. -/
def traceFrom (config : LearningAnalyticsConfig K) :
    DwellTracker → List (Snapshot K) → Option (List (Sample K))
  | _, [] => some []
  | tracker, snap :: rest =>
      (identifyRegime snap.features config).bind fun result =>
        (baseAfter snap.ts).bind fun now =>
          let regime := analysisToRegime result
          let observed := tracker.observe regime now
          (traceFrom config observed.1 rest).map fun trace =>
            { ts := .float snap.ts, regime := regimeValue regime, dwell := observed.2 } :: trace

def identifierTrace (scenario : LabeledScenario K) (config : LearningAnalyticsConfig K) :
    Option (List (Sample K)) :=
  traceFrom config {} scenario.snapshots

/-- The loop of `run_identifier`. -/
def detect (tK : K) : List (Sample K) → Option (Detection K)
  | [] => some ⟨false, none, none⟩
  | sample :: rest =>
      (processRegime sample.regime).bind fun regime =>
        if isBad regime && decide (tK ≤ sample.dwell) then some ⟨true, some sample.ts, some regime⟩
        else detect tK rest

def runIdentifier (scenario : LabeledScenario K) (tK : K) (config : LearningAnalyticsConfig K) :
    Option (Detection K) := (identifierTrace scenario config).bind (detect tK)

/-! ### Detections -/

variable {config : LearningAnalyticsConfig K} {tracker : DwellTracker}
  {snapshots : List (Snapshot K)}
  {trace : List (Sample K)} {tK tK' : K} {d d' : Detection K}

/-- A trace has a sample for each snapshot, of its instant. -/
theorem map_ts_traceFrom (h : traceFrom config tracker snapshots = some trace) :
    trace.map Sample.ts = snapshots.map fun snap => .float snap.ts := by
  induction snapshots generalizing tracker trace with
  | nil =>
    cases h
    rfl
  | cons snap rest ih =>
    obtain ⟨result, -, hresult⟩ := Option.bind_eq_some_iff.mp h
    obtain ⟨now, -, hnow⟩ := Option.bind_eq_some_iff.mp hresult
    obtain ⟨later, hlater, rfl⟩ := Option.map_eq_some_iff.mp hnow
    rw [List.map_cons, List.map_cons, ih hlater]

omit [FloorRing K] in
/-- A trace over snapshots in their order is in order. -/
theorem ascending_of_map_ts (hts : trace.map Sample.ts = snapshots.map fun snap => .float snap.ts)
    (hsnapshots : snapshots.Pairwise fun snap later => snap.ts ≤ later.ts) : Ascending trace := by
  have htrace : (trace.map Sample.ts).Pairwise fun ts later => toSec ts ≤ toSec later := by
    rw [hts]
    exact List.pairwise_map.mpr hsnapshots
  have hpairs := List.pairwise_map.mp htrace
  exact hpairs

omit [Field K] [FloorRing K] in
theorem detect_cons {sample : Sample K} {rest : List (Sample K)} :
    detect tK (sample :: rest) = some d ↔ ∃ regime, processRegime sample.regime = some regime
      ∧ (if isBad regime && decide (tK ≤ sample.dwell) then some ⟨true, some sample.ts, some regime⟩
          else detect tK rest) = some d := Option.bind_eq_some_iff

omit [Field K] [FloorRing K] in
theorem exists_of_detect (h : detect tK trace = some d) (hdetected : d.detected = true) :
    ∃ sample ∈ trace, d.detectedTs = some sample.ts := by
  induction trace with
  | nil =>
    cases h
    cases hdetected
  | cons sample rest ih =>
    obtain ⟨regime, -, hcase⟩ := detect_cons.mp h
    split at hcase
    · cases hcase
      exact ⟨sample, List.mem_cons_self, rfl⟩
    · obtain ⟨later, hlater, hts⟩ := ih hcase
      exact ⟨later, List.mem_cons_of_mem _ hlater, hts⟩

omit [FloorRing K] in
/-- What reaches the higher threshold has reached the lower. -/
theorem detect_of_higher (htK : tK ≤ tK') (htrace : Ascending trace)
    (h : detect tK' trace = some d') :
    ∃ d, detect tK trace = some d ∧ (d'.detected = true →
      d.detected = true ∧ ∃ t ∈ d.detectedTs, ∃ t' ∈ d'.detectedTs, toSec t ≤ toSec t') := by
  induction trace with
  | nil =>
    cases h
    refine ⟨⟨false, none, none⟩, rfl, ?_⟩
    rintro ⟨⟩
  | cons sample rest ih =>
    obtain ⟨hfirst, hrest⟩ := List.pairwise_cons.mp htrace
    obtain ⟨regime, hregime, hcase⟩ := detect_cons.mp h
    by_cases hlower : (isBad regime && decide (tK ≤ sample.dwell)) = true
    · refine ⟨⟨true, some sample.ts, some regime⟩,
        detect_cons.mpr ⟨regime, hregime, if_pos hlower⟩, ?_⟩
      intro hdetected
      obtain ⟨later, hlater, hts⟩ := exists_of_detect h hdetected
      refine ⟨rfl, sample.ts, rfl, later.ts, hts, ?_⟩
      rcases List.mem_cons.mp hlater with rfl | hlater
      · exact le_rfl
      · exact hfirst later hlater
    · have hhigher : ¬(isBad regime && decide (tK' ≤ sample.dwell)) = true := by
        simp only [Bool.and_eq_true, decide_eq_true_eq, not_and] at hlower ⊢
        exact fun hbad hle => hlower hbad (htK.trans hle)
      rw [if_neg hhigher] at hcase
      obtain ⟨d, hd, himplies⟩ := ih hrest hcase
      exact ⟨d, detect_cons.mpr ⟨regime, hregime, (if_neg hlower).trans hd⟩, himplies⟩

/-- **Higher thresholds never intervene more**, and detect no earlier. -/
theorem higher_thresholds [IsStrictOrderedRing K] (samples : List (Sample K)) (T T' : Dict String K)
    (cooldownSeconds : K) (scenario : LabeledScenario K) (config : LearningAnalyticsConfig K)
    (tK tK' : K)
    (hsamples : Ascending samples) (hbelow : Below T T')
    (hsnapshots : scenario.snapshots.Pairwise fun snap later => snap.ts ≤ later.ts)
    (htK : tK ≤ tK') :
    (simulateInterventions samples T' cooldownSeconds).length
        ≤ (simulateInterventions samples T cooldownSeconds).length
      ∧ ((simulateInterventions samples T cooldownSeconds).IsChain fun iv later =>
          cooldownSeconds ≤ toSec later.ts - toSec iv.ts)
      ∧ ((simulateInterventions samples T' cooldownSeconds).IsChain fun iv later =>
          cooldownSeconds ≤ toSec later.ts - toSec iv.ts)
      ∧ ∀ d', runIdentifier scenario tK' config = some d' →
          ∃ d, runIdentifier scenario tK config = some d ∧ (d'.detected = true →
            d.detected = true ∧ ∃ t ∈ d.detectedTs, ∃ t' ∈ d'.detectedTs, toSec t ≤ toSec t') := by
  refine ⟨length_simulateInterventions_le hbelow hsamples, isChain_simulateInterventions,
    isChain_simulateInterventions, fun d' hd' => ?_⟩
  obtain ⟨trace, htrace, hdetect⟩ := Option.bind_eq_some_iff.mp hd'
  have hascending : Ascending trace := ascending_of_map_ts (map_ts_traceFrom htrace) hsnapshots
  obtain ⟨d, hd, himplies⟩ := detect_of_higher htK hascending hdetect
  exact ⟨d, Option.bind_eq_some_iff.mpr ⟨trace, htrace, hd⟩, himplies⟩

/-! ### A lab with repeated errors, under two thresholds -/

def repeatedErrors : SessionFeatures ℚ :=
  { avgInterActionLatency := 5, actionRateSlope := 0, idlePeriods := 0, totalActiveTime := 40
    timeOnCurrentStep := 10, errorRepeatCount := 4, errorRepeatRate := 1, actionSequenceEntropy := 0
    undoRedoRatio := 0, errorFrequency := 6, errorFrequencySlope := 0, uniqueErrorTypes := 1
    dominantError := some "timeout", componentsTouched := 1, actionDiversity := 1 / 4
    eventsTotal := 4
    distinctFailingActuals := 0, cyclesFailingUnchanged := 0, sessionId := 0, computedAt := 0 }

def repeatedScenario :
    LabeledScenario ℚ := ⟨[⟨0, repeatedErrors⟩, ⟨25, repeatedErrors⟩, ⟨40, repeatedErrors⟩]⟩

def idleSamples : List (Sample ℚ) := [⟨.float 0, "idle", 3⟩, ⟨.float 5, "idle", 8⟩]

theorem higher_thresholds_instance :
    (simulateInterventions idleSamples ⟨[("idle", 5)]⟩ 2).length
        ≤ (simulateInterventions idleSamples ⟨[("idle", 1)]⟩ 2).length
      ∧ ((simulateInterventions idleSamples ⟨[("idle", 1)]⟩ 2).IsChain fun iv later =>
          2 ≤ toSec later.ts - toSec iv.ts)
      ∧ ∃ d' d, runIdentifier repeatedScenario 30 .default = some d'
          ∧ runIdentifier repeatedScenario 20 .default = some d ∧ d.detected = true
          ∧ ∃ t ∈ d.detectedTs, ∃ t' ∈ d'.detectedTs, toSec t ≤ toSec t' := by
  have hsamples : Ascending idleSamples := by
    norm_num [Ascending, idleSamples, toSec]
  have hbelow : Below (⟨[("idle", 1)]⟩ : Dict String ℚ) ⟨[("idle", 5)]⟩ := by
    intro regime t' h
    simp only [Dict.get?, Dict.lookup] at h ⊢
    split at h
    · rename_i hregime
      cases h
      exact ⟨1, by rw [if_pos hregime], by norm_num⟩
    · cases h
  have hsnapshots : repeatedScenario.snapshots.Pairwise fun snap later => snap.ts ≤ later.ts := by
    norm_num [repeatedScenario]
  obtain ⟨hcount, hspaced, -, hdetects⟩ :=
    higher_thresholds idleSamples ⟨[("idle", 1)]⟩ ⟨[("idle", 5)]⟩ 2
    repeatedScenario .default 20 30 hsamples hbelow hsnapshots (by norm_num)
  have hdetected : (runIdentifier repeatedScenario 30 .default).any (·.detected) = true := by
    decide +kernel
  obtain ⟨d', hd', hyes⟩ := (Option.any_eq_true _ _).mp hdetected
  obtain ⟨d, hd, himplies⟩ := hdetects d' hd'
  exact ⟨hcount, hspaced, d', d, hd', hd, himplies hyes⟩

/-! ### The other model of the policy -/

omit [FloorRing K] in
/-- In exact arithmetic the policy over the regimes of the loop is the policy over their values. -/
theorem simulateInterventions_regimes {T : Dict String K}
    {dwellThresholds : ProcessRegime → Option K}
    (hT : ∀ regime, T.get? (regimeValue regime) = dwellThresholds regime) (cooldownSeconds : K)
    (samples : List (OfflinePolicy.Sample K)) :
    simulateInterventions (samples.map fun s => ⟨.datetime s.ts, regimeValue s.regime, s.dwell⟩) T
      cooldownSeconds
      = (OfflinePolicy.simulateInterventions id samples dwellThresholds cooldownSeconds).map
        fun ts => ⟨.float ts⟩ := by
  unfold simulateInterventions OfflinePolicy.simulateInterventions
  have hbad : ∀ regime,
      Criterion.isBadRegime (regimeValue regime) = OfflinePolicy.isBadRegime regime := by
    intro regime
    cases regime with
    | _ => rfl
  have hsec : ∀ ts : Nat, toSec (.datetime ts : Instant K) = OfflinePolicy.toSec id ts := by
    intro ts
    simp [toSec, OfflinePolicy.toSec]
  generalize (none : Option K) = lastFireTs
  induction samples generalizing lastFireTs with
  | nil => rfl
  | cons s rest ih =>
    rw [List.map_cons, simulateFrom, OfflinePolicy.simulateFrom]
    simp only [hbad, hT, hsec, ih]
    cases OfflinePolicy.isBadRegime s.regime with
    | false => rfl
    | true =>
      cases dwellThresholds s.regime with
      | none => rfl
      | some threshold =>
        simp only [Bool.not_true, Bool.false_eq_true, if_false, apply_ite (List.map _),
          List.map_cons, id]

end OnlinetLabs.Analytics.OperatingCurve
