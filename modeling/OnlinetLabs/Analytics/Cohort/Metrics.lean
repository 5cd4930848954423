import Mathlib.Data.Finset.Sort
import Mathlib.Data.String.Basic
import OnlinetLabs.Analytics.Cohort.Survival

/-!
# Cohort metrics

The records of the learners and what `aggregate_cohort` makes of them, by skill, pooled and by arm.
None of it depends on the order of the records.
-/

namespace OnlinetLabs.Analytics.Cohort

open Sessions (UserId)

structure LearnerOutcome (K : Type) where
  userId : UserId
  skill : String
  arm : Option String
  reachedL2 : Bool
  timeToL2Seconds : Option K
  activeSeconds : Option K
  sessionsToL2 : Option Nat
  l1Interventions : Nat
  l2Interventions : Option Nat
  l1Escalations : Nat
  l2Escalations : Option Nat
  l1RepeatedErrors : Nat
  l2RepeatedErrors : Option Nat
  observationSeconds : K
  censored : Bool
deriving Repr, DecidableEq

structure TimeToCompetence (K : Type) where
  medianCalendarSeconds : Option K
  medianActiveSeconds : Option K
  reachRate : K
  reachRateAtHorizon : K
  restrictedMeanCalendarSeconds : K
  n : Nat
  censored : Nat
deriving Repr, DecidableEq

structure AutonomyMetrics (K : Type) where
  meanL1Interventions : K
  meanL2Interventions : Option K
  meanSessionsToL2 : Option K
deriving Repr, DecidableEq

structure OrgEffectTrend (K : Type) where
  l1EscalationsMean : K
  l2EscalationsMean : Option K
  l1RepeatedErrorsMean : K
  l2RepeatedErrorsMean : Option K
  note : String
deriving Repr, DecidableEq

structure CohortCell (K : Type) where
  skill : Option String
  arm : Option String
  n : Nat
  timeToCompetence : TimeToCompetence K
  autonomy : AutonomyMetrics K
  orgEffect : OrgEffectTrend K
deriving Repr, DecidableEq

structure CohortMetrics (K : Type) where
  bySkill : List (CohortCell K)
  pooled : CohortCell K
  byArm : Option (List (CohortCell K))
  headlineArm : String
deriving Repr, DecidableEq

def survivorshipNote : String :=
  "Описательный/разведочный тренд: считается по дошедшим до L2 (= успешные), " ++
    "возможен survivorship bias + регрессия к среднему. НЕ доказательство снижения " ++
    "платформой. Каузальное снижение — Задача 4 (open vs closed)."

/-- A text that is missing or empty counts as false. -/
def truthy (text : Option String) : Option String := text.filter fun value => decide (value ≠ "")

variable {K : Type} [Field K] [LinearOrder K]

/-- What a record contributes to a curve, if anything. -/
def sample (active : Bool) (r : LearnerOutcome K) : Option (K × Bool) :=
  if r.reachedL2 then (if active then r.activeSeconds else r.timeToL2Seconds).map fun val =>
    (val, true)
  else some (r.observationSeconds, false)

def durationsEvents (records : List (LearnerOutcome K)) (active : Bool) : List K × List Bool :=
  let samples := records.filterMap (sample active)
  (samples.map (·.1), samples.map (·.2))

def timeToCompetence (records : List (LearnerOutcome K)) (horizonSeconds : K) :
    TimeToCompetence K :=
  let n := records.length
  let (calD, calE) := durationsEvents records false
  let (actD, actE) := durationsEvents records true
  let reached := records.countP (·.reachedL2)
  let reach : K := if n = 0 then 0 else reached / n
  { medianCalendarSeconds := kaplanMeierMedian calD calE (some reach)
    medianActiveSeconds := kaplanMeierMedian actD actE (some reach)
    reachRate := reach
    reachRateAtHorizon := reachRateAt calD calE horizonSeconds
    restrictedMeanCalendarSeconds := restrictedMean calD calE horizonSeconds
    n := n
    censored := records.countP fun r => !r.reachedL2 }

/-- `_mean`, of counts. -/
def mean (vals : List Nat) : Option K :=
  if vals.isEmpty then none else some ((vals.map (Nat.cast : Nat → K)).sum / vals.length)

def autonomyMetrics (records : List (LearnerOutcome K)) : AutonomyMetrics K :=
  let l2Recs := records.filter (·.reachedL2)
  { meanL1Interventions := (mean (records.map (·.l1Interventions))).getD 0
    meanL2Interventions := mean (l2Recs.filterMap (·.l2Interventions))
    meanSessionsToL2 := mean (l2Recs.filterMap (·.sessionsToL2)) }

def orgEffectTrend (records : List (LearnerOutcome K)) : OrgEffectTrend K :=
  let l2Recs := records.filter (·.reachedL2)
  { l1EscalationsMean := (mean (records.map (·.l1Escalations))).getD 0
    l2EscalationsMean := mean (l2Recs.filterMap (·.l2Escalations))
    l1RepeatedErrorsMean := (mean (records.map (·.l1RepeatedErrors))).getD 0
    l2RepeatedErrorsMean := mean (l2Recs.filterMap (·.l2RepeatedErrors))
    note := survivorshipNote }

def cell (records : List (LearnerOutcome K)) (horizon : K) (skill arm : Option String) :
    CohortCell K where
  skill := skill
  arm := arm
  n := records.length
  timeToCompetence := timeToCompetence records horizon
  autonomy := autonomyMetrics records
  orgEffect := orgEffectTrend records

/-- `sorted({...})`. -/
def distinctSorted (texts : List String) : List String := texts.toFinset.sort

def aggregateCohort (records : List (LearnerOutcome K)) (horizonSeconds : K) (byArm : Bool) :
    CohortMetrics K where
  bySkill := (distinctSorted (records.map (·.skill))).map fun skill =>
    cell (records.filter fun r => decide (r.skill = skill)) horizonSeconds (some skill) none
  pooled := cell records horizonSeconds none none
  byArm :=
    if byArm then
      some ((distinctSorted (records.filterMap fun r => truthy r.arm)).map fun arm =>
        cell (records.filter fun r => decide (r.arm = some arm)) horizonSeconds none (some arm))
    else none
  headlineArm := "closed"

/-! ### What is read of a record -/

/-- An arm only where it is named, and the active time only of who has reached L2. -/
def LearnerOutcome.read (r : LearnerOutcome K) : LearnerOutcome K :=
  { r with
    arm := truthy r.arm
    activeSeconds := if r.reachedL2 then r.activeSeconds else none }

omit [Field K] [LinearOrder K] in
theorem sample_read (active : Bool) (r : LearnerOutcome K) :
    sample active r.read = sample active r := by
  unfold sample LearnerOutcome.read
  cases hreached : r.reachedL2 with
  | _ => rfl

theorem cell_read (records : List (LearnerOutcome K)) (horizon : K) (skill arm : Option String) :
    cell (records.map LearnerOutcome.read) horizon skill arm = cell records horizon skill arm := by
  have hsample : ∀ active,
      (sample active ∘ LearnerOutcome.read : LearnerOutcome K → _) = sample active :=
    fun active => funext (sample_read active)
  have hreached : ((fun r : LearnerOutcome K => r.reachedL2) ∘ LearnerOutcome.read) = fun r =>
      r.reachedL2 := rfl
  have hcensored : ((fun r : LearnerOutcome K => !r.reachedL2) ∘ LearnerOutcome.read) = fun r =>
      !r.reachedL2 := rfl
  simp only [cell, timeToCompetence, durationsEvents, autonomyMetrics, orgEffectTrend,
    List.length_map, List.filterMap_map, List.countP_map, List.filter_map, List.map_map, hsample,
    hreached, hcensored]
  rfl

theorem truthy_truthy (text : Option String) : truthy (truthy text) = truthy text := by
  cases text with
  | none => rfl
  | some value =>
    unfold truthy
    by_cases hempty : value = "" <;> simp [hempty]

omit [Field K] [LinearOrder K] in
/-- A named arm is found with and without the others. -/
theorem filter_arm_read (records : List (LearnerOutcome K)) {arm : String} (harm : arm ≠ "") :
    (records.map LearnerOutcome.read).filter (fun r => decide (r.arm = some arm))
      = (records.filter fun r => decide (r.arm = some arm)).map LearnerOutcome.read := by
  rw [List.filter_map]
  congr 1
  apply List.filter_congr
  intro r _
  have hsame : truthy r.arm = some arm ↔ r.arm = some arm := by
    unfold truthy
    rw [Option.filter_eq_some_iff, decide_eq_true_eq]
    exact and_iff_left harm
  exact decide_eq_decide.mpr hsame

/-- **The metrics read no more of a record.** -/
theorem aggregateCohort_read (records : List (LearnerOutcome K)) (horizon : K) (byArm : Bool) :
    aggregateCohort (records.map LearnerOutcome.read) horizon byArm
      = aggregateCohort records horizon byArm := by
  have hskill : ∀ skill,
      cell ((records.map LearnerOutcome.read).filter fun r => decide (r.skill = skill)) horizon
          (some skill) none
        = cell (records.filter fun r => decide (r.skill = skill)) horizon (some skill) none := by
    intro skill
    rw [List.filter_map]
    exact cell_read _ horizon (some skill) none
  have harms : ((records.map LearnerOutcome.read).filterMap fun r => truthy r.arm)
      = records.filterMap fun r => truthy r.arm := by
    rw [List.filterMap_map]
    exact List.filterMap_congr fun r _ => truthy_truthy r.arm
  have harm : ∀ arm ∈ distinctSorted (records.filterMap fun r => truthy r.arm),
      cell ((records.map LearnerOutcome.read).filter fun r => decide (r.arm = some arm)) horizon
        none (some arm)
        = cell (records.filter fun r => decide (r.arm = some arm)) horizon none (some arm) := by
    intro arm hmem
    rw [distinctSorted, Finset.mem_sort, List.mem_toFinset] at hmem
    obtain ⟨r, -, hr⟩ := List.mem_filterMap.mp hmem
    rw [filter_arm_read records (of_decide_eq_true (Option.filter_eq_some_iff.mp hr).2), cell_read]
  unfold aggregateCohort
  rw [cell_read, harms, List.map_map, List.map_congr_left harm, List.map_congr_left fun skill _ =>
    hskill skill]
  rfl

/-! ### The order of the records -/

variable {records records' : List (LearnerOutcome K)} {vals vals' : List Nat} {horizon : K}

theorem estimators_perm {samples samples' : List (K × Bool)} (h : samples.Perm samples')
    (reachRate horizon : K) :
    kaplanMeierMedian (samples.map (·.1)) (samples.map (·.2)) (some reachRate)
        = kaplanMeierMedian (samples'.map (·.1)) (samples'.map (·.2)) (some reachRate)
      ∧ reachRateAt (samples.map (·.1)) (samples.map (·.2)) horizon
        = reachRateAt (samples'.map (·.1)) (samples'.map (·.2)) horizon
      ∧ restrictedMean (samples.map (·.1)) (samples.map (·.2)) horizon
        = restrictedMean (samples'.map (·.1)) (samples'.map (·.2)) horizon := by
  have hempty : (samples.map (·.2)).isEmpty = (samples'.map (·.2)).isEmpty := by
    rw [Bool.eq_iff_iff, List.isEmpty_iff_length_eq_zero, List.isEmpty_iff_length_eq_zero,
      List.length_map, List.length_map, h.length_eq]
  refine ⟨?_, ?_, ?_⟩
  · simp only [kaplanMeierMedian, survivalSteps_eq, curve_perm h, hempty, Option.getD_some]
  · simp only [reachRateAt, survivalSteps_eq, curve_perm h]
  · simp only [restrictedMean, survivalSteps_eq, curve_perm h]

theorem timeToCompetence_perm (h : records.Perm records') :
    timeToCompetence records horizon = timeToCompetence records' horizon := by
  have hreached := h.countP_eq (·.reachedL2)
  have hcensored := h.countP_eq fun r => !r.reachedL2
  obtain ⟨hcalendar, hrate, hrestricted⟩ :=
    estimators_perm (h.filterMap (sample false))
      (if records.length = 0 then 0 else records.countP (·.reachedL2) / records.length) horizon
  obtain ⟨hactive, -, -⟩ :=
    estimators_perm (h.filterMap (sample true))
      (if records.length = 0 then 0 else records.countP (·.reachedL2) / records.length) horizon
  simp only [timeToCompetence, durationsEvents, ← h.length_eq, ← hreached, ← hcensored, hcalendar,
    hactive, hrate, hrestricted]

omit [LinearOrder K] in
theorem mean_perm (h : vals.Perm vals') : (mean vals : Option K) = mean vals' := by
  have hsum : (vals.map (Nat.cast : Nat → K)).sum = (vals'.map (Nat.cast : Nat → K)).sum :=
    (h.map _).sum_eq
  have hempty : vals.isEmpty = vals'.isEmpty := by
    rw [Bool.eq_iff_iff, List.isEmpty_iff_length_eq_zero, List.isEmpty_iff_length_eq_zero,
      h.length_eq]
  simp only [mean, hsum, hempty, h.length_eq]

omit [LinearOrder K] in
theorem autonomyMetrics_perm (h : records.Perm records') :
    autonomyMetrics records = autonomyMetrics records' := by
  have hl2 := h.filter (·.reachedL2)
  simp only [autonomyMetrics, mean_perm (h.map (·.l1Interventions)),
    mean_perm (hl2.filterMap (·.l2Interventions)), mean_perm (hl2.filterMap (·.sessionsToL2))]

omit [LinearOrder K] in
theorem orgEffectTrend_perm (h : records.Perm records') :
    orgEffectTrend records = orgEffectTrend records' := by
  have hl2 := h.filter (·.reachedL2)
  simp only [orgEffectTrend, mean_perm (h.map (·.l1Escalations)),
    mean_perm (h.map (·.l1RepeatedErrors)), mean_perm (hl2.filterMap (·.l2Escalations)),
    mean_perm (hl2.filterMap (·.l2RepeatedErrors))]

theorem cell_perm (h : records.Perm records') (skill arm : Option String) :
    cell records horizon skill arm = cell records' horizon skill arm := by
  simp only [cell, h.length_eq, timeToCompetence_perm h, autonomyMetrics_perm h,
    orgEffectTrend_perm h]

theorem distinctSorted_perm {texts texts' : List String} (h : texts.Perm texts') :
    distinctSorted texts = distinctSorted texts' := by
  rw [distinctSorted, distinctSorted, List.toFinset_eq_of_perm _ _ h]

/-- **What a cohort shows does not depend on the order of its records.** -/
theorem aggregateCohort_perm (h : records.Perm records') (byArm : Bool) :
    aggregateCohort records horizon byArm = aggregateCohort records' horizon byArm := by
  have hskill : ∀ skill,
      cell (records.filter fun r => decide (r.skill = skill)) horizon (some skill) none
      = cell (records'.filter fun r => decide (r.skill = skill)) horizon (some skill) none :=
    fun skill => cell_perm (h.filter _) _ _
  have harm : ∀ arm,
      cell (records.filter fun r => decide (r.arm = some arm)) horizon none (some arm)
      = cell (records'.filter fun r => decide (r.arm = some arm)) horizon none (some arm) :=
    fun arm => cell_perm (h.filter _) _ _
  simp only [aggregateCohort, hskill, harm, cell_perm h, distinctSorted_perm (h.map (·.skill)),
    distinctSorted_perm (h.filterMap fun r => truthy r.arm)]

end OnlinetLabs.Analytics.Cohort
