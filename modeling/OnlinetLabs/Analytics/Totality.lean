import Mathlib.Algebra.Order.BigOperators.Group.List
import OnlinetLabs.Analytics.Identifier
import OnlinetLabs.Lib.Distinct
import OnlinetLabs.Lib.Entropy

/-!
# The analysis never fails

The extractor once more, with every division, logarithm and index of the source as one that may
raise. None does: each divisor is the length of a list that is not empty, a span of at least a
second or a window that the configuration keeps positive. It returns what the extractor returns, and
that is in the bounds that the result is validated against.
-/

namespace OnlinetLabs.Analytics

open Rounding
open Sessions (SessionId)

variable {K : Type} [Field K] [LinearOrder K] [FloorRing K]

def vector (log2 : K → K) (cfg : LearningAnalyticsConfig K) (sessionId : SessionId) (now : Nat)
    (sorted : List BehavioralEvent) (slope frequency : K) : SessionFeatures K :=
  let actionEvents := sorted.filter (·.eventType == "action")
  let errorEvents := sorted.filter (·.eventType == "error")
  let latencies : List K := interActionLatencies (studentEvents sorted) now
  { avgInterActionLatency :=
      round 2 (if latencies = [] then 0 else latencies.sum / latencies.length)
    actionRateSlope := round 4 slope
    idlePeriods := latencies.countP fun delta => decide (cfg.idleGapSeconds < delta)
    totalActiveTime :=
      round 2 (latencies.filter fun delta => decide (delta ≤ cfg.idleGapSeconds)).sum
    timeOnCurrentStep := round 2 (timeOnCurrentStep sorted now)
    errorRepeatCount := currentErrorRun sorted
    errorRepeatRate :=
      round 4 (if errorEvents = [] then 0 else (currentErrorRun sorted : K) / errorEvents.length)
    actionSequenceEntropy := round 4 (actionEntropy log2 sorted)
    undoRedoRatio := round 4 (undoRedoRatio actionEvents)
    errorFrequency := round 4 frequency
    errorFrequencySlope := round 4 (errorFrequencySlope errorEvents)
    uniqueErrorTypes := (errorEvents.filterMap fun e => truthy e.message).eraseDups.length
    dominantError := dominantError errorEvents
    componentsTouched := (sorted.filterMap fun e => truthy e.componentId).eraseDups.length
    actionDiversity := round 4 (((sorted.map (·.action)).eraseDups.length : K) / sorted.length)
    eventsTotal := sorted.length
    distinctFailingActuals := distinctFailingActuals sorted
    cyclesFailingUnchanged := cyclesFailingUnchanged sorted
    sessionId := sessionId
    computedAt := now }

def inOrder (events : List BehavioralEvent) : List BehavioralEvent :=
  events.insertionSort fun a b => a.timestamp ≤ b.timestamp

theorem compute_eq_vector (log2 : K → K) (cfg : LearningAnalyticsConfig K) (sessionId : SessionId)
    (now : Nat)
    {events : List BehavioralEvent} (h : events ≠ []) : compute log2 cfg sessionId now events = do
      let slope ← actionRateSlope cfg (inOrder events)
      let frequency ← errorFrequency cfg ((inOrder events).filter (·.eventType == "error"))
          (inOrder events)
      return vector log2 cfg sessionId now (inOrder events) slope frequency :=
  if_neg h

instance total_timestamp : Std.Total fun a b : BehavioralEvent => a.timestamp ≤ b.timestamp :=
  ⟨fun a b => Nat.le_total a.timestamp b.timestamp⟩

instance isTrans_timestamp : IsTrans BehavioralEvent fun a b => a.timestamp ≤ b.timestamp :=
  ⟨fun _ _ _ => Nat.le_trans⟩

theorem inOrder_pairwise (events : List BehavioralEvent) :
    (inOrder events).Pairwise fun e e' => e.timestamp ≤ e'.timestamp :=
      List.pairwise_insertionSort _ events

theorem inOrder_perm (events : List BehavioralEvent) : (inOrder events).Perm events :=
  List.perm_insertionSort _ _

/-! ### The extractor that may raise -/

namespace Checked

/-- `math.log2`: it raises on what is not positive. -/
def guarded (log2 : K → K) (x : K) : Option K := if 0 < x then some (log2 x) else none

/-- `sum(xs) / len(xs) if xs else 0.0`. -/
def average (xs : List K) : Option K := if xs = [] then some 0 else divide xs.sum xs.length

def bucketSlope (buckets : List Nat) : Option K := do
  let indices := List.range buckets.length
  let indexMean : K ← divide (indices.sum : K) buckets.length
  let valueMean : K ← divide (buckets.sum : K) buckets.length
  let numerator : K := ((indices.zip buckets).map fun xy =>
    ((xy.1 : K) - indexMean) * ((xy.2 : K) - valueMean)).sum
  let denominator : K := (indices.map fun x => ((x : K) - indexMean) ^ 2).sum
  if denominator = 0 then some 0 else divide numerator denominator

def actionRateSlope (cfg : LearningAnalyticsConfig K) (events : List BehavioralEvent) : Option K :=
  if events.length < 2 then some 0
  else do
    let last ← events.getLast?
    let first ← events.head?
    if (seconds last.timestamp first.timestamp : K) < cfg.rateWindowSeconds * cfg.minRateWindows
      then some 0
    else do
      let buckets ← rateBuckets first.timestamp cfg.rateWindowSeconds events []
      if (buckets.length : Int) < cfg.minRateWindows then some 0 else bucketSlope buckets

/-- `math.log2(len(counts)) if len(counts) > 1 else 1.0`. -/
def maxEntropy (log2 : K → K) (distinct : Nat) :
    Option K := if 1 < distinct then guarded log2 distinct else some 1

def actionEntropy (log2 : K → K) (events : List BehavioralEvent) : Option K :=
  let names := events.map (·.action)
  if names = [] then some 0
  else do
    let distinct := names.eraseDups
    let terms ← distinct.mapM fun name => do
      let share : K ← divide (names.count name : K) names.length
      return share * (← guarded log2 share)
    let maxEntropy ← maxEntropy log2 distinct.length
    if 0 < maxEntropy then divide (-terms.sum) maxEntropy else some 0

/-- `max_consec_errors / len(error_events) if error_events else 0.0`. -/
def errorRepeatRate (run : Nat) (errorEvents : List BehavioralEvent) : Option K :=
  if errorEvents = [] then some 0 else divide (run : K) errorEvents.length

def undoRedoRatio (actionEvents : List BehavioralEvent) : Option K :=
  if actionEvents.length < 3 then some 0
  else divide (undoRedoCycles actionEvents : K) actionEvents.length

/-- `max((half[-1].timestamp - half[0].timestamp).total_seconds(), 1.0)`. -/
def spanSeconds (half : List BehavioralEvent) : Option K := do
  let last ← half.getLast?
  let first ← half.head?
  return max (seconds last.timestamp first.timestamp) 1

def errorFrequencySlope (errorEvents : List BehavioralEvent) : Option K :=
  if errorEvents.length < 4 then some 0
  else do
    let midpoint := errorEvents.length / 2
    let firstHalf := errorEvents.take midpoint
    let secondHalf := errorEvents.drop midpoint
    let firstSpan : K ← spanSeconds firstHalf
    let secondSpan : K ← spanSeconds secondHalf
    return (← divide (secondHalf.length : K) secondSpan)
      - (← divide (firstHalf.length : K) firstSpan)

/-- `FeatureExtractor.compute`. What is not divided is as it was. -/
def compute (log2 : K → K) (cfg : LearningAnalyticsConfig K) (sessionId : SessionId) (now : Nat)
    (events : List BehavioralEvent) : Option (SessionFeatures K) :=
  if events = [] then some (emptyFeatures sessionId now)
  else do
    let sorted := events.insertionSort fun a b => a.timestamp ≤ b.timestamp
    let errorEvents := sorted.filter (·.eventType == "error")
    let latency ← average (interActionLatencies (studentEvents sorted) now)
    let slope ← actionRateSlope cfg sorted
    let repeatRate : K ← errorRepeatRate (currentErrorRun sorted) errorEvents
    let entropy ← actionEntropy log2 sorted
    let undoRatio : K ← undoRedoRatio (sorted.filter (·.eventType == "action"))
    let frequency ← errorFrequency cfg errorEvents sorted
    let frequencySlope : K ← errorFrequencySlope errorEvents
    let diversity : K ← divide ((sorted.map (·.action)).eraseDups.length : K) sorted.length
    return {
      vector log2 cfg sessionId now sorted slope frequency with
      avgInterActionLatency := round 2 latency
      errorRepeatRate := round 4 repeatRate
      actionSequenceEntropy := round 4 entropy
      undoRedoRatio := round 4 undoRatio
      errorFrequencySlope := round 4 frequencySlope
      actionDiversity := round 4 diversity }

end Checked

/-! ### What may be divided by -/

/-- The values of the configuration that are divided by, two of them windows. -/
structure PositiveConfig (cfg : LearningAnalyticsConfig K) : Prop where
  rateWindow : 0 < cfg.rateWindowSeconds
  errorFreqWindow : 0 < cfg.errorFreqWindowMinutes
  errorRepeatThreshold : 0 < cfg.errorRepeatThreshold

section Divisors

variable {cfg : LearningAnalyticsConfig K} {events : List BehavioralEvent} {x y : K}
  {buckets : List Nat} {log2 : K → K}
  {start : Nat} {window : K}

omit [FloorRing K] in
theorem divide_of_ne (hy : y ≠ 0) : divide x y = some (x / y) := if_neg hy

theorem length_cast_ne_zero {α : Type} {l : List α} (h : l ≠ []) : (l.length : K) ≠ 0 :=
  Nat.cast_ne_zero.mpr fun hlength => h (List.length_eq_zero_iff.mp hlength)

theorem average_eq (xs : List K) :
    Checked.average xs = some (if xs = [] then 0 else xs.sum / xs.length) := by
  unfold Checked.average
  split
  · rfl
  · rename_i hxs
    exact divide_of_ne (length_cast_ne_zero hxs)

theorem errorRepeatRate_eq (run : Nat) (errorEvents : List BehavioralEvent) :
    Checked.errorRepeatRate run errorEvents
    = some (if errorEvents = [] then 0 else (run : K) / errorEvents.length) := by
  unfold Checked.errorRepeatRate
  split
  · rfl
  · rename_i herrors
    exact divide_of_ne (length_cast_ne_zero herrors)

theorem bucketSlope_eq (h : buckets ≠ []) :
    Checked.bucketSlope buckets = some (bucketSlope buckets : K) := by
  have hlength : (buckets.length : K) ≠ 0 := length_cast_ne_zero h
  simp only [Checked.bucketSlope, bucketSlope, divide_of_ne hlength, Option.bind_eq_bind,
    Option.bind_some]
  split
  · rfl
  · rename_i hdenominator
    exact divide_of_ne hdenominator

/-- An index that is not negative has its bucket. -/
theorem bump_of_nonneg {index : Int} (h : 0 ≤ index) :
    ∃ buckets', bump buckets index = some buckets' ∧ buckets' ≠ [] := by
  simp only [bump, if_pos h, if_neg (not_lt.mpr h)]
  refine ⟨_, rfl, ?_⟩
  rw [ne_eq, ← List.length_eq_zero_iff, List.length_modify, List.length_append,
    List.length_replicate]
  omega

theorem truncate_nonneg (h : 0 ≤ x) : 0 ≤ truncate x := by
  rw [truncate, if_pos h]
  exact Int.floor_nonneg.mpr h

omit [FloorRing K] in
theorem spanSeconds_eq (h : events ≠ []) :
    Checked.spanSeconds events = some (spanSeconds events : K) := by
  cases events with
  | nil => exact absurd rfl h
  | cons e rest =>
    unfold Checked.spanSeconds spanSeconds
    rw [List.head?_cons, List.getLast?_cons]
    rfl

theorem spanSeconds_ne_zero : (spanSeconds events : K) ≠ 0 := by
  unfold spanSeconds
  split
  · exact ne_of_gt (lt_max_of_lt_right one_pos)
  · exact one_ne_zero

theorem errorFrequencySlope_eq (errorEvents : List BehavioralEvent) :
    Checked.errorFrequencySlope errorEvents = some (errorFrequencySlope errorEvents : K) := by
  unfold Checked.errorFrequencySlope errorFrequencySlope
  by_cases hfew : errorEvents.length < 4
  · rw [if_pos hfew, if_pos hfew]
  · have hfirst : errorEvents.take (errorEvents.length / 2) ≠ [] := by
      rw [ne_eq, ← List.length_eq_zero_iff, List.length_take]
      omega
    have hsecond : errorEvents.drop (errorEvents.length / 2) ≠ [] := by
      rw [ne_eq, ← List.length_eq_zero_iff, List.length_drop]
      omega
    rw [if_neg hfew, if_neg hfew]
    simp only [spanSeconds_eq hfirst, spanSeconds_eq hsecond, divide_of_ne spanSeconds_ne_zero,
      Option.bind_eq_bind, Option.bind_some, Option.pure_def]

theorem undoRedoRatio_eq (actionEvents : List BehavioralEvent) :
    Checked.undoRedoRatio actionEvents = some (undoRedoRatio actionEvents : K) := by
  unfold Checked.undoRedoRatio undoRedoRatio
  by_cases hfew : actionEvents.length < 3
  · rw [if_pos hfew, if_pos hfew]
  · have hsome : actionEvents ≠ [] := by
      rintro rfl
      exact hfew (by decide)
    rw [if_neg hfew, if_neg hfew, divide_of_ne (length_cast_ne_zero hsome)]

variable [IsStrictOrderedRing K]

theorem seconds_nonneg {later earlier : Nat} (h : earlier ≤ later) :
    (0 : K) ≤ seconds later earlier := by
  unfold seconds
  have hcast : (earlier : K) ≤ later := Nat.cast_le.mpr h
  exact div_nonneg (sub_nonneg.mpr hcast) (by norm_num)

theorem exists_rateBuckets (hwindow : 0 < window) (hstart : ∀ e ∈ events, start ≤ e.timestamp) :
    ∃ buckets', rateBuckets start window events buckets = some buckets'
      ∧ (events ≠ [] → buckets' ≠ []) := by
  induction events generalizing buckets with
  | nil => exact ⟨buckets, rfl, fun h => absurd rfl h⟩
  | cons e events ih =>
    obtain ⟨he, hevents⟩ := List.forall_mem_cons.mp hstart
    have hindex : 0 ≤ truncate (seconds e.timestamp start / window) :=
      truncate_nonneg (div_nonneg (seconds_nonneg he) hwindow.le)
    obtain ⟨bumped, hbump, hbumped⟩ := @bump_of_nonneg buckets _ hindex
    obtain ⟨buckets', hrest, hne⟩ := @ih bumped hevents
    refine ⟨buckets', ?_, fun _ => ?_⟩
    · rw [rateBuckets, divide_of_ne hwindow.ne']
      simp only [Option.bind_eq_bind, Option.bind_some, hbump, hrest]
    · by_cases hlast : events = []
      · subst hlast
        cases hrest
        exact hbumped
      · exact hne hlast

theorem actionRateSlope_eq (hwindow : 0 < cfg.rateWindowSeconds)
    (hsorted : events.Pairwise fun e e' => e.timestamp ≤ e'.timestamp) :
    ∃ slope, actionRateSlope cfg events = some slope
      ∧ Checked.actionRateSlope cfg events = some slope := by
  unfold actionRateSlope Checked.actionRateSlope
  match events, hsorted with
  | [], _ => exact ⟨0, rfl, rfl⟩
  | [e], _ => exact ⟨0, rfl, rfl⟩
  | e :: e' :: rest, hsorted =>
    have hmany : ¬(e :: e' :: rest).length < 2 := by simp
    have hlater : ∀ e'' ∈ e :: e' :: rest, e.timestamp ≤ e''.timestamp :=
      List.forall_mem_cons.mpr ⟨le_rfl, (List.pairwise_cons.mp hsorted).1⟩
    obtain ⟨buckets, hbuckets, hne⟩ :=
      @exists_rateBuckets _ _ _ _ _ [] e.timestamp cfg.rateWindowSeconds _ hwindow hlater
    obtain ⟨last, hlast⟩ : ∃ last, (e :: e' :: rest).getLast? = some last :=
      ⟨_, List.getLast?_eq_some_getLast (List.cons_ne_nil e (e' :: rest))⟩
    have hslope := bucketSlope_eq (hne (List.cons_ne_nil e (e' :: rest))) (K := K)
    simp only [if_neg hmany, hlast, List.head?_cons, Option.bind_eq_bind, Option.bind_some,
      hbuckets, hslope]
    split
    · exact ⟨0, rfl, rfl⟩
    · split
      · exact ⟨0, rfl, rfl⟩
      · exact ⟨_, rfl, rfl⟩

theorem errorFrequency_eq (hwindow : 0 < cfg.errorFreqWindowMinutes)
    (errorEvents allEvents : List BehavioralEvent) :
    ∃ frequency, errorFrequency cfg errorEvents allEvents = some frequency := by
  unfold errorFrequency
  split
  · refine ⟨_, divide_of_ne (ne_of_gt ?_)⟩
    exact lt_min hwindow (lt_max_of_lt_right (by norm_num))
  · exact ⟨0, rfl⟩

end Divisors

/-! ### The entropy of the actions -/

section Entropy

variable {names : List String} {name : String} {events : List BehavioralEvent}

theorem mapM_eq_some_map {α β : Type} {l : List α} {f : α → Option β} {g : α → β}
    (h : ∀ a ∈ l, f a = some (g a)) :
    l.mapM f = some (l.map g) := by
  induction l with
  | nil => rfl
  | cons a l ih =>
    obtain ⟨ha, hl⟩ := List.forall_mem_cons.mp h
    rw [List.mapM_cons, ha, ih hl]
    rfl

def shares (K : Type) [Field K] (names : List String) : List K :=
  names.eraseDups.map fun name => (names.count name : K) / names.length

variable [IsStrictOrderedRing K]

omit [FloorRing K] in
theorem share_pos (hname : name ∈ names.eraseDups) :
    (0 : K) < (names.count name : K) / names.length := by
  have hmem : name ∈ names := List.mem_eraseDups.mp hname
  have hcount : 0 < names.count name := List.count_pos_iff.mpr hmem
  have hlength : 0 < names.length := List.length_pos_of_mem hmem
  exact div_pos (Nat.cast_pos.mpr hcount) (Nat.cast_pos.mpr hlength)

omit [FloorRing K] in
theorem share_le_one (name : String) (names : List String) :
    (names.count name : K) / names.length ≤ 1 := by
  apply div_le_one_of_le₀
  · exact Nat.cast_le.mpr List.count_le_length
  · exact Nat.cast_nonneg _

omit [FloorRing K] in
theorem sum_shares (h : names ≠ []) : (shares K names).sum = 1 := by
  have hlength : (names.length : K) ≠ 0 := Nat.cast_ne_zero.mpr fun hlength =>
      h (List.length_eq_zero_iff.mp hlength)
  have hcounts : ((names.eraseDups.map fun name => names.count name).sum : K) = names.length := by
    rw [Distinct.sum_count_eraseDups]
  rw [Nat.cast_list_sum, List.map_map] at hcounts
  have hshares : shares K names
      = names.eraseDups.map fun name =>
          ((Nat.cast : Nat → K) ∘ fun name => names.count name) name * (names.length : K)⁻¹ :=
    List.map_congr_left fun name _ => div_eq_mul_inv _ _
  rw [hshares, List.sum_map_mul_right, hcounts, mul_inv_cancel₀ hlength]

omit [FloorRing K] in
theorem actionEntropy_eq (log2 : K → K) (events : List BehavioralEvent) :
    Checked.actionEntropy log2 events = some (actionEntropy log2 events) := by
  unfold Checked.actionEntropy actionEntropy
  by_cases hnames : events.map (·.action) = []
  · simp only [if_pos hnames]
  · simp only [if_neg hnames]
    generalize events.map (·.action) = names at hnames
    have hlength : (names.length : K) ≠ 0 :=
      Nat.cast_ne_zero.mpr fun hlength => hnames (List.length_eq_zero_iff.mp hlength)
    have hterms : (names.eraseDups.mapM fun name => do
        let share : K ← divide (names.count name : K) names.length
        return share * (← Checked.guarded log2 share))
        = some (names.eraseDups.map fun name => ((names.count name : K) / names.length)
          * log2 ((names.count name : K) / names.length)) := by
      apply mapM_eq_some_map
      intro name hname
      have hshare : (0 : K) < (names.count name : K) / names.length := share_pos hname
      simp only [divide_of_ne hlength, Checked.guarded, if_pos hshare, Option.bind_eq_bind,
        Option.bind_some, Option.pure_def]
    have hmax : Checked.maxEntropy log2 names.eraseDups.length
        = some (if 1 < names.eraseDups.length then log2 names.eraseDups.length else 1) := by
      unfold Checked.maxEntropy
      split
      · rename_i hmany
        have hpos : (0 : K) < names.eraseDups.length := Nat.cast_pos.mpr (Nat.zero_lt_of_lt hmany)
        exact if_pos hpos
      · rfl
    rw [hterms]
    simp only [hmax, Option.bind_eq_bind, Option.bind_some]
    generalize (if 1 < names.eraseDups.length then log2 (names.eraseDups.length : K) else 1)
      = maxEntropy
    by_cases hpos : 0 < maxEntropy
    · rw [if_pos hpos, if_pos hpos, divide_of_ne hpos.ne']
    · rw [if_neg hpos, if_neg hpos]

/-- **The entropy is normalized.** -/
theorem actionEntropy_mem (events : List BehavioralEvent) :
    0 ≤ actionEntropy (Real.logb 2) events ∧ actionEntropy (Real.logb 2) events ≤ 1 := by
  unfold actionEntropy
  by_cases hnames : events.map (·.action) = []
  · simp only [if_pos hnames]
    exact ⟨le_rfl, zero_le_one⟩
  · simp only [if_neg hnames]
    generalize events.map (·.action) = names at hnames
    have hentropy : -(names.eraseDups.map fun name => ((names.count name : ℝ) / names.length)
        * Real.logb 2 ((names.count name : ℝ) / names.length)).sum
          = Entropy.entropy 2 (shares ℝ names) := by
      rw [Entropy.entropy, shares, List.map_map]
      rfl
    have hshares : ∀ share ∈ shares ℝ names, 0 < share ∧ share ≤ 1 := by
      intro share hshare
      obtain ⟨name, hname, rfl⟩ := List.mem_map.mp hshare
      exact ⟨share_pos hname, share_le_one name names⟩
    have hlow : 0 ≤ Entropy.entropy 2 (shares ℝ names) := Entropy.entropy_nonneg one_lt_two hshares
    have hhigh := Entropy.entropy_le one_lt_two (fun share hshare => (hshares share hshare).1)
        (sum_shares hnames)
    rw [hentropy]
    have hcount : (shares ℝ names).length = names.eraseDups.length := List.length_map _
    rw [hcount] at hhigh
    by_cases hmany : 1 < names.eraseDups.length
    · have hlog : 0 < Real.logb 2 (names.eraseDups.length : ℝ) :=
        Real.logb_pos one_lt_two (Nat.one_lt_cast.mpr hmany)
      rw [if_pos hmany, if_pos hlog]
      exact ⟨div_nonneg hlow hlog.le, (div_le_one hlog).mpr hhigh⟩
    · have hone : names.eraseDups.length = 1 := by
        have hpos : 0 < names.eraseDups.length := by
          rw [← hcount, List.length_pos_iff]
          intro hnil
          have hsum := sum_shares (K := ℝ) hnames
          rw [hnil] at hsum
          exact zero_ne_one hsum
        omega
      rw [hone, Nat.cast_one, Real.logb_one] at hhigh
      rw [if_neg hmany, if_pos one_pos, div_one]
      exact ⟨hlow, hhigh.trans zero_le_one⟩

end Entropy

/-! ### The bounds -/

section Bounds

variable [IsStrictOrderedRing K] {x : K} {n digits : Nat} {events : List BehavioralEvent}

/-- Rounding keeps the unit interval. -/
theorem round_mem (hlow : 0 ≤ x) (hhigh : x ≤ 1) : 0 ≤ round digits x ∧ round digits x ≤ 1 := by
  have hscale : (0 : K) < 10 ^ digits := by positivity
  have h0 : 0 ≤ roundHalfEven (x * 10 ^ digits) := by
    apply le_roundHalfEven
    rw [Int.cast_zero]
    exact mul_nonneg hlow hscale.le
  have h1 : roundHalfEven (x * 10 ^ digits) ≤ 10 ^ digits := by
    apply roundHalfEven_le
    push_cast
    exact mul_le_of_le_one_left hscale.le hhigh
  have hcast0 : (0 : K) ≤ (roundHalfEven (x * 10 ^ digits) : K) := Int.cast_nonneg h0
  have hcast1 : (roundHalfEven (x * 10 ^ digits) : K) ≤ 10 ^ digits := by
    have hcast := Int.cast_le (R := K).mpr h1
    push_cast at hcast
    exact hcast
  exact ⟨div_nonneg hcast0 hscale.le, (div_le_one hscale).mpr hcast1⟩

theorem errorRun_le (events : List BehavioralEvent) (run : Nat) (lastMessage : Option String) :
    errorRun events run lastMessage ≤ run + events.countP (·.eventType == "error") := by
  induction events generalizing run lastMessage with
  | nil => exact Nat.le_add_right run _
  | cons e events ih =>
    rw [List.countP_cons, errorRun.eq_def]
    dsimp only
    split
    · exact Nat.le_add_right run _
    · split
      · exact (ih run lastMessage).trans (Nat.add_le_add_left (Nat.le_add_right _ _) run)
      · rename_i herror
        have hcounted : (e.eventType == "error") = true := by simpa using herror
        rw [if_pos hcounted]
        cases lastMessage with
        | none =>
          have hrest := ih 1 e.message
          dsimp only
          omega
        | some message =>
          have hrest := ih (run + 1) (some message)
          dsimp only
          split
          · omega
          · omega

/-- The run is made of errors. -/
theorem currentErrorRun_le (events : List BehavioralEvent) :
    currentErrorRun events ≤ (events.filter (·.eventType == "error")).length := by
  have hrun := errorRun_le events.reverse 0 none
  rw [Nat.zero_add, List.countP_reverse, List.countP_eq_length_filter] at hrun
  unfold currentErrorRun
  dsimp only
  split
  · exact hrun
  · exact Nat.zero_le _

theorem errorRepeatRate_mem (events : List BehavioralEvent) :
    let errorEvents := events.filter (·.eventType == "error")
    let rate : K := if errorEvents = [] then 0
        else (currentErrorRun events : K) / errorEvents.length
    0 ≤ rate ∧ rate ≤ 1 := by
  dsimp only
  split
  · exact ⟨le_rfl, zero_le_one⟩
  · refine ⟨div_nonneg (Nat.cast_nonneg _) (Nat.cast_nonneg _),
      div_le_one_of_le₀ ?_ (Nat.cast_nonneg _)⟩
    exact Nat.cast_le.mpr (currentErrorRun_le events)

end Bounds

/-! ### The law -/

section Law

variable [IsStrictOrderedRing K] {cfg : LearningAnalyticsConfig K} {features : SessionFeatures K}

/-- Nothing raises, and the extractor that may raise is the extractor. -/
theorem exists_compute (hcfg : PositiveConfig cfg) (log2 : K → K) (sessionId : SessionId)
    (now : Nat)
    {events : List BehavioralEvent} (h : events ≠ []) :
    ∃ slope frequency, compute log2 cfg sessionId now events
        = some (vector log2 cfg sessionId now (inOrder events) slope frequency)
      ∧ Checked.compute log2 cfg sessionId now events
        = some (vector log2 cfg sessionId now (inOrder events) slope frequency) := by
  obtain ⟨slope, hslope, hslope'⟩ := actionRateSlope_eq hcfg.rateWindow (inOrder_pairwise events)
  obtain ⟨frequency, hfrequency⟩ := errorFrequency_eq hcfg.errorFreqWindow
    ((inOrder events).filter (·.eventType == "error")) (inOrder events)
  have hsorted : inOrder events ≠ [] := fun hnil => h (hnil ▸ inOrder_perm events).nil_eq.symm
  refine ⟨slope, frequency, ?_, ?_⟩
  · rw [compute_eq_vector log2 cfg sessionId now h, hslope, hfrequency]
    rfl
  · have hlength : ((inOrder events).length : K) ≠ 0 := length_cast_ne_zero hsorted
    have hinOrder : events.insertionSort (fun a b => a.timestamp ≤ b.timestamp) = inOrder events :=
      rfl
    simp only [Checked.compute, if_neg h, hinOrder, average_eq, hslope', errorRepeatRate_eq,
      actionEntropy_eq, undoRedoRatio_eq, hfrequency, errorFrequencySlope_eq, divide_of_ne hlength,
      Option.bind_eq_bind, Option.bind_some,
      Option.pure_def]
    rfl

/-- The confidence of a rule that applies. -/
theorem confidence_mem (hthreshold : 0 < cfg.errorRepeatThreshold)
    (hentropy : 0 ≤ features.actionSequenceEntropy)
    {rule : StruggleRule K} (hrule : rule ∈ struggleRules) :
    ∃ confidence, rule.confidence features cfg = some confidence ∧ 0 ≤ confidence
      ∧ confidence ≤ 1 := by
  have hmin : ∀ {x : K}, 0 ≤ x → 0 ≤ min x 1 ∧ min x 1 ≤ 1 := fun hx =>
      ⟨le_min hx zero_le_one, min_le_right _ _⟩
  have hseven : (0 : K) ≤ 7 / 10 ∧ (7 / 10 : K) ≤ 1 := by constructor <;> norm_num
  have hthree : (0 : K) ≤ 3 / 5 ∧ (3 / 5 : K) ≤ 1 := by constructor <;> norm_num
  simp only [struggleRules, List.mem_cons, List.not_mem_nil, or_false] at hrule
  rcases hrule with rfl | rfl | rfl | rfl | rfl | rfl
  · have hpos : (0 : K) < (cfg.errorRepeatThreshold : K) + 2 := by
      have hcast : (0 : K) < (cfg.errorRepeatThreshold : K) := Int.cast_pos.mpr hthreshold
      positivity
    have hratio : 0 ≤ (features.errorRepeatCount : K) / ((cfg.errorRepeatThreshold : K) + 2) :=
      div_nonneg (Nat.cast_nonneg _) hpos.le
    refine ⟨_, ?_, hmin hratio⟩
    dsimp only
    rw [divide_of_ne hpos.ne', Option.map_some]
  · exact ⟨_, rfl, hmin (div_nonneg (Nat.cast_nonneg _) (by norm_num))⟩
  · exact ⟨_, rfl, hseven⟩
  · exact ⟨_, rfl, hmin hentropy⟩
  · exact ⟨_, rfl, hseven⟩
  · exact ⟨_, rfl, hthree⟩

/-- With a rate and an entropy in their bounds, the result is valid. -/
theorem exists_identifyRegime (hthreshold : 0 < cfg.errorRepeatThreshold)
    (hrate : 0 ≤ features.errorRepeatRate ∧ features.errorRepeatRate ≤ 1)
    (hentropy : 0 ≤ features.actionSequenceEntropy) :
    ∃ analysis, identifyRegime features cfg = some analysis
      ∧ analysis.metrics.successRate = 1 - features.errorRepeatRate
      ∧ 0 ≤ analysis.confidence ∧ analysis.confidence ≤ 1 := by
  have hsuccess : inUnitInterval (1 - features.errorRepeatRate) = true := by
    rw [inUnitInterval, Bool.and_eq_true, decide_eq_true_eq, decide_eq_true_eq]
    exact ⟨sub_nonneg.mpr hrate.2, sub_le_self 1 hrate.1⟩
  have hdetect : ∃ struggleType intervention confidence,
      detectStruggle features cfg = some (struggleType, intervention, confidence)
        ∧ 0 ≤ confidence ∧ confidence ≤ 1 := by
    unfold detectStruggle
    cases hfound : struggleRules.find? (·.applies features cfg) with
    | none => exact ⟨none, .none, 0, rfl, le_rfl, zero_le_one⟩
    | some rule =>
      obtain ⟨confidence, hconfidence, hmem⟩ :=
        confidence_mem hthreshold hentropy (List.mem_of_find?_eq_some hfound)
      refine ⟨some rule.struggleType, rule.intervention, confidence, ?_, hmem⟩
      dsimp only
      rw [hconfidence, Option.map_some]
  obtain ⟨struggleType, intervention, confidence, hstruggle, hlow, hhigh⟩ := hdetect
  have hunit : inUnitInterval confidence = true := by
    rw [inUnitInterval, Bool.and_eq_true, decide_eq_true_eq, decide_eq_true_eq]
    exact ⟨hlow, hhigh⟩
  unfold identifyRegime
  simp only [hsuccess, if_true, hstruggle, hunit]
  exact ⟨_, rfl, rfl, hlow, hhigh⟩

end Law

/-- What an analysis returns, and the bounds it is validated against. -/
structure Analyses (cfg : LearningAnalyticsConfig ℝ) (sessionId : SessionId) (now : Nat)
    (events : List BehavioralEvent)
    (features : SessionFeatures ℝ) (analysis : AnalyticsResult ℝ) : Prop where
  checked : Checked.compute (Real.logb 2) cfg sessionId now events = some features
  computed : compute (Real.logb 2) cfg sessionId now events = some features
  identified : identifyRegime features cfg = some analysis
  errorRepeatRate : 0 ≤ features.errorRepeatRate ∧ features.errorRepeatRate ≤ 1
  entropy : 0 ≤ features.actionSequenceEntropy ∧ features.actionSequenceEntropy ≤ 1
  successRate : 0 ≤ analysis.metrics.successRate ∧ analysis.metrics.successRate ≤ 1
  confidence : 0 ≤ analysis.confidence ∧ analysis.confidence ≤ 1

/-- **The analysis of any history returns.** -/
theorem exists_analyses (cfg : LearningAnalyticsConfig ℝ) (hcfg : PositiveConfig cfg)
    (sessionId : SessionId)
    (now : Nat) (events : List BehavioralEvent) :
    ∃ features analysis, Analyses cfg sessionId now events features analysis := by
  have hfeatures : ∃ features, compute (Real.logb 2) cfg sessionId now events = some features
      ∧ Checked.compute (Real.logb 2) cfg sessionId now events = some features
      ∧ (0 ≤ features.errorRepeatRate ∧ features.errorRepeatRate ≤ 1)
      ∧ 0 ≤ features.actionSequenceEntropy ∧ features.actionSequenceEntropy ≤ 1 := by
    by_cases h : events = []
    · exact ⟨emptyFeatures sessionId now, if_pos h, if_pos h, ⟨le_rfl, zero_le_one⟩, le_rfl,
        zero_le_one⟩
    · obtain ⟨slope, frequency, hcompute, hchecked⟩ :=
        exists_compute hcfg (Real.logb 2) sessionId now h
      have hrate := errorRepeatRate_mem (K := ℝ) (inOrder events)
      have hentropy := actionEntropy_mem (inOrder events)
      exact ⟨_, hcompute, hchecked, round_mem hrate.1 hrate.2, round_mem hentropy.1 hentropy.2⟩
  obtain ⟨features, hcompute, hchecked, hrate, hentropy⟩ := hfeatures
  obtain ⟨analysis, hidentify, hsuccess, hconfidence⟩ :=
    exists_identifyRegime hcfg.errorRepeatThreshold hrate hentropy.1
  refine ⟨features, analysis, hchecked, hcompute, hidentify, hrate, hentropy, ?_, hconfidence⟩
  rw [hsuccess]
  exact ⟨sub_nonneg.mpr hrate.2, sub_le_self 1 hrate.1⟩

/-- Two rows out of order, one without a message and one later than the analysis. -/
def oddHistory : List BehavioralEvent :=
  let row : BehavioralEvent :=
    { sessionId := 0, userId := "ada", labSlug := "vlan", timestamp := 0, eventType := "error",
      componentId := none, action := "check_failing", success := false, severity := none,
      message := none, extraData := none }
  [{ row with timestamp := 90000000 },
    { row with eventType := "action", action := "start_node", componentId := some "R1" }]

theorem positiveConfig_default :
    PositiveConfig (LearningAnalyticsConfig.default : LearningAnalyticsConfig ℝ) := by
  refine ⟨?_, ?_, ?_⟩
  · exact (by norm_num : (0 : ℝ) < 120)
  · exact (by norm_num : (0 : ℝ) < 5)
  · exact (by decide : (0 : Int) < 3)

theorem exists_analyses_oddHistory :
    ∃ features analysis,
      Analyses LearningAnalyticsConfig.default 0 60000000 oddHistory features analysis :=
  exists_analyses LearningAnalyticsConfig.default positiveConfig_default 0 60000000 oddHistory

end OnlinetLabs.Analytics
