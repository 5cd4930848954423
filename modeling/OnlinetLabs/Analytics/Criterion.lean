import OnlinetLabs.Analytics.Events
import OnlinetLabs.Lib.Bisect
import OnlinetLabs.Lib.Charging
import OnlinetLabs.Lib.StepFunction

/-!
# The control criterion

`criterion.py` charges a policy for the time a recorded session spends in a bad regime, for each
intervention and for each false one. Between two polls the state is the one of the earlier, so a log
is a step function, and the time in a bad regime the measure of where it is bad.
-/

namespace OnlinetLabs.Analytics.Criterion

open StepFunction (valueAt)
open scoped OnlinetLabs.Analytics

variable {K : Type} [Field K] [LinearOrder K]

/-- A `ts`: a number of seconds, or a datetime, in microseconds of the Unix epoch. -/
inductive Instant (K : Type) where
  | float (x : K)
  | datetime (microseconds : Int)
deriving DecidableEq

def toSec : Instant K → K
  | .float x => x
  | .datetime microseconds => (microseconds : K) / 1000000

structure Sample (K : Type) where
  ts : Instant K
  regime : String
  dwell : K
deriving DecidableEq

structure Intervention (K : Type) where
  ts : Instant K
deriving DecidableEq

structure Costs (K : Type) where
  cStuck : K
  cIntervention : K
  cFalse : K

structure JResult (K : Type) where
  J : K
  badDuration : K
  nInterventions : Nat
  nFalse : Nat

def badRegimes : List String := ["stuck_on_step", "repeating_errors", "idle", "trial_and_error"]

def isBadRegime (regime : String) : Bool := decide (regime ∈ badRegimes)

/-! ### False interventions -/

/-- Whether the sample before an instant is there, and productive. -/
def firedOutside (samples : List (Sample K)) (ivt : K) : Bool :=
  match Bisect.bisectRight (samples.map fun s => toSec s.ts) ivt with
  | 0 => false
  | idx + 1 => samples[idx]?.any fun s => !isBadRegime s.regime

def interventionsOutsideBadRegime (samples : List (Sample K)) (interventionTs : List K) : Nat :=
  if samples.isEmpty then 0 else interventionTs.countP (firedOutside samples)

/-- An interval in the bad regime, from its first sample to its exit. -/
structure Spell (K : Type) where
  start : K
  stop : K
  recovered : Bool
  hadIv : Bool

def Spell.duration (sp : Spell K) : K := sp.stop - sp.start

/-- `spell_start <= ivt < spell_end`. -/
def inside (start stop ivt : K) : Bool := decide (start ≤ ivt) && decide (ivt < stop)

/-- The inner loop: from a sample and those after it, to the first that is not bad, or else the
last. -/
def leaveBad : Sample K → List (Sample K) → Sample K × List (Sample K)
  | s, [] => (s, [])
  | s, next :: rest => if isBadRegime s.regime then leaveBad next rest else (s, next :: rest)

omit [Field K] [LinearOrder K] in
theorem length_leaveBad (s : Sample K) (rest : List (Sample K)) :
    (leaveBad s rest).2.length ≤ rest.length := by
  induction rest generalizing s with
  | nil => exact le_rfl
  | cons next rest ih =>
    rw [leaveBad]
    split
    · exact (ih next).trans (Nat.le_succ _)
    · exact le_rfl

/-- The outer loop, from a sample and those after it. -/
def spellsFrom (interventionTs : List K) (s : Sample K) : List (Sample K) → List (Spell K)
  | [] => []
  | next :: rest =>
      if isBadRegime s.regime then
        let exit := leaveBad next rest
        { start := toSec s.ts
          stop := toSec exit.1.ts
          recovered := !isBadRegime exit.1.regime
          hadIv := interventionTs.any (inside (toSec s.ts) (toSec exit.1.ts)) } ::
          spellsFrom interventionTs exit.1 exit.2
      else spellsFrom interventionTs next rest
termination_by rest => rest.length
decreasing_by
  · exact Nat.lt_succ_of_le (length_leaveBad next rest)
  · exact Nat.lt_succ_self _

def spells (samples : List (Sample K)) (interventionTs : List K) : List (Spell K) :=
  match samples with
  | [] => []
  | s :: rest => spellsFrom interventionTs s rest

def sorted (xs : List K) : List K := xs.mergeSort fun x y => decide (x ≤ y)

/-- `statistics.median`, which raises on no data. -/
def median (xs : List K) : Option K :=
  let data := sorted xs
  let n := data.length
  if n % 2 = 1 then data[n / 2]?
  else
    match data[n / 2 - 1]?, data[n / 2]? with
    | some x, some y => some ((x + y) / 2)
    | _, _ => none

/-- The durations of the exits no intervention had a part in. -/
def cleanDurations (spells : List (Spell K)) : List K :=
  (spells.filter fun sp => !sp.hadIv && sp.recovered).map Spell.duration

/-- The spells an intervention was in, of a faster exit than the clean ones. -/
def hastened (spells : List (Spell K)) (medianClean : K) : List (Spell K) :=
  spells.filter fun sp => sp.hadIv && sp.recovered && decide (sp.duration < medianClean)

/-- The spells an intervention of which is false, none without a clean exit to compare with. -/
def chargedSpells (samples : List (Sample K)) (interventionTs : List K) : List (Spell K) :=
  let spells := spells samples interventionTs
  match median (cleanDurations spells) with
  | none => []
  | some medianClean => hastened spells medianClean

def countFalse (samples : List (Sample K)) (interventions : List (Intervention K)) : Nat :=
  if interventions.isEmpty then 0
  else
    let interventionTs := sorted (interventions.map fun iv => toSec iv.ts)
    interventionsOutsideBadRegime samples interventionTs
      + (chargedSpells samples interventionTs).length

/-! ### The criterion -/

def badDuration : List (Sample K) → K
  | s :: next :: rest =>
      (if isBadRegime s.regime then toSec next.ts - toSec s.ts else 0) + badDuration (next :: rest)
  | _ => 0

def computeJ (samples : List (Sample K)) (interventions : List (Intervention K)) (costs : Costs K)
    (badDurationSamples : Option (List (Sample K))) : JResult K :=
  let durSamples := badDurationSamples.getD samples
  let badDuration := badDuration durSamples
  let nInterventions := interventions.length
  let nFalse := countFalse samples interventions
  { J := costs.cStuck * badDuration + costs.cIntervention * nInterventions + costs.cFalse * nFalse
    badDuration := badDuration
    nInterventions := nInterventions
    nFalse := nFalse }

/-! ### Between two polls -/

def Ascending (samples : List (Sample K)) :
    Prop := samples.Pairwise fun s later => toSec s.ts ≤ toSec later.ts

def clock (s : Sample K) : K := toSec s.ts

/-- The last sample at or before an instant, the instants of the samples read by `instant`. -/
def leftEdge {L : Type} [LinearOrder L] (instant : Sample K → L)
    (samples : List (Sample K)) (t : L) :
    Option (Sample K) := valueAt none (samples.map fun s => (instant s, some s)) t

def Sample.isBad (s : Sample K) : Bool := isBadRegime s.regime

variable {samples rest : List (Sample K)} {s : Sample K} {t : K} {interventionTs : List K}
  {sp : Spell K}

omit [Field K] [LinearOrder K] in
theorem leftEdge_append {L : Type} [LinearOrder L] {instant : Sample K → L}
    {before : List (Sample K)} {t : L}
    {v : Option (Sample K)} (h : ∀ s ∈ before, instant s ≤ t) :
    valueAt v ((before ++ rest).map fun s => (instant s, some s)) t
      = valueAt ((before.getLast?.map some).getD v) (rest.map fun s => (instant s, some s)) t := by
  rw [List.map_append, StepFunction.valueAt_append]
  · rw [List.getLast?_map]
    cases before.getLast? with
    | _ => rfl
  · intro step hstep
    obtain ⟨s, hs, rfl⟩ := List.mem_map.mp hstep
    exact h s hs

/-- The binary search finds the left edge. -/
theorem firedOutside_eq (hsamples : Ascending samples) :
    firedOutside samples t = (leftEdge clock samples t).any fun s => !s.isBad := by
  have hsorted : (samples.map clock).Pairwise (· ≤ ·) := List.pairwise_map.mpr hsamples
  obtain ⟨hle, hsplits⟩ := Bisect.splits_bisectRight (x := t) hsorted
  rw [List.length_map] at hle
  unfold firedOutside leftEdge
  rw [show (samples.map fun s => toSec s.ts) = samples.map clock from rfl]
  generalize Bisect.bisectRight (samples.map clock) t = i at hle hsplits ⊢
  have hget : ∀ (j : Nat) (hj : j < samples.length),
      (samples.map clock)[j]? = some (clock samples[j]) := by
    intro j hj
    rw [List.getElem?_map, List.getElem?_eq_getElem hj]
    rfl
  have hbefore : ∀ s ∈ samples.take i, clock s ≤ t := by
    intro s hs
    obtain ⟨j, hj, rfl⟩ := List.mem_take_iff_getElem.mp hs
    exact (hsplits j _ (hget j (by omega))).1 (by omega)
  have hafter : ∀ step ∈ (samples.drop i).map fun s => (clock s, some s), t < step.1 := by
    intro step hstep
    obtain ⟨s, hs, rfl⟩ := List.mem_map.mp hstep
    obtain ⟨j, hj, rfl⟩ := List.mem_drop_iff_getElem.mp hs
    exact (hsplits (i + j) _ (hget (i + j) (by omega))).2 (by omega)
  have hedge :
      valueAt none (samples.map fun s => (clock s, some s)) t = (samples.take i).getLast? := by
    conv_lhs => rw [← List.take_append_drop i samples]
    rw [leftEdge_append hbefore, StepFunction.valueAt_of_lt hafter]
    cases (samples.take i).getLast? with
    | _ => rfl
  rw [hedge]
  cases i with
  | zero => rfl
  | succ idx =>
    rw [List.getLast?_take, if_neg (by omega), Nat.add_sub_cancel]
    have hlt : idx < samples.length := by omega
    simp [hlt, Sample.isBad]

/-! ### Spells -/

omit [Field K] [LinearOrder K] in
/-- The inner loop passes bad samples only. -/
theorem exists_run_leaveBad (s : Sample K) (rest : List (Sample K)) :
    ∃ run, (∀ r ∈ run, r.isBad = true)
      ∧ s :: rest = run ++ (leaveBad s rest).1 :: (leaveBad s rest).2 := by
  induction rest generalizing s with
  | nil => exact ⟨[], by simp, rfl⟩
  | cons next rest ih =>
    rw [leaveBad]
    split
    · rename_i hbad
      obtain ⟨run, hrun, heq⟩ := ih next
      exact ⟨s :: run, List.forall_mem_cons.mpr ⟨hbad, hrun⟩, congrArg (s :: ·) heq⟩
    · exact ⟨[], by simp, rfl⟩

/-- An interval of a log during which the last sample that has begun is bad, whatever was before the
log. -/
def BadDuring (samples : List (Sample K)) (sp : Spell K) : Prop :=
  ∀ t, inside sp.start sp.stop t = true → ∀ v,
    (valueAt v (samples.map fun s => (clock s, some s)) t).any Sample.isBad = true

theorem badDuring_append {before : List (Sample K)} (hbad : BadDuring rest sp)
    (hbefore : ∀ s ∈ before, clock s ≤ sp.start) : BadDuring (before ++ rest) sp := by
  intro t ht v
  have hstart : sp.start ≤ t := by
    simp only [inside, Bool.and_eq_true, decide_eq_true_eq] at ht
    exact ht.1
  rw [leftEdge_append fun s hs => (hbefore s hs).trans hstart]
  exact hbad t ht _

/-- From a bad sample over bad samples to the next. -/
theorem badDuring_run {run after : List (Sample K)} {exit : Sample K} (hs : s.isBad = true)
    (hrun : ∀ r ∈ run, r.isBad = true) (hafter : ∀ r ∈ exit :: after, clock exit ≤ clock r)
    (hstart : sp.start = clock s) (hstop : sp.stop = clock exit) :
    BadDuring (s :: run ++ exit :: after) sp := by
  intro t ht v
  simp only [inside, Bool.and_eq_true, decide_eq_true_eq] at ht
  obtain ⟨hbegun, hopen⟩ := ht
  have hlater : ∀ step ∈ (exit :: after).map fun s => (clock s, some s), t < step.1 := by
    intro step hstep
    obtain ⟨r, hr, rfl⟩ := List.mem_map.mp hstep
    exact (hstop ▸ hopen).trans_le (hafter r hr)
  rw [List.map_append, StepFunction.valueAt_append_of_lt hlater, List.map_cons, valueAt,
    if_pos (hstart ▸ hbegun)]
  have hsome : (some s).any Sample.isBad = true := hs
  apply StepFunction.valueAt_of_forall (P := fun v : Option (Sample K) =>
    v.any Sample.isBad = true) hsome
  intro step hstep
  obtain ⟨r, hr, rfl⟩ := List.mem_map.mp hstep
  exact hrun r hr

theorem spellsFrom_spec (hsamples : Ascending (s :: rest)) :
    (∀ sp ∈ spellsFrom interventionTs s rest, clock s ≤ sp.start ∧ BadDuring (s :: rest) sp
      ∧ sp.hadIv = interventionTs.any (inside sp.start sp.stop))
    ∧ (spellsFrom interventionTs s rest).Pairwise fun sp later => sp.stop ≤ later.start := by
  induction s, rest using spellsFrom.induct with
  | case1 s => simp [spellsFrom]
  | case2 s next rest hbad exit ih =>
    obtain ⟨run, hrun, heq⟩ := exists_run_leaveBad next rest
    change next :: rest = run ++ exit.1 :: exit.2 at heq
    have hlist : s :: next :: rest = s :: run ++ exit.1 :: exit.2 := congrArg (s :: ·) heq
    rw [hlist] at hsamples
    obtain ⟨-, hsuffix, hacross⟩ := List.pairwise_append.mp hsamples
    obtain ⟨hlater, hapart⟩ := ih hsuffix
    have hafter : ∀ r ∈ exit.1 :: exit.2, clock exit.1 ≤ clock r :=
      List.forall_mem_cons.mpr ⟨le_rfl, (List.pairwise_cons.mp hsuffix).1⟩
    have hbefore : ∀ r ∈ s :: run, clock r ≤ clock exit.1 := fun r hr =>
        hacross r hr _ List.mem_cons_self
    rw [spellsFrom, if_pos hbad, hlist]
    constructor
    · intro sp hsp
      rcases List.mem_cons.mp hsp with rfl | hsp
      · exact ⟨le_rfl, badDuring_run hbad hrun hafter rfl rfl, rfl⟩
      · obtain ⟨hstart, hduring, hhad⟩ := hlater sp hsp
        have hpassed : ∀ r ∈ s :: run, clock r ≤ sp.start := fun r hr => (hbefore r hr).trans hstart
        exact ⟨hpassed s List.mem_cons_self, badDuring_append hduring hpassed, hhad⟩
    · exact List.pairwise_cons.mpr ⟨fun sp hsp => (hlater sp hsp).1, hapart⟩
  | case3 s next rest hbad ih =>
    obtain ⟨hfirst, hrest⟩ := List.pairwise_cons.mp hsamples
    obtain ⟨hlater, hapart⟩ := ih hrest
    rw [spellsFrom, if_neg hbad]
    refine ⟨fun sp hsp => ?_, hapart⟩
    obtain ⟨hstart, hduring, hhad⟩ := hlater sp hsp
    have hpassed : clock s ≤ sp.start := (hfirst next List.mem_cons_self).trans hstart
    have halone : ∀ r ∈ [s], clock r ≤ sp.start := by simpa using hpassed
    exact ⟨hpassed, badDuring_append hduring halone, hhad⟩

theorem spells_spec (hsamples : Ascending samples) :
    (∀ sp ∈ spells samples interventionTs, BadDuring samples sp
      ∧ sp.hadIv = interventionTs.any (inside sp.start sp.stop))
    ∧ (spells samples interventionTs).Pairwise fun sp later => sp.stop ≤ later.start := by
  cases samples with
  | nil => simp [spells]
  | cons s rest =>
    exact ⟨fun sp hsp => ((spellsFrom_spec hsamples).1 sp hsp).2, (spellsFrom_spec hsamples).2⟩

theorem chargedSpells_sublist :
    (chargedSpells samples interventionTs).Sublist (spells samples interventionTs) := by
  simp only [chargedSpells]
  split
  · exact List.nil_sublist _
  · exact List.filter_sublist

theorem hadIv_of_charged (h : sp ∈ chargedSpells samples interventionTs) : sp.hadIv = true := by
  simp only [chargedSpells] at h
  split at h
  · cases h
  · simp only [hastened, List.mem_filter, Bool.and_eq_true] at h
    exact h.2.1.1

def Spell.holds (sp : Spell K) (ivt : K) : Bool := inside sp.start sp.stop ivt

theorem charged_held (hsamples : Ascending samples)
    (hsp : sp ∈ chargedSpells samples interventionTs) :
    ∃ ivt ∈ interventionTs, sp.holds ivt = true := by
  have hhad := hadIv_of_charged hsp
  rw [((spells_spec hsamples).1 sp (chargedSpells_sublist.subset hsp)).2] at hhad
  exact List.any_eq_true.mp hhad

theorem charged_apart (hsamples : Ascending samples) :
    Charging.Apart Spell.holds (chargedSpells samples interventionTs) interventionTs := by
  refine ((spells_spec hsamples).2.sublist chargedSpells_sublist).imp fun hle ivt _ hfirst => ?_
  simp only [Spell.holds, inside, Bool.and_eq_true, decide_eq_true_eq, Bool.and_eq_false_iff,
    decide_eq_false_iff_not] at hfirst ⊢
  exact Or.inl (not_le.mpr (hfirst.2.trans_le hle))

/-- What is fired outside a bad regime is in no spell. -/
theorem outside_of_charged (hsamples : Ascending samples) (hfired : firedOutside samples t = true)
    (hsp : sp ∈ chargedSpells samples interventionTs) : sp.holds t = false := by
  by_contra hholds
  rw [Bool.not_eq_false] at hholds
  have hbad := ((spells_spec hsamples).1 sp (chargedSpells_sublist.subset hsp)).1 t hholds none
  rw [firedOutside_eq hsamples] at hfired
  unfold leftEdge at hfired
  cases hedge : valueAt none (samples.map fun s => (clock s, some s)) t with
  | none =>
    rw [hedge] at hbad
    cases hbad
  | some s =>
    rw [hedge] at hbad hfired
    simp only [Option.any_some] at hbad hfired
    rw [hbad] at hfired
    cases hfired

omit [Field K] in
theorem sorted_perm (xs : List K) : (sorted xs).Perm xs := List.mergeSort_perm xs _

theorem interventionsOutside_eq {ts : List K} :
    interventionsOutsideBadRegime samples ts = ts.countP (firedOutside samples) := by
  unfold interventionsOutsideBadRegime
  cases samples with
  | nil =>
    symm
    rw [List.isEmpty_nil, if_pos rfl, List.countP_eq_zero]
    exact fun t _ => Bool.false_ne_true
  | cons s rest => rfl

/-- The two kinds of false interventions. -/
theorem countFalse_eq {interventions : List (Intervention K)} (hsamples : Ascending samples) :
    countFalse samples interventions
      = (interventions.map fun iv => toSec iv.ts).countP (firedOutside samples)
        + (chargedSpells samples (sorted (interventions.map fun iv => toSec iv.ts))).length := by
  unfold countFalse
  cases interventions with
  | nil =>
    have hnone : chargedSpells samples (sorted []) = [] := by
      rw [List.eq_nil_iff_forall_not_mem]
      intro sp hsp
      obtain ⟨ivt, hivt, -⟩ := charged_held hsamples hsp
      cases (sorted_perm []).subset hivt
    rw [List.map_nil, hnone]
    rfl
  | cons iv interventions =>
    rw [List.isEmpty_cons, if_neg Bool.false_ne_true]
    dsimp only
    rw [interventionsOutside_eq, (sorted_perm _).countP_eq]

theorem countFalse_le {interventions : List (Intervention K)} (hsamples : Ascending samples) :
    countFalse samples interventions ≤ interventions.length := by
  have hperm := sorted_perm (interventions.map fun iv => toSec iv.ts)
  rw [countFalse_eq hsamples, ← hperm.countP_eq]
  calc _ ≤ (sorted (interventions.map fun iv => toSec iv.ts)).length := by
        refine Charging.countP_add_length_le (fun sp hsp => charged_held hsamples hsp)
          (charged_apart hsamples) ?_
        exact fun t _ hfired sp hsp => outside_of_charged hsamples hfired hsp
    _ = interventions.length := by rw [hperm.length_eq, List.length_map]

/-! ### The time in a bad regime -/

section Ordered

open StepFunction (area indicator From)

variable [IsStrictOrderedRing K] {last : Sample K}

def badSteps (rest : List (Sample K)) :
    List (K × K) := rest.map fun r => (clock r, indicator K (r.isBad))

omit [IsStrictOrderedRing K] in
theorem from_badSteps (hsamples : Ascending (s :: rest)) : From (clock s) (badSteps rest) := by
  obtain ⟨hfirst, hrest⟩ := List.pairwise_cons.mp hsamples
  constructor
  · intro step hstep
    obtain ⟨r, hr, rfl⟩ := List.mem_map.mp hstep
    exact hfirst r hr
  · exact List.pairwise_map.mpr hrest

theorem inUnit_badSteps : StepFunction.InUnit (indicator K (s.isBad)) (badSteps rest) := by
  refine ⟨StepFunction.indicator_mem _, fun step hstep => ?_⟩
  obtain ⟨r, -, rfl⟩ := List.mem_map.mp hstep
  exact StepFunction.indicator_mem _

omit [IsStrictOrderedRing K] in
theorem clock_le_last (hsamples : Ascending (s :: rest))
    (hlast : (s :: rest).getLast? = some last) :
    clock s ≤ clock last := by
  rcases List.mem_cons.mp (List.mem_of_getLast? hlast) with rfl | hmem
  · exact le_rfl
  · exact (List.pairwise_cons.mp hsamples).1 last hmem

/-- The gaps sum up to the area. -/
theorem badDuration_eq_area (hsamples : Ascending (s :: rest))
    (hlast : (s :: rest).getLast? = some last) :
    badDuration (s :: rest) = area (clock s) (indicator K (s.isBad)) (badSteps rest)
      (clock last) := by
  induction rest generalizing s with
  | nil =>
    cases hlast
    simp [badDuration, badSteps, area]
  | cons next rest ih =>
    obtain ⟨hfirst, hrest⟩ := List.pairwise_cons.mp hsamples
    have hnext : (next :: rest).getLast? = some last := by
      rw [List.getLast?_cons_cons] at hlast
      exact hlast
    have hle := clock_le_last hrest hnext
    have hgap : (if isBadRegime s.regime then toSec next.ts - toSec s.ts else 0)
        = indicator K (s.isBad) * (clock next - clock s) := by
      unfold indicator Sample.isBad clock
      split
      · rw [one_mul]
      · rw [zero_mul]
    have hsteps :
        badSteps (next :: rest) = (clock next, indicator K (next.isBad)) :: badSteps rest := rfl
    rw [badDuration, hgap, ih hrest hnext, hsteps, area]
    split
    · rename_i hge
      have hequal : clock last = clock next := le_antisymm hge hle
      have hbounds := StepFunction.area_mem (from_badSteps hrest) (inUnit_badSteps (s := next)) hle
      rw [hequal, sub_self] at hbounds
      rw [hequal, le_antisymm hbounds.2 hbounds.1, add_zero]
    · rfl

end Ordered

section Measured

open MeasureTheory
open StepFunction (area indicator)

variable {log tail : List (Sample ℚ)} {first last : Sample ℚ}

def realClock (s : Sample ℚ) : ℝ := ((clock s : ℚ) : ℝ)

def badTimes (samples : List (Sample ℚ)) : Set ℝ :=
  {t | (∃ last ∈ samples.getLast?, t < realClock last)
    ∧ (leftEdge realClock samples t).any Sample.isBad = true}

theorem badTimes_eq (hlast : (first :: tail).getLast? = some last) :
    badTimes (first :: tail) = {t | t ∈ Set.Ico (realClock first) (realClock last)
      ∧ valueAt (first.isBad) (tail.map fun r => (realClock r, r.isBad)) t = true} := by
  ext t
  simp only [badTimes, hlast, Option.mem_some_iff, exists_eq_left', Set.mem_ofPred_eq,
    Set.mem_Ico, leftEdge, List.map_cons, valueAt]
  by_cases hfirst : realClock first ≤ t
  · have hmap : valueAt ((some first).any Sample.isBad)
        ((tail.map fun r => (realClock r, some r)).map fun step =>
          (step.1, step.2.any Sample.isBad)) t
        = (valueAt (some first) (tail.map fun r => (realClock r, some r)) t).any Sample.isBad :=
      StepFunction.valueAt_values fun s : Option (Sample ℚ) => s.any Sample.isBad
    rw [if_pos hfirst, ← hmap, List.map_map]
    simp only [hfirst, true_and]
    rfl
  · simp [hfirst]

theorem realArea_eq {s : Sample ℚ} :
    area (realClock s) (indicator ℝ (s.isBad))
      (tail.map fun r => (realClock r, indicator ℝ (r.isBad)))
        (realClock last)
      = (area (clock s) (indicator ℚ (s.isBad)) (badSteps tail) (clock last) : ℚ) := by
  have hcast : ∀ b, ((indicator ℚ b : ℚ) : ℝ) = indicator ℝ b := by
    intro b
    cases b with
    | false => exact Rat.cast_zero
    | true => exact Rat.cast_one
  have hmap : area ((clock s : ℚ) : ℝ) ((indicator ℚ (s.isBad) : ℚ) : ℝ)
      ((badSteps tail).map fun step => ((step.1 : ℝ), (step.2 : ℝ))) ((clock last : ℚ) : ℝ)
      = (area (clock s) (indicator ℚ (s.isBad)) (badSteps tail) (clock last) : ℚ) :=
    StepFunction.area_map (f := Rat.castHom ℝ) Rat.cast_strictMono
  simp only [badSteps, List.map_map, Function.comp_def, hcast] at hmap
  exact hmap

/-- **The time in a bad regime is the measure of where the state is bad.** -/
theorem volume_badTimes (hlog : Ascending log) :
    volume (badTimes log) = ENNReal.ofReal (badDuration log : ℚ) := by
  cases log with
  | nil => simp [badTimes, badDuration]
  | cons first tail =>
    have hlast : ∃ last, (first :: tail).getLast? = some last := ⟨_, List.getLast?_cons⟩
    obtain ⟨last, hlast⟩ := hlast
    have hle : realClock first ≤ realClock last := Rat.cast_le.mpr (clock_le_last hlog hlast)
    have hsteps : (tail.map fun r => (realClock r, r.isBad)).map
        (fun step => (step.1, indicator ℝ step.2))
        = tail.map fun r => (realClock r, indicator ℝ (r.isBad)) := by
      rw [List.map_map]
      rfl
    have hfrom : StepFunction.From (realClock first)
        (tail.map fun r => (realClock r, indicator ℝ (r.isBad))) := by
      obtain ⟨hfirst, hrest⟩ := List.pairwise_cons.mp hlog
      constructor
      · intro step hstep
        obtain ⟨r, hr, rfl⟩ := List.mem_map.mp hstep
        exact Rat.cast_le.mpr (hfirst r hr)
      · exact List.pairwise_map.mpr (hrest.imp fun h => Rat.cast_le.mpr h)
    rw [badTimes_eq hlast, StepFunction.volume_valueAt (hsteps ▸ hfrom) hle, hsteps, realArea_eq,
      badDuration_eq_area hlog hlast]

/-! ### The bookkeeping -/

/-- The spells of a log that count as false interventions. -/
def charged (samples : List (Sample ℚ)) (interventions : List (Intervention ℚ)) : List (Spell ℚ) :=
  chargedSpells samples (sorted (interventions.map fun iv => toSec iv.ts))

def outside (samples : List (Sample ℚ)) (iv : Intervention ℚ) : Bool :=
  (leftEdge clock samples (toSec iv.ts)).any fun s => !s.isBad

/-- What the terms of the criterion are, `durSamples` being the log the duration is measured on. -/
structure Bookkeeping (samples durSamples : List (Sample ℚ)) (interventions : List (Intervention ℚ))
    (costs : Costs ℚ) (r : JResult ℚ) : Prop where
  duration_nonneg : 0 ≤ r.badDuration
  duration_le : ∀ first ∈ durSamples.head?, ∀ last ∈ durSamples.getLast?,
    r.badDuration ≤ toSec last.ts - toSec first.ts
  duration_short : durSamples.length < 2 → r.badDuration = 0
  duration_measure : volume (badTimes durSamples) = ENNReal.ofReal (r.badDuration : ℝ)
  interventions_count : r.nInterventions = interventions.length
  false_count : r.nFalse
    = interventions.countP (outside samples) + (charged samples interventions).length
  false_le : r.nFalse ≤ r.nInterventions
  charged_held : ∀ sp ∈ charged samples interventions, ∃ iv ∈ interventions,
    sp.holds (toSec iv.ts) = true
  kinds_disjoint : ∀ iv ∈ interventions, outside samples iv = true →
    ∀ sp ∈ charged samples interventions, sp.holds (toSec iv.ts) = false
  spells_disjoint : (charged samples interventions).Pairwise fun sp later =>
    ∀ iv ∈ interventions, ¬(sp.holds (toSec iv.ts) = true ∧ later.holds (toSec iv.ts) = true)
  weighted : r.J = costs.cStuck * r.badDuration + costs.cIntervention * r.nInterventions
    + costs.cFalse * r.nFalse

theorem badDuration_bounds (hlog : Ascending log) :
    0 ≤ badDuration log ∧ ∀ first ∈ log.head?, ∀ last ∈ log.getLast?,
      badDuration log ≤ toSec last.ts - toSec first.ts := by
  cases log with
  | nil =>
    refine ⟨le_rfl, ?_⟩
    rintro first ⟨⟩
  | cons first tail =>
    have harea : ∀ last ∈ (first :: tail).getLast?,
        0 ≤ badDuration (first :: tail)
          ∧ badDuration (first :: tail) ≤ clock last - clock first := by
      intro last hlast
      rw [badDuration_eq_area hlog hlast]
      exact StepFunction.area_mem (from_badSteps hlog) inUnit_badSteps (clock_le_last hlog hlast)
    constructor
    · exact (harea _ List.getLast?_cons).1
    · intro first' hfirst last hlast
      cases hfirst
      exact (harea last hlast).2

theorem badDuration_short (h : log.length < 2) : badDuration log = 0 := by
  cases log with
  | nil => rfl
  | cons first tail =>
    cases tail with
    | nil => rfl
    | cons next tail => simp at h

/-- **Every term of the criterion.** -/
theorem computeJ_bookkeeping (samples : List (Sample ℚ)) (interventions : List (Intervention ℚ))
    (costs : Costs ℚ) (badDurationSamples : Option (List (Sample ℚ))) (hsamples : Ascending samples)
    (hdur : Ascending (badDurationSamples.getD samples)) :
    Bookkeeping samples (badDurationSamples.getD samples) interventions costs
      (computeJ samples interventions costs badDurationSamples) where
  duration_nonneg := (badDuration_bounds hdur).1
  duration_le := (badDuration_bounds hdur).2
  duration_short := badDuration_short
  duration_measure := volume_badTimes hdur
  interventions_count := rfl
  false_count := by
    change countFalse samples interventions = _
    rw [countFalse_eq hsamples, List.countP_map]
    congr 1
    apply List.countP_congr
    intro iv _
    simp only [Function.comp_apply, firedOutside_eq hsamples, outside]
  false_le := countFalse_le hsamples
  charged_held := by
    intro sp hsp
    obtain ⟨ivt, hivt, hholds⟩ := Criterion.charged_held hsamples hsp
    obtain ⟨iv, hiv, rfl⟩ := List.mem_map.mp ((sorted_perm _).subset hivt)
    exact ⟨iv, hiv, hholds⟩
  kinds_disjoint := by
    intro iv _ houtside sp hsp
    exact outside_of_charged hsamples (by rw [firedOutside_eq hsamples]; exact houtside) hsp
  spells_disjoint := by
    refine (charged_apart hsamples).imp fun hapart iv hiv hboth => ?_
    have hmem : toSec iv.ts ∈ sorted (interventions.map fun iv => toSec iv.ts) :=
      (sorted_perm _).symm.subset (List.mem_map_of_mem hiv)
    rw [hapart _ hmem hboth.1] at hboth
    cases hboth.2
  weighted := rfl

theorem computeJ_bookkeeping_instance :
    let log : List (Sample ℚ) := [⟨.float 0, "idle", 0⟩, ⟨.datetime 2000000, "productive", 0⟩]
    Bookkeeping log log [⟨.float 1⟩] ⟨1, 1, 2⟩ (computeJ log [⟨.float 1⟩] ⟨1, 1, 2⟩ none) :=
  computeJ_bookkeeping [⟨.float 0, "idle", 0⟩, ⟨.datetime 2000000, "productive", 0⟩]
    [⟨.float 1⟩] ⟨1, 1, 2⟩ none
    (by norm_num [Ascending, toSec]) (by norm_num [Ascending, toSec])

end Measured

end OnlinetLabs.Analytics.Criterion
