import Mathlib.Algebra.Order.Ring.Archimedean
import Mathlib.Data.Finset.Sort
import Mathlib.Data.Rat.Cast.Order
import Mathlib.Data.Real.Basic
import OnlinetLabs.Analytics.Events
import OnlinetLabs.Lib.StepFunction

/-!
# Survival estimators

Times to competence are estimated from learners who reached it and learners who were only observed
for some time. `_survival_steps` is the curve of those who have not, and the three estimators walk
over its steps, each with a loop of its own.
-/

namespace OnlinetLabs.Analytics.Cohort

open StepFunction

section Times

variable {K : Type} [LinearOrder K] {paired : List (K × Bool)} {t : K} {ts rest : List K}

/-- `sorted({t for t, _ in paired})`. -/
def times (paired : List (K × Bool)) : List K := (paired.map (·.1)).toFinset.sort

def exitsAt (paired : List (K × Bool)) (t : K) : Nat := paired.countP fun p => decide (p.1 = t)

def eventsAt (paired : List (K × Bool)) (t : K) :
    Nat := paired.countP fun p => decide (p.1 = t) && p.2

def atRisk (paired : List (K × Bool)) (t : K) : Nat := paired.countP fun p => decide (t ≤ p.1)

/-- The times that are left: ascending, and every duration that is not below one of them is among
them. -/
structure Left (paired : List (K × Bool)) (ts : List K) : Prop where
  ascending : ts.Pairwise (· < ·)
  upward : ∀ p ∈ paired, ∀ t ∈ ts, t ≤ p.1 → p.1 ∈ ts

def leaving (paired : List (K × Bool)) (ts : List K) :
    Nat := paired.countP fun p => decide (p.1 ∈ ts)

theorem Left.tail (h : Left paired (t :: rest)) : Left paired rest := by
  obtain ⟨hfirst, hrest⟩ := List.pairwise_cons.mp h.ascending
  refine ⟨hrest, fun p hp u hu hle => ?_⟩
  have hmem := h.upward p hp u (List.mem_cons_of_mem _ hu) hle
  rcases List.mem_cons.mp hmem with heq | hmem
  · exact absurd (heq ▸ hle) (not_le.mpr (hfirst u hu))
  · exact hmem

theorem Left.leaving_cons (h : Left paired (t :: rest)) :
    leaving paired (t :: rest) = exitsAt paired t + leaving paired rest := by
  have hnot : t ∉ rest := fun hmem => lt_irrefl t ((List.pairwise_cons.mp h.ascending).1 t hmem)
  unfold leaving exitsAt
  rw [List.countP_eq_countP_filter_add paired _ fun p => decide (p.1 = t), List.countP_filter,
    List.countP_filter]
  congr 1
  · apply List.countP_congr
    intro p _
    by_cases heq : p.1 = t
    · simp [heq]
    · simp [heq]
  · apply List.countP_congr
    intro p _
    by_cases heq : p.1 = t
    · simp [heq, hnot]
    · simp [heq]

theorem Left.leaving_eq_atRisk (h : Left paired (t :: rest)) :
    leaving paired (t :: rest) = atRisk paired t := by
  unfold leaving atRisk
  apply List.countP_congr
  intro p hp
  have hiff : p.1 ∈ t :: rest ↔ t ≤ p.1 := by
    constructor
    · intro hmem
      rcases List.mem_cons.mp hmem with heq | hmem
      · exact heq.ge
      · exact ((List.pairwise_cons.mp h.ascending).1 p.1 hmem).le
    · exact h.upward p hp t List.mem_cons_self
  simp [hiff]

theorem mem_times : t ∈ times paired ↔ t ∈ paired.map (·.1) := by
  unfold times
  rw [Finset.mem_sort, List.mem_toFinset]

theorem mem_times_of_mem {p : K × Bool} (hp : p ∈ paired) : p.1 ∈ times paired :=
  mem_times.mpr (List.mem_map_of_mem hp)

theorem left_times : Left paired (times paired) :=
  ⟨(Finset.sortedLT_sort _).pairwise, fun _ hp _ _ _ => mem_times_of_mem hp⟩

theorem leaving_times : leaving paired (times paired) = paired.length := by
  unfold leaving
  rw [List.countP_eq_length]
  intro p hp
  simpa using mem_times_of_mem hp

theorem eventsAt_le_exitsAt : eventsAt paired t ≤ exitsAt paired t := by
  apply List.countP_mono_left
  intro p _ h
  simpa using (Bool.and_eq_true_iff.mp h).1

theorem exitsAt_le_atRisk : exitsAt paired t ≤ atRisk paired t := by
  apply List.countP_mono_left
  intro p _ h
  simpa using (of_decide_eq_true h).ge

theorem find?_eq_some_iff_isLeast (hsorted : ts.Pairwise (· < ·)) (P : K → Bool) :
    ts.find? P = some t ↔ IsLeast {u | u ∈ ts ∧ P u = true} t := by
  constructor
  · intro h
    obtain ⟨hP, before, after, rfl, hbefore⟩ := List.find?_eq_some_iff_append.mp h
    refine ⟨⟨by simp, hP⟩, fun u hu => ?_⟩
    rcases List.mem_append.mp hu.1 with hmem | hmem
    · exact absurd hu.2 (by simpa using hbefore u hmem)
    · rcases List.mem_cons.mp hmem with rfl | hmem
      · exact le_rfl
      · exact ((List.pairwise_cons.mp (List.pairwise_append.mp hsorted).2.1).1 u hmem).le
  · rintro ⟨⟨hmem, hP⟩, hleast⟩
    obtain ⟨before, after, rfl⟩ := List.append_of_mem hmem
    refine List.find?_eq_some_iff_append.mpr ⟨hP, before, after, rfl, fun u hu => ?_⟩
    have hlt : u < t := (List.pairwise_append.mp hsorted).2.2 u hu t List.mem_cons_self
    by_contra hnot
    exact absurd (hleast ⟨List.mem_append_left _ hu, by simpa using hnot⟩) (not_le.mpr hlt)

end Times

variable {K : Type} [Field K] [LinearOrder K]

/-! ### The estimators -/

/-- The loop of `_survival_steps`. -/
def survivalLoop (paired : List (K × Bool)) : List K → Nat → K → List (K × K)
  | [], _, _ => []
  | t :: rest, nAtRisk, surv =>
      let surv := if nAtRisk > 0 ∧ eventsAt paired t > 0
          then surv * (1 - eventsAt paired t / nAtRisk) else surv
      (t, surv) :: survivalLoop paired rest (nAtRisk - exitsAt paired t) surv

def survivalSteps (durations : List K) (events : List Bool) : List (K × K) :=
  if durations.isEmpty then []
  else
    let paired := (durations.zip events).mergeSort fun p q => decide (p.1 ≤ q.1)
    survivalLoop paired (times paired) paired.length 1

def kaplanMeierMedian (durations : List K) (events : List Bool) (reachRate : Option K) : Option K :=
  if events.isEmpty then none
  else if reachRate.getD (events.countP id / events.length) < 1 / 2 then none
  else ((survivalSteps durations events).find? fun step => decide (step.2 < 1 / 2)).map (·.1)

/-- `reach_rate_at`. The loop keeps the last value that is not past the horizon. -/
def reachRateAt (durations : List K) (events : List Bool) (horizon : K) : K :=
  let steps := survivalSteps durations events
  if steps.isEmpty then 0 else 1 - valueAt 1 steps horizon

/-- The loop of `restricted_mean`. -/
def areaLoop (horizon : K) : K → K → K → List (K × K) → K
  | area, prevT, prevS, [] => area + prevS * (horizon - prevT)
  | area, prevT, prevS, (t, s) :: rest =>
      let segT := min t horizon
      let area := area + prevS * (segT - prevT)
      if t ≥ horizon then area else areaLoop horizon area segT s rest

def restrictedMean (durations : List K) (events : List Bool) (horizon : K) : K :=
  let steps := survivalSteps durations events
  if steps.isEmpty then 0 else areaLoop horizon 0 0 1 steps

/-! ### The curve -/

def staying (paired : List (K × Bool)) (t : K) : K := 1 - eventsAt paired t / atRisk paired t

/-- The product-limit formula. -/
def productLimit (paired : List (K × Bool)) (x : K) : K :=
  ∏ t ∈ (paired.map (·.1)).toFinset with t ≤ x, staying paired t

variable {paired : List (K × Bool)} {durations : List K} {events : List Bool} {t x surv : K}
  {ts rest : List K}

/-- One turn of the loop multiplies by the share of those who stay. -/
theorem survivalLoop_cons (h : Left paired (t :: rest)) :
    survivalLoop paired (t :: rest) (leaving paired (t :: rest)) surv
      = (t, surv * staying paired t)
        :: survivalLoop paired rest (leaving paired rest) (surv * staying paired t) := by
  have hleft : leaving paired (t :: rest) - exitsAt paired t = leaving paired rest := by
    rw [h.leaving_cons]
    omega
  have hsurv : (if leaving paired (t :: rest) > 0 ∧ eventsAt paired t > 0 then
      surv * (1 - eventsAt paired t / leaving paired (t :: rest)) else surv)
        = surv * staying paired t := by
    by_cases hevents : eventsAt paired t > 0
    · have hrisk : leaving paired (t :: rest) > 0 := by
        have hle : eventsAt paired t ≤ atRisk paired t :=
          eventsAt_le_exitsAt.trans exitsAt_le_atRisk
        rw [h.leaving_eq_atRisk]
        omega
      rw [if_pos ⟨hrisk, hevents⟩, h.leaving_eq_atRisk, staying]
    · have hnone : eventsAt paired t = 0 := by omega
      simp [staying, hnone]
  simp only [survivalLoop, hsurv, hleft]

/-- What is left of the curve at a place, by the times that are left. -/
def stayingThrough (paired : List (K × Bool)) (ts : List K) (x : K) : K :=
  ((ts.filter fun t => decide (t ≤ x)).map (staying paired)).prod

theorem stayingThrough_cons (hle : t ≤ x) :
    stayingThrough paired (t :: rest) x = staying paired t * stayingThrough paired rest x := by
  simp [stayingThrough, hle]

theorem stayingThrough_of_lt (h : ∀ t ∈ ts, x < t) : stayingThrough paired ts x = 1 := by
  have hnone : ts.filter (fun t => decide (t ≤ x)) = [] := by
    rw [List.filter_eq_nil_iff]
    intro t ht
    simpa using h t ht
  rw [stayingThrough, hnone]
  rfl

theorem survivalLoop_eq (h : Left paired ts) :
    survivalLoop paired ts (leaving paired ts) surv = ts.map fun u =>
      (u, surv * stayingThrough paired ts u) := by
  induction ts generalizing surv with
  | nil => rfl
  | cons t rest ih =>
    have hfirst := (List.pairwise_cons.mp h.ascending).1
    rw [survivalLoop_cons h, ih h.tail, List.map_cons, stayingThrough_cons le_rfl,
      stayingThrough_of_lt hfirst, mul_one]
    congr 1
    apply List.map_congr_left
    intro u hu
    rw [stayingThrough_cons (hfirst u hu).le, mul_assoc]

theorem valueAt_survivalLoop (h : Left paired ts) :
    valueAt surv (survivalLoop paired ts (leaving paired ts) surv) x
      = surv * stayingThrough paired ts x := by
  induction ts generalizing surv with
  | nil => simp [survivalLoop, valueAt, stayingThrough]
  | cons t rest ih =>
    rw [survivalLoop_cons h, valueAt]
    by_cases hle : t ≤ x
    · rw [if_pos hle, ih h.tail, stayingThrough_cons hle, mul_assoc]
    · have hlater : ∀ u ∈ t :: rest, x < u := by
        have htx : x < t := not_le.mp hle
        intro u hu
        rcases List.mem_cons.mp hu with rfl | hu
        · exact htx
        · exact htx.trans ((List.pairwise_cons.mp h.ascending).1 u hu)
      rw [if_neg hle, stayingThrough_of_lt hlater, mul_one]

theorem stayingThrough_times : stayingThrough paired (times paired) x = productLimit paired x := by
  have hnodup : ((times paired).filter fun t => decide (t ≤ x)).Nodup :=
    (Finset.sort_nodup _ _).filter _
  rw [stayingThrough, productLimit, ← List.prod_toFinset _ hnodup, List.toFinset_filter, times,
    Finset.sort_toFinset]
  simp

/-! ### The order of the rows -/

theorem survivalLoop_perm {paired' : List (K × Bool)} (hperm : paired.Perm paired') (n : Nat) :
    survivalLoop paired ts n surv = survivalLoop paired' ts n surv := by
  induction ts generalizing n surv with
  | nil => rfl
  | cons t rest ih =>
    have hevents : eventsAt paired t = eventsAt paired' t := hperm.countP_eq _
    have hexits : exitsAt paired t = exitsAt paired' t := hperm.countP_eq _
    simp only [survivalLoop, hevents, hexits, ih]

omit [Field K] in
theorem times_perm {paired' : List (K × Bool)} (hperm : paired.Perm paired') :
    times paired = times paired' := by
  unfold times
  rw [List.toFinset_eq_of_perm _ _ (hperm.map _)]

def curve (paired : List (K × Bool)) :
    List (K × K) := survivalLoop paired (times paired) paired.length 1

theorem curve_perm {paired' : List (K × Bool)} (hperm : paired.Perm paired') :
    curve paired = curve paired' := by
  unfold curve
  rw [survivalLoop_perm hperm, times_perm hperm, hperm.length_eq]

theorem survivalSteps_eq (samples : List (K × Bool)) :
    survivalSteps (samples.map (·.1)) (samples.map (·.2)) = curve samples := by
  unfold survivalSteps
  cases samples with
  | nil => simp [curve, times, survivalLoop]
  | cons sample samples =>
    have hzip : ((sample :: samples).map (·.1)).zip ((sample :: samples).map (·.2))
        = sample :: samples := by
      rw [List.zip_map']
      exact List.map_id _
    rw [hzip]
    exact curve_perm (List.mergeSort_perm _ _)

theorem curve_eq : curve paired = (times paired).map fun t => (t, productLimit paired t) := by
  unfold curve
  rw [← leaving_times, survivalLoop_eq left_times]
  simp only [stayingThrough_times, one_mul]

theorem curve_ne_nil (h : paired ≠ []) : curve paired ≠ [] := by
  rw [curve_eq]
  obtain ⟨p, hp⟩ := List.exists_mem_of_ne_nil paired h
  exact List.ne_nil_of_mem (List.mem_map_of_mem (mem_times_of_mem hp))

theorem valueAt_curve : valueAt 1 (curve paired) x = productLimit paired x := by
  unfold curve
  rw [← leaving_times, valueAt_survivalLoop left_times, one_mul, stayingThrough_times]

theorem productLimit_nil : productLimit ([] : List (K × Bool)) x = 1 := by simp [productLimit]

theorem reachRateAt_eq (samples : List (K × Bool)) :
    reachRateAt (samples.map (·.1)) (samples.map (·.2)) x = 1 - productLimit samples x := by
  simp only [reachRateAt, survivalSteps_eq, valueAt_curve]
  by_cases hnil : samples = []
  · subst hnil
    simp [curve_eq, times, productLimit_nil]
  · simp [curve_ne_nil hnil]

theorem areaLoop_eq {horizon area prevT prevS : K} {steps : List (K × K)} :
    areaLoop horizon area prevT prevS steps = area + StepFunction.area prevT prevS steps
      horizon := by
  induction steps generalizing area prevT prevS with
  | nil => rfl
  | cons step rest ih =>
    obtain ⟨t, s⟩ := step
    by_cases hle : horizon ≤ t
    · simp [areaLoop, StepFunction.area, hle]
    · have hlt : t ≤ horizon := (not_le.mp hle).le
      simp only [areaLoop, StepFunction.area, ge_iff_le, hle, if_false, min_eq_left hlt,
        ih, add_assoc]

theorem restrictedMean_eq {samples : List (K × Bool)} (h : samples ≠ []) {horizon : K} :
    restrictedMean (samples.map (·.1))
      (samples.map (·.2)) horizon = area 0 1 (curve samples) horizon := by
  simp only [restrictedMean, survivalSteps_eq, areaLoop_eq, zero_add]
  simp [curve_ne_nil h]

/-! ### Bounds -/

section Ordered

variable [IsStrictOrderedRing K] {y horizon a : K}

theorem staying_mem : 0 ≤ staying paired t ∧ staying paired t ≤ 1 := by
  have hle : (eventsAt paired t : K) ≤ atRisk paired t :=
    Nat.cast_le.mpr (eventsAt_le_exitsAt.trans exitsAt_le_atRisk)
  have hratio : (eventsAt paired t : K) / atRisk paired t ≤ 1 :=
    div_le_one_of_le₀ hle (Nat.cast_nonneg _)
  have hnonneg : (0 : K) ≤ eventsAt paired t / atRisk paired t := by positivity
  unfold staying
  constructor
  · linarith
  · linarith

theorem stayingThrough_mem : 0 ≤ stayingThrough paired ts x ∧ stayingThrough paired ts x ≤ 1 := by
  induction ts with
  | nil => simp [stayingThrough]
  | cons t rest ih =>
    by_cases hle : t ≤ x
    · obtain ⟨hlow, hhigh⟩ : 0 ≤ staying paired t ∧ staying paired t ≤ 1 := staying_mem
      rw [stayingThrough_cons hle]
      exact ⟨mul_nonneg hlow ih.1, mul_le_one₀ hhigh ih.1 ih.2⟩
    · simpa [stayingThrough, hle] using ih

theorem stayingThrough_anti (hxy : x ≤ y) :
    stayingThrough paired ts y ≤ stayingThrough paired ts x := by
  induction ts with
  | nil => simp [stayingThrough]
  | cons t rest ih =>
    obtain ⟨hlow, hhigh⟩ : 0 ≤ staying paired t ∧ staying paired t ≤ 1 := staying_mem
    by_cases htx : t ≤ x
    · rw [stayingThrough_cons htx, stayingThrough_cons (htx.trans hxy)]
      exact mul_le_mul_of_nonneg_left ih hlow
    · have hskip : stayingThrough paired (t :: rest) x = stayingThrough paired rest x := by
        simp [stayingThrough, htx]
      rw [hskip]
      by_cases hty : t ≤ y
      · rw [stayingThrough_cons hty]
        exact (mul_le_of_le_one_left stayingThrough_mem.1 hhigh).trans ih
      · simpa [stayingThrough, hty] using ih

theorem productLimit_mem : 0 ≤ productLimit paired x ∧ productLimit paired x ≤ 1 := by
  rw [← stayingThrough_times]
  exact stayingThrough_mem

theorem productLimit_anti (hxy : x ≤ y) : productLimit paired y ≤ productLimit paired x := by
  rw [← stayingThrough_times, ← stayingThrough_times]
  exact stayingThrough_anti hxy

theorem inUnit_curve : InUnit 1 (curve paired) := by
  refine ⟨⟨zero_le_one, le_rfl⟩, fun step hstep => ?_⟩
  rw [curve_eq] at hstep
  obtain ⟨u, -, rfl⟩ := List.mem_map.mp hstep
  exact productLimit_mem

omit [IsStrictOrderedRing K] in
theorem from_curve (hnonneg : ∀ p ∈ paired, 0 ≤ p.1) : From 0 (curve paired) := by
  rw [curve_eq]
  constructor
  · intro step hstep
    obtain ⟨u, hu, rfl⟩ := List.mem_map.mp hstep
    obtain ⟨p, hp, rfl⟩ := List.mem_map.mp (mem_times.mp hu)
    exact hnonneg p hp
  · rw [List.pairwise_map]
    exact left_times.ascending.imp le_of_lt

/-! ### Everybody reaches -/

theorem leaving_mul_staying (hleft : Left paired (t :: rest)) (hall : ∀ p ∈ paired, p.2 = true) :
    (leaving paired (t :: rest) : K) * staying paired t = leaving paired rest := by
  have hevents : eventsAt paired t = exitsAt paired t := by
    apply List.countP_congr
    intro p hp
    simp [hall p hp]
  have hcons : (leaving paired (t :: rest) : K) = exitsAt paired t + leaving paired rest := by
    rw [hleft.leaving_cons]
    push_cast
    rfl
  rw [staying, hevents, ← hleft.leaving_eq_atRisk]
  by_cases hzero : (leaving paired (t :: rest) : K) = 0
  · have hrest : leaving paired rest = 0 := by
      have hnat : leaving paired (t :: rest) = 0 := Nat.cast_eq_zero.mp hzero
      rw [hleft.leaving_cons] at hnat
      omega
    simp [hzero, hrest]
  · rw [mul_sub, mul_one, mul_div_cancel₀ _ hzero, hcons]
    ring

/-- The learners among those who leave at one of the times, who are still there at `x`. -/
theorem leaving_mul_stayingThrough (hleft : Left paired ts) (hall : ∀ p ∈ paired, p.2 = true) :
    (leaving paired ts : K) * stayingThrough paired ts x
      = paired.countP fun p => decide (p.1 ∈ ts) && decide (x < p.1) := by
  induction ts with
  | nil => simp [leaving]
  | cons t rest ih =>
    by_cases hle : t ≤ x
    · rw [stayingThrough_cons hle, ← mul_assoc, leaving_mul_staying hleft hall, ih hleft.tail]
      congr 1
      apply List.countP_congr
      intro p _
      have hne : x < p.1 → p.1 ≠ t := fun hlt heq => absurd hlt (not_lt.mpr (heq ▸ hle))
      by_cases hlt : x < p.1
      · simp [hlt, hne hlt]
      · simp [hlt]
    · have hlater : ∀ u ∈ t :: rest, x < u := by
        have htx : x < t := not_le.mp hle
        intro u hu
        rcases List.mem_cons.mp hu with rfl | hu
        · exact htx
        · exact htx.trans ((List.pairwise_cons.mp hleft.ascending).1 u hu)
      rw [stayingThrough_of_lt hlater, mul_one]
      congr 1
      apply List.countP_congr
      intro p _
      constructor
      · intro hmem
        simp only [decide_eq_true_eq] at hmem
        simp only [Bool.and_eq_true, decide_eq_true_eq]
        exact ⟨hmem, hlater p.1 hmem⟩
      · intro h
        exact (Bool.and_eq_true_iff.mp h).1

theorem reachRateAt_of_all {samples : List (K × Bool)} (hall : ∀ p ∈ samples, p.2 = true) :
    reachRateAt (samples.map (·.1)) (samples.map (·.2)) x
      = (samples.countP fun p => decide (p.1 ≤ x)) / samples.length := by
  rw [reachRateAt_eq]
  by_cases hnil : samples = []
  · simp [hnil, productLimit_nil]
  · have hlength : (samples.length : K) ≠ 0 := by
      simpa using hnil
    have hthere : (samples.length : K) * productLimit samples x = samples.countP fun p =>
        decide (x < p.1) := by
      rw [← leaving_times, ← stayingThrough_times, leaving_mul_stayingThrough left_times hall]
      congr 1
      apply List.countP_congr
      intro p hp
      simp [mem_times_of_mem hp]
    have hcount : (samples.countP fun p => decide (p.1 ≤ x))
        + (samples.countP fun p => decide (x < p.1))
        = samples.length := by
      rw [List.length_eq_countP_add_countP fun p => decide (p.1 ≤ x)]
      simp
    have hcast : ((samples.countP fun p => decide (p.1 ≤ x) : Nat) : K)
        + (samples.countP fun p => decide (x < p.1) : Nat) = samples.length := by
      rw [← Nat.cast_add, hcount]
    rw [eq_div_iff hlength, sub_mul, one_mul, mul_comm, hthere, ← hcast]
    ring

/-- What the learners who leave at one of the times add to the mean, from `a` on. -/
def shares (paired : List (K × Bool)) (ts : List K) (a horizon : K) : K :=
  (paired.map fun p => if p.1 ∈ ts then min p.1 horizon - a else 0).sum

omit [IsStrictOrderedRing K] in
theorem sum_leaving (c : K) :
    (paired.map fun p => if p.1 ∈ ts then c else 0).sum = leaving paired ts * c := by
  unfold leaving
  induction paired with
  | nil => simp
  | cons p paired ih =>
    by_cases hmem : p.1 ∈ ts
    · simp [hmem, ih]
      ring
    · simp [hmem, ih]

omit [IsStrictOrderedRing K] in
theorem shares_cons (hleft : Left paired (t :: rest)) (hle : t ≤ horizon) :
    shares paired (t :: rest) a horizon = leaving paired (t :: rest) * (t - a)
      + shares paired rest t horizon := by
  have hnot : t ∉ rest := fun hmem => lt_irrefl t ((List.pairwise_cons.mp hleft.ascending).1 t hmem)
  rw [← sum_leaving, shares, shares, ← List.sum_map_add]
  congr 1
  apply List.map_congr_left
  intro p _
  by_cases heq : p.1 = t
  · simp [heq, hnot, hle]
  · by_cases hmem : p.1 ∈ rest
    · simp [hmem]
    · simp [heq, hmem]

theorem area_survivalLoop (hleft : Left paired ts) (hall : ∀ p ∈ paired, p.2 = true) (n : K) :
    area a (leaving paired ts / n)
      (survivalLoop paired ts (leaving paired ts) (leaving paired ts / n)) horizon
      = shares paired ts a horizon / n := by
  induction ts generalizing a with
  | nil => simp [leaving, survivalLoop, area, shares]
  | cons t rest ih =>
    have hstep :
        (leaving paired (t :: rest) : K) / n * staying paired t = leaving paired rest / n := by
      rw [div_mul_eq_mul_div, leaving_mul_staying hleft hall]
    rw [survivalLoop_cons hleft, hstep, area]
    by_cases hht : horizon ≤ t
    · have hshares :
          shares paired (t :: rest) a horizon = leaving paired (t :: rest) * (horizon - a) := by
        rw [← sum_leaving, shares]
        congr 1
        apply List.map_congr_left
        intro p _
        by_cases hmem : p.1 ∈ t :: rest
        · have hlate : horizon ≤ p.1 := by
            rcases List.mem_cons.mp hmem with heq | hmem
            · exact heq ▸ hht
            · exact hht.trans ((List.pairwise_cons.mp hleft.ascending).1 p.1 hmem).le
          simp [hmem, hlate]
        · simp [hmem]
      rw [if_pos hht, hshares, div_mul_eq_mul_div]
    · rw [if_neg hht, ih hleft.tail, shares_cons hleft (le_of_not_ge hht),
        div_mul_eq_mul_div, add_div]

theorem restrictedMean_of_all {samples : List (K × Bool)} (hall : ∀ p ∈ samples, p.2 = true) :
    restrictedMean (samples.map (·.1)) (samples.map (·.2)) horizon
      = (samples.map fun p => min p.1 horizon).sum / samples.length := by
  by_cases hnil : samples = []
  · subst hnil
    simp [restrictedMean, survivalSteps]
  · have hlength : (samples.length : K) ≠ 0 := by
      simpa using hnil
    have hone : (1 : K) = leaving samples (times samples) / samples.length := by
      rw [leaving_times, div_self hlength]
    have hshares : shares samples (times samples) 0 horizon = (samples.map fun p =>
        min p.1 horizon).sum := by
      unfold shares
      congr 1
      apply List.map_congr_left
      intro p hp
      simp [mem_times_of_mem hp]
    rw [restrictedMean_eq hnil, curve, ← hshares, ← area_survivalLoop left_times hall, ← hone,
      leaving_times]

end Ordered

/-! ### The median -/

/-- The least duration at which fewer than half are left, once half of the entries are events. -/
theorem kaplanMeierMedian_eq [IsStrictOrderedRing K] {samples : List (K × Bool)}
    (hhalf : samples.length ≤ 2 * samples.countP (·.2)) :
    kaplanMeierMedian (samples.map (·.1)) (samples.map (·.2)) none
      = (times samples).find? fun u => decide (productLimit samples u < 1 / 2) := by
  unfold kaplanMeierMedian
  rw [survivalSteps_eq]
  by_cases hnil : samples = []
  · subst hnil
    simp [times]
  · have hlength : (0 : K) < samples.length := by
      exact_mod_cast List.length_pos_iff.mpr hnil
    have hevents : (samples.map (·.2)).countP id = samples.countP (·.2) := List.countP_map
    have hrate : ¬ (((samples.map (·.2)).countP id : K) / (samples.map (·.2)).length < 1 / 2) := by
      have hcast : (samples.length : K) ≤ 2 * samples.countP (·.2) := by exact_mod_cast hhalf
      rw [hevents, List.length_map, not_lt, le_div_iff₀ hlength]
      linarith
    have hempty : (samples.map (·.2)).isEmpty = false := by simpa using hnil
    rw [hempty, Option.getD_none, if_neg hrate, curve_eq, List.find?_map, Option.map_map]
    simp only [Bool.false_eq_true, if_false]
    exact Option.map_id'

/-! ### Rational durations and the real line -/

section Real

variable {samples : List (ℚ × Bool)} {horizon : ℚ}

def toReal (samples : List (ℚ × Bool)) : List (ℝ × Bool) := samples.map fun p => ((p.1 : ℝ), p.2)

theorem times_toReal : times (toReal samples) = (times samples).map ((↑) : ℚ → ℝ) := by
  have hsorted : ((times samples).map ((↑) : ℚ → ℝ)).Pairwise (· < ·) := by
    rw [List.pairwise_map]
    exact left_times.ascending.imp fun h => Rat.cast_lt.mpr h
  have hset : ((toReal samples).map (·.1)).toFinset
      = ((times samples).map ((↑) : ℚ → ℝ)).toFinset := by
    ext u
    simp only [List.mem_toFinset, List.mem_map, mem_times, toReal]
    constructor
    · rintro ⟨p, ⟨q, hq, rfl⟩, rfl⟩
      exact ⟨q.1, ⟨q, hq, rfl⟩, rfl⟩
    · rintro ⟨d, ⟨q, hq, rfl⟩, rfl⟩
      exact ⟨_, ⟨q, hq, rfl⟩, rfl⟩
  rw [times, hset]
  exact (List.toFinset_sort _ (hsorted.imp ne_of_lt)).mpr (hsorted.imp le_of_lt)

theorem survivalLoop_toReal {ts : List ℚ} {n : Nat} {surv : ℚ} :
    survivalLoop (toReal samples) (ts.map ((↑) : ℚ → ℝ)) n (surv : ℝ)
      = (survivalLoop samples ts n surv).map fun step => ((step.1 : ℝ), (step.2 : ℝ)) := by
  induction ts generalizing n surv with
  | nil => rfl
  | cons t rest ih =>
    have hevents : eventsAt (toReal samples) (t : ℝ) = eventsAt samples t := by
      simp [eventsAt, toReal, List.countP_map, Function.comp_def]
    have hexits : exitsAt (toReal samples) (t : ℝ) = exitsAt samples t := by
      simp [exitsAt, toReal, List.countP_map, Function.comp_def]
    simp only [List.map_cons, survivalLoop, hevents, hexits, ← ih]
    split
    · push_cast
      rfl
    · rfl

theorem curve_toReal :
    curve (toReal samples) = (curve samples).map fun step => ((step.1 : ℝ), (step.2 : ℝ)) := by
  have hone : (1 : ℝ) = ((1 : ℚ) : ℝ) := Rat.cast_one.symm
  rw [curve, curve, times_toReal, hone, survivalLoop_toReal, toReal, List.length_map]

theorem cast_strictMono : StrictMono (Rat.castHom ℝ) := fun _ _ h => Rat.cast_lt.mpr h

theorem reachRateAt_toReal :
    reachRateAt ((toReal samples).map (·.1)) ((toReal samples).map (·.2)) (horizon : ℝ)
      = ((reachRateAt (samples.map (·.1)) (samples.map (·.2)) horizon : ℚ) : ℝ) := by
  have hvalue : productLimit (toReal samples)
      (horizon : ℝ) = ((productLimit samples horizon : ℚ) : ℝ) := by
    rw [← valueAt_curve, ← valueAt_curve, curve_toReal]
    have hmap : valueAt (Rat.castHom ℝ 1)
        ((curve samples).map fun step => ((step.1 : ℝ), Rat.castHom ℝ step.2)) horizon
        = Rat.castHom ℝ (valueAt 1 (curve samples) horizon) :=
          valueAt_map cast_strictMono (Rat.castHom ℝ)
    simpa using hmap
  rw [reachRateAt_eq, reachRateAt_eq, hvalue]
  push_cast
  rfl

/-- **The restricted mean is the area under the curve.** -/
theorem restrictedMean_eq_integral (hne : samples ≠ []) (hnonneg : ∀ p ∈ samples, 0 ≤ p.1)
    (hhorizon : 0 ≤ horizon) :
    ((restrictedMean (samples.map (·.1)) (samples.map (·.2)) horizon : ℚ) : ℝ)
      = ∫ x in (0 : ℝ)..horizon,
          (1 - reachRateAt ((toReal samples).map (·.1)) ((toReal samples).map (·.2)) x) := by
  have hfrom : From 0 (curve (toReal samples)) := by
    apply from_curve
    intro p hp
    obtain ⟨q, hq, rfl⟩ := List.mem_map.mp hp
    exact Rat.cast_nonneg.mpr (hnonneg q hq)
  have hmap : area (Rat.castHom ℝ 0) (Rat.castHom ℝ 1)
      ((curve samples).map fun step => (Rat.castHom ℝ step.1, Rat.castHom ℝ step.2))
        (Rat.castHom ℝ horizon)
      = Rat.castHom ℝ (area 0 1 (curve samples) horizon) := area_map cast_strictMono
  simp only [map_zero, map_one, Rat.coe_castHom] at hmap
  calc ((restrictedMean (samples.map (·.1)) (samples.map (·.2)) horizon : ℚ) : ℝ)
      = area 0 1 (curve (toReal samples)) horizon := by
        rw [restrictedMean_eq hne, curve_toReal, ← hmap]
    _ = ∫ x in (0 : ℝ)..horizon, valueAt 1 (curve (toReal samples)) x :=
        (integral_valueAt hfrom inUnit_curve (Rat.cast_nonneg.mpr hhorizon)).symm
    _ = _ := by simp only [valueAt_curve, reachRateAt_eq, sub_sub_cancel]

/-- What the estimators say of a list of learners. -/
structure Estimates (samples : List (ℚ × Bool)) (horizon : ℚ) : Prop where
  formula : survivalSteps (samples.map (·.1)) (samples.map (·.2))
    = (times samples).map fun t => (t, productLimit samples t)
  unit : ∀ step ∈ survivalSteps (samples.map (·.1)) (samples.map (·.2)), 0 ≤ step.2 ∧ step.2 ≤ 1
  nonincreasing : (survivalSteps (samples.map (·.1)) (samples.map (·.2))).Pairwise fun step later =>
    later.2 ≤ step.2
  area : samples ≠ [] → ((restrictedMean (samples.map (·.1)) (samples.map (·.2)) horizon : ℚ) : ℝ)
    = ∫ x in (0 : ℝ)..horizon,
      (1 - reachRateAt ((toReal samples).map (·.1)) ((toReal samples).map (·.2)) x)
  bounds : samples ≠ [] → 0 ≤ restrictedMean (samples.map (·.1)) (samples.map (·.2)) horizon
    ∧ restrictedMean (samples.map (·.1)) (samples.map (·.2)) horizon ≤ horizon
  reached : (∀ p ∈ samples, p.2 = true) → reachRateAt (samples.map (·.1))
    (samples.map (·.2)) horizon
    = (samples.countP fun p => decide (p.1 ≤ horizon)) / samples.length
  mean : (∀ p ∈ samples, p.2 = true) → restrictedMean (samples.map (·.1))
    (samples.map (·.2)) horizon
    = (samples.map fun p => min p.1 horizon).sum / samples.length
  median : samples.length ≤ 2 * samples.countP (·.2) → ∀ t,
    kaplanMeierMedian (samples.map (·.1)) (samples.map (·.2)) none = some t
      ↔ IsLeast {u | u ∈ samples.map (·.1) ∧ productLimit samples u < 1 / 2} t
  no_median : samples.length ≤ 2 * samples.countP (·.2) →
    (kaplanMeierMedian (samples.map (·.1)) (samples.map (·.2)) none = none
      ↔ ∀ u ∈ samples.map (·.1), ¬ productLimit samples u < 1 / 2)

/-- **The survival estimators.** -/
theorem estimates (hnonneg : ∀ p ∈ samples, 0 ≤ p.1) (hhorizon : 0 ≤ horizon) :
    Estimates samples horizon where
  formula := (survivalSteps_eq samples).trans curve_eq
  unit := by
    rw [survivalSteps_eq]
    exact inUnit_curve.2
  nonincreasing := by
    rw [survivalSteps_eq, curve_eq, List.pairwise_map]
    exact left_times.ascending.imp fun h => productLimit_anti h.le
  area hne := restrictedMean_eq_integral hne hnonneg hhorizon
  bounds hne := by
    rw [restrictedMean_eq hne]
    simpa using area_mem (from_curve hnonneg) inUnit_curve hhorizon
  reached hall := reachRateAt_of_all hall
  mean hall := restrictedMean_of_all hall
  median hhalf t := by
    rw [kaplanMeierMedian_eq hhalf, find?_eq_some_iff_isLeast left_times.ascending]
    simp only [decide_eq_true_eq, mem_times]
  no_median hhalf := by
    rw [kaplanMeierMedian_eq hhalf, List.find?_eq_none]
    simp only [decide_eq_true_eq, mem_times]

/-- Two learners reach, one leaves before the other does. -/
theorem estimates_three : Estimates [(20, true), (30, false), (50, true)] 40 :=
  estimates (by simp) (by norm_num)

end Real

end OnlinetLabs.Analytics.Cohort
