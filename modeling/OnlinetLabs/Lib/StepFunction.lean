import Mathlib.MeasureTheory.Integral.IntervalIntegral.Basic

/-!
# Step functions

A list of steps, ascending by where each begins, stands for the function that has a value before the
first of them and from each on the value of that step. Its area is summed up step by step; over the
reals it is the integral.
-/

namespace StepFunction

section Values

variable {K α β : Type} [LinearOrder K] {v : α} {steps : List (K × α)} {x : K}

/-- The value of the last step that has begun, or `v` before the first. -/
def valueAt (v : α) : List (K × α) → K → α
  | [], _ => v
  | (t, w) :: rest, x => if t ≤ x then valueAt w rest x else v

theorem valueAt_of_forall {P : α → Prop} (hv : P v) (hsteps : ∀ step ∈ steps, P step.2) :
    P (valueAt v steps x) := by
  induction steps generalizing v with
  | nil => exact hv
  | cons step rest ih =>
    obtain ⟨t, w⟩ := step
    obtain ⟨hw, hrest⟩ := List.forall_mem_cons.mp hsteps
    by_cases hle : t ≤ x
    · rw [valueAt, if_pos hle]
      exact ih hw hrest
    · rw [valueAt, if_neg hle]
      exact hv

/-- A relabelling of the line that keeps the order, and one of the values. -/
theorem valueAt_map {K' : Type} [LinearOrder K'] {f : K → K'} (hf : StrictMono f) (g : α → β) :
    valueAt (g v) (steps.map fun step => (f step.1, g step.2)) (f x) = g (valueAt v steps x) := by
  induction steps generalizing v with
  | nil => rfl
  | cons step rest ih =>
    obtain ⟨t, w⟩ := step
    simp only [List.map_cons, valueAt, hf.le_iff_le, ih]
    split
    · rfl
    · rfl

theorem valueAt_values (g : α → β) :
    valueAt (g v) (steps.map fun step => (step.1, g step.2)) x = g (valueAt v steps x) := by
  have hmap : valueAt (g v) (steps.map fun step => (id step.1, g step.2))
      (id x) = g (valueAt v steps x) :=
    valueAt_map strictMono_id g
  exact hmap

/-- What has begun is behind. -/
theorem valueAt_append {before after : List (K × α)} (h : ∀ step ∈ before, step.1 ≤ x) :
    valueAt v (before ++ after) x = valueAt ((before.getLast?.map Prod.snd).getD v) after x := by
  induction before generalizing v with
  | nil => rfl
  | cons step before ih =>
    obtain ⟨t, w⟩ := step
    obtain ⟨hle, hbefore⟩ := List.forall_mem_cons.mp h
    rw [List.cons_append, valueAt, if_pos hle, ih hbefore, List.getLast?_cons, Option.map_some,
      Option.getD_some]
    cases before.getLast? with
    | _ => rfl

/-- What has not begun does not matter. -/
theorem valueAt_append_of_lt {before after : List (K × α)} (h : ∀ step ∈ after, x < step.1) :
    valueAt v (before ++ after) x = valueAt v before x := by
  induction before generalizing v with
  | nil =>
    cases after with
    | nil => rfl
    | cons step after =>
      obtain ⟨t, w⟩ := step
      exact if_neg (not_le.mpr (h (t, w) List.mem_cons_self))
  | cons step before ih =>
    obtain ⟨t, w⟩ := step
    simp only [List.cons_append, valueAt, ih]

theorem valueAt_of_lt (h : ∀ step ∈ steps, x < step.1) : valueAt v steps x = v :=
  (valueAt_append_of_lt h : valueAt v ([] ++ steps) x = valueAt v [] x)

end Values

section Area

variable {K : Type} [Field K] [LinearOrder K] {a h v : K} {steps : List (K × K)}

/-- The steps begin after `a`, one after the other. -/
def From (a : K) (steps : List (K × K)) : Prop :=
  (∀ step ∈ steps, a ≤ step.1) ∧ steps.Pairwise fun step later => step.1 ≤ later.1

omit [Field K] in
theorem from_cons {t w : K} {rest : List (K × K)} :
    From a ((t, w) :: rest) ↔ a ≤ t ∧ From t rest := by
  unfold From
  rw [List.forall_mem_cons, List.pairwise_cons]
  constructor
  · rintro ⟨⟨hat, -⟩, hfirst, hrest⟩
    exact ⟨hat, hfirst, hrest⟩
  · rintro ⟨hat, hfirst, hrest⟩
    exact ⟨⟨hat, fun step hstep => hat.trans (hfirst step hstep)⟩, hfirst, hrest⟩

/-- The area between `a` and `h` under the function that is `v` before the first step. -/
def area (a v : K) : List (K × K) → K → K
  | [], h => v * (h - a)
  | (t, w) :: rest, h => if h ≤ t then v * (h - a) else v * (t - a) + area t w rest h

def InUnit (v : K) (steps : List (K × K)) : Prop := (0 ≤ v ∧ v ≤ 1) ∧ ∀ step ∈ steps, 0 ≤ step.2
    ∧ step.2 ≤ 1

theorem inUnit_cons {t w : K} {rest : List (K × K)} :
    InUnit v ((t, w) :: rest) ↔ (0 ≤ v ∧ v ≤ 1) ∧ InUnit w rest := by
  unfold InUnit
  rw [List.forall_mem_cons]

theorem area_mem [IsStrictOrderedRing K] (hfrom : From a steps) (hunit : InUnit v steps)
    (hah : a ≤ h) :
    0 ≤ area a v steps h ∧ area a v steps h ≤ h - a := by
  have hslab : ∀ {a v t : K}, 0 ≤ v ∧ v ≤ 1 → a ≤ t → 0 ≤ v * (t - a) ∧ v * (t - a) ≤ t - a := by
    intro a v t hv hat
    have hlength : 0 ≤ t - a := sub_nonneg.mpr hat
    exact ⟨mul_nonneg hv.1 hlength, mul_le_of_le_one_left hlength hv.2⟩
  induction steps generalizing a v with
  | nil => exact hslab hunit.1 hah
  | cons step rest ih =>
    obtain ⟨t, w⟩ := step
    obtain ⟨hat, hrest⟩ := from_cons.mp hfrom
    obtain ⟨hv, hw⟩ := inUnit_cons.mp hunit
    by_cases hht : h ≤ t
    · rw [area, if_pos hht]
      exact hslab hv hah
    · obtain ⟨hlow, hhigh⟩ := ih hrest hw (le_of_not_ge hht)
      obtain ⟨hlow', hhigh'⟩ := hslab hv hat
      rw [area, if_neg hht]
      constructor
      · exact add_nonneg hlow' hlow
      · calc v * (t - a) + area t w rest h ≤ (t - a) + (h - t) := add_le_add hhigh' hhigh
          _ = h - a := by ring

/-- A relabelling of the line by a homomorphism of ordered fields. -/
theorem area_map {K' : Type} [Field K'] [LinearOrder K'] {f : K →+* K'} (hf : StrictMono f) :
    area (f a) (f v) (steps.map fun step => (f step.1, f step.2)) (f h) = f (area a v steps h) := by
  induction steps generalizing a v with
  | nil => simp [area]
  | cons step rest ih =>
    obtain ⟨t, w⟩ := step
    simp only [List.map_cons, area, hf.le_iff_le, ih]
    split
    · simp
    · simp

end Area

/-! ### Over the reals -/

section Integral

open MeasureTheory Set

variable {a h v : ℝ} {steps : List (ℝ × ℝ)}

theorem measurable_valueAt (v : ℝ) (steps : List (ℝ × ℝ)) : Measurable (valueAt v steps) := by
  induction steps generalizing v with
  | nil => exact measurable_const
  | cons step rest ih =>
    obtain ⟨t, w⟩ := step
    exact Measurable.ite measurableSet_Ici (ih w) measurable_const

theorem intervalIntegrable_valueAt (hunit : InUnit v steps) (a h : ℝ) :
    IntervalIntegrable (valueAt v steps) volume a h := by
  have hbound : ∀ x, ‖valueAt v steps x‖ ≤ 1 := by
    intro x
    have hvalue : 0 ≤ valueAt v steps x ∧ valueAt v steps x ≤ 1 :=
      valueAt_of_forall (P := fun v : ℝ => 0 ≤ v ∧ v ≤ 1) hunit.1 hunit.2
    rw [Real.norm_eq_abs, abs_of_nonneg hvalue.1]
    exact hvalue.2
  have hone : IntervalIntegrable (fun _ : ℝ => (1 : ℝ)) volume a h := intervalIntegrable_const
  apply hone.mono_fun (measurable_valueAt v steps).aestronglyMeasurable
  filter_upwards with x
  simpa using hbound x

/-- **The area is the integral.** -/
theorem integral_valueAt (hfrom : From a steps) (hunit : InUnit v steps) (hah : a ≤ h) :
    ∫ x in a..h, valueAt v steps x = area a v steps h := by
  induction steps generalizing a v with
  | nil =>
    simp only [valueAt, area, intervalIntegral.integral_const, smul_eq_mul]
    ring
  | cons step rest ih =>
    obtain ⟨t, w⟩ := step
    obtain ⟨hat, hrest⟩ := from_cons.mp hfrom
    obtain ⟨hv, hw⟩ := inUnit_cons.mp hunit
    have hbefore : ∀ {b : ℝ}, a ≤ b → b ≤ t → ∫ x in a..b,
        valueAt v ((t, w) :: rest) x = v * (b - a) := by
      intro b hab hbt
      calc ∫ x in a..b, valueAt v ((t, w) :: rest) x = ∫ _x in a..b, v := by
            apply intervalIntegral.integral_congr_Ioo_of_le hab
            intro x hx
            exact if_neg (not_le.mpr (hx.2.trans_le hbt))
        _ = v * (b - a) := by
            rw [intervalIntegral.integral_const, smul_eq_mul]
            ring
    by_cases hht : h ≤ t
    · rw [area, if_pos hht]
      exact hbefore hah hht
    · have hth : t ≤ h := le_of_not_ge hht
      have hafter : ∫ x in t..h, valueAt v ((t, w) :: rest) x = area t w rest h := by
        rw [← ih hrest hw hth]
        apply intervalIntegral.integral_congr_Ioo_of_le hth
        intro x hx
        exact if_pos hx.1.le
      rw [area, if_neg hht, ← hbefore hat le_rfl, ← hafter]
      exact (intervalIntegral.integral_add_adjacent_intervals (intervalIntegrable_valueAt hunit a t)
        (intervalIntegrable_valueAt hunit t h)).symm

def indicator (K : Type) [Field K] (b : Bool) : K := if b then 1 else 0

theorem indicator_mem {K : Type} [Field K] [LinearOrder K] [IsStrictOrderedRing K] (b : Bool) :
    0 ≤ indicator K b ∧ indicator K b ≤ 1 := by
  cases b with
  | false => exact ⟨le_rfl, zero_le_one⟩
  | true => exact ⟨zero_le_one, le_rfl⟩

/-- **The measure of the instants at which the step function holds.** -/
theorem volume_valueAt {b : Bool} {steps : List (ℝ × Bool)}
    (hfrom : From a (steps.map fun step => (step.1, indicator ℝ step.2))) (hah : a ≤ h) :
    volume {x | x ∈ Ico a h ∧ valueAt b steps x = true}
      = ENNReal.ofReal (area a (indicator ℝ b)
        (steps.map fun step => (step.1, indicator ℝ step.2)) h) := by
  have hunit : InUnit (indicator ℝ b) (steps.map fun step => (step.1, indicator ℝ step.2)) := by
    refine ⟨indicator_mem b, fun step hstep => ?_⟩
    obtain ⟨step', -, rfl⟩ := List.mem_map.mp hstep
    exact indicator_mem step'.2
  have hvalue : ∀ x, valueAt (indicator ℝ b) (steps.map fun step => (step.1, indicator ℝ step.2)) x
      = {x | valueAt b steps x = true}.indicator 1 x := by
    intro x
    rw [valueAt_values]
    cases hx : valueAt b steps x with
    | _ => simp [indicator, hx]
  have hmeasurable : MeasurableSet {x | valueAt b steps x = true} := by
    have hset : {x | valueAt b steps x = true}
        = Set.preimage (valueAt (indicator ℝ b)
          (steps.map fun step => (step.1, indicator ℝ step.2))) {1} := by
      ext x
      rw [Set.mem_preimage, hvalue]
      by_cases hx : valueAt b steps x = true
      · simp [hx]
      · simp [hx]
    rw [hset]
    exact measurable_valueAt _ _ (measurableSet_singleton 1)
  have hfinite : volume (Ico a h ∩ {x | valueAt b steps x = true}) ≠ ⊤ :=
    ((measure_mono inter_subset_left).trans_lt measure_Ico_lt_top).ne
  calc volume {x | x ∈ Ico a h ∧ valueAt b steps x = true}
      = ENNReal.ofReal (volume.real (Ico a h ∩ {x | valueAt b steps x = true})) :=
        (ENNReal.ofReal_toReal hfinite).symm
    _ = ENNReal.ofReal (∫ x in Ico a h, {x | valueAt b steps x = true}.indicator 1 x) := by
        rw [integral_indicator_one hmeasurable, measureReal_restrict_apply hmeasurable, inter_comm]
    _ = ENNReal.ofReal
          (∫ x in a..h, valueAt (indicator ℝ b)
            (steps.map fun step => (step.1, indicator ℝ step.2)) x) := by
        rw [intervalIntegral.integral_of_le hah, integral_Ico_eq_integral_Ioc]
        simp only [hvalue]
    _ = _ := by rw [integral_valueAt hfrom hunit hah]

end Integral

end StepFunction
