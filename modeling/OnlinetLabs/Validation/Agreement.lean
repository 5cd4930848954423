import OnlinetLabs.Validation.Runner

/-!
# Streamed and silent validation

`run_validation` and `evaluate_spec` are the same loops written twice. The first appends a dict of
its own where the second appends the record, so the key `observed` of a check nobody could observe
is in one and not in the other.
-/

namespace OnlinetLabs.Validation

open Generator

variable {catalogs : Catalogs} {locale : Locale} {outcomes : Outcomes} {spec : Spec}

/-! ### What is compared -/

def checkResults (outcome : Nat → Outcome) (idx : Nat) (checks : List Check) : List CheckResult :=
  (checks.zipIdx idx).map fun check => evalCheck check.1 (outcome check.2)

def stepsResults (outcomes : Outcomes) (n : Nat) (steps : List Step) : List CheckResult :=
  (steps.zipIdx n).flatMap fun step => checkResults (outcomes step.2) 0 step.1.checks

def results (outcomes : Outcomes) (spec : Spec) :
    List CheckResult := stepsResults outcomes 0 spec.steps

/-- The event `run.finish` of a run and the steps yielded with it. -/
def finish? (run : Generator Yielded PUnit) : Option Yielded :=
  run.yielded.find? fun y => y.1.type == "run.finish"

/-- The stream ends with the steps that `evaluate_spec` returns, and tells whether all checks are
ok. -/
structure Agrees (catalogs : Catalogs) (locale : Locale) (outcomes : Outcomes)
    (spec : Spec) : Prop where
  steps : (finish? (runValidation catalogs locale outcomes spec)).map (·.2)
    = evaluateSpec catalogs locale outcomes spec
  verdict : ∀ event steps,
    finish? (runValidation catalogs locale outcomes spec) = some (event, steps) →
    ∃ ok, event = runFinish ok ∧ (ok = true ↔ ∀ result ∈ results outcomes spec, result.ok = true)

/-- A check nobody could observe, with an error that `t` cannot render. -/
def CheckResult.Unrenderable (catalogs : Catalogs) (locale : Locale)
    (result : CheckResult) : Prop :=
  result.observed = false ∧ renderError catalogs locale result = none

/-! ### One loop simulates the other -/

/-- A record as the stream appends it. -/
def CheckRecord.unmarked (record : CheckRecord) : CheckRecord := { record with observed := none }

def StepRecord.unmarked (record : StepRecord) : StepRecord :=
  { record with checks := record.checks.map (·.unmarked) }

theorem CheckRecord.unmarked_eq_self {record : CheckRecord} :
    record.unmarked = record ↔ record.observed = none := by
  obtain ⟨kind, params, ok, expected, actual, observed⟩ := record
  simp [unmarked, eq_comm]

/-- No check of the record says that it could not be observed. -/
theorem StepRecord.unmarked_eq_self {record : StepRecord} :
    record.unmarked = record ↔ ∀ check ∈ record.checks, check.observed = none := by
  obtain ⟨id, title, ok, checks⟩ := record
  have hchecks : checks.map (·.unmarked) = checks ↔ ∀ check ∈ checks, check.observed = none := by
    conv_lhs => rhs; rw [← List.map_id checks]
    simp only [List.map_inj_left, id_eq, CheckRecord.unmarked_eq_self]
  simpa [unmarked] using hchecks

theorem map_unmarked_eq_self {records : List StepRecord} :
    records.map (·.unmarked) = records
      ↔ ∀ record ∈ records, ∀ check ∈ record.checks, check.observed = none := by
  conv_lhs => rhs; rw [← List.map_id records]
  simp only [List.map_inj_left, id_eq, StepRecord.unmarked_eq_self]

section Loops

variable {outcome : Nat → Outcome} {idx n : Nat} {check : Check} {checks : List Check}
  {steps : List Step}
  {step : Step} {result : CheckResult} {record : CheckRecord} {taken taken' : List CheckRecord}
  {accumulated accumulated' : List StepRecord} {stepId : String} {ok ok' : Bool}

theorem checkRecord_eq_some (h : checkRecord catalogs locale check result = some record) :
    record.unmarked = {
        kind := check.kind
        params := check.params
        ok := result.ok
        expected := result.expected
        actual := record.actual }
      ∧ record.observed = (if result.observed then none else some false) := by
  unfold checkRecord at h
  split at h
  · rename_i hobserved
    rw [Option.some.injEq] at h
    subst h
    simp [CheckRecord.unmarked, hobserved]
  · rename_i hobserved
    rw [Option.map_eq_some_iff] at h
    obtain ⟨error, -, rfl⟩ := h
    simp [CheckRecord.unmarked, hobserved]

theorem checkRecord_eq_none :
    checkRecord catalogs locale check result = none ↔ result.Unrenderable catalogs locale := by
  unfold checkRecord CheckResult.Unrenderable
  split
  · rename_i hobserved
    simp [hobserved]
  · rename_i hobserved
    simp [hobserved]

theorem result_runChecks (taken : List CheckRecord) :
    (runChecks catalogs locale accumulated stepId outcome idx checks
      (taken.map (·.unmarked)) ok).result
      = (evaluateChecks catalogs locale outcome idx checks taken ok).map
          fun done => (done.1.map (·.unmarked), done.2) := by
  induction checks generalizing idx taken ok with
  | nil => rfl
  | cons check checks ih =>
      simp only [runChecks, evaluateChecks, result_bind, result_yield, result_yieldAll,
        result_ofOption, Option.bind_some, Option.bind_eq_bind]
      cases hrecord : checkRecord catalogs locale check (evalCheck check (outcome idx)) with
      | none => rfl
      | some record =>
          rw [Option.bind_some, Option.bind_some, ← ih, List.map_append, List.map_singleton,
            (checkRecord_eq_some hrecord).1]

theorem result_runSteps (accumulated : List StepRecord) :
    (runSteps catalogs locale outcomes n steps (accumulated.map (·.unmarked))).result
      = (evaluateSteps catalogs locale outcomes n steps accumulated).map (·.map (·.unmarked)) := by
  induction steps generalizing n accumulated with
  | nil => rfl
  | cons step steps ih =>
      have hchecks :
          (runChecks catalogs locale (accumulated.map (·.unmarked)) step.id (outcomes n) 0
            step.checks [] true).result
            = (evaluateChecks catalogs locale (outcomes n) 0 step.checks [] true).map
                fun done => (done.1.map (·.unmarked), done.2) := result_runChecks []
      simp only [runSteps, runStep, evaluateSteps, result_bind, result_yield, result_pure,
        Option.bind_some, Option.bind_eq_bind, hchecks]
      cases evaluateChecks catalogs locale (outcomes n) 0 step.checks [] true with
      | none => rfl
      | some done =>
          simp only [Option.map_some, Option.bind_some]
          rw [← ih, List.map_append, List.map_singleton]
          rfl

/-! ### What the silent loop returns -/

theorem evaluateChecks_eq_some
    (h : evaluateChecks catalogs locale outcome idx checks taken ok = some (taken', ok')) :
    ((∀ record ∈ taken', record.observed = none) ↔ (∀ record ∈ taken, record.observed = none)
        ∧ ∀ result ∈ checkResults outcome idx checks, result.observed = true)
      ∧ (ok' = true ↔ ok = true ∧ ∀ result ∈ checkResults outcome idx checks,
        result.ok = true) := by
  induction checks generalizing idx taken ok with
  | nil =>
      cases h
      simp [checkResults]
  | cons check checks ih =>
      simp only [evaluateChecks, Option.bind_eq_bind, Option.bind_eq_some_iff] at h
      obtain ⟨record, hrecord, hrest⟩ := h
      obtain ⟨hobserved, hok⟩ := ih hrest
      have hmark : record.observed = none ↔ (evalCheck check (outcome idx)).observed = true := by
        rw [(checkRecord_eq_some hrecord).2]
        cases (evalCheck check (outcome idx)).observed with
        | false => simp
        | true => simp
      have hcons : checkResults outcome idx (check :: checks)
          = evalCheck check (outcome idx) :: checkResults outcome (idx + 1) checks := rfl
      rw [hcons, List.forall_mem_cons, List.forall_mem_cons, hobserved, hok, List.forall_mem_append,
        List.forall_mem_singleton, hmark, Bool.and_eq_true, and_assoc, and_assoc]
      exact ⟨Iff.rfl, Iff.rfl⟩

theorem evaluateChecks_eq_none : evaluateChecks catalogs locale outcome idx checks taken ok = none
    ↔ ∃ result ∈ checkResults outcome idx checks, result.Unrenderable catalogs locale := by
  induction checks generalizing idx taken ok with
  | nil => simp [evaluateChecks, checkResults]
  | cons check checks ih =>
      have hcons : checkResults outcome idx (check :: checks)
          = evalCheck check (outcome idx) :: checkResults outcome (idx + 1) checks := rfl
      simp only [evaluateChecks, Option.bind_eq_bind]
      rw [hcons, List.exists_mem_cons_iff, ← checkRecord_eq_none]
      cases hrecord : checkRecord catalogs locale check (evalCheck check (outcome idx)) with
      | none => simp
      | some record => simp [ih]

theorem evaluateSteps_eq_some
    (h : evaluateSteps catalogs locale outcomes n steps accumulated = some accumulated') :
    ((∀ record ∈ accumulated', ∀ check ∈ record.checks, check.observed = none)
        ↔ (∀ record ∈ accumulated, ∀ check ∈ record.checks, check.observed = none)
          ∧ ∀ result ∈ stepsResults outcomes n steps, result.observed = true)
      ∧ ((∀ record ∈ accumulated', record.ok = true) ↔ (∀ record ∈ accumulated, record.ok = true)
          ∧ ∀ result ∈ stepsResults outcomes n steps, result.ok = true) := by
  induction steps generalizing n accumulated with
  | nil =>
      cases h
      simp [stepsResults]
  | cons step steps ih =>
      simp only [evaluateSteps, Option.bind_eq_bind, Option.bind_eq_some_iff] at h
      obtain ⟨⟨checks, ok⟩, hchecks, hrest⟩ := h
      obtain ⟨hobserved, hok⟩ := ih hrest
      obtain ⟨hobserved', hok'⟩ := evaluateChecks_eq_some hchecks
      have hcons : stepsResults outcomes n (step :: steps)
          = checkResults (outcomes n) 0 step.checks ++ stepsResults outcomes (n + 1) steps := rfl
      simp only [List.not_mem_nil, false_imp_iff, implies_true, true_and] at hobserved' hok'
      rw [hcons, List.forall_mem_append, List.forall_mem_append, hobserved, hok,
        List.forall_mem_append, List.forall_mem_append, List.forall_mem_singleton,
        List.forall_mem_singleton, hobserved', hok',
        and_assoc, and_assoc]
      exact ⟨Iff.rfl, Iff.rfl⟩

theorem evaluateSteps_eq_none : evaluateSteps catalogs locale outcomes n steps accumulated = none
    ↔ ∃ result ∈ stepsResults outcomes n steps, result.Unrenderable catalogs locale := by
  induction steps generalizing n accumulated with
  | nil => simp [evaluateSteps, stepsResults]
  | cons step steps ih =>
      have hcons : stepsResults outcomes n (step :: steps)
          = checkResults (outcomes n) 0 step.checks ++ stepsResults outcomes (n + 1) steps := rfl
      have hchecks : evaluateChecks catalogs locale (outcomes n) 0 step.checks [] true = none
          ↔ ∃ result ∈ checkResults (outcomes n) 0 step.checks,
            result.Unrenderable catalogs locale :=
        evaluateChecks_eq_none
      simp only [evaluateSteps, Option.bind_eq_bind, hcons, List.mem_append,
        or_and_right, exists_or, ← hchecks]
      cases evaluateChecks catalogs locale (outcomes n) 0 step.checks [] true with
      | none => simp
      | some done => simp [ih]

theorem map_ok_evaluateChecks
    (h : evaluateChecks catalogs locale outcome idx checks taken ok = some (taken', ok')) :
    taken'.map (·.ok) = taken.map (·.ok) ++ (checkResults outcome idx checks).map (·.ok) := by
  induction checks generalizing idx taken ok with
  | nil =>
      cases h
      simp [checkResults]
  | cons check checks ih =>
      simp only [evaluateChecks, Option.bind_eq_bind, Option.bind_eq_some_iff] at h
      obtain ⟨record, hrecord, hrest⟩ := h
      have hok : record.ok = (evalCheck check (outcome idx)).ok :=
        congrArg CheckRecord.ok (checkRecord_eq_some hrecord).1
      have hcons : checkResults outcome idx (check :: checks)
          = evalCheck check (outcome idx) :: checkResults outcome (idx + 1) checks := rfl
      rw [ih hrest, hcons, List.map_append, List.map_singleton, hok, List.map_cons,
        List.append_assoc, List.singleton_append]

theorem map_ok_evaluateSteps
    (h : evaluateSteps catalogs locale outcomes n steps accumulated = some accumulated') :
    (accumulated'.flatMap (·.checks)).map (·.ok)
      = (accumulated.flatMap (·.checks)).map (·.ok)
        ++ (stepsResults outcomes n steps).map (·.ok) := by
  induction steps generalizing n accumulated with
  | nil =>
      cases h
      simp [stepsResults]
  | cons step steps ih =>
      simp only [evaluateSteps, Option.bind_eq_bind, Option.bind_eq_some_iff] at h
      obtain ⟨⟨checks, ok⟩, hchecks, hrest⟩ := h
      have hcons : stepsResults outcomes n (step :: steps)
          = checkResults (outcomes n) 0 step.checks ++ stepsResults outcomes (n + 1) steps := rfl
      have hstep : checks.map (·.ok) = (checkResults (outcomes n) 0 step.checks).map (·.ok) :=
        map_ok_evaluateChecks hchecks
      rw [ih hrest, hcons, List.flatMap_append, List.flatMap_singleton, List.map_append,
        List.map_append, hstep, List.append_assoc]

/-- A snapshot shows all checks ok exactly where all are. -/
theorem evaluateSpec_ok {snapshot : List StepRecord}
    (h : evaluateSpec catalogs locale outcomes spec = some snapshot) :
    (∀ check ∈ snapshot.flatMap (·.checks), check.ok = true)
      ↔ ∀ result ∈ results outcomes spec, result.ok = true := by
  have hmap : (snapshot.flatMap (·.checks)).map (·.ok) = (results outcomes spec).map (·.ok) :=
    map_ok_evaluateSteps h
  rw [← List.forall_mem_map (P := (· = true)), hmap, List.forall_mem_map]

/-! ### The last event -/

/-- Nothing before the last event of a run is its `run.finish`. -/
def BeforeFinish (y : Yielded) : Prop := y.1.type ≠ "run.finish"

theorem yields_runChecks : Yields BeforeFinish
    (runChecks catalogs locale accumulated stepId outcome idx checks taken ok) := by
  induction checks generalizing idx taken ok with
  | nil => exact yields_pure
  | cons check checks ih =>
      rw [runChecks]
      refine Yields.bind (yields_yield ?_) fun _ => ?_
      · simp [BeforeFinish, checkStart]
      refine Yields.bind (yields_yieldAll ?_) fun _ => ?_
      · simp [BeforeFinish, checkLog]
      refine Yields.bind yields_ofOption fun record => ?_
      refine Yields.bind (yields_yield ?_) fun _ => ih
      simp [BeforeFinish, checkResult]

theorem yields_runStep :
    Yields BeforeFinish (runStep catalogs locale accumulated outcome step) := by
  rw [runStep]
  refine Yields.bind (yields_yield ?_) fun _ => ?_
  · simp [BeforeFinish, stepStart]
  refine Yields.bind yields_runChecks fun done => ?_
  refine Yields.bind (yields_yield ?_) fun _ => yields_pure
  simp [BeforeFinish, stepResult]

theorem yields_runSteps :
    Yields BeforeFinish (runSteps catalogs locale outcomes n steps accumulated) := by
  induction steps generalizing n accumulated with
  | nil => exact yields_pure
  | cons step steps ih =>
      rw [runSteps]
      exact Yields.bind yields_runStep fun record => ih

end Loops

theorem overallOk_eq_true {accumulated : List StepRecord} :
    overallOk accumulated = true ↔ ∀ record ∈ accumulated, record.ok = true := by
  cases accumulated with
  | nil => simp [overallOk]
  | cons record records => simp [overallOk]

theorem yielded_runValidation : (runValidation catalogs locale outcomes spec).yielded
    = (runStart spec.steps.length, [])
      :: ((runSteps catalogs locale outcomes 0 spec.steps []).yielded
        ++ ((runSteps catalogs locale outcomes 0 spec.steps []).result.map fun accumulated =>
            [(runFinish (overallOk accumulated), accumulated)]).getD []) := by
  rw [runValidation, yielded_bind, result_yield, Option.map_some, Option.getD_some, yielded_bind]
  rfl

/-- A run comes to `run.finish` unless something raises. -/
theorem finish?_eq : finish? (runValidation catalogs locale outcomes spec)
    = (runSteps catalogs locale outcomes 0 spec.steps []).result.map fun accumulated =>
        (runFinish (overallOk accumulated), accumulated) := by
  have hstart : ((runStart spec.steps.length).type == "run.finish") = false := rfl
  have hbefore : (runSteps catalogs locale outcomes 0 spec.steps []).yielded.find?
      (fun y => y.1.type == "run.finish") = none :=
    List.find?_eq_none.mpr fun y hy => by simpa [BeforeFinish] using yields_runSteps y hy
  rw [finish?, yielded_runValidation, List.find?_cons_of_neg (by simp [hstart]),
    List.find?_append, hbefore]
  cases (runSteps catalogs locale outcomes 0 spec.steps []).result with
  | none => rfl
  | some accumulated => rfl

/-- It comes to the steps of the silent run without their marks. -/
theorem finish?_runValidation : finish? (runValidation catalogs locale outcomes spec)
    = (evaluateSpec catalogs locale outcomes spec).map fun steps =>
        (runFinish (overallOk steps), steps.map (·.unmarked)) := by
  have hsteps : (runSteps catalogs locale outcomes 0 spec.steps []).result
      = (evaluateSpec catalogs locale outcomes spec).map (·.map (·.unmarked)) := result_runSteps []
  rw [finish?_eq, hsteps]
  cases evaluateSpec catalogs locale outcomes spec with
  | none => rfl
  | some steps =>
      have hok : overallOk (steps.map (·.unmarked)) = overallOk steps := by
        cases steps with
        | nil => rfl
        | cons step steps => simp [overallOk, StepRecord.unmarked, Function.comp_def]
      simp [hok]

/-- **When they agree**: exactly where every check is observed, or neither comes to an end. -/
theorem agrees_iff (catalogs : Catalogs) (locale : Locale) (outcomes : Outcomes) (spec : Spec) :
    Agrees catalogs locale outcomes spec
      ↔ (∀ result ∈ results outcomes spec, result.observed = true)
        ∨ ∃ result ∈ results outcomes spec, result.Unrenderable catalogs locale := by
  have hnone : evaluateSpec catalogs locale outcomes spec = none
      ↔ ∃ result ∈ results outcomes spec, result.Unrenderable catalogs locale :=
        evaluateSteps_eq_none
  have hfinish : finish? (runValidation catalogs locale outcomes spec)
      = (evaluateSpec catalogs locale outcomes spec).map fun steps =>
          (runFinish (overallOk steps), steps.map (·.unmarked)) := finish?_runValidation
  rw [← hnone]
  cases hspec : evaluateSpec catalogs locale outcomes spec with
  | none =>
      rw [hspec, Option.map_none] at hfinish
      refine iff_of_true ⟨by rw [hfinish, hspec]; rfl, ?_⟩ (Or.inr rfl)
      intro event steps h
      rw [hfinish] at h
      cases h
  | some steps =>
      obtain ⟨hobserved, hok⟩ := evaluateSteps_eq_some hspec
      rw [hspec, Option.map_some] at hfinish
      have hverdict : ∀ event steps',
          finish? (runValidation catalogs locale outcomes spec) = some (event, steps') →
            ∃ ok, event = runFinish ok
              ∧ (ok = true ↔ ∀ result ∈ results outcomes spec, result.ok = true) := by
        intro event steps' h
        rw [hfinish, Option.some.injEq, Prod.mk.injEq] at h
        refine ⟨_, h.1.symm, ?_⟩
        rw [overallOk_eq_true, hok]
        simp [results]
      have hsteps : (finish? (runValidation catalogs locale outcomes spec)).map (·.2)
            = evaluateSpec catalogs locale outcomes spec
          ↔ ∀ result ∈ results outcomes spec, result.observed = true := by
        rw [hfinish, hspec, Option.map_some, Option.some.injEq, map_unmarked_eq_self, hobserved]
        simp [results]
      simp only [reduceCtorEq, or_false]
      exact ⟨fun h => hsteps.mp h.steps, fun h => ⟨hsteps.mpr h, hverdict⟩⟩

/-- The message of the English catalogue, with its parameters left out. -/
def plainCatalogs : Catalogs where
  message _ key :=
    if key = "error.validation.console_unreadable" then some "Could not read the console" else none
  format message _ := some message

def leaseSpec : Spec :=
  { steps := [{
      id := "dhcp-lease"
      checks := [{ kind := "vpcs.ip_in_subnet", params := [("node", .str "PC1")] }] }] }

/-- What `vpcs_ip_in_subnet` returns when the console stays unreadable. -/
def unreadable : CheckResult :=
  { ok := false, observed := false, errorKey := "error.validation.console_unreadable" }

/-- **A console nobody could read.** The background observation says so, the record of the run does
not. -/
theorem unobserved_check_forgotten :
    ¬ Agrees plainCatalogs .en (fun _ _ => .returns unreadable) leaseSpec := by
  intro h
  have hsteps := h.steps
  rw [finish?_runValidation] at hsteps
  simp [evaluateSpec, evaluateSteps, evaluateChecks, leaseSpec, unreadable, evalCheck, checkRecord,
    renderError, Catalogs.t, plainCatalogs, StepRecord.unmarked, CheckRecord.unmarked] at hsteps

end OnlinetLabs.Validation
