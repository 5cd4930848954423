import OnlinetLabs.Analytics.CheckIdentity
import OnlinetLabs.Validation.Service
import OnlinetLabs.Validation.Silence

/-!
# Outages

The observer asks the devices at every poll. A check that gets no answer is not ok, and the
difference does not look at whether it was observed, so an outage is told as the learner's failure.
-/

namespace OnlinetLabs.Analytics

open Validation (Catalogs Spec Step Check Outcomes CheckRecord StepRecord CheckResult Python
  evaluateSpec evalCheck checkResults stepsResults results outcomesOf)
open Validation.Handlers
  (RunContext Devices outcomeOf Request Attempt Exchange not_ok_of_unanswered)

/-! ### What is held against the learner -/

/-- The nodes a poll finds, and what the devices answer to each check of the spec. -/
structure Look where
  ctx : RunContext
  devices : Nat → Devices

namespace Look

variable (py : Python) (look : Look) (spec : Spec) (i : Nat)

def taken : List Validation.Outcome :=
  spec.checks.zipIdx.map fun check => outcomeOf py look.ctx check.1 (look.devices check.2)

def outcomes : Outcomes := outcomesOf spec (look.taken py spec)

def Unanswered :
    Prop := ∃ check ∈ spec.checks[i]?,
      Validation.Handlers.Unanswered py look.ctx check (look.devices i)

/-- The check at a place is ok by what is answered. -/
def Passes : Prop :=
  ∀ check ∈ spec.checks[i]?,
    (evalCheck check (outcomeOf py look.ctx check (look.devices i))).ok = true

end Look

def HeldAgainst (e : ProgressEvent) :
    Prop := e.action ∈ ["check_regressed", "check_failing", "check_retry"]

def eventAt (prev curr : List StepRecord) (i : Nat) : Option ProgressEvent :=
  (checksOf curr)[i]?.bind (diffCheck (checkIndex prev))

/-- Of a check that the environment did not answer for, in either poll, no event is held against the
learner. -/
def OutagesSpared (py : Python) (spec : Spec) (before after : Look)
    (prev curr : List StepRecord) : Prop :=
  ∀ i, before.Unanswered py spec i ∨ after.Unanswered py spec i → ∀ e ∈ eventAt prev curr i,
    ¬HeldAgainst e

/-- The later poll is answered for every check, and finds ok what the earlier one was not answered
for. -/
structure BackInOrder (py : Python) (spec : Spec) (before after : Look) : Prop where
  answered : ∀ i, ¬after.Unanswered py spec i
  passes : ∀ i, before.Unanswered py spec i → after.Passes py spec i

/-! ### The events by their places -/

section Diff

variable {prev curr : List StepRecord} {pl c : CheckRecord} {i : Nat}

/-- The difference consists of the events at the places. -/
theorem diffSnapshots_eq_filterMap (prev curr : List StepRecord) :
    diffSnapshots (some prev) curr
      = (List.range (checksOf curr).length).filterMap (eventAt prev curr) := by
  have hplaces : (List.range (checksOf curr).length).map (fun i => (checksOf curr)[i]?)
      = (checksOf curr).map some := by
    apply List.ext_getElem
    · simp
    · intro i hi hi'
      simp
  calc diffSnapshots (some prev) curr = (checksOf curr).filterMap (diffCheck (checkIndex prev)) :=
    rfl
    _ = ((checksOf curr).map some).filterMap fun c => c.bind (diffCheck (checkIndex prev)) := by
        rw [List.filterMap_map]
        rfl
    _ = _ := by
        rw [← hplaces, List.filterMap_map]
        rfl

theorem heldAgainst_ownEvent : (∃ e ∈ ownEvent pl c, HeldAgainst e) ↔ c.ok = false := by
  unfold ownEvent HeldAgainst
  cases pl.ok with
  | true =>
    cases c.ok with
    | _ => simp [regressedEvent, failureEvent]
  | false =>
    cases c.ok with
    | true => simp [passedEvent]
    | false =>
      cases sameActual pl c with
      | _ => simp [failingEvent, retryEvent, failureEvent]

/-- Whatever was seen before, a check is held against the learner exactly where it is not ok now. -/
theorem heldAgainst_iff (h : Aligned prev curr) (hc : (checksOf curr)[i]? = some c) :
    (∃ e ∈ eventAt prev curr i, HeldAgainst e) ↔ c.ok = false := by
  obtain ⟨hi, hget⟩ := List.getElem?_eq_some_iff.mp hc
  have hi' : i < (checksOf prev).length := h.length.trans_gt hi
  have hpair : ((checksOf prev)[i], c) ∈ (checksOf prev).zip (checksOf curr) := by
    rw [List.mem_iff_getElem]
    refine ⟨i, by rw [List.length_zip]; omega, ?_⟩
    rw [List.getElem_zip, hget]
  obtain ⟨pl, hpl⟩ := exists_lastWithKey h hpair
  rw [eventAt, hc, Option.bind_some, diffCheck_of_last hpl, heldAgainst_ownEvent]

end Diff

/-! ### The checks by their places -/

section Places

variable {spec : Spec} {taken : List Validation.Outcome} {py : Python} {look : Look}

theorem getElem?_checkResults (outcome : Nat → Validation.Outcome) (idx : Nat) (checks : List Check)
    (i : Nat) :
    (checkResults outcome idx checks)[i]? = checks[i]?.map fun check =>
      evalCheck check (outcome (idx + i)) := by
  rw [checkResults, List.getElem?_map, List.getElem?_zipIdx, Option.map_map]
  rfl

theorem getElem?_stepsResults {done rest : List Step} (hsteps : spec.steps = done ++ rest)
    (i : Nat) :
    (stepsResults (outcomesOf spec taken) done.length rest)[i]?
      = (rest.flatMap (·.checks))[i]?.map fun check =>
      evalCheck check (taken.getD ((done.flatMap (·.checks)).length + i) .unknown) := by
  induction rest generalizing done i with
  | nil => rfl
  | cons step rest ih =>
    have hcons : stepsResults (outcomesOf spec taken) done.length (step :: rest)
        = checkResults (outcomesOf spec taken done.length) 0 step.checks
          ++ stepsResults (outcomesOf spec taken) (done.length + 1) rest := rfl
    have hlength : (checkResults (outcomesOf spec taken done.length) 0 step.checks).length
        = step.checks.length := by
      rw [checkResults, List.length_map, List.length_zipIdx]
    have htake : spec.steps.take done.length = done := by
      rw [hsteps, List.take_left]
    rw [hcons, List.flatMap_cons]
    by_cases hi : i < step.checks.length
    · rw [List.getElem?_append_left (hlength ▸ hi), List.getElem?_append_left hi,
        getElem?_checkResults, Nat.zero_add]
      simp only [outcomesOf, htake]
    · have hi' : step.checks.length ≤ i := Nat.le_of_not_lt hi
      have hdone : spec.steps = (done ++ [step]) ++ rest := by
        rw [hsteps, List.append_assoc, List.singleton_append]
      have hrest := ih hdone (i - step.checks.length)
      rw [List.length_append, List.length_singleton, List.flatMap_append, List.flatMap_singleton,
        List.length_append, Nat.add_assoc, Nat.add_sub_cancel' hi'] at hrest
      rw [List.getElem?_append_right (hlength ▸ hi'), List.getElem?_append_right hi',
        hlength, hrest]

variable {catalogs : Catalogs} {locale : Validation.Locale} {snapshot : List StepRecord}

/-- A snapshot shows a check ok exactly where it is by what was answered. -/
theorem ok_at (h : evaluateSpec catalogs locale (look.outcomes py spec) spec = some snapshot)
    (i : Nat) :
    (checksOf snapshot)[i]?.map (·.ok)
      = spec.checks[i]?.map fun check =>
        (evalCheck check (outcomeOf py look.ctx check (look.devices i))).ok := by
  have hmap : (checksOf snapshot).map (·.ok) = (results (look.outcomes py spec) spec).map (·.ok) :=
    Validation.map_ok_evaluateSteps h
  have hresult : (results (look.outcomes py spec) spec)[i]? = spec.checks[i]?.map fun check =>
      evalCheck check ((look.taken py spec).getD (0 + i) .unknown) :=
        getElem?_stepsResults (List.nil_append _).symm i
  rw [← List.getElem?_map, hmap, List.getElem?_map, hresult, Option.map_map]
  cases hcheck : spec.checks[i]? with
  | none => rfl
  | some check =>
    have htaken :
        (look.taken py spec)[i]? = some (outcomeOf py look.ctx check (look.devices i)) := by
      rw [Look.taken, List.getElem?_map, List.getElem?_zipIdx, hcheck, Nat.zero_add]
      rfl
    rw [Option.map_some, Option.map_some, Function.comp_apply, Nat.zero_add,
      List.getD_eq_getElem?_getD, htaken, Option.getD_some]

end Places

/-! ### The law -/

variable {catalogs catalogs' : Catalogs} {locale locale' : Validation.Locale} {py : Python}
  {spec : Spec}
  {before after : Look} {prev curr : List StepRecord}

/-- Whatever was found before, a check is held against the learner exactly where it is not ok by
what is answered. -/
theorem heldAgainst_at (hprev : evaluateSpec catalogs locale (before.outcomes py spec) spec
    = some prev)
    (hcurr : evaluateSpec catalogs' locale' (after.outcomes py spec) spec = some curr) {i : Nat}
    {check : Check}
    (hcheck : spec.checks[i]? = some check) : (∃ e ∈ eventAt prev curr i, HeldAgainst e)
      ↔ (evalCheck check (outcomeOf py after.ctx check (after.devices i))).ok = false := by
  have haligned : Aligned prev curr :=
    (map_identity_evaluateSpec hprev).trans (map_identity_evaluateSpec hcurr).symm
  have hok := ok_at hcurr i
  rw [hcheck, Option.map_some, Option.map_eq_some_iff] at hok
  obtain ⟨c, hc, hok⟩ := hok
  rw [heldAgainst_iff haligned hc, hok]

/-- **When no outage is held against the learner.** -/
theorem outagesSpared_iff (hprev : evaluateSpec catalogs locale (before.outcomes py spec) spec
    = some prev)
    (hcurr : evaluateSpec catalogs' locale' (after.outcomes py spec) spec = some curr) :
    OutagesSpared py spec before after prev curr ↔ BackInOrder py spec before after := by
  constructor
  · intro h
    have hok : ∀ i, before.Unanswered py spec i ∨ after.Unanswered py spec i →
        after.Passes py spec i := by
      intro i hi check hcheck
      rw [← Bool.not_eq_false, ← heldAgainst_at hprev hcurr hcheck]
      rintro ⟨e, he, hagainst⟩
      exact h i hi e he hagainst
    refine ⟨fun i hi => ?_, fun i hi => hok i (Or.inl hi)⟩
    obtain ⟨check, hcheck, hsilent⟩ := hi
    have hpasses := hok i (Or.inr ⟨check, hcheck, hsilent⟩) check hcheck
    rw [not_ok_of_unanswered hsilent] at hpasses
    cases hpasses
  · intro h i hi e he hagainst
    obtain ⟨check, hcheck, hsilent⟩ := hi.resolve_right (h.answered i)
    have hpasses := h.passes i ⟨check, hcheck, hsilent⟩ check hcheck
    rw [(heldAgainst_at hprev hcurr hcheck).mp ⟨e, he, hagainst⟩] at hpasses
    cases hpasses

/-! ### A console that is gone -/

/-- Python on ASCII, as far as the checks below go. -/
def asciiPython : Python where
  alnum := Console.asciiOnly
  digit _ := none
  lower text := text.map Char.toLower
  upper text := text.map Char.toUpper
  repr value := value.dumpsSorted
  inNetwork _ _ := false
  typeError operation _ := operation

def routedSpec : Spec :=
  { steps := [{
      id := "routing"
      checks := [
        { kind := "vpcs.show_ip", params := [("node", .str "PC1")],
          expect := some [("ip", .str "10.0.1.2/24"), ("gateway", .str "10.0.1.1")] },
        { kind := "frr.ospf_neighbor", params := [("node", .str "R1")],
          expect := some [("neighbor_id", .str "2.2.2.2"), ("state", .str "Full")] }] }] }

def routedContext : RunContext where
  gns3Host := "gns3"
  nodesByName := ⟨[("PC1", ⟨some 5001, ""⟩), ("R1", ⟨some 5002, ""⟩)]⟩
  nodeIds := ⟨[("PC1", "9e17"), ("R1", "a2f0")]⟩
  gns3ProjectId := "71c4"

def routedDevices : Devices
  | .showIp _ => fun _ => .printed "IP/MASK     : 10.0.1.2/24\nGATEWAY     : 10.0.1.1\n".toList []
  | .ping _ _ => .printed []
  | .cisco _ _ => .printed []
  | .vtysh _ _ _ => .printed "2.2.2.2           1 Full/DR         3m12s\n".toList

def goneDevices : Devices
  | .showIp _ => fun _ => .failed "Connection refused"
  | .ping _ _ => .refused "Connection refused"
  | .cisco _ _ => .refused "Connection refused"
  | .vtysh _ _ _ => .refused "Server error '503 Service Unavailable'"

def whileUp : Look := ⟨routedContext, fun _ => routedDevices⟩

def whileGone : Look := ⟨routedContext, fun _ => goneDevices⟩

def routedSnapshot (look : Look) : Option (List StepRecord) :=
  evaluateSpec Validation.plainCatalogs .en (look.outcomes asciiPython routedSpec) routedSpec

def actionsOf (before after : Look) : Option (List String) := do
  let prev ← routedSnapshot before
  let curr ← routedSnapshot after
  return (diffSnapshots (some prev) curr).map (·.action)

theorem exists_snapshots {before after : Look} {actions : List String}
    (h : actionsOf before after = some actions) :
    ∃ prev curr, routedSnapshot before = some prev ∧ routedSnapshot after = some curr
      ∧ (diffSnapshots (some prev) curr).map (·.action) = actions := by
  simp only [actionsOf, Option.bind_eq_bind, Option.bind_eq_some_iff, Option.pure_def,
    Option.some.injEq] at h
  obtain ⟨prev, hprev, curr, hcurr, hactions⟩ := h
  exact ⟨prev, curr, hprev, hcurr, hactions⟩

theorem outagesSpared_iff_routed :
    ∃ prev curr, routedSnapshot whileGone = some prev ∧ routedSnapshot whileUp = some curr
      ∧ (OutagesSpared asciiPython routedSpec whileGone whileUp prev curr
        ↔ BackInOrder asciiPython routedSpec whileGone whileUp) := by
  have hactions : actionsOf whileGone whileUp = some ["check_passed", "check_passed"] := by
    decide +kernel
  obtain ⟨prev, curr, hprev, hcurr, -⟩ := exists_snapshots hactions
  exact ⟨prev, curr, hprev, hcurr, outagesSpared_iff hprev hcurr⟩

/-- **No device can be reached, and the learner has broken what worked.** -/
theorem outage_held_against :
    ∃ prev curr, routedSnapshot whileUp = some prev ∧ routedSnapshot whileGone = some curr
      ∧ (whileGone.Unanswered asciiPython routedSpec 0
        ∧ whileGone.Unanswered asciiPython routedSpec 1)
      ∧ (diffSnapshots (some prev) curr).map (·.action) = ["check_regressed", "check_regressed"]
      ∧ ¬OutagesSpared asciiPython routedSpec whileUp whileGone prev curr := by
  have hactions : actionsOf whileUp whileGone = some ["check_regressed", "check_regressed"] := by
    decide +kernel
  obtain ⟨prev, curr, hprev, hcurr, hregressed⟩ := exists_snapshots hactions
  have hconsole : whileGone.Unanswered asciiPython routedSpec 0 :=
    ⟨_, rfl, _, rfl, Or.inl fun _ _ => trivial⟩
  have hvtysh : whileGone.Unanswered asciiPython routedSpec 1 := ⟨_, rfl, _, rfl, Or.inl trivial⟩
  refine ⟨prev, curr, hprev, hcurr, ⟨hconsole, hvtysh⟩, hregressed, fun h => ?_⟩
  obtain ⟨check, hcheck, hsilent⟩ := hconsole
  obtain ⟨e, he, hagainst⟩ := (heldAgainst_at hprev hcurr hcheck).mpr (not_ok_of_unanswered hsilent)
  exact h 0 (Or.inr ⟨check, hcheck, hsilent⟩) e he hagainst

end OnlinetLabs.Analytics
