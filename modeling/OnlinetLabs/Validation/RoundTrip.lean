import OnlinetLabs.Validation.Stream

/-!
# What the browser rebuilds

The reducer against the runner that emits the events. At every await of the runner the last step of
the state is the step it is at, with the checks it has results for; the steps before are those it
has accumulated.
-/

namespace OnlinetLabs.Validation

open Console (Bytes encode)
open Generator
open Json (Fields)

/-- An event as `run_validation` yields it, or as `stream_validation` passes it on. -/
def identify : Option String → Event → Event
  | none, event => event
  | some runId, event => event.identified runId

def emitted (runId : Option String) (run : Generator Yielded PUnit) : List Event :=
  run.yielded.map fun y => identify runId y.1

def ValidationCheck.toRecord (check : ValidationCheck) : CheckRecord where
  kind := check.kind
  params := check.params
  ok := check.ok
  expected := check.expected
  actual := check.actual

def ValidationStep.toRecord (step : ValidationStep) : StepRecord where
  id := step.id
  title := step.title
  ok := step.ok
  checks := step.checks.map (·.toRecord)

def StreamStatus.ofOk (ok : Bool) : StreamStatus := if ok then .passed else .failed

variable {runId : Option String} {state : StreamState} {stepId title line : String}
  {idx n total : Nat}
  {check : Check} {record : CheckRecord} {stepRecord : StepRecord} {step : Step}
    {ok observed : Bool}

/-! ### What the reducer does with each event -/

theorem identify_of_ne {event : Event} (hstart : event.type ≠ "run.start")
    (hfinish : event.type ≠ "run.finish") : identify runId event = event := by
  cases runId with
  | none => rfl
  | some runId => simp [identify, Event.identified, hstart, hfinish]

theorem steps_applyEvent_runStart :
    (applyEvent state (identify runId (runStart total)).payload).steps = [] := by
  cases runId with
  | none => rfl
  | some runId => rfl

theorem applyEvent_runFinish : applyEvent state (identify runId (runFinish ok)).payload
    = { state with status := .ofOk ok } := by
  cases runId with
  | none => rfl
  | some runId => rfl

theorem applyEvent_stepStart : applyEvent state (identify runId (stepStart step title)).payload
    = { state with steps := state.steps ++ [⟨step.id, title, false, []⟩] } := by
  rw [identify_of_ne (by simp [stepStart]) (by simp [stepStart])]
  rfl

theorem applyEvent_checkStart :
    applyEvent state (identify runId (checkStart stepId idx check)).payload
    = state.updateStep stepId (·.addCheck ⟨check.kind, check.params, false, [], [], none⟩) := by
  rw [identify_of_ne (by simp [checkStart]) (by simp [checkStart])]
  rfl

theorem applyEvent_checkLog : applyEvent state (identify runId (checkLog stepId idx line)).payload
    = state.updateStep stepId (·.addLog line) := by
  rw [identify_of_ne (by simp [checkLog]) (by simp [checkLog])]
  rfl

theorem applyEvent_checkResult :
    applyEvent state (identify runId (checkResult stepId idx record observed)).payload
      = state.updateStep stepId
          (·.setResult (some (Numeral.ofNat idx)) record.ok record.expected record.actual) := by
  rw [identify_of_ne (by simp [checkResult]) (by simp [checkResult])]
  cases observed with
  | true => rfl
  | false => rfl

theorem applyEvent_stepResult : applyEvent state (identify runId (stepResult stepRecord)).payload
    = state.updateStep stepRecord.id fun step => { step with ok := stepRecord.ok } := by
  rw [identify_of_ne (by simp [stepResult]) (by simp [stepResult])]
  rfl

/-! ### One step of the spec -/

def Shows (accumulated : List StepRecord) (state : StreamState) : Prop :=
  state.steps.map (·.toRecord) = accumulated

/-- The state shows the accumulated steps, and after them a step with the results so far. -/
def ShowsStep (accumulated : List StepRecord) (stepId title : String) (taken : List CheckRecord)
    (state : StreamState) : Prop :=
  ∃ before current, state.steps = before ++ [current] ∧ before.map (·.toRecord) = accumulated
    ∧ current.id = stepId ∧ current.title = title ∧ current.checks.map (·.toRecord) = taken

def consume (runId : Option String) (state : StreamState) (y : Yielded) : StreamState :=
  applyEvent state (identify runId y.1).payload

section OneStep

variable {accumulated : List StepRecord} {taken taken' : List CheckRecord}
  {f : ValidationStep → ValidationStep}

/-- An update of the last step leaves those before alone, as their ids are different. -/
theorem steps_updateStep {before : List ValidationStep} {current : ValidationStep}
    (hsteps : state.steps = before ++ [current]) (hbefore : before.map (·.toRecord) = accumulated)
    (hcurrent : current.id = stepId) (hid : stepId ∉ accumulated.map (·.id)) :
    (state.updateStep stepId f).steps = before ++ [f current] := by
  have hkept : before.map (fun step => if step.id = stepId then f step else step) = before := by
    conv_rhs => rw [← List.map_id before]
    apply List.map_congr_left
    intro step hstep
    apply if_neg
    rintro rfl
    apply hid
    rw [← hbefore, List.map_map]
    exact List.mem_map_of_mem hstep
  simp only [StreamState.updateStep, hsteps, List.map_append, hkept, List.map_singleton,
    hcurrent, if_true]

theorem ShowsStep.update (h : ShowsStep accumulated stepId title taken state)
    (hid : stepId ∉ accumulated.map (·.id))
    (hf : ∀ step, (f step).id = step.id ∧ (f step).title = step.title)
    (hchecks : ∀ step : ValidationStep, step.checks.map (·.toRecord) = taken →
      (f step).checks.map (·.toRecord) = taken') :
    ShowsStep accumulated stepId title taken' (state.updateStep stepId f) := by
  obtain ⟨before, current, hsteps, hbefore, hcurrent, htitle, htaken⟩ := h
  exact ⟨before, f current, steps_updateStep hsteps hbefore hcurrent hid, hbefore,
    (hf current).1.trans hcurrent, (hf current).2.trans htitle, hchecks current htaken⟩

theorem ShowsStep.checkStart (h : ShowsStep accumulated stepId title taken state)
    (hid : stepId ∉ accumulated.map (·.id)) :
    ShowsStep accumulated stepId title (taken ++ [⟨check.kind, check.params, false, [], [], none⟩])
      (applyEvent state (identify runId (Validation.checkStart stepId idx check)).payload) := by
  rw [applyEvent_checkStart]
  apply h.update hid
  · exact fun step => ⟨rfl, rfl⟩
  · rintro step rfl
    simp [ValidationStep.addCheck, ValidationCheck.toRecord]

theorem ShowsStep.checkLog (h : ShowsStep accumulated stepId title taken state)
    (hid : stepId ∉ accumulated.map (·.id)) :
    ShowsStep accumulated stepId title taken
      (applyEvent state (identify runId (Validation.checkLog stepId idx line)).payload) := by
  rw [applyEvent_checkLog]
  apply h.update hid
  · intro step
    unfold ValidationStep.addLog
    split
    · exact ⟨rfl, rfl⟩
    · exact ⟨rfl, rfl⟩
  · rintro step rfl
    unfold ValidationStep.addLog
    split
    · rfl
    · rename_i check hlast
      obtain ⟨checks, hchecks⟩ := List.getLast?_eq_some_iff.mp hlast
      rw [hchecks, List.dropLast_concat]
      simp [ValidationCheck.toRecord]

theorem ShowsStep.checkLogs (hid : stepId ∉ accumulated.map (·.id)) {snapshot : List StepRecord} :
    ∀ {lines : List String} {state : StreamState}, ShowsStep accumulated stepId title taken state →
      ShowsStep accumulated stepId title taken
        ((lines.map fun line => (Validation.checkLog stepId idx line, snapshot)).foldl
          (consume runId) state) := by
  intro lines
  induction lines with
  | nil => exact fun h => h
  | cons line lines ih => exact fun h => ih (h.checkLog hid)

theorem ofNat_injective {m n : Nat} (h : Numeral.ofNat m = Numeral.ofNat n) : m = n := by
  have htext : Nat.toDigits 10 m = Nat.toDigits 10 n := congrArg Numeral.text h
  rw [← Nat.ofDigitChars_ten_toDigits (n := m), htext, Nat.ofDigitChars_ten_toDigits]

/-- The index of an event names one check. -/
theorem mapIdx_last {α : Type} (f : α → α) (l : List α) (a : α) :
    (l ++ [a]).mapIdx (fun i b => if some (Numeral.ofNat l.length) = some (Numeral.ofNat i)
      then f b else b)
      = l ++ [f a] := by
  rw [List.mapIdx_concat, if_pos rfl]
  congr 1
  rw [List.mapIdx_eq_iff]
  intro i
  cases hi : l[i]? with
  | none => rfl
  | some b =>
      have hlt : i < l.length := (List.getElem?_eq_some_iff.mp hi).1
      have hne : some (Numeral.ofNat l.length) ≠ some (Numeral.ofNat i) := by
        intro heq
        have hlength := ofNat_injective (Option.some.inj heq)
        omega
      simp [hne]

theorem ShowsStep.checkResult {started : CheckRecord}
    (h : ShowsStep accumulated stepId title (taken ++ [started]) state)
    (hid : stepId ∉ accumulated.map (·.id))
    (hobserved : started.observed = none) :
    ShowsStep accumulated stepId title (taken ++ [{ started with
        ok := record.ok
        expected := record.expected
        actual := record.actual }])
      (applyEvent state
        (identify runId (Validation.checkResult stepId taken.length record observed)).payload) := by
  rw [applyEvent_checkResult]
  apply h.update hid
  · exact fun step => ⟨rfl, rfl⟩
  · intro step hchecks
    obtain ⟨before, last, hsplit, rfl, hlast⟩ := List.map_eq_append_iff.mp hchecks
    obtain ⟨check, rfl, rfl⟩ := List.map_eq_singleton_iff.mp hlast
    simp only [ValidationStep.setResult, hsplit, List.length_map, mapIdx_last, List.map_append,
      List.map_singleton]
    rfl

theorem ShowsStep.stepResult (h : ShowsStep accumulated stepId title taken state)
    (hid : stepId ∉ accumulated.map (·.id)) : Shows (accumulated ++ [⟨stepId, title, ok, taken⟩])
      (applyEvent state
        (identify runId (Validation.stepResult ⟨stepId, title, ok, taken⟩)).payload) := by
  obtain ⟨before, current, hsteps, hbefore, hcurrent, htitle, htaken⟩ := h
  rw [applyEvent_stepResult, Shows, steps_updateStep hsteps hbefore hcurrent hid,
    List.map_append, hbefore, List.map_singleton, ← hcurrent, ← htitle, ← htaken]
  rfl

end OneStep

section Loops

variable {catalogs : Catalogs} {locale : Locale} {outcome : Nat → Outcome} {outcomes : Outcomes}
  {accumulated snapshot : List StepRecord} {taken : List CheckRecord} {checks : List Check}
  {steps : List Step}

theorem consumes_runChecks (hid : stepId ∉ accumulated.map (·.id)) :
    Consumes (consume runId) (ShowsStep accumulated stepId title taken)
      (runChecks catalogs locale snapshot stepId outcome taken.length checks taken ok)
      fun done => ShowsStep accumulated stepId title done.1 := by
  induction checks generalizing taken ok with
  | nil => exact consumes_pure fun _ h => h
  | cons check checks ih =>
      let started : CheckRecord := ⟨check.kind, check.params, false, [], [], none⟩
      let result := evalCheck check (outcome taken.length)
      rw [runChecks]
      refine Consumes.bind (Q := fun _ => ShowsStep accumulated stepId title (taken ++ [started]))
        (consumes_yield fun _ h => h.checkStart hid) fun _ => ?_
      refine Consumes.bind (Q := fun _ => ShowsStep accumulated stepId title (taken ++ [started]))
        (consumes_yieldAll fun _ h => h.checkLogs hid) fun _ => ?_
      refine Consumes.bind
        (Q := fun record state => ShowsStep accumulated stepId title (taken ++ [started]) state
          ∧ checkRecord catalogs locale check result = some record)
        (consumes_ofOption fun _ _ h hrecord => ⟨h, hrecord⟩) fun record => ?_
      refine Consumes.bind (Q := fun _ => ShowsStep accumulated stepId title
          (taken ++ [⟨check.kind, check.params, result.ok, result.expected, record.actual, none⟩]))
        (consumes_yield ?_) fun _ => ?_
      · rintro state ⟨h, hrecord⟩
        have hunmarked := (checkRecord_eq_some hrecord).1
        have hok : record.ok = result.ok := congrArg CheckRecord.ok hunmarked
        have hexpected : record.expected = result.expected :=
          congrArg CheckRecord.expected hunmarked
        rw [← hok, ← hexpected]
        exact h.checkResult hid rfl
      · have hlength : taken.length + 1
            = (taken ++ [(⟨check.kind, check.params, result.ok, result.expected, record.actual,
                none⟩ : CheckRecord)]).length := by
          simp
        rw [hlength]
        exact ih

theorem consumes_runStep (hid : step.id ∉ accumulated.map (·.id)) :
    Consumes (consume runId) (Shows accumulated) (runStep catalogs locale accumulated outcome step)
      fun record state => record.id = step.id ∧ Shows (accumulated ++ [record]) state := by
  rw [runStep]
  refine Consumes.bind
    (Q := fun _ => ShowsStep accumulated step.id (resolveLocalized locale step.title) [])
    (consumes_yield ?_)
    fun _ => ?_
  · intro state h
    rw [consume, applyEvent_stepStart]
    exact ⟨state.steps, _, rfl, h, rfl, rfl, rfl⟩
  refine Consumes.bind (consumes_runChecks hid) fun done => ?_
  obtain ⟨checks, ok⟩ := done
  refine Consumes.bind
    (Q := fun _ =>
      Shows (accumulated ++ [⟨step.id, resolveLocalized locale step.title, ok, checks⟩]))
    (consumes_yield ?_) fun _ => consumes_pure fun _ h => ⟨rfl, h⟩
  exact fun state h => h.stepResult hid

theorem consumes_runSteps (hids : (accumulated.map (·.id) ++ steps.map (·.id)).Nodup) :
    Consumes (consume runId) (Shows accumulated)
      (runSteps catalogs locale outcomes n steps accumulated) Shows := by
  induction steps generalizing n accumulated with
  | nil => exact consumes_pure fun _ h => h
  | cons step steps ih =>
      have hid : step.id ∉ accumulated.map (·.id) := by
        intro hmem
        exact (List.nodup_append.mp hids).2.2 _ hmem _ List.mem_cons_self rfl
      rw [runSteps]
      refine Consumes.bind (consumes_runStep hid) fun record => ?_
      rintro state accumulated' ⟨hrecord, h⟩
      apply ih _ state accumulated' h
      simpa [hrecord] using hids

end Loops

variable {catalogs : Catalogs} {locale : Locale} {outcomes : Outcomes} {spec : Spec}

/-- The reducer over the events of a run that comes to its end. -/
theorem foldl_applyEvent {steps : List StepRecord} (hids : (spec.steps.map (·.id)).Nodup)
    (hfinish : finish? (runValidation catalogs locale outcomes spec) = some (runFinish ok, steps)) :
    (((emitted runId (runValidation catalogs locale outcomes spec)).map Event.payload).foldl
      applyEvent
        state).status = .ofOk ok
      ∧ Shows steps
        (((emitted runId (runValidation catalogs locale outcomes spec)).map Event.payload).foldl
          applyEvent state) := by
  rw [finish?_eq, Option.map_eq_some_iff] at hfinish
  obtain ⟨accumulated, hresult, heq⟩ := hfinish
  obtain ⟨hok, rfl⟩ := Prod.mk.inj heq
  have hok : overallOk accumulated = ok := by simpa [runFinish] using hok
  have hstarted : Shows [] (consume runId state (runStart spec.steps.length, [])) := by
    rw [Shows, consume, steps_applyEvent_runStart]
    rfl
  have hsteps : Shows accumulated ((runSteps catalogs locale outcomes 0 spec.steps []).yielded.foldl
      (consume runId) (consume runId state (runStart spec.steps.length, []))) :=
    consumes_runSteps (by simpa using hids) _ _ hstarted hresult
  have hfold :
      ((emitted runId (runValidation catalogs locale outcomes spec)).map Event.payload).foldl
          applyEvent state
        = (runValidation catalogs locale outcomes spec).yielded.foldl (consume runId) state := by
    rw [emitted, List.map_map, List.foldl_map]
    rfl
  rw [hfold, yielded_runValidation, hresult, Option.map_some, Option.getD_some, List.foldl_cons,
    List.foldl_append, List.foldl_cons, List.foldl_nil, hok]
  generalize List.foldl (consume runId) _ _ = last at hsteps ⊢
  rw [consume, applyEvent_runFinish]
  exact ⟨rfl, hsteps⟩

/-- **The stream, read back.** However the stream of a run is cut into chunks, the browser decodes
the events emitted, and comes to the status and the steps of `run.finish`. -/
theorem stream_round_trip (catalogs : Catalogs) (locale : Locale) (outcomes : Outcomes)
    (spec : Spec)
    (runId : Option String) (initial : StreamState) (chunks : List Bytes)
    (hids : (spec.steps.map (·.id)).Nodup)
    (hchunks : chunks.flatten
      = encode ((emitted runId (runValidation catalogs locale outcomes spec)).flatMap
        Event.toSse)) :
    (chunks.foldl Reader.read (opened initial)).decoded
        = (emitted runId (runValidation catalogs locale outcomes spec)).map Event.payload
      ∧ ∀ ok steps,
        finish? (runValidation catalogs locale outcomes spec) = some (runFinish ok, steps) →
          (chunks.foldl Reader.read (opened initial)).state.status = .ofOk ok
            ∧ (chunks.foldl Reader.read (opened initial)).state.steps.map (·.toRecord) = steps := by
  obtain ⟨hdecoded, hstate⟩ := read_toSse hchunks
  refine ⟨hdecoded, ?_⟩
  intro ok steps hfinish
  rw [hstate]
  exact foldl_applyEvent hids hfinish

/-- The stream of a run whose console never answered. -/
def leaseStream : Bytes :=
  encode ((emitted (some "run")
    (runValidation plainCatalogs .en (fun _ _ => .returns unreadable) leaseSpec)).flatMap
      Event.toSse)

theorem stream_round_trip_cutOnce :
    ([leaseStream.take 100, leaseStream.drop 100].foldl Reader.read (opened {})).state.status
      = .failed := by
  have hids : (leaseSpec.steps.map (·.id)).Nodup := by decide
  have hchunks : [leaseStream.take 100, leaseStream.drop 100].flatten = leaseStream := by simp
  have hfinish : ∃ steps,
      finish? (runValidation plainCatalogs .en (fun _ _ => .returns unreadable) leaseSpec)
      = some (runFinish false, steps) := ⟨_, rfl⟩
  obtain ⟨steps, hfinish⟩ := hfinish
  exact ((stream_round_trip plainCatalogs .en _ leaseSpec (some "run") {} _ hids hchunks).2 false
    steps hfinish).1

end OnlinetLabs.Validation
