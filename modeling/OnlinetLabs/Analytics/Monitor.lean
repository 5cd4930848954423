import OnlinetLabs.Consent.Interface

/-!
# SessionMonitor

One cycle of the loop: load the window, observe the regime, escalate, decide, deliver, record. Under
the trial the decision is recorded before it is carried out. Whatever raises ends the cycle where it
stands, and the next cycle starts from what is left.
-/

namespace OnlinetLabs.Analytics

open Eff

variable {K : Type}

def StruggleType.value : StruggleType → String
  | .stuckOnStep => "stuck_on_step"
  | .repeatingErrors => "repeating_errors"
  | .idle => "idle"
  | .trialAndError => "trial_and_error"

/-- `PendingIntervention`, before there is a response. -/
structure PendingIntervention (K : Type) where
  analysis : AnalyticsResult K
  features : SessionFeatures K
  payload : InterventionInput

/-! ### The window and the regime -/

/-- The events a cycle works on: the new ones, or else those of the last cycle that had any. -/
def currentEvents (m : SessionMonitor K) (w : World K) : List BehavioralEvent :=
  let events := loadNewEvents w.events m.sessionId w.lastEventAt
  if events.isEmpty then w.lastEvents else events

def World.advance (m : SessionMonitor K) (w : World K) : World K :=
  let events := loadNewEvents w.events m.sessionId w.lastEventAt
  match events.getLast? with
  | none => w
  | some newest => { w with lastEventAt := some newest.timestamp, lastEvents := events }

section Steps

variable [Field K] [LinearOrder K] [FloorRing K]

/-- What the extractor and the identifier make of the events, or `none` where one of them raises. -/
def assess (m : SessionMonitor K) (now : Nat) (events : List BehavioralEvent) :
    Option (SessionFeatures K × AnalyticsResult K) := do
  let features ← compute m.log2 m.cfg m.sessionId now events
  let analysis ← identifyRegime features m.cfg
  return (features, analysis)

/-- `_log_process_state`. The tracker moves before the sample is committed. -/
def logProcessState (m : SessionMonitor K) (io : CycleInput K) (analysis : AnalyticsResult K)
    (now : Nat) : Loop K (ProcessRegime × K) := do
  let w ← get
  let regime := analysisToRegime analysis
  let observed := w.dwell.observe (K := K) regime now
  modify fun w => { w with dwell := observed.1, journal := w.journal ++ [.observed regime] }
  await io .sample fun w => { w with
    samples := w.samples ++ [{
      sessionId := m.sessionId
      userId := m.userId
      labSlug := m.labSlug
      ts := now
      regime := regime
      dwellSeconds := observed.2 }] }
  return (regime, observed.2)

/-- The escalation of a cycle, whatever the arm. -/
def escalate (m : SessionMonitor K) (io : CycleInput K) (regime : ProcessRegime) (dwell : K) :
    Loop K PUnit := do
  if isBad regime then
    let w ← get
    when (decide (m.cfg.escalationMaxDwell ≤ dwell) && !w.escalatedInSpell) do
      modify fun w => { w with escalatedInSpell := true }
      attempt do
        let now ← readClock m
        await io .escalation fun w => { w with
          events := w.events ++ [{
            sessionId := m.sessionId
            userId := m.userId
            labSlug := m.labSlug
            timestamp := now
            eventType := "escalation"
            componentId := none
            action := "objective"
            success := false
            severity := some "warn"
            message := some "нужен наставник"
            extraData := none }] }
  else modify fun w => { w with escalatedInSpell := false }

/-! ### What is written instead of, and after, an intervention -/

def judgement (m : SessionMonitor K) (analysis : AnalyticsResult K) : List (String × String) := [
  ("struggle_type", (analysis.struggleType.map fun t => "\"" ++ t.value ++ "\"").getD "null"),
  ("confidence", m.jsonNumber analysis.confidence)]

def logWouldIntervene (m : SessionMonitor K) (io : CycleInput K) (analysis : AnalyticsResult K)
    (reason : String) : Loop K PUnit :=
  attempt do
    let timestamp ← readClock m
    let row : BehavioralEvent := {
      sessionId := m.sessionId
      userId := m.userId
      labSlug := m.labSlug
      timestamp
      eventType := "would_intervene"
      componentId := none
      action := analysis.suggestedIntervention.value
      success := false
      severity := none
      message := none
      extraData := some (judgement m analysis ++ [
        ("control_arm", "\"" ++ m.controlArm.value ++ "\""),
        ("withheld_because", "\"" ++ reason ++ "\"")]) }
    await io .wouldIntervene fun w => { w with
      events := w.events ++ [row]
      journal := w.journal ++ [.withheld row] }

/-- `_persist_intervention`, and `_log_intervention_in` in the session it was handed. -/
def persistIntervention (m : SessionMonitor K) (io : CycleInput K)
    (pending : PendingIntervention K) : Loop K PUnit := do
  await io .persist id
  attempt do
    let timestamp ← readClock m
    await io .intervention fun w => { w with
      events := w.events ++ [{
        sessionId := m.sessionId
        userId := m.userId
        labSlug := m.labSlug
        timestamp
        eventType := "intervention"
        componentId := none
        action := "intervene_" ++ pending.analysis.suggestedIntervention.value
        success := io.response.success
        severity := none
        message := io.response.message
        extraData := some (judgement m pending.analysis ++ io.response.provenance) }] }

/-! ### Delivery -/

/-- `_should_trigger_intervention`: the cooldown again, by a clock read of its own. -/
def shouldTriggerIntervention (m : SessionMonitor K) : Loop K Bool := do
  let w ← get
  if !m.cfg.enabled then return false
  else if w.lastInterventionAt.isNone then return true
  else
    let now ← readClock m
    return !coolingDown m.cfg w.lastInterventionAt now

def decideIntervention (m : SessionMonitor K) (io : CycleInput K) (analysis : AnalyticsResult K)
    (features : SessionFeatures K) : Loop K (Option (PendingIntervention K)) := do
  if !analysis.struggleDetected then return none
  else if !(← shouldTriggerIntervention m) then return none
  else
    await io .locale id
    await io .context id
    return some {
      analysis, features
      payload := {
        sessionId := m.sessionId
        userId := m.userId
        interventionType := analysis.suggestedIntervention.value
        struggleType := analysis.struggleType.map (·.value)
        dominantError := features.dominantError
        labSlug := m.labSlug
        attemptsCount := features.errorRepeatCount } }

def authorizeDispatch (m : SessionMonitor K) (io : CycleInput K) : Loop K Bool :=
  match m.controlInterface with
  | none => pure true
  | some cfg =>
      tryCatch (do
        authorizeAct m cfg io "intervention"
        return true) fun _ => pure false

def recordDispatch (m : SessionMonitor K) (io : CycleInput K) : Loop K PUnit :=
  match m.controlInterface with
  | none => pure ⟨⟩
  | some _ => attempt (recordAct m io "intervention" io.response.success)

def maybeGroundingAblation (m : SessionMonitor K) (io : CycleInput K)
    (pending : PendingIntervention K) : Loop K PUnit := do
  when (m.cfg.groundingAblationEnabled && io.response.success) <|
    attempt do
      modify (World.note (.ungrounded pending.payload))
      await io .grounding id

def dispatchIntervention (m : SessionMonitor K) (io : CycleInput K)
    (pending : PendingIntervention K) : Loop K PUnit := do
  modify (World.note (.intervened pending.payload))
  await io .intervene id
  let now ← readClock m
  modify fun w => { w with lastInterventionAt := some now }
  when (io.response.success && m.gateway) do
    modify (World.note .sent)
    await io .send id
  maybeGroundingAblation m io pending

/-! ### The trial -/

/-- `_mrt_close_spell`. The spell is gone before its rows are stamped. -/
def mrtCloseSpell (io : CycleInput K) (now : Nat) : Loop K PUnit := do
  let w ← get
  modify fun w => { w with spellId := none, spellTK := none, openDecisionIds := [] }
  when (!w.openDecisionIds.isEmpty) <|
    await io .spellExit fun w' => { w' with
      decisions := w'.decisions.map fun row =>
        if w.openDecisionIds.contains row.id then { row with subsequentExitTs := some now }
        else row }

def mrtOpenSpell (m : SessionMonitor K) (io : CycleInput K) (regime : ProcessRegime) :
    Loop K PUnit := do
  let j := m.cfg.mrtTKJitterFrac
  let tK := dwellThreshold m.cfg regime * io.uniform (1 - j) (1 + j)
  let spellId ← uuid4
  modify fun w => { w with
    spellTK := some tK
    spellId := some spellId
    openDecisionIds := []
    journal := w.journal ++ [.opened spellId tK regime] }

def decisionRow (m : SessionMonitor K) (id spellId : Nat) (regime : ProcessRegime) (dwell tK : K)
    (assignment : Assignment) (now : Nat) : InterventionDecision K where
  id := id
  sessionId := m.sessionId
  userId := m.userId
  labSlug := m.labSlug
  spellId := spellId
  ts := now
  regime := regime
  dwellSeconds := dwell
  tKApplied := tK
  assignment := assignment
  subsequentExitTs := none

def mrtRecordDecision (m : SessionMonitor K) (io : CycleInput K) (spellId : Nat)
    (regime : ProcessRegime) (dwell tK : K) (assignment : Assignment) (now : Nat) :
    Loop K PUnit := do
  let id ← uuid4
  let row := decisionRow m id spellId regime dwell tK assignment now
  modify fun w => { w with openDecisionIds := w.openDecisionIds ++ [id] }
  await io .decision fun w => { w with
    decisions := w.decisions ++ [row]
    journal := w.journal ++ [.decided row] }

/-- The first half of `_mrt_step`: a change of the regime ends the spell and may begin one. -/
def mrtTurnSpell (m : SessionMonitor K) (io : CycleInput K) (regime : ProcessRegime) (dwell : K)
    (now : Nat) : Loop K PUnit := do
  when (decide (dwell = 0)) do
    let w ← get
    when w.spellId.isSome (mrtCloseSpell io now)
    when (isBad regime) (mrtOpenSpell m io regime)

/-- The second half of `_mrt_step`: the decision point. -/
def mrtDecisionPoint (m : SessionMonitor K) (io : CycleInput K) (analysis : AnalyticsResult K)
    (features : SessionFeatures K) (regime : ProcessRegime) (dwell : K) (now : Nat) :
    Loop K PUnit := do
  let w ← get
  match w.spellId, w.spellTK with
  | some spellId, some tK =>
      let decision := shouldIntervene regime dwell m.controlArm w.lastInterventionAt m.cfg now
        (some tK) (some io.draw)
      match decision.action with
      | .skip => pure ⟨⟩
      | .withhold =>
          mrtRecordDecision m io spellId regime dwell tK .withhold now
          logWouldIntervene m io analysis decision.reason
          modify fun w => { w with lastInterventionAt := some now }
      | .intervene =>
          mrtRecordDecision m io spellId regime dwell tK .intervene now
          match ← decideIntervention m io analysis features with
          | none => pure ⟨⟩
          | some pending =>
              dispatchIntervention m io pending
              persistIntervention m io pending
              modify fun w => { w with lastInterventionAt := some now }
  | _, _ => pure ⟨⟩

/-! ### The cycle -/

/-- The tail of `_run_analysis` without the trial. -/
def thresholdStep (m : SessionMonitor K) (io : CycleInput K) (analysis : AnalyticsResult K)
    (features : SessionFeatures K) (regime : ProcessRegime) (dwell : K) (now : Nat) :
    Loop K PUnit := do
  let w ← get
  let decision := shouldIntervene regime dwell m.controlArm w.lastInterventionAt m.cfg now none none
  match decision.action with
  | .skip => pure ⟨⟩
  | .withhold =>
      logWouldIntervene m io analysis decision.reason
      modify fun w => { w with lastInterventionAt := some now }
  | .intervene =>
      match ← decideIntervention m io analysis features with
      | none => pure ⟨⟩
      | some pending =>
          let authorized ← authorizeDispatch m io
          when authorized do
            dispatchIntervention m io pending
            persistIntervention m io pending
            recordDispatch m io

/-- The part of `_run_analysis` that comes after the window is loaded. -/
def runOn (m : SessionMonitor K) (io : CycleInput K) (events : List BehavioralEvent) :
    Loop K PUnit := do
  let computedAt ← readClock m
  match assess m computedAt events with
  | none => throw .invalid
  | some (features, analysis) =>
      let observedAt ← readClock m
      let (regime, dwell) ← logProcessState m io analysis observedAt
      escalate m io regime dwell
      let now ← readClock m
      if m.cfg.mrtEnabled then
        mrtTurnSpell m io regime dwell now
        mrtDecisionPoint m io analysis features regime dwell now
      else thresholdStep m io analysis features regime dwell now

def runAnalysis (m : SessionMonitor K) (io : CycleInput K) : Loop K PUnit := do
  await io .load id
  let w ← get
  let events := currentEvents m w
  modify (World.advance m)
  when (!events.isEmpty) (runOn m io events)

/-- One turn of `_analysis_loop`. What a cycle raises is logged and the loop goes on. -/
def cycle (m : SessionMonitor K) (w : World K) (io : CycleInput K) : World K :=
  ((runAnalysis m io).run { w with events := io.elsewhere w.events }).2

end Steps

/-- A new monitor after `start_session`, over the tables as they are. -/
def startSession (m : SessionMonitor K) (w : World K) : World K := { w with
  lastInterventionAt := none
  lastEventAt := ((w.events.filter (·.sessionId == m.sessionId)).map (·.timestamp)).max?
  lastEvents := []
  dwell := {}
  escalatedInSpell := false
  spellId := none
  spellTK := none
  openDecisionIds := []
  lastActTs := fun _ => none
  journal := [] }

end OnlinetLabs.Analytics
