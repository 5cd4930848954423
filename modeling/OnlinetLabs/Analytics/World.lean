import Mathlib.Logic.Function.Basic
import OnlinetLabs.Analytics.ControlLaw
import OnlinetLabs.Consent.Consent
import OnlinetLabs.Lib.Effect

/-!
# What the loop acts on

The state of a monitor and of its control interface, the tables they write, and a journal of what a
cycle did in the order it did it. All that a cycle does not decide itself is in `CycleInput`: what
others did to the tables since the last cycle, the random draws, the agent's answer, and for every
await whether it completes or raises. An await that raises may have taken effect or not: a commit
can fail before it reached the database or after.
-/

namespace OnlinetLabs.Analytics

open Sessions (UserId Slug SessionId SessionTable)
open Consents (Consent)

/-! ### The tables -/

structure ProcessStateSample (K : Type) where
  sessionId : SessionId
  userId : UserId
  labSlug : Slug
  ts : Nat
  regime : ProcessRegime
  dwellSeconds : K
deriving Repr, DecidableEq

inductive Assignment where
  | intervene
  | withhold
deriving Repr, DecidableEq

/-- A decision point of the randomized trial. -/
structure InterventionDecision (K : Type) where
  id : Nat
  sessionId : SessionId
  userId : UserId
  labSlug : Slug
  spellId : Nat
  ts : Nat
  regime : ProcessRegime
  dwellSeconds : K
  tKApplied : K
  assignment : Assignment
  subsequentExitTs : Option Nat
  censored : Bool := false
deriving Repr, DecidableEq

structure MCPAudit where
  userId : UserId
  sessionId : SessionId
  tool : String
  kind : String
  ts : Nat
  success : Bool
  error : Option String
  labSlug : Slug
deriving Repr, DecidableEq

/-! ### The agent -/

/-- Of the context only what the monitor itself computes is kept. -/
structure InterventionInput where
  sessionId : SessionId
  userId : UserId
  interventionType : String
  struggleType : Option String
  dominantError : Option String
  labSlug : Slug
  attemptsCount : Nat
deriving Repr, DecidableEq

structure OrchestratorResponse where
  success : Bool
  /-- `str(data)` if there is data, else the error. -/
  message : Option String
  /-- What the recorded row tells about the agent, as JSON. -/
  provenance : List (String × String)
deriving Repr, DecidableEq

/-! ### The surroundings -/

/-- The places where a cycle awaits. -/
inductive Await where
  | load
  | sample
  | escalation
  | spellExit
  | decision
  | wouldIntervene
  | locale
  | context
  | owner
  | consent
  | denial
  | intervene
  | send
  | grounding
  | persist
  | intervention
  | actAudit
deriving Repr, DecidableEq

inductive Outcome where
  | completes
  | raisesBefore
  | raisesAfter
deriving Repr, DecidableEq

/-- Why `authorize_act` raised `InterfaceDenied`. -/
inductive Denial where
  | unclassified
  | isolation
  | consent
  | openArm
  | rate
deriving Repr, DecidableEq

def Denial.reason : Denial → String
  | .unclassified => "unclassified"
  | .isolation => "isolation"
  | .consent => "consent"
  | .openArm => "open_arm"
  | .rate => "rate"

/-- An exception: a denial, a failed await, or features the identifier refuses. -/
inductive Raised where
  | denied (denial : Denial)
  | failed (await : Await)
  | invalid
deriving Repr, DecidableEq

structure CycleInput (K : Type) where
  /-- What others did to `behavioral_events` since the last cycle. -/
  elsewhere : List BehavioralEvent → List BehavioralEvent
  sessions : SessionTable
  consents : List Consent
  /-- `random.random()`. -/
  draw : K
  /-- `random.uniform`. -/
  uniform : K → K → K
  response : OrchestratorResponse
  outcome : Await → Outcome

/-- `SessionMonitor`: what stays as it is while the loop runs. -/
structure SessionMonitor (K : Type) where
  cfg : LearningAnalyticsConfig K
  sessionId : SessionId
  userId : UserId
  labSlug : Slug
  controlArm : ControlArm
  /-- Whether a gateway is attached. -/
  gateway : Bool
  /-- The configuration of the `ControlInterface`, when one is attached. -/
  controlInterface : Option (LearningAnalyticsConfig K)
  log2 : K → K
  /-- `json.dumps` of a float. -/
  jsonNumber : K → String
  /-- What the clock says when it is read for the nth time. -/
  clock : Nat → Nat

/-! ### The state -/

inductive Entry (K : Type) where
  | observed (regime : ProcessRegime)
  | opened (spellId : Nat) (tK : K) (regime : ProcessRegime)
  | decided (row : InterventionDecision K)
  | withheld (row : BehavioralEvent)
  | authorized (tool : String) (instant : Nat)
  | intervened (payload : InterventionInput)
  | ungrounded (payload : InterventionInput)
  | sent
  | audited (row : MCPAudit)
deriving Repr, DecidableEq

structure World (K : Type) where
  lastInterventionAt : Option Nat := none
  lastEventAt : Option Nat := none
  lastEvents : List BehavioralEvent := []
  dwell : DwellTracker := {}
  escalatedInSpell : Bool := false
  spellId : Option Nat := none
  spellTK : Option K := none
  openDecisionIds : List Nat := []
  lastActTs : SessionId → Option Nat := fun _ => none
  events : List BehavioralEvent := []
  samples : List (ProcessStateSample K) := []
  decisions : List (InterventionDecision K) := []
  audits : List MCPAudit := []
  /-- How often the clock was read. -/
  reads : Nat := 0
  /-- How many identifiers were drawn, so that the next one is new. -/
  uuids : Nat := 0
  journal : List (Entry K) := []

/-! ### Steps -/

/-- A computation of the loop. -/
abbrev Loop (K α : Type) : Type := Eff Raised (World K) α

variable {K α : Type}

/-- `datetime.now`. -/
def readClock (m : SessionMonitor K) : Loop K Nat := do
  let w ← get
  modify fun w => { w with reads := w.reads + 1 }
  return m.clock w.reads

def uuid4 : Loop K Nat := do
  let w ← get
  modify fun w => { w with uuids := w.uuids + 1 }
  return w.uuids

def await (io : CycleInput K) (point : Await) (effect : World K → World K) : Loop K PUnit :=
  match io.outcome point with
  | .completes => modify effect
  | .raisesBefore => throw (.failed point)
  | .raisesAfter => do
      modify effect
      throw (.failed point)

/-- Writes a journal entry for a call that is made whatever comes of it. -/
def World.note (entry : Entry K) (w : World K) : World K :=
  { w with journal := w.journal ++ [entry] }

/-- `try: ... except Exception: logger.warning(...)`. -/
def attempt (body : Loop K PUnit) : Loop K PUnit := tryCatch body fun _ => pure ⟨⟩

/-! ### Their rules -/

open Eff

section Rules

variable {m : SessionMonitor K} {io : CycleInput K} {w : World K} {E : Raised → World K → Prop}
  {R : World K → World K → Prop}

@[simp] theorem ends_readClock {Q : Nat → World K → Prop} :
    Ends (readClock m) w Q E ↔ Q (m.clock w.reads) { w with reads := w.reads + 1 } := Iff.rfl

@[simp] theorem ends_uuid4 {Q : Nat → World K → Prop} :
    Ends uuid4 w Q E ↔ Q w.uuids { w with uuids := w.uuids + 1 } := Iff.rfl

@[simp] theorem ends_attempt {body : Loop K PUnit} {Q : PUnit → World K → Prop} :
    Ends (attempt body) w Q E ↔ Ends body w Q (fun _ w' => Q ⟨⟩ w') := by
  unfold attempt
  rw [ends_tryCatch]
  exact Iff.rfl

theorem attempt_returns {body : Loop K PUnit} :
    Ends (attempt body) w (fun _ _ => True) fun _ _ => False := by
  rw [ends_attempt]
  exact ends_true

/-- An await that completes has taken effect. One that raises may have. -/
theorem ends_await {point : Await} {effect : World K → World K} {Q : PUnit → World K → Prop}
    (hq : io.outcome point = .completes → Q ⟨⟩ (effect w))
    (he : io.outcome point ≠ .completes → E (.failed point) w ∧ E (.failed point) (effect w)) :
    Ends (await io point effect) w Q E := by
  unfold await
  split
  · exact hq ‹_›
  · exact (he (by simp [*])).1
  · exact (he (by simp [*])).2

theorem await_of_completes {point : Await} {effect : World K → World K}
    (h : io.outcome point = .completes) : await io point effect = modify effect := by
  unfold await
  rw [h]

theorem within_readClock (h : ∀ w, R w { w with reads := w.reads + 1 }) :
    Within R (readClock m) := h

theorem within_await [Std.Refl R] {point : Await} {effect : World K → World K}
    (h : ∀ w, R w (effect w)) : Within R (await io point effect) := by
  unfold await
  split
  · exact within_modify h
  · exact within_throw
  · exact h

theorem within_attempt [Std.Refl R] [IsTrans (World K) R] {body : Loop K PUnit}
    (h : Within R body) : Within R (attempt body) :=
  within_tryCatch h fun _ => within_pure

end Rules

end OnlinetLabs.Analytics
