import OnlinetLabs.Analytics.World

/-!
# ControlInterface

The seam an act of the loop has to pass: classification, ownership of the session, consent, the arm
and the rate. A denial is audited and raised. The act itself is audited after it was delivered, and
only this opens a new rate window.
-/

namespace OnlinetLabs.Analytics

open Eff
open Sessions (getOwnedSession)
open Consents (ToolKind hasConsent)

/-- `_REGISTRY`: what is not listed may not be called. -/
def registry : List (String × ToolKind) := [
  ("list_components", .observe),
  ("get_component", .observe),
  ("list_errors", .observe),
  ("get_logs", .observe),
  ("list_user_actions", .observe),
  ("execute_action", .act),
  ("intervention", .act)]

def classify (tool : String) : Option ToolKind := registry.lookup tool

variable {K : Type} {m : SessionMonitor K} {io : CycleInput K}

/-- `_audit`, for an act. -/
def audit (m : SessionMonitor K) (io : CycleInput K) (point : Await) (tool : String)
    (success : Bool) (error : Option String) : Loop K PUnit := do
  let ts ← readClock m
  let row : MCPAudit := {
    userId := m.userId
    sessionId := m.sessionId
    tool, kind := "act", ts, success, error
    labSlug := m.labSlug }
  await io point fun w => { w with
    audits := w.audits ++ [row]
    journal := w.journal ++ [.audited row] }

def deny (m : SessionMonitor K) (io : CycleInput K) (tool : String) (denial : Denial) :
    Loop K PUnit := do
  audit m io .denial tool false (some denial.reason)
  throw (.denied denial)

variable [Field K] [LinearOrder K]

def authorizeAct (m : SessionMonitor K) (cfg : LearningAnalyticsConfig K) (io : CycleInput K)
    (tool : String) : Loop K PUnit := do
  when (classify tool != some .act) (deny m io tool .unclassified)
  await io .owner id
  when (getOwnedSession io.sessions m.sessionId m.userId).isNone (deny m io tool .isolation)
  await io .consent id
  when (!hasConsent io.consents m.userId .act) (deny m io tool .consent)
  when (m.controlArm == .open_) (deny m io tool .openArm)
  let instant ← readClock m
  let w ← get
  when (coolingDown cfg (w.lastActTs m.sessionId) instant) (deny m io tool .rate)
  modify (World.note (.authorized tool instant))

def recordAct (m : SessionMonitor K) (io : CycleInput K) (tool : String) (success : Bool) :
    Loop K PUnit := do
  let instant ← readClock m
  modify fun w => { w with lastActTs := Function.update w.lastActTs m.sessionId (some instant) }
  audit m io .actAudit tool success none

end OnlinetLabs.Analytics
