import OnlinetLabs.Lib.History
import OnlinetLabs.Lib.Interleaving
import OnlinetLabs.Sessions.Models
import OnlinetLabs.Validation.Runner

/-!
# The state of a session as its owner sees it

`get_session_state` enriches what the GNS3 service says of a session with its row, its lab and the
arm of its user, and keeps the whole for five seconds under the id of the session. The actions on
nodes, a reset, the end of the lab and the pause of an idle session come in between any two of its
awaits. All of them are of one session, which its owner asks about.
-/

namespace OnlinetLabs.Sessions.StateView

open Interleaving
open Validation (Localized resolveLocalized)

/-- What does not change about a session. `startedAt` is the ISO text of `started_at`, and `title`
the `title_i18n` of its lab, if the lab is there. -/
structure Setting where
  sessionId : String
  labSlug : Slug
  startedAt : Option String := none
  gns3Sid : Option Gns3Id
  title : Option Localized
deriving DecidableEq

def Setting.titleIn (setting : Setting) (locale : Validation.Locale) : Option String :=
  setting.title.map (resolveLocalized locale)

/-- What changes about the row: `status`, and whether `paused_at` and `ended_at` are set. -/
structure SeenRow where
  status : Status := .active
  paused : Bool := false
  ended : Bool := false
deriving Repr, DecidableEq

structure SessionState where
  sessionId : String
  status : Status
  startedAt : Option String
  labSlug : Slug
  title : Option String
  nodes : Json
  links : Json
  metrics : Json
  noAssist : Bool
  paused : Bool

/-- An entry of the cache, with the locale it was made in and the versions it was made from. -/
structure Cached where
  state : SessionState
  locale : Validation.Locale
  rowAt : Nat
  assistAt : Nat

/-- What the calls share. `settledRow` and `settledAssist` are the versions at the last return of an
operation. -/
structure Platform where
  clock : Nat := 0
  row : History SeenRow
  noAssist : History Bool
  cache : Option (Nat × Cached) := none
  settledRow : Nat := 0
  settledAssist : Nat := 0

namespace Platform

variable (s : Platform)

/-- `StateCache.get`. Redis drops an entry when its time is over. -/
def cached : Option Cached :=
  match s.cache with
  | none => none
  | some (expires, entry) => if s.clock < expires then some entry else none

def store (entry : Cached) : Platform := { s with cache := some (s.clock + 5, entry) }

def invalidate : Platform := { s with cache := none }

def write (f : SeenRow → SeenRow) : Platform := { s with row := s.row.push (f s.row.now) }

/-- `status` and `ended_at` of `_mark_ended_and_finalize`. -/
def markEnded : Platform := s.write fun row => { row with status := .ended, ended := true }

def clearPaused : Platform := s.write fun row => { row with paused := false }

def markPaused : Platform := s.write fun row => { row with paused := true }

def settle : Platform := { s with settledRow := s.row.version, settledAssist := s.noAssist.version }

end Platform

/-- What an await gives. A write may be done and raise all the same. -/
inductive Answer where
  | done
  | failed
  | wrote (took ok : Bool)
  | raw (state : Json)
  | missing

structure ReadRow where
  value : SeenRow
  version : Nat
deriving Repr, DecidableEq

/-- `sinceRow` and `sinceAssist` are the settled versions when the call read the row. -/
structure Since where
  row : Nat
  assist : Nat
deriving Repr, DecidableEq

inductive StatePc where
  | start
  | looking (since : Since) (row : ReadRow)
  | asking (since : Since) (row : ReadRow)
  | marking (row : ReadRow)
  | describing (since : Since) (row : ReadRow) (raw : Json)
  | storing (since : Since) (entry : Cached)
  | returned (since : Since) (state : SessionState)
  | returnedNone
  | raised

def enrich (setting : Setting) (locale : Validation.Locale) (row : SeenRow) (raw : Json)
    (noAssist : Bool) :
    SessionState where
  sessionId := setting.sessionId
  status := row.status
  startedAt := setting.startedAt
  labSlug := setting.labSlug
  title := setting.titleIn locale
  nodes := (raw.field? "nodes").getD (.arr [])
  links := (raw.field? "links").getD (.arr [])
  metrics := (raw.field? "metrics").getD (.obj [])
  noAssist := noAssist
  paused := row.paused

def StatePc.step (setting : Setting) (locale : Validation.Locale) (s : Platform) :
    StatePc → Answer → Option (Platform × StatePc)
  | .start, .done => some (s, .looking ⟨s.settledRow, s.settledAssist⟩ ⟨s.row.now, s.row.version⟩)
  | .looking since row, .done =>
      match s.cached with
      | some entry => some (s, .returned since entry.state)
      | none => some (s, if setting.gns3Sid.isSome then .asking since row else .returnedNone)
  | .asking since row, .raw raw => some (s, .describing since row raw)
  -- The session is gone on the GNS3 server.
  | .asking _ row, .missing => some (s, if row.value.ended then .returnedNone else .marking row)
  | .marking _, .wrote took ok =>
      some (if took then s.markEnded else s, if ok then .returnedNone else .raised)
  | .describing since row raw, .done =>
      let state := enrich setting locale row.value raw s.noAssist.now
      some (s, .storing since ⟨state, locale, row.version, s.noAssist.version⟩)
  | .storing since entry, .wrote took ok =>
      some (if took then s.store entry else s, if ok then .returned since entry.state else .raised)
  | .start, .failed | .looking .., .failed | .asking .., .failed | .describing .., .failed =>
      some (s, .raised)
  | _, _ => none

/-- `proxy_node_action` and `proxy_bulk_node_action`. `paused` is what the call has read. -/
inductive ActionPc where
  | start
  | acting (paused : Bool)
  | resuming
  | invalidating
  | leaving
  | returned
  | raised
deriving Repr, DecidableEq

def ActionPc.step (isStart : Bool) (s : Platform) : ActionPc → Answer → Option (Platform × ActionPc)
  | .start, .done => some (s, .acting s.row.now.paused)
  | .acting paused, .done => some (s, if isStart && paused then .resuming else .invalidating)
  | .resuming, .wrote took ok =>
      some (if took then s.clearPaused else s, if ok then .invalidating else .raised)
  | .invalidating, .wrote took ok =>
      some (if took then s.invalidate else s, if ok then .leaving else .raised)
  | .leaving, .done => some (s.settle, .returned)
  | .start, .failed | .acting _, .failed => some (s, .raised)
  | _, _ => none

/-- `reset_lab`, which writes nothing to the row but the project. -/
inductive ResetPc where
  | start
  | resetting
  | leaving
  | returned
  | raised
deriving Repr, DecidableEq

def ResetPc.step (s : Platform) : ResetPc → Answer → Option (Platform × ResetPc)
  | .start, .done => some (s, .resetting)
  | .resetting, .done => some (s, .leaving)
  | .leaving, .done => some (s.settle, .returned)
  | .start, .failed | .resetting, .failed | .leaving, .failed => some (s, .raised)
  | _, _ => none

/-- `end_lab`. `ended` is what the call has read. -/
inductive EndPc where
  | start
  | stoppingMonitor (ended : Bool)
  | marking
  | leaving
  | returned
  | raised
deriving Repr, DecidableEq

def EndPc.step (s : Platform) : EndPc → Answer → Option (Platform × EndPc)
  | .start, .done => some (s, .stoppingMonitor s.row.now.ended)
  | .stoppingMonitor ended, .done => some (s, if ended then .leaving else .marking)
  | .marking, .wrote took ok =>
      some (if took then s.markEnded else s, if ok then .leaving else .raised)
  | .leaving, .done => some (s.settle, .returned)
  | .start, .failed | .stoppingMonitor _, .failed | .leaving, .failed => some (s, .raised)
  | _, _ => none

/-- `_mark_paused` of the idle reclaim. -/
inductive PausePc where
  | start
  | leaving
  | returned
  | raised
deriving Repr, DecidableEq

def PausePc.step (s : Platform) : PausePc → Answer → Option (Platform × PausePc)
  | .start, .wrote took ok =>
      some (if took then s.markPaused else s, if ok then .leaving else .raised)
  | .leaving, .done => some (s.settle, .returned)
  | _, _ => none

inductive Request where
  | getSessionState (locale : Validation.Locale)
  | nodeAction (isStart : Bool)
  | bulkNodeAction (isStart : Bool)
  | resetLab
  | endLab
  | pause
deriving Repr, DecidableEq

inductive Call where
  | state (locale : Validation.Locale) (pc : StatePc)
  | action (isStart : Bool) (pc : ActionPc)
  | reset (pc : ResetPc)
  | finish (pc : EndPc)
  | pause (pc : PausePc)

def Call.start : Request → Call
  | .getSessionState locale => .state locale .start
  | .nodeAction isStart | .bulkNodeAction isStart => .action isStart .start
  | .resetLab => .reset .start
  | .endLab => .finish .start
  | .pause => .pause .start

def Call.step (setting : Setting) (s : Platform) : Call → Answer → Option (Platform × Call)
  | .state locale pc, a => (pc.step setting locale s a).map fun r => (r.1, .state locale r.2)
  | .action isStart pc, a => (pc.step isStart s a).map fun r => (r.1, .action isStart r.2)
  | .reset pc, a => (pc.step s a).map fun r => (r.1, .reset r.2)
  | .finish pc, a => (pc.step s a).map fun r => (r.1, .finish r.2)
  | .pause pc, a => (pc.step s a).map fun r => (r.1, .pause r.2)

/-- Time goes on, Redis loses the entry or gives it back corrupted, and the user completes another
lab. -/
inductive Move where
  | tick (seconds : Nat)
  | lose
  | assist (noAssist : Bool)
deriving Repr, DecidableEq

def Platform.env (s : Platform) : Move → Platform
  | .tick seconds => { s with clock := s.clock + seconds }
  | .lose => s.invalidate
  | .assist noAssist => { s with noAssist := s.noAssist.push noAssist }

def stateView (setting : Setting) : System Platform Call Move Request Answer where
  env s move := some (s.env move)
  spawn := Call.start
  step s call a := call.step setting s a

end OnlinetLabs.Sessions.StateView
