import OnlinetLabs.Analytics.Events
import OnlinetLabs.Lib.Dict
import OnlinetLabs.Lib.Json
import OnlinetLabs.Lib.Recent

/-!
# BehavioralCollector

A cycle reads the newest user actions and the newest log entries of the MCP server, drops what it
has read before by a key kept in a bounded memory, reads the errors, and commits all of it in one
write. Where an entry stands in the history of its source is its place. `isoformat` and the digest
of the key are parameters.
-/

namespace OnlinetLabs.Analytics

open Sessions (SessionId UserId Slug)

/-! ### What the server has -/

inductive LogLevel where
  | debug
  | info
  | warning
  | error
  | all
deriving Repr, DecidableEq

def LogLevel.value : LogLevel → String
  | .debug => "debug"
  | .info => "info"
  | .warning => "warning"
  | .error => "error"
  | .all => "all"

structure UserAction where
  timestamp : Nat
  componentId : Option String := none
  action : String
  rawCommand : Option String := none
  success : Bool := true
deriving Repr, DecidableEq

structure LogEntry where
  timestamp : Nat
  level : LogLevel
  source : String
  message : String
deriving Repr, DecidableEq

structure ErrorEntry where
  timestamp : Nat
  level : LogLevel
  componentId : Option String := none
  message : String
  details : Option String := none
deriving Repr, DecidableEq

def newestEntries {α : Type} (limit : Nat) (history : List α) : List α :=
  history.drop (history.length - limit)

/-- An entry and its place in the history of its source. -/
inductive SourceEntry where
  | action (place : Nat) (a : UserAction)
  | log (place : Nat) (l : LogEntry)
deriving Repr, DecidableEq

/-! ### The collector -/

structure BehavioralCollector where
  isoformat : Nat → String
  md5 : String → String
  mcpActionsLimit : Nat
  mcpLogsLimit : Nat
  dedupMaxSize : Nat
  sessionId : SessionId
  userId : UserId
  labSlug : Slug

/-- A row as the collector writes it, with the columns that the loop does not read. -/
structure CollectedEvent extends BehavioralEvent where
  componentType : Option String
  rawCommand : Option String
deriving Repr, DecidableEq

namespace BehavioralCollector

variable (b : BehavioralCollector)

def dedupKey (ts : Nat) (action : String) (cid : Option String) : String :=
  b.md5 (b.isoformat ts ++ ":" ++ action ++ ":" ++ cid.getD "")

def entryKey : SourceEntry → String
  | .action _ a => b.dedupKey a.timestamp a.action a.componentId
  | .log _ l => b.dedupKey l.timestamp "log" (some l.source)

def normalizeUserAction (a : UserAction) (componentTypes : Dict String String) :
    CollectedEvent where
  sessionId := b.sessionId
  userId := b.userId
  labSlug := b.labSlug
  timestamp := a.timestamp
  eventType := "action"
  componentId := a.componentId
  action := a.action
  success := a.success
  severity := none
  message := none
  extraData := none
  componentType := a.componentId.bind componentTypes.get?
  rawCommand := a.rawCommand

def normalizeLogEntry (l : LogEntry) : CollectedEvent where
  sessionId := b.sessionId
  userId := b.userId
  labSlug := b.labSlug
  timestamp := l.timestamp
  eventType := "log"
  componentId := some l.source
  action := "log_" ++ l.level.value
  success := true
  severity := some l.level.value
  message := some l.message
  extraData := none
  componentType := none
  rawCommand := none

def normalizeErrorEntry (e : ErrorEntry) : CollectedEvent where
  sessionId := b.sessionId
  userId := b.userId
  labSlug := b.labSlug
  timestamp := e.timestamp
  eventType := "error"
  componentId := e.componentId
  action := "error"
  success := false
  severity := some e.level.value
  message := some e.message
  extraData := match e.details with
    | some details =>
        if details = "" then none else some [("details", (Json.str details).dumpsSorted)]
    | none => none
  componentType := none
  rawCommand := none

end BehavioralCollector

/-- `_resolve_type`, with what `get_component` answers. -/
def resolveType (lookup : String → Option String) (cid : Option String)
    (types : Dict String String) :
    Dict String String :=
  match cid with
  | none => types
  | some id =>
      if id = "" || (types.get? id).isSome then types
      else
        match lookup id with
        | some type => types.set id type
        | none => types

structure PollCycle where
  /-- What is appended to the histories before their newest entries are read. -/
  actions : List UserAction := []
  logs : List LogEntry := []
  /-- Whether the server answers the two reads. -/
  actionsRead : Bool := true
  logsRead : Bool := true
  /-- The errors, or `none` where they cannot be read. -/
  errors : Option (List ErrorEntry) := some []
  component : String → Option String := fun _ => none
  /-- Whether the write is committed. -/
  committed : Bool := true

/-- The state of the collector, the histories of the server and the rows written. -/
structure Collection where
  seen : List String := []
  componentTypes : Dict String String := {}
  actions : List UserAction := []
  logs : List LogEntry := []
  /-- Every row with the entry it was made of. An error has none. -/
  rows : List (Option SourceEntry × CollectedEvent) := []
  /-- What a cycle whose calls all succeeded has had before it. -/
  due : List SourceEntry := []

namespace BehavioralCollector

variable (b : BehavioralCollector)

/-- The loop of `_fetch_actions`. -/
def takeActions (component : String → Option String) :
    List SourceEntry → List String → Dict String String →
    List (Option SourceEntry × CollectedEvent) × List String × Dict String String
  | .action place a :: entries, seen, types =>
      let key := b.dedupKey a.timestamp a.action a.componentId
      if key ∈ seen then takeActions component entries seen types
      else
        let seen := Recent.remember b.dedupMaxSize seen key
        let types := resolveType component a.componentId types
        let (rows, seen, types') := takeActions component entries seen types
        ((some (.action place a), b.normalizeUserAction a types) :: rows, seen, types')
  | _ :: entries, seen, types => takeActions component entries seen types
  | [], seen, types => ([], seen, types)

/-- The loop of `_fetch_logs`. -/
def takeLogs :
    List SourceEntry → List String → List (Option SourceEntry × CollectedEvent) × List String
  | .log place l :: entries, seen =>
      let key := b.dedupKey l.timestamp "log" (some l.source)
      if key ∈ seen then takeLogs entries seen
      else
        let (rows, seen) := takeLogs entries (Recent.remember b.dedupMaxSize seen key)
        ((some (.log place l), b.normalizeLogEntry l) :: rows, seen)
  | _ :: entries, seen => takeLogs entries seen
  | [], seen => ([], seen)

/-- The answer to `list_user_actions`: the newest first. -/
def actionsWindow (actions : List UserAction) : List SourceEntry :=
  (newestEntries b.mcpActionsLimit (actions.zipIdx.map fun a => .action a.2 a.1)).reverse

/-- The answer to `get_logs`: the newest last. -/
def logsWindow (logs : List LogEntry) : List SourceEntry :=
  newestEntries b.mcpLogsLimit (logs.zipIdx.map fun l => .log l.2 l.1)

def fetchActions (s : Collection) (io : PollCycle) :
    List (Option SourceEntry × CollectedEvent) × List String × Dict String String :=
  if io.actionsRead then
    b.takeActions io.component (b.actionsWindow (s.actions ++ io.actions)) s.seen s.componentTypes
  else ([], s.seen, s.componentTypes)

def fetchLogs (s : Collection) (io : PollCycle) (seen : List String) :
    List (Option SourceEntry × CollectedEvent) × List String :=
  if io.logsRead then b.takeLogs (b.logsWindow (s.logs ++ io.logs)) seen else ([], seen)

def fetchErrors (io : PollCycle) : List (Option SourceEntry × CollectedEvent) :=
  (io.errors.getD []).map fun e => (none, b.normalizeErrorEntry e)

def fetch (s : Collection) (io : PollCycle) :
    List (Option SourceEntry × CollectedEvent) × List String :=
  let actions := b.fetchActions s io
  let logs := b.fetchLogs s io actions.2.1
  (actions.1 ++ logs.1 ++ b.fetchErrors io, logs.2)

/-- All calls of the cycle succeed: the reads, every look-up of a component, and the write if there
is something to write. -/
def succeeds (s : Collection) (io : PollCycle) : Bool :=
  io.actionsRead && io.logsRead && io.errors.isSome
    && (b.fetchActions s io).1.all
      (fun row => row.2.componentType.isSome || row.2.componentId.getD "" = "")
    && ((b.fetch s io).1.isEmpty || io.committed)

def pollCycle (s : Collection) (io : PollCycle) : Collection where
  seen := (b.fetch s io).2
  componentTypes := (b.fetchActions s io).2.2
  actions := s.actions ++ io.actions
  logs := s.logs ++ io.logs
  rows := if io.committed then s.rows ++ (b.fetch s io).1 else s.rows
  due :=
    if b.succeeds s io then
      s.due ++ (b.actionsWindow (s.actions ++ io.actions) ++ b.logsWindow (s.logs ++ io.logs))
    else s.due

end BehavioralCollector

end OnlinetLabs.Analytics
