import OnlinetLabs.Gns3.EventBroker

/-!
# A node's status on its way to the page

GNS3 notifies the forwarder, which translates the notification and publishes it; a connection reads
it from the stream and sends it to the backend, which relays the text to the page. The two ends
write and read the same envelope with no schema between them: what one calls `node_id`, the other
reads as `nodeId`.
-/

namespace OnlinetLabs.Gns3

/-! ### gns3-service -/

/-- `gns_event.get(name)`. -/
def getKey (name : String) (value : Json) : Json := (value.field? name).getD .null

/-- `Gns3WsProxy._translate`. -/
def translate (timestamp : String) (action gnsEvent : Json) : Option Json :=
  match action with
  | .str "node.updated" =>
      some (.obj [("type", .str "node.status_changed"), ("timestamp", .str timestamp),
        ("payload", .obj [("node_id", getKey "node_id" gnsEvent),
          ("status", getKey "status" gnsEvent)])])
  | _ => none

/-- What `_forward_loop` publishes for a message of GNS3. -/
def forwardMessage (timestamp : String) (raw : Text) : Option Json :=
  match Json.parse raw with
  | none => none
  | some msg =>
      let gnsEvent := match msg.field? "event" with
        | some (.obj fields) => .obj fields
        | _ => .obj []
      translate timestamp ((msg.field? "action").getD (.str "")) gnsEvent

/-- How `send_json` writes a value, read by `JSON.parse` as that value. -/
structure SendJson where
  text : Json → Text
  reads : ∀ value, Json.parse (text value) = some value

/-- The text that reaches the page for a message of GNS3. The relay of the backend sends on what it
gets. -/
def pushed (sendJson : SendJson) (timestamp : String) (raw : Text) : Option Text := do
  let event ← forwardMessage timestamp raw
  let read ← Json.parse (event.dumps Json.escapeAscii)
  return sendJson.text read

/-! ### The page -/

/-- A value of the page's language, where `none` is `undefined`. -/
abbrev JsValue := Option Json

/-- `value.name`, or `none` where it throws. -/
def property (name : String) : JsValue → Option JsValue
  | none | some .null => none
  | some value => some (value.field? name)

structure Node where
  id : String
  name : String
  nodeType : String
  status : JsValue
  console : Option Nat
  consoleType : Option String
  consoleHost : String
  symbol : String

structure FullSessionState where
  sessionId : String
  status : JsValue
  startedAt : String
  lab : Json
  nodes : List Node
  links : List Json
  metrics : JsValue
  noAssist : Bool
  paused : Bool

inductive StreamStatus where
  | connecting
  | live
  | degraded
  | polling
deriving Repr, DecidableEq

/-- What `useSessionRealtime` changes: the cached state, its own status, how often the state was to
be fetched again and how many pongs were sent. -/
structure RealtimeView where
  cached : Option FullSessionState
  streamStatus : StreamStatus := .connecting
  invalidated : Nat := 0
  pongs : Nat := 0

namespace RealtimeView

variable (view : RealtimeView)

def patch (f : FullSessionState → Option FullSessionState) : Option RealtimeView :=
  match view.cached with
  | none => some view
  | some current => (f current).map fun state => { view with cached := some state }

def invalidate : RealtimeView := { view with invalidated := view.invalidated + 1 }

def patchNode (payload : JsValue) (node : Node) : Option Node := do
  let nodeId ← property "nodeId" payload
  match nodeId with
  | some (.str id) =>
      if node.id = id then return { node with status := ← property "status" payload }
      else return node
  | _ => return node

/-- `applyEvent`, or `none` where it throws. -/
def applyEvent (event : Json) : Option RealtimeView := do
  let payload := event.field? "payload"
  match ← property "type" (some event) with
  | some (.str "snapshot") => return view.invalidate
  | some (.str "node.status_changed") =>
      view.patch fun current =>
        do return { current with nodes := ← current.nodes.mapM (patchNode payload) }
  | some (.str "session.status_changed") =>
      view.patch fun current => do return { current with status := ← property "status" payload }
  | some (.str "metrics.tick") =>
      view.patch fun current => return { current with metrics := payload }
  | some (.str "state.invalidated") => return view.invalidate
  | some (.str "stream.degraded") => return { view with streamStatus := .degraded }
  | some (.str "stream.restored") => return invalidate { view with streamStatus := .live }
  | some (.str "ping") => return { view with pongs := view.pongs + 1 }
  | _ => return view

/-- `ws.onmessage`: a bad payload is ignored. -/
def onMessage (text : Text) : RealtimeView :=
  match Json.parse text with
  | none => view
  | some event => (view.applyEvent event).getD view

end RealtimeView

/-! ### The law -/

/-- A notification of GNS3 about a node: the text, and what it says, whatever else it says and in
what order. -/
structure NodeUpdate where
  nodeId : String
  status : Json
  raw : Text
  message : Json
  event : Json.Fields
  /-- When it is translated. -/
  timestamp : String
  reads : Json.parse raw = some message
  action_eq : message.field? "action" = some (.str "node.updated")
  event_eq : message.field? "event" = some (.obj event)
  nodeId_eq : Json.field? "node_id" (.obj event) = some (.str nodeId)
  status_eq : Json.field? "status" (.obj event) = some status

variable {sendJson : SendJson} {view : RealtimeView} {update : NodeUpdate}
  {updates : List NodeUpdate}
  {state : FullSessionState}

def RealtimeView.receive (sendJson : SendJson) (view : RealtimeView) (update : NodeUpdate) :
    RealtimeView :=
  match pushed sendJson update.timestamp update.raw with
  | none => view
  | some text => view.onMessage text

def lastStatus (updates : List NodeUpdate) (nodeId : String) : Option Json :=
  (updates.reverse.find? (·.nodeId == nodeId)).map (·.status)

/-- The state with every node as it was last notified. -/
def FullSessionState.follow (state : FullSessionState) (updates : List NodeUpdate) :
    FullSessionState :=
  { state with nodes := state.nodes.map fun node =>
      { node with status := (lastStatus updates node.id).elim node.status some } }

/-- The page follows GNS3, and nothing else of it changes. -/
def FollowsGns3 (sendJson : SendJson) (state : FullSessionState) (view : RealtimeView)
    (updates : List NodeUpdate) :
    Prop :=
  updates.foldl (RealtimeView.receive sendJson) { view with cached := some state }
    = { view with cached := some (state.follow updates) }

/-! ### What reaches the page -/

def NodeUpdate.envelope (update : NodeUpdate) : Json :=
  .obj [("type", .str "node.status_changed"), ("timestamp", .str update.timestamp),
    ("payload", .obj [("node_id", .str update.nodeId), ("status", update.status)])]

theorem forwardMessage_update :
    forwardMessage update.timestamp update.raw = some update.envelope := by
  simp only [forwardMessage, update.reads, update.event_eq, update.action_eq, Option.getD_some]
  simp only [translate, getKey, update.nodeId_eq, update.status_eq, Option.getD_some,
    NodeUpdate.envelope]

theorem pushed_update :
    pushed sendJson update.timestamp update.raw = some (sendJson.text update.envelope) := by
  simp [pushed, forwardMessage_update, Json.parse_dumpsAscii]

/-- No node is the one the page looks for. -/
theorem patchNode_envelope (node : Node) :
    RealtimeView.patchNode (update.envelope.field? "payload") node = some node := rfl

theorem receive_update : view.receive sendJson update = view := by
  rw [RealtimeView.receive, pushed_update]
  simp only [RealtimeView.onMessage, sendJson.reads]
  have hnodes : ∀ nodes : List Node,
      nodes.mapM (RealtimeView.patchNode (update.envelope.field? "payload")) = some nodes := by
    intro nodes
    induction nodes with
    | nil => rfl
    | cons node nodes ih => simp [List.mapM_cons, patchNode_envelope, ih]
  have happly : view.applyEvent update.envelope = some view := by
    show view.patch _ = some view
    cases hcached : view.cached with
    | none => simp [RealtimeView.patch, hcached]
    | some current => simp [RealtimeView.patch, hcached, hnodes]; rw [← hcached]
  rw [happly]
  rfl

theorem receive_updates : updates.foldl (RealtimeView.receive sendJson) view = view := by
  induction updates with
  | nil => rfl
  | cons update updates ih => rw [List.foldl_cons, receive_update, ih]

theorem follow_eq_self_iff : state.follow updates = state
    ↔ ∀ node ∈ state.nodes, ∀ status ∈ lastStatus updates node.id, node.status = some status := by
  have hnode : ∀ node : Node,
      { node with status := (lastStatus updates node.id).elim node.status some } = node
      ↔ ∀ status ∈ lastStatus updates node.id, node.status = some status := by
    intro node
    cases hlast : lastStatus updates node.id with
    | none => simp
    | some status =>
        constructor
        · rintro heq _ ⟨⟩
          exact (congrArg Node.status heq).symm
        · intro hall
          rw [Option.elim_some, ← hall status rfl]
  have hnodes : state.nodes.map (fun node =>
        { node with status := (lastStatus updates node.id).elim node.status some }) = state.nodes
      ↔ ∀ node ∈ state.nodes,
        { node with status := (lastStatus updates node.id).elim node.status some } = node := by
    rw [← List.map_inj_left (g := fun node => node), List.map_id']
  rw [← forall₂_congr fun node _ => hnode node, ← hnodes]
  constructor
  · exact fun heq => congrArg FullSessionState.nodes heq
  · intro heq
    unfold FullSessionState.follow
    rw [heq]

/-- **When the page follows GNS3**: exactly where every node has the status it was last notified of
from the beginning. -/
theorem follows_gns3_iff (sendJson : SendJson) (state : FullSessionState) (view : RealtimeView)
    (updates : List NodeUpdate) : FollowsGns3 sendJson state view updates
      ↔ ∀ node ∈ state.nodes, ∀ status ∈ lastStatus updates node.id, node.status = some status := by
  rw [FollowsGns3, receive_updates, ← follow_eq_self_iff]
  constructor
  · intro heq
    exact (Option.some.inj (congrArg RealtimeView.cached heq)).symm
  · intro heq
    rw [heq]

def oneStopped : FullSessionState where
  sessionId := "s1"
  status := some (.str "active")
  startedAt := "2026-01-01T00:00:00+00:00"
  lab := .obj [("slug", .str "ping"), ("title", .null)]
  nodes := [{ id := "n1", name := "PC1", nodeType := "vpcs", status := some (.str "stopped"),
              console := some 5000, consoleType := some "telnet", consoleHost := "", symbol := "" }]
  links := []
  metrics := some (.obj [])
  noAssist := false
  paused := false

def nodeStarted : NodeUpdate where
  nodeId := "n1"
  status := .str "started"
  message := .obj [("action", .str "node.updated"),
    ("event", .obj [("node_id", .str "n1"), ("status", .str "started")])]
  event := [("node_id", .str "n1"), ("status", .str "started")]
  raw := Json.dumps Json.escape (.obj [("action", .str "node.updated"),
    ("event", .obj [("node_id", .str "n1"), ("status", .str "started")])])
  timestamp := "2026-01-01T00:00:01+00:00"
  reads := Json.parse_dumps _
  action_eq := rfl
  event_eq := rfl
  nodeId_eq := rfl
  status_eq := rfl

/-- **A notification that changes nothing.** -/
theorem node_stays_stopped :
    ¬ FollowsGns3 ⟨Json.dumps Json.escape, Json.parse_dumps⟩ oneStopped { cached := none }
      [nodeStarted] := by
  intro h
  rw [FollowsGns3, receive_updates] at h
  have hcached := Option.some.inj (congrArg RealtimeView.cached h)
  have hstatus : [some (Json.str "stopped")] = [some (Json.str "started")] :=
    congrArg (fun state => state.nodes.map Node.status) hcached
  simp at hstatus

end OnlinetLabs.Gns3
