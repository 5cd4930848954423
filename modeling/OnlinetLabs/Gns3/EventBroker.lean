import OnlinetLabs.Lib.Interleaving
import OnlinetLabs.Lib.Json
import OnlinetLabs.Lib.TrimmedLog

/-!
# The events of a session

`EventBroker` keeps one Redis stream for each session. Whatever happens in the session is added to
it by `publish`. Every client has a connection, which sends a snapshot and from then on what it
reads from the stream. The connection reads after the last entry it was given; until it was given
one it reads from `$`, what is added while the read blocks.
-/

namespace OnlinetLabs.Gns3

open Interleaving

abbrev Text := List Char

/-- The stream of a session. An entry is its payload. -/
abbrev EventStream := TrimmedLog Text

/-- `maxlen=1000, approximate=True`: no entry among the newest so many is trimmed. -/
def maxlen : Nat := 1000

/-- `count=100`. -/
def readCount : Nat := 100

inductive XAdd where
  /-- The entry is added, and what is below the place is trimmed. -/
  | added (trim : Nat)
  | raised
deriving Repr, DecidableEq

/-- `EventBroker.publish` of an event that `json.dumps` takes. -/
def publish (stream : EventStream) (event : Json) : XAdd → Option EventStream
  | .raised => some stream
  | .added trim =>
      let stream := stream.add (event.dumps Json.escapeAscii)
      if trim = 0 ∨ trim + maxlen ≤ stream.size then some (stream.trim trim) else none

/-! ### A connection -/

inductive ConnectionPc where
  /-- `get_state` is under way. -/
  | snapshotting
  /-- The snapshot is being sent, and the tasks are created after it. -/
  | sending
  /-- `subscribe` is about to read. -/
  | looping
  /-- `xread` blocks: from this place on it returns what is there. -/
  | reading (since : Nat)
  /-- The entries in hand, from the next one on. -/
  | yielding (rest : List (Nat × Text))
  /-- `asyncio.sleep(1)` after an error. -/
  | sleeping
deriving Repr, DecidableEq

/-- A run of `ws_session_events`. -/
structure Connection where
  pc : ConnectionPc := .snapshotting
  /-- `last_id`, where it is not `$`. -/
  lastId : Option Nat := none
  /-- How long the stream was when the state of the snapshot was read. -/
  snapshotAt : Option Nat := none
  /-- The events sent, with the places of their entries. -/
  sent : List (Nat × Json) := []
  /-- How long the stream was when the connection ended. -/
  endedAt : Option Nat := none

inductive ConnectionStep where
  /-- `get_state` answers with a state read at that time, from its cache perhaps, or raises. -/
  | snapshot (readAt : Option Nat)
  | proceed
  | read
  | batch (count : Nat)
  | timeout
  | error
  | awake
  | send
  /-- The client is gone, or what is sent to it raises. -/
  | close
deriving Repr, DecidableEq

namespace Connection

variable (c : Connection)

/-- From where the next `xread` finds what is there: the place after the last entry, or for `$` the
end. -/
def since (stream : EventStream) : Nat :=
  match c.lastId with
  | none => stream.size
  | some id => id + 1

def advance (stream : EventStream) : ConnectionStep → Option Connection
  | .snapshot readAt =>
      match c.pc with
      | .snapshotting =>
          if ∀ n ∈ readAt, n ≤ stream.size
            then some { c with pc := .sending, snapshotAt := readAt } else none
      | _ => none
  | .proceed =>
      match c.pc with
      | .sending => some { c with pc := .looping }
      | _ => none
  | .read =>
      match c.pc with
      | .looping => some { c with pc := .reading (c.since stream) }
      | _ => none
  | .batch count =>
      match c.pc with
      | .reading since =>
          match stream.read since (min count readCount) with
          | [] => none
          | entry :: rest => some { c with pc := .yielding (entry :: rest) }
      | _ => none
  | .timeout =>
      match c.pc with
      | .reading since => if stream.read since 1 = [] then some { c with pc := .looping } else none
      | _ => none
  | .error =>
      match c.pc with
      | .reading _ => some { c with pc := .sleeping }
      | _ => none
  | .awake =>
      match c.pc with
      | .sleeping => some { c with pc := .looping }
      | _ => none
  | .send =>
      match c.pc with
      | .yielding ((id, payload) :: rest) =>
          let c := { c with
            lastId := some id
            pc := if rest = [] then .looping else .yielding rest }
          -- A payload that cannot be read is logged and left out.
          match Json.parse payload with
          | none => some c
          | some event => some { c with sent := c.sent ++ [(id, event)] }
      | _ => none
  | .close => some { c with endedAt := some stream.size }

def step (stream : EventStream) (a : ConnectionStep) : Option (EventStream × Connection) :=
  match c.endedAt with
  | some _ => none
  | none => (c.advance stream a).map (stream, ·)

end Connection

/-- The stream of one session, and the connections of its clients. -/
def broker : System EventStream Connection (Json × XAdd) Unit ConnectionStep where
  env stream publication := publish stream publication.1 publication.2
  spawn _ := {}
  step stream c := c.step stream

end OnlinetLabs.Gns3
