import OnlinetLabs.Gns3.Models
import OnlinetLabs.Lib.Dict

/-!
# State snapshots

A snapshot is the row of a session with the nodes and links of its project, and it is served again
for as long as it is young.
-/

namespace OnlinetLabs.Gns3

/-! ### The cache -/

structure StateCache (α : Type) where
  ttl : Int := 5
  data : Dict String (Int × α) := {}
deriving Repr, DecidableEq

namespace StateCache

variable {α : Type} (cache : StateCache α) {now ts : Int} {key : String} {value : α}

def get (now : Int) (key : String) : Option α :=
  match cache.data.get? key with
  | none => none
  | some (ts, value) => if now - ts ≥ cache.ttl then none else some value

def set (now : Int) (key : String) (value : α) : StateCache α :=
  { cache with data := cache.data.set key (now, value) }

def invalidate (key : String) : StateCache α := { cache with data := cache.data.erase key }

/-- Drops the entries that are older than `factor` times the time to live. -/
def sweepStale (now factor : Int) : StateCache α :=
  let stale := cache.data.entries.filter fun entry => decide (now - entry.2.1 > cache.ttl * factor)
  { cache with data := cache.data.eraseAll (stale.map Prod.fst) }

variable {cache}

theorem get_eq_some_iff : cache.get now key = some value
    ↔ ∃ ts, cache.data.get? key = some (ts, value) ∧ now - ts < cache.ttl := by
  unfold get
  split
  · rename_i hnone
    simp [hnone]
  · rename_i ts held hheld
    constructor
    · intro h
      split at h
      · cases h
      · cases h
        exact ⟨ts, hheld, by omega⟩
    · rintro ⟨ts', heq, hyoung⟩
      rw [hheld] at heq
      cases heq
      rw [if_neg (by omega)]

theorem get_invalidate : (cache.invalidate key).get now key = none := by
  simp [get, invalidate, Dict.get?_erase]

theorem get_set_eq_some {held : α} (h : (cache.set ts key value).get now key = some held) :
    held = value := by
  obtain ⟨ts', hget, -⟩ := get_eq_some_iff.mp h
  simp only [set, Dict.get?_set, if_true, Option.some.injEq, Prod.mk.injEq] at hget
  exact hget.2.symm

/-- Time takes entries away and brings none. -/
theorem get_of_le {later : Int} (hle : now ≤ later) (h : cache.get later key = some value) :
    cache.get now key = some value := by
  obtain ⟨ts, hget, hyoung⟩ := get_eq_some_iff.mp h
  exact get_eq_some_iff.mpr ⟨ts, hget, by omega⟩

theorem get_of_sweepStale {swept factor : Int}
    (h : (cache.sweepStale swept factor).get now key = some value) :
    cache.get now key = some value := by
  obtain ⟨ts, hget, hyoung⟩ := get_eq_some_iff.mp h
  simp only [sweepStale, Dict.get?_eraseAll] at hget
  split at hget
  · cases hget
  · exact get_eq_some_iff.mpr ⟨ts, hget, hyoung⟩

end StateCache

/-! ### What GNS3 says and what is made of it -/

/-- A node as GNS3 describes it. A closed project has no runtime fields. -/
structure RawNode where
  nodeId : String
  name : String
  nodeType : String
  status : Option String := none
  console : Option Nat := none
  consoleType : Option String := none
  consoleHost : Option String := none
  symbol : Option String := none
deriving Repr, DecidableEq

inductive NodeStatus where
  | started
  | stopped
  | suspended
deriving Repr, DecidableEq

def NodeStatus.ofString? : String → Option NodeStatus
  | "started" => some .started
  | "stopped" => some .stopped
  | "suspended" => some .suspended
  | _ => none

structure NodeState where
  id : String
  name : String
  nodeType : String
  status : NodeStatus
  console : Option Nat
  consoleType : Option String
  consoleHost : String
  symbol : String
deriving Repr, DecidableEq

structure LinkEndpoint where
  nodeId : String
  adapterNumber : Nat
  portNumber : Nat
deriving Repr, DecidableEq

structure LinkState where
  id : String
  nodes : List LinkEndpoint
deriving Repr, DecidableEq

structure SessionMetrics where
  nodesTotal : Nat
  nodesStarted : Nat
  linksCount : Nat
  uptimeSeconds : Int
deriving Repr, DecidableEq

structure Row where
  status : SessionStatus := .active
  gns3ProjectId : ProjectId := 0
  createdAt : Int := 0
deriving Repr, DecidableEq

structure SessionStateResponse where
  sessionId : String
  projectId : ProjectId
  status : SessionStatus
  startedAt : Int
  nodes : List NodeState
  links : List LinkState
  metrics : SessionMetrics
deriving Repr, DecidableEq

/-- A status that is none of the three fails the validation. -/
def nodeState (n : RawNode) : Option NodeState :=
  (NodeStatus.ofString? (n.status.getD "stopped")).map fun status =>
    { id := n.nodeId
      name := n.name
      nodeType := n.nodeType
      status
      console := n.console
      consoleType := n.consoleType
      consoleHost := n.consoleHost.getD ""
      symbol := n.symbol.getD "" }

def buildState (sessionId : String) (row : Row) (nodesRaw : List RawNode) (links : List LinkState)
    (now : Int) :
    Option SessionStateResponse :=
  (nodesRaw.mapM nodeState).map fun nodes =>
    { sessionId
      projectId := row.gns3ProjectId
      status := row.status
      startedAt := row.createdAt
      nodes
      links
      metrics :=
        { nodesTotal := nodes.length
          nodesStarted := nodes.countP fun n => decide (n.status = .started)
          linksCount := links.length
          uptimeSeconds := now - row.createdAt } }

end OnlinetLabs.Gns3
