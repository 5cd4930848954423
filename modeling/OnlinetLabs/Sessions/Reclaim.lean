import OnlinetLabs.Lib.Dict
import OnlinetLabs.Sessions.Activity

/-!
# Reclaiming idle sessions

A pass of `_reclaim_idle_sessions` reads the idle sessions once and then works through them: it asks
GNS3 for the last activity, saves the configuration of the nodes that would lose it, stops the nodes
and marks the session paused. The learner's requests and start actions, the nodes themselves and the
paths that end a session move between any two of its awaits.
-/

namespace OnlinetLabs.Sessions

open Interleaving

/-! ### Nodes -/

/-- A node as GNS3 tells it. A name or a console port that is missing is the empty one. -/
structure Node where
  id : String
  name : String
  nodeType : String
  status : String
  console : Nat
deriving Repr, DecidableEq

def Node.isVolatile (n : Node) : Bool := n.nodeType == "vpcs" && n.status == "started"

/-- `nodes_by_name` of `build_check_context`. Of two nodes with one name the later stays. -/
def nodesByName (nodes : List Node) : Dict String Node :=
  nodes.foldl (fun byName n => if n.name = "" then byName else byName.set n.name n) {}

/-- The `targets` of `persist_volatile_configs`. -/
def targets (nodes : List Node) : List Node :=
  ((nodesByName nodes).entries.map (·.2)).filter (·.isVolatile)

/-! ### The pass -/

structure Turn where
  /-- The row as the pass read it. -/
  session : SeenSession
  gns3Sid : Gns3Id
  number : Nat
  /-- The nodes as they were when the state was fetched, if it was. -/
  fetched : Option (List Node) := none
  /-- The saves that are under way, and those that are over, with what came of them. -/
  pending : List Node := []
  answered : List (Node × Bool) := []
deriving Repr, DecidableEq

inductive PassPc where
  | idle
  | selecting
  | looping (rest : List SeenSession)
  | fetching (turn : Turn) (rest : List SeenSession)
  | saving (turn : Turn) (rest : List SeenSession)
  | stopping (turn : Turn) (rest : List SeenSession)
  | marking (turn : Turn) (rest : List SeenSession)
  | raised
deriving Repr, DecidableEq

structure Pass where
  cutoff : Time := 0
  turns : Nat := 0
  pc : PassPc := .idle
deriving Repr, DecidableEq

/-- What `_last_activity_at` finds. -/
inductive Activity where
  | none
  | at (timestamp : Time)
  | malformed
deriving Repr, DecidableEq

inductive PassAnswer where
  | begin (now : Time)
  | select (ok : Bool)
  | activity (found : Activity)
  | fetch (ok : Bool)
  | save (node : Node) (ok : Bool)
  | gather
  | stop (ok : Bool)
  | mark (now : Time) (ok : Bool)
deriving Repr, DecidableEq

/-! ### What everybody shares -/

/-- A configuration that was saved: in a turn of the pass, or by someone else. -/
structure Saved where
  gns3Sid : Gns3Id
  nodeId : String
  turn : Option Nat
deriving Repr, DecidableEq

/-- A call of `bulk_node_action(sid, "stop")`, with the nodes it takes the configuration from. -/
structure Stop where
  gns3Sid : Gns3Id
  lost : List Node
deriving Repr, DecidableEq

/-- An UPDATE of `_mark_paused`, with the row it found. -/
structure Mark where
  cutoff : Time
  row : SeenSession
deriving Repr, DecidableEq

structure Site where
  sessions : Table SeenSession := ⟨[]⟩
  nodes : Gns3Id → List Node := fun _ => []
  pass : Pass := {}
  /-- What was saved since the pass began. -/
  saves : List Saved := []
  stops : List Stop := []
  marks : List Mark := []
  /-- Whether the learner has completed a start action since the nodes of the session were
  stopped. -/
  resumed : SessionId → Bool := fun _ => false

namespace Site

variable (s : Site)

def isSaved (gns3Sid : Gns3Id) (n : Node) : Bool :=
  s.saves.any fun saved => saved.gns3Sid == gns3Sid && saved.nodeId == n.id

/-- The nodes that would lose their configuration if they were stopped now. -/
def unsaved (gns3Sid : Gns3Id) : List Node :=
  (s.nodes gns3Sid).filter fun n => n.isVolatile && !s.isSaved gns3Sid n

def goTo (pc : PassPc) : Site := { s with pass := { s.pass with pc } }

def update (id : SessionId) (f : SeenSession → SeenSession) : Site :=
  match s.sessions.get? id with
  | some row => { s with sessions := s.sessions.set id (f row) }
  | none => s

def setResumed (id : SessionId) (resumed : Bool) : Site :=
  { s with resumed := fun other => if other = id then resumed else s.resumed other }

/-- The call of `bulk_node_action`. Where it raises, what has become of the nodes is a move of
theirs. -/
def stopNodes (turn : Turn) (ok : Bool) : Site :=
  let s' := s.setResumed turn.session.id false
  { s' with
    stops := s.stops ++ [{ gns3Sid := turn.gns3Sid, lost := s.unsaved turn.gns3Sid }]
    nodes := fun gns3Sid =>
      if ok && gns3Sid == turn.gns3Sid then (s.nodes gns3Sid).map fun n =>
        { n with status := "stopped" }
      else s.nodes gns3Sid }

def markPaused (id : SessionId) (now : Time) : Site :=
  match s.sessions.get? id with
  | some row =>
      { s.update id fun row => { row with pausedAt := some now } with
        marks := s.marks ++ [{ cutoff := s.pass.cutoff, row }] }
  | none => s

def advance (a : PassAnswer) : Option Site :=
  match s.pass.pc, a with
  | .idle, .begin now =>
      some { s with pass := { cutoff := now - idleThreshold, pc := .selecting }, saves := [] }
  | .selecting, .select ok =>
      some (s.goTo (if ok then .looping (s.sessions.rows.filter (·.isIdle s.pass.cutoff))
        else .raised))
  | .looping (session :: rest), .activity found =>
      match session.gns3Sid with
      | none => some (s.goTo (.looping rest))
      | some gns3Sid =>
          let turn : Turn := { session, gns3Sid, number := s.pass.turns }
          let s := { s with pass := { s.pass with turns := s.pass.turns + 1 } }
          match found with
          | .malformed => some (s.goTo .raised)
          | .none => some (s.goTo (.fetching turn rest))
          | .at timestamp =>
              if s.pass.cutoff < timestamp then some (s.goTo (.looping rest))
              else some (s.goTo (.fetching turn rest))
  | .fetching turn rest, .fetch ok =>
      if ok then
        let nodes := s.nodes turn.gns3Sid
        some (s.goTo (.saving { turn with
          fetched := some nodes
          pending := (targets nodes).filter fun n => n.console != 0
          answered := ((targets nodes).filter fun n => n.console == 0).map fun n =>
            (n, false) } rest))
      else some (s.goTo (.stopping turn rest))
  | .saving turn rest, .save node ok =>
      if node ∈ turn.pending then
        let s := if ok then
            { s with saves := s.saves ++ [⟨turn.gns3Sid, node.id, some turn.number⟩] }
          else s
        some (s.goTo (.saving { turn with
          pending := turn.pending.erase node
          answered := turn.answered ++ [(node, ok)] } rest))
      else none
  | .saving turn rest, .gather =>
      if turn.pending = [] then some (s.goTo (.stopping turn rest)) else none
  | .stopping turn rest, .stop ok =>
      some ((s.stopNodes turn ok).goTo (if ok then .marking turn rest else .looping rest))
  | .marking turn rest, .mark now ok =>
      let s := if ok then s.markPaused turn.session.id now else s
      some (s.goTo (.looping rest))
  | _, _ => none

section Fields

variable {s} {id : SessionId} {f : SeenSession → SeenSession} {turn : Turn} {ok : Bool} {now : Time}

@[simp] theorem pass_update : (s.update id f).pass = s.pass := by
  unfold update
  split <;> rfl

@[simp] theorem saves_update : (s.update id f).saves = s.saves := by
  unfold update
  split <;> rfl

@[simp] theorem stops_update : (s.update id f).stops = s.stops := by
  unfold update
  split <;> rfl

@[simp] theorem marks_update : (s.update id f).marks = s.marks := by
  unfold update
  split <;> rfl

@[simp] theorem resumed_update : (s.update id f).resumed = s.resumed := by
  unfold update
  split <;> rfl

theorem get?_update {other : SessionId} : (s.update id f).sessions.get? other
    = if other = id then (s.sessions.get? other).map f else s.sessions.get? other := by
  unfold update
  split
  · rename_i row hrow
    rw [Table.get?_set hrow]
    split
    · rename_i heq
      rw [heq, hrow, Option.map_some]
    · rfl
  · rename_i hnone
    split
    · rename_i heq
      rw [heq, hnone, Option.map_none]
    · rfl

@[simp] theorem pass_markPaused : (s.markPaused id now).pass = s.pass := by
  unfold markPaused
  split
  · exact pass_update
  · rfl

@[simp] theorem saves_markPaused : (s.markPaused id now).saves = s.saves := by
  unfold markPaused
  split
  · exact saves_update
  · rfl

@[simp] theorem stops_markPaused : (s.markPaused id now).stops = s.stops := by
  unfold markPaused
  split
  · exact stops_update
  · rfl

end Fields

end Site

inductive Advances (s : Site) : PassAnswer → Site → Prop
  | begin {now : Time} (hpc : s.pass.pc = .idle) : Advances s (.begin now)
      { s with pass := { cutoff := now - idleThreshold, pc := .selecting }, saves := [] }
  | select {ok : Bool} (hpc : s.pass.pc = .selecting) : Advances s (.select ok)
      (s.goTo (if ok then .looping (s.sessions.rows.filter (·.isIdle s.pass.cutoff)) else .raised))
  | skip {session : SeenSession} {rest : List SeenSession} {found : Activity} {turns : Nat}
      {pc : PassPc}
      (hpc : s.pass.pc = .looping (session :: rest)) (hturns : s.pass.turns ≤ turns)
      (hnext : pc = .looping rest ∨ pc = .raised) :
      Advances s (.activity found) { s with pass := { s.pass with turns, pc } }
  | turn {session : SeenSession} {rest : List SeenSession} {found : Activity} {gns3Sid : Gns3Id}
      (hpc : s.pass.pc = .looping (session :: rest)) (hsid : session.gns3Sid = some gns3Sid) :
      Advances s (.activity found) { s with pass := { s.pass with
        turns := s.pass.turns + 1
        pc := .fetching { session, gns3Sid, number := s.pass.turns } rest } }
  | fetch {turn : Turn} {rest : List SeenSession} (hpc : s.pass.pc = .fetching turn rest) :
      Advances s (.fetch true) (s.goTo (.saving { turn with
        fetched := some (s.nodes turn.gns3Sid)
        pending := (targets (s.nodes turn.gns3Sid)).filter fun n => n.console != 0
        answered := ((targets (s.nodes turn.gns3Sid)).filter fun n => n.console == 0).map
          fun n => (n, false) } rest))
  | blind {turn : Turn} {rest : List SeenSession} (hpc : s.pass.pc = .fetching turn rest) :
      Advances s (.fetch false) (s.goTo (.stopping turn rest))
  | save {turn : Turn} {rest : List SeenSession} {node : Node} {ok : Bool}
      (hpc : s.pass.pc = .saving turn rest) (hmem : node ∈ turn.pending) : Advances s
        (.save node ok)
      (Site.goTo { s with
          saves := s.saves ++ if ok
            then [Saved.mk turn.gns3Sid node.id (some turn.number)] else [] }
        (.saving { turn with
          pending := turn.pending.erase node, answered := turn.answered ++ [(node, ok)] } rest))
  | gather {turn : Turn} {rest : List SeenSession} (hpc : s.pass.pc = .saving turn rest)
      (hdone : turn.pending = []) : Advances s .gather (s.goTo (.stopping turn rest))
  | stop {turn : Turn} {rest : List SeenSession} {ok : Bool}
      (hpc : s.pass.pc = .stopping turn rest) :
      Advances s (.stop ok)
        ((s.stopNodes turn ok).goTo (if ok then .marking turn rest else .looping rest))
  | mark {turn : Turn} {rest : List SeenSession} {now : Time} {ok : Bool}
      (hpc : s.pass.pc = .marking turn rest) : Advances s (.mark now ok)
      ((if ok then s.markPaused turn.session.id now else s).goTo (.looping rest))

theorem advances_of_advance {s s' : Site} {a : PassAnswer} (h : s.advance a = some s') :
    Advances s a s' := by
  unfold Site.advance at h
  split at h
  · rename_i hpc
    cases h
    exact .begin hpc
  · rename_i hpc
    cases h
    exact .select hpc
  · rename_i session rest found hpc
    split at h
    · cases h
      exact .skip hpc (Nat.le_refl _) (Or.inl rfl)
    · rename_i gns3Sid hsid
      split at h
      · cases h
        exact .skip hpc (Nat.le_succ _) (Or.inr rfl)
      · cases h
        exact .turn hpc hsid
      · dsimp only at h
        split at h
        · cases h
          exact .skip hpc (Nat.le_succ _) (Or.inl rfl)
        · cases h
          exact .turn hpc hsid
  · rename_i turn rest ok hpc
    cases ok with
    | true =>
        cases h
        exact .fetch hpc
    | false =>
        cases h
        exact .blind hpc
  · rename_i turn rest node ok hpc
    split at h
    · rename_i hmem
      cases ok with
      | true =>
          cases h
          exact .save hpc hmem
      | false =>
          cases h
          have hsave : Advances s (.save node false) _ := .save hpc hmem
          simpa using hsave
    · cases h
  · rename_i turn rest hpc
    split at h
    · rename_i hdone
      cases h
      exact .gather hpc hdone
    · cases h
  · rename_i turn rest ok hpc
    cases h
    exact .stop hpc
  · rename_i turn rest now ok hpc
    cases h
    exact .mark hpc
  · cases h

/-! ### The others -/

inductive SiteMove where
  | pass (a : PassAnswer)
  | touched (id : SessionId) (userId : UserId) (now : Time)
  | observed (id : SessionId) (now : Time)
  | ended (id : SessionId) (status : EndStatus) (now : Time)
  | erased (userId : UserId)
  | nodes (gns3Sid : Gns3Id) (nodes : List Node)
  | saved (gns3Sid : Gns3Id) (nodeId : String)
  /-- A stop action of the learner. -/
  | stopped (id : SessionId)
deriving Repr, DecidableEq

def Site.move (s : Site) : SiteMove → Option Site
  | .pass a => s.advance a
  | .touched id userId now => some (s.update id (SeenSession.touchOwned now userId))
  | .observed id now => some (s.update id (SeenSession.touch now))
  | .ended id status now =>
      some (s.update id fun row => { row with status := status.toStatus, endedAt := some now })
  | .erased userId => some { s with sessions := s.sessions.deleteWhere (·.userId == userId) }
  | .nodes gns3Sid nodes =>
      some { s with nodes := fun other => if other = gns3Sid then nodes else s.nodes other }
  | .saved gns3Sid nodeId => some { s with saves := s.saves ++ [⟨gns3Sid, nodeId, none⟩] }
  | .stopped id => some (s.setResumed id false)

/-- `proxy_node_action` and `proxy_bulk_node_action` with the action `start`. -/
inductive StartPc where
  | called
  | loaded (copy : SeenSession)
  | acted (copy : SeenSession)
  | cleared
  | returned (ok : Bool)
  | raised
deriving Repr, DecidableEq

structure StartAction where
  sessionId : SessionId
  userId : UserId
  pc : StartPc := .called
deriving Repr, DecidableEq

inductive StartAnswer where
  | ok
  | failed
deriving Repr, DecidableEq

def StartAction.step (s : Site) (p : StartAction) (a : StartAnswer) : Option (Site × StartAction) :=
  match p.pc, a with
  | .returned _, _ | .raised, _ => none
  | _, .failed => some (s, { p with pc := .raised })
  | .called, .ok =>
      match (s.sessions.get? p.sessionId).filter fun row => row.userId == p.userId with
      | some row =>
          some (s, { p with pc := if row.gns3Sid.isSome then .loaded row else .returned false })
      | none => some (s, { p with pc := .returned false })
  | .loaded copy, .ok => some (s, { p with pc := .acted copy })
  -- `_clear_paused`
  | .acted copy, .ok =>
      if copy.pausedAt.isNone then some (s, { p with pc := .cleared })
      else
        match s.sessions.get? p.sessionId with
        | some _ =>
            some (s.update p.sessionId fun row => { row with pausedAt := none },
              { p with pc := .cleared })
        | none => some (s, { p with pc := .raised })
  | .cleared, .ok => some (s.setResumed p.sessionId true, { p with pc := .returned true })

def reclaiming : System Site StartAction SiteMove (SessionId × UserId) StartAnswer where
  env := Site.move
  spawn action := { sessionId := action.1, userId := action.2 }
  step s p a := p.step s a

/-! ### What the others leave alone -/

variable {s s' : Site} {move : SiteMove} {p p' : StartAction} {answer : StartAnswer}

/-- What the others do leaves the pass and its stops alone. -/
theorem Site.move_cases (h : s.move move = some s') :
    (∃ a, move = .pass a ∧ Advances s a s')
      ∨ (s'.pass = s.pass ∧ s'.stops = s.stops ∧ (∀ a, move ≠ .pass a)
        ∧ (s'.saves = s.saves ∨ ∃ gns3Sid nodeId,
          s'.saves = s.saves ++ [⟨gns3Sid, nodeId, none⟩])) := by
  cases move with
  | pass a => exact Or.inl ⟨a, rfl, advances_of_advance h⟩
  | touched | observed | ended =>
      cases h
      exact Or.inr ⟨Site.pass_update, Site.stops_update, nofun, Or.inl Site.saves_update⟩
  | erased | nodes | stopped =>
      cases h
      exact Or.inr ⟨rfl, rfl, nofun, Or.inl rfl⟩
  | saved gns3Sid nodeId =>
      cases h
      exact Or.inr ⟨rfl, rfl, nofun, Or.inr ⟨gns3Sid, nodeId, rfl⟩⟩

/-- A start action leaves the pass, what it saved and its stops alone. -/
theorem StartAction.step_frame (h : p.step s answer = some (s', p')) :
    s'.pass = s.pass ∧ s'.saves = s.saves ∧ s'.stops = s.stops := by
  unfold StartAction.step at h
  split at h
  · cases h
  · cases h
  · cases h
    exact ⟨rfl, rfl, rfl⟩
  · split at h
    · cases h
      exact ⟨rfl, rfl, rfl⟩
    · cases h
      exact ⟨rfl, rfl, rfl⟩
  · cases h
    exact ⟨rfl, rfl, rfl⟩
  · split at h
    · cases h
      exact ⟨rfl, rfl, rfl⟩
    · split at h
      · cases h
        exact ⟨Site.pass_update, Site.saves_update, Site.stops_update⟩
      · cases h
        exact ⟨rfl, rfl, rfl⟩
  · cases h
    exact ⟨rfl, rfl, rfl⟩

def atRest (sessions : Table SeenSession) (nodes : Gns3Id → List Node) : Conf Site StartAction :=
  ⟨{ sessions, nodes }, []⟩

/-- An active session nobody has used since the beginning of time. -/
def abandoned : SeenSession where
  id := 0
  userId := "ada"
  labSlug := "lan-static-ip"
  status := .active
  startedAt := 0
  endedAt := none
  expiresAt := none
  metaJson := some ⟨0⟩
  lastSeenAt := 0

end OnlinetLabs.Sessions
