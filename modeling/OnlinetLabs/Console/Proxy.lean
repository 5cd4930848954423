import OnlinetLabs.Console.Lossless
import OnlinetLabs.Lib.Runs

/-!
# The console proxy

`console_ws` relays one console socket. Two pumps run until either ends: one sends to the node what
the learner types, the other sends to the learner what the node answers, and each tells the tap what
it has sent. Then both are cancelled and awaited, the tap is closed, and the sockets are.

A cancellation meets a pump where it waits. While it waits for a send the message may be on the wire
already.
-/

namespace OnlinetLabs.Console.Proxy

open ConsoleTap (Message)

/-- A frame of a WebSocket. -/
inductive WsMessage where
  | bytes (data : Bytes)
  | text (content : Text)
deriving DecidableEq

/-- What the tap is told. `encode` is UTF-8 with a question mark for what has none. -/
def WsMessage.data (encode : Text → Bytes) : WsMessage → Bytes
  | .bytes data => data
  | .text content => encode content

inductive PumpPc where
  | receiving
  | sending (message : WsMessage)
  /-- The message is out, and the pump has not gone on yet. -/
  | sent (message : WsMessage)
  | ended
deriving DecidableEq

structure Pump where
  pc : PumpPc := .receiving
  received : List WsMessage := []
  sent : List WsMessage := []
deriving DecidableEq

inductive MainPc where
  | relaying
  /-- Both pumps are cancelled, and awaited. -/
  | joining
  | closingUpstream
  | closingClient
  | returned
  /-- The handler was cancelled while it closed the sockets. -/
  | raised
deriving DecidableEq

structure Relay where
  pump : Direction → Pump := fun _ => {}
  main : MainPc := .relaying
  /-- What the tap was told, and when it was closed. -/
  calls : List Message := []
  closedAt : Option Int := none
  upstreamClosed : Nat := 0
  clientClosed : Nat := 0

inductive RelayMove where
  | receive (direction : Direction) (message : WsMessage)
  | deliver (direction : Direction)
  | goOn (direction : Direction) (now : Int)
  /-- The source is exhausted, or something raises, or the cancellation arrives. -/
  | finish (direction : Direction)
  | wake
  /-- The handler itself is cancelled. -/
  | shutdown
  | closeTap (now : Int)
  | closeSocket

namespace Relay

def call (encode : Text → Bytes) (direction : Direction) (message : WsMessage)
    (now : Int) : Message :=
  match direction with
  | .«in» => .fromClient (message.data encode) now
  | .out => .fromNode (message.data encode) now

def setPump (s : Relay) (direction : Direction) (pump : Pump) : Relay :=
  { s with pump := Function.update s.pump direction pump }

/-- `console_ws`, once both sockets are open. `tapped` tells whether there is a tap. -/
def step (encode : Text → Bytes) (tapped : Bool) (s : Relay) : RelayMove → Option Relay
  | .receive d message =>
      match (s.pump d).pc with
      | .receiving =>
          some (s.setPump d
            { s.pump d with pc := .sending message, received := (s.pump d).received ++ [message] })
      | _ => none
  | .deliver d =>
      match (s.pump d).pc with
      | .sending message =>
          some (s.setPump d
            { s.pump d with pc := .sent message, sent := (s.pump d).sent ++ [message] })
      | _ => none
  | .goOn d now =>
      match (s.pump d).pc with
      | .sent message =>
          some { s.setPump d { s.pump d with pc := .receiving } with
            calls := if tapped then s.calls ++ [call encode d message now] else s.calls }
      | _ => none
  | .finish d =>
      if (s.pump d).pc = .ended then none else some (s.setPump d { s.pump d with pc := .ended })
  | .wake =>
      if s.main = .relaying ∧ ((s.pump .«in»).pc = .ended ∨ (s.pump .out).pc = .ended) then
        some { s with main := .joining }
      else none
  | .shutdown =>
      match s.main with
      | .relaying => some { s with main := .joining }
      -- swallowed, and the pumps are awaited all the same
      | .joining => some s
      | .closingUpstream => some { s with main := .raised, upstreamClosed := s.upstreamClosed + 1 }
      | .closingClient => some { s with main := .raised, clientClosed := s.clientClosed + 1 }
      | _ => none
  | .closeTap now =>
      if s.main = .joining ∧ (s.pump .«in»).pc = .ended ∧ (s.pump .out).pc = .ended then
        some { s with main := .closingUpstream, closedAt := if tapped then some now else none }
      else none
  | .closeSocket =>
      match s.main with
      | .closingUpstream =>
          some { s with main := .closingClient, upstreamClosed := s.upstreamClosed + 1 }
      | .closingClient => some { s with main := .returned, clientClosed := s.clientClosed + 1 }
      | _ => none

def tap (alnum : Char → Bool) (opened : ConsoleTap) (s : Relay) : ConsoleTap :=
  match s.closedAt with
  | none => opened.receiveAll alnum s.calls
  | some now => (opened.receiveAll alnum s.calls).close alnum now

end Relay

/-! ### What is relayed -/

theorem ingested_call (encode : Text → Bytes) (d d' : Direction) (calls : List Message)
    (message : WsMessage)
    (now : Int) :
    ingested d (calls ++ [Relay.call encode d' message now])
      = ingested d calls ++ if d = d' then message.data encode else [] := by
  rw [ingested, List.flatMap_append, List.flatMap_singleton]
  congr 1
  cases d <;> cases d' <;> rfl

/-- What a pump has received, sent and told, by where it is. -/
def Phase (reported : List WsMessage) (pump : Pump) : Prop :=
  match pump.pc with
  | .receiving => pump.sent = reported ∧ pump.received = reported
  | .sending message => pump.sent = reported ∧ pump.received = reported ++ [message]
  | .sent message => pump.sent = reported ++ [message] ∧ pump.received = reported ++ [message]
  | .ended =>
      reported <+: pump.sent ∧ pump.sent <+: pump.received
        ∧ pump.received.length ≤ reported.length + 1

/-- What was told was sent, and what was sent was received, of which one message at most is not told
yet. -/
structure Behind (reported : List WsMessage) (pump : Pump) : Prop where
  told : reported <+: pump.sent
  sent : pump.sent <+: pump.received
  last : pump.received.length ≤ reported.length + 1

theorem Phase.behind {reported : List WsMessage} {pump : Pump} (h : Phase reported pump) :
    Behind reported pump := by
  rw [Phase] at h
  split at h
  · obtain ⟨hsent, hreceived⟩ := h
    rw [← hsent] at hreceived ⊢
    exact ⟨List.prefix_rfl, hreceived ▸ List.prefix_rfl, hreceived ▸ Nat.le_succ _⟩
  · obtain ⟨hsent, hreceived⟩ := h
    refine ⟨hsent ▸ List.prefix_rfl, ?_, ?_⟩
    · rw [hsent, hreceived]
      exact List.prefix_append _ _
    · rw [hreceived, List.length_append, List.length_singleton]
  · obtain ⟨hsent, hreceived⟩ := h
    refine ⟨hsent ▸ List.prefix_append _ _, ?_, ?_⟩
    · exact hsent.trans hreceived.symm ▸ List.prefix_rfl
    · rw [hreceived, List.length_append, List.length_singleton]
  · exact ⟨h.1, h.2.1, h.2.2⟩

/-- What the tap was told of a direction is what a pump sent before. -/
def Told (encode : Text → Bytes) (tapped : Bool) (s : Relay) (direction : Direction)
    (reported : List WsMessage) :
    Prop :=
  tapped = true → ingested direction s.calls = reported.flatMap (WsMessage.data encode)

def MainPc.joined : MainPc → Bool
  | .relaying | .joining => false
  | _ => true

def MainPc.Closed (upstream client : Nat) : MainPc → Prop
  | .relaying | .joining | .closingUpstream => upstream = 0 ∧ client = 0
  | .closingClient => upstream = 1 ∧ client = 0
  | .returned => upstream = 1 ∧ client = 1
  | .raised => upstream = 1 ∧ client ≤ 1

theorem MainPc.Closed.le_one {main : MainPc} {upstream client : Nat}
    (h : main.Closed upstream client) :
    upstream ≤ 1 ∧ client ≤ 1 := by
  cases main <;> simp only [MainPc.Closed] at h <;> omega

structure Kept (encode : Text → Bytes) (tapped : Bool) (s : Relay) : Prop where
  pump : ∀ direction, ∃ reported, Phase reported (s.pump direction)
    ∧ Told encode tapped s direction reported
  ended : s.main.joined = true → ∀ direction, (s.pump direction).pc = .ended
  tap : s.closedAt.isSome = (tapped && s.main.joined)
  sockets : s.main.Closed s.upstreamClosed s.clientClosed

section Steps

variable {encode : Text → Bytes} {tapped : Bool} {s s' : Relay} {d : Direction}

theorem kept_init : Kept encode tapped {} where
  pump _ := ⟨[], ⟨rfl, rfl⟩, fun _ => rfl⟩
  ended h := absurd h (by decide)
  tap := by simp [MainPc.joined]
  sockets := ⟨rfl, rfl⟩

/-- One pump moves, and the tap is told of nothing. -/
theorem Kept.move (h : Kept encode tapped s) {pump : Pump} (hrunning : (s.pump d).pc ≠ .ended)
    (hphase : ∀ reported, Phase reported (s.pump d) → Phase reported pump) :
    Kept encode tapped (s.setPump d pump) where
  pump d' := by
    obtain ⟨reported, hreported, htold⟩ := h.pump d'
    refine ⟨reported, ?_, htold⟩
    by_cases hd : d' = d
    · subst hd
      dsimp only [Relay.setPump]
      rw [Function.update_self]
      exact hphase reported hreported
    · dsimp only [Relay.setPump]
      rw [Function.update_of_ne hd]
      exact hreported
  ended hjoined := absurd (h.ended hjoined d) hrunning
  tap := h.tap
  sockets := h.sockets

/-- The tap is told of the message that is out. -/
theorem Kept.goOn (h : Kept encode tapped s) {message : WsMessage}
    (hsent : (s.pump d).pc = .sent message) (now : Int) :
    Kept encode tapped { s.setPump d { s.pump d with pc := .receiving } with
      calls := if tapped then s.calls ++ [Relay.call encode d message now] else s.calls } where
  pump d' := by
    obtain ⟨reported, hreported, htold⟩ := h.pump d'
    by_cases hd : d' = d
    · subst hd
      rw [Phase, hsent] at hreported
      refine ⟨reported ++ [message], ?_, fun htap => ?_⟩
      · dsimp only [Relay.setPump]
        rw [Function.update_self]
        exact hreported
      · dsimp only
        rw [if_pos htap, ingested_call, if_pos rfl, htold htap, List.flatMap_append,
          List.flatMap_singleton]
    · refine ⟨reported, ?_, fun htap => ?_⟩
      · dsimp only [Relay.setPump]
        rw [Function.update_of_ne hd]
        exact hreported
      · dsimp only
        rw [if_pos htap, ingested_call, if_neg hd, List.append_nil]
        exact htold htap
  ended hjoined := absurd (h.ended hjoined d) (by rw [hsent]; exact PumpPc.noConfusion)
  tap := h.tap
  sockets := h.sockets

/-- The main task moves, and the pumps stay. -/
theorem Kept.main (h : Kept encode tapped s) {main : MainPc} {closedAt : Option Int}
    {upstream client : Nat}
    (hended : main.joined = true → s.main.joined = true ∨ ∀ direction,
      (s.pump direction).pc = .ended)
    (htap : closedAt.isSome = (tapped && main.joined)) (hsockets : main.Closed upstream client) :
    Kept encode tapped
      { s with main, closedAt, upstreamClosed := upstream, clientClosed := client } where
  pump := h.pump
  ended hjoined := (hended hjoined).elim h.ended id
  tap := htap
  sockets := hsockets

theorem Kept.step {move : RelayMove} (h : Kept encode tapped s)
    (hstep : s.step encode tapped move = some s') :
    Kept encode tapped s' := by
  cases move with
  | receive d message =>
      dsimp only [Relay.step] at hstep
      split at hstep
      · rename_i hpc
        cases hstep
        refine h.move (hpc ▸ PumpPc.noConfusion) fun reported hreported => ?_
        rw [Phase, hpc] at hreported
        exact ⟨hreported.1, by rw [hreported.2]⟩
      · cases hstep
  | deliver d =>
      dsimp only [Relay.step] at hstep
      split at hstep
      · rename_i message hpc
        cases hstep
        refine h.move (hpc ▸ PumpPc.noConfusion) fun reported hreported => ?_
        rw [Phase, hpc] at hreported
        exact ⟨by rw [hreported.1], hreported.2⟩
      · cases hstep
  | goOn d now =>
      dsimp only [Relay.step] at hstep
      split at hstep
      · rename_i message hpc
        cases hstep
        exact h.goOn hpc now
      · cases hstep
  | finish d =>
      dsimp only [Relay.step] at hstep
      split at hstep
      · cases hstep
      · rename_i hrunning
        cases hstep
        exact h.move hrunning fun reported hreported =>
          ⟨hreported.behind.told, hreported.behind.sent, hreported.behind.last⟩
  | wake =>
      dsimp only [Relay.step] at hstep
      split at hstep
      · rename_i hmain
        cases hstep
        have htap := h.tap
        have hsockets := h.sockets
        rw [hmain.1] at htap hsockets
        exact h.main (fun hjoined => absurd hjoined (by decide)) htap hsockets
      · cases hstep
  | shutdown =>
      have htap := h.tap
      have hsockets := h.sockets
      dsimp only [Relay.step] at hstep
      split at hstep <;> rename_i hmain <;> cases hstep <;> rw [hmain] at htap hsockets
      · exact h.main (fun hjoined => absurd hjoined (by decide)) htap hsockets
      · exact h
      · exact h.main (fun _ => Or.inl (hmain ▸ rfl)) htap
          ⟨by rw [hsockets.1], by rw [hsockets.2]; exact Nat.zero_le 1⟩
      · exact h.main (fun _ => Or.inl (hmain ▸ rfl)) htap ⟨hsockets.1, by rw [hsockets.2]⟩
  | closeTap now =>
      dsimp only [Relay.step] at hstep
      split at hstep
      · rename_i hmain
        cases hstep
        have hsockets := h.sockets
        rw [hmain.1] at hsockets
        refine h.main (fun _ => Or.inr fun direction => ?_) ?_ hsockets
        · cases direction
          exacts [hmain.2.1, hmain.2.2]
        · cases tapped <;> rfl
      · cases hstep
  | closeSocket =>
      have htap := h.tap
      have hsockets := h.sockets
      dsimp only [Relay.step] at hstep
      split at hstep
      · rename_i hmain
        cases hstep
        rw [hmain] at htap hsockets
        exact h.main (fun _ => Or.inl (hmain ▸ rfl)) htap ⟨by rw [hsockets.1], hsockets.2⟩
      · rename_i hmain
        cases hstep
        rw [hmain] at htap hsockets
        exact h.main (fun _ => Or.inl (hmain ▸ rfl)) htap ⟨hsockets.1, by rw [hsockets.2]⟩
      · cases hstep

end Steps

/-! ### What is recorded -/

/-- Within the budgets, where nothing is masked, a closed tap has stored what it was told. -/
theorem stored_of_clear (alnum : Char → Bool) (sessionId : Nat) (nodeId : Text) (connectionId : Nat)
    (start now : Int)
    (calls : List Message) (d : Direction) :
    let closed :=
      ((ConsoleTap.init sessionId nodeId connectionId start).receiveAll alnum calls).close alnum now
    closed.overBudget = false → (∀ frame ∈ closed.frames, frame.redacted = false) →
      closed.stored d = ingested d calls := by
  intro closed hbudget hclear
  have hclosed : Tracked closed (Framer.receiveAll {} calls).close :=
    ((tracked_init sessionId nodeId connectionId start).receiveAll calls).close now
  have hframes := (hclosed.follows hbudget).frames
  rw [stored_eq_carried (map_cut_of hframes (payload_of_clear hframes hclear))]
  exact Framer.carried_close (fun d => Framer.said_receiveAll d) d

/-- **A console is recorded as it was relayed.** Whatever the order in which the sockets, the tasks
and a shutdown move: either side is sent what the other has said, in order and at most one message
behind, and the tap is told of what was sent, with the same message behind at most. When the handler
returns, the pumps have ended, the tap is closed and so is each socket, once. Then the frames of
either direction are what was relayed, but for that message, where the tap stayed in its budgets and
masked nothing. -/
theorem always_recorded (encode : Text → Bytes) (tapped : Bool) (alnum : Char → Bool)
    (sessionId : Nat) (nodeId : Text)
    (connectionId : Nat) (start : Int) :
    Runs.Always (Relay.step encode tapped) {} fun s =>
      s.upstreamClosed ≤ 1 ∧ s.clientClosed ≤ 1
        ∧ (s.main = .returned → s.upstreamClosed = 1 ∧ s.clientClosed = 1
          ∧ s.closedAt.isSome = tapped)
        ∧ (s.closedAt.isSome → ∀ d, (s.pump d).pc = .ended)
        ∧ ∀ d, ∃ reported, Behind reported (s.pump d)
          ∧ (tapped = true → ingested d s.calls = reported.flatMap (WsMessage.data encode))
          ∧ (s.closedAt.isSome →
              let tap := s.tap alnum (ConsoleTap.init sessionId nodeId connectionId start)
              tap.overBudget = false → (∀ frame ∈ tap.frames, frame.redacted = false) →
                tap.stored d = reported.flatMap (WsMessage.data encode)) := by
  refine Runs.always_of_invariant (fun s move s' => Kept.step) kept_init fun s h => ?_
  have hclosed : s.closedAt.isSome → tapped = true ∧ s.main.joined = true := by
    intro hsome
    rw [h.tap, Bool.and_eq_true] at hsome
    exact hsome
  have hsockets := h.sockets
  refine ⟨hsockets.le_one.1, hsockets.le_one.2, fun hreturned => ?_, fun hsome =>
    h.ended (hclosed hsome).2, fun d => ?_⟩
  · have htap := h.tap
    rw [hreturned] at hsockets htap
    exact ⟨hsockets.1, hsockets.2, htap.trans (Bool.and_true tapped)⟩
  · obtain ⟨reported, hphase, htold⟩ := h.pump d
    refine ⟨reported, hphase.behind, htold, fun hsome => ?_⟩
    obtain ⟨now, hnow⟩ := Option.isSome_iff_exists.mp hsome
    intro tap hbudget hclear
    have hdefinition : tap
        = ((ConsoleTap.init sessionId nodeId connectionId start).receiveAll alnum s.calls).close
        alnum now := by
      dsimp only [tap, Relay.tap]
      rw [hnow]
    rw [hdefinition] at hbudget hclear ⊢
    rw [stored_of_clear alnum sessionId nodeId connectionId start now s.calls d hbudget hclear]
    exact htold (hclosed hsome).1

end OnlinetLabs.Console.Proxy
