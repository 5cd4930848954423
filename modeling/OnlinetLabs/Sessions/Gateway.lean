import OnlinetLabs.Lib.Runs
import OnlinetLabs.Lib.Interleaving
import Mathlib.Data.Finset.Basic

/-!
# The sockets of the gateway

`WebSocketGateway` knows the sockets of each session, those of the students apart from those of the
observers, and `_active_connections` all of them. A handler enters its socket when it is accepted
and takes it out when it ends. An intervention goes to the sockets that the session has when it is
sent, one after the other, and one that fails is taken out by the sender. In between, handlers come
and go.

A socket is its place among the handlers.
-/

namespace OnlinetLabs.Sessions.Gateway

open Interleaving (mem_of_getElem? forall_mem_set forall_mem_append)

inductive Endpoint where
  | interventions (session : Nat)
  | events (session : Nat)
  | observe (session : Nat)
deriving Repr, DecidableEq

inductive HandlerPc where
  | accepting
  | serving
  | ended
deriving Repr, DecidableEq

structure Handler where
  endpoint : Endpoint
  pc : HandlerPc := .accepting
deriving Repr, DecidableEq

structure WebSocketGateway where
  connections : Nat → Option (Finset Nat) := fun _ => none
  observers : Nat → Option (Finset Nat) := fun _ => none
  activeConnections : Finset Nat := ∅

namespace WebSocketGateway

def registerConnection (g : WebSocketGateway) (ws : Nat) : WebSocketGateway :=
  { g with activeConnections := insert ws g.activeConnections }

def unregisterConnection (g : WebSocketGateway) (ws : Nat) : WebSocketGateway :=
  { g with activeConnections := g.activeConnections.erase ws }

/-- A set without the socket, or no entry where nothing is left. -/
def without (sockets : Finset Nat) (ws : Nat) : Option (Finset Nat) :=
  if sockets.erase ws = ∅ then none else some (sockets.erase ws)

/-- `connect`, once the socket is accepted. -/
def connect (g : WebSocketGateway) (session ws : Nat) : WebSocketGateway :=
  { g with
    connections := Function.update g.connections session
      (some (insert ws ((g.connections session).getD ∅))) }.registerConnection ws

def disconnect (g : WebSocketGateway) (session ws : Nat) : WebSocketGateway :=
  match g.connections session with
  | none => g
  | some sockets =>
      if ws ∈ sockets then
        { g with
          connections := Function.update g.connections session
            (without sockets ws) }.unregisterConnection ws
      else g

def connectObserver (g : WebSocketGateway) (session ws : Nat) : WebSocketGateway :=
  { g with
    observers := Function.update g.observers session
      (some (insert ws ((g.observers session).getD ∅))) }.registerConnection ws

def disconnectObserver (g : WebSocketGateway) (session ws : Nat) : WebSocketGateway :=
  match g.observers session with
  | none => g.unregisterConnection ws
  | some sockets =>
      { g with
        observers := Function.update g.observers session
          (without sockets ws) }.unregisterConnection ws

def enter (g : WebSocketGateway) (ws : Nat) : Endpoint → WebSocketGateway
  | .interventions session => g.connect session ws
  | .events _ => g.registerConnection ws
  | .observe session => g.connectObserver session ws

/-- What the `finally` of a handler does. -/
def leave (g : WebSocketGateway) (ws : Nat) : Endpoint → WebSocketGateway
  | .interventions session => g.disconnect session ws
  | .events _ => g.unregisterConnection ws
  | .observe session => g.disconnectObserver session ws

end WebSocketGateway

/-- A call of `send_intervention`: the sockets it has found, and how each attempt went. -/
structure SendCall where
  session : Nat
  sockets : Finset Nat
  remaining : Finset Nat
  attempts : List (Nat × Bool) := []
deriving DecidableEq

structure Server where
  gateway : WebSocketGateway := {}
  handlers : List Handler := []
  calls : List SendCall := []
  /-- The sockets that `close_all_connections` has still to close, once it is called. -/
  closing : Option (Finset Nat) := none
  cleared : Bool := false

inductive Move where
  | open (endpoint : Endpoint)
  | accept (ws : Nat)
  /-- The handler ends before its socket is accepted. -/
  | refuse (ws : Nat)
  | leave (ws : Nat)
  | intervene (session : Nat)
  | send (call ws : Nat) (delivered : Bool)
  | closeAll
  | close (ws : Nat)
  | clear
deriving Repr, DecidableEq

namespace Server

def step (s : Server) : Move → Option Server
  | .open endpoint => some { s with handlers := s.handlers ++ [{ endpoint }] }
  | .accept ws =>
      match s.handlers[ws]? with
      | some { endpoint, pc := .accepting } =>
          some { s with
            gateway := s.gateway.enter ws endpoint
            handlers := s.handlers.set ws { endpoint, pc := .serving } }
      | _ => none
  | .refuse ws =>
      match s.handlers[ws]? with
      | some { endpoint, pc := .accepting } =>
          some { s with handlers := s.handlers.set ws { endpoint, pc := .ended } }
      | _ => none
  | .leave ws =>
      match s.handlers[ws]? with
      | some { endpoint, pc := .serving } =>
          some { s with
            gateway := s.gateway.leave ws endpoint
            handlers := s.handlers.set ws { endpoint, pc := .ended } }
      | _ => none
  | .intervene session =>
      match s.gateway.connections session with
      | none => some s
      | some sockets =>
          some { s with calls := s.calls ++ [{ session, sockets, remaining := sockets }] }
  | .send c ws delivered =>
      match s.calls[c]? with
      | none => none
      | some call =>
          if ws ∈ call.remaining then
            some { s with
              gateway := if delivered then s.gateway else s.gateway.disconnect call.session ws
              calls := s.calls.set c
                { call with
                  remaining := call.remaining.erase ws
                  attempts := call.attempts ++ [(ws, delivered)] } }
          else none
  | .closeAll =>
      if s.closing = none then some { s with closing := some s.gateway.activeConnections } else none
  | .close ws =>
      match s.closing with
      | some sockets =>
          if ws ∈ sockets then some { s with closing := some (sockets.erase ws) } else none
      | none => none
  | .clear =>
      if s.closing = some ∅ ∧ s.cleared = false then
        some { s with gateway := { s.gateway with activeConnections := ∅ }, cleared := true }
      else none

def Serves (s : Server) (ws : Nat) (endpoint : Endpoint) :
    Prop := s.handlers[ws]? = some ⟨endpoint, .serving⟩

def Dropped (s : Server) (ws : Nat) : Prop := ∃ call ∈ s.calls, (ws, false) ∈ call.attempts

end Server

/-! ### What the registries list -/

def Lists (dict : Nat → Option (Finset Nat)) (session ws : Nat) : Prop :=
  ∃ sockets, dict session = some sockets ∧ ws ∈ sockets

def Inhabited (dict : Nat → Option (Finset Nat)) :
    Prop := ∀ session sockets, dict session = some sockets → sockets ≠ ∅

section Registries

variable {dict : Nat → Option (Finset Nat)} {g : WebSocketGateway} {session session' ws ws' : Nat}
  {sockets : Finset Nat} {endpoint : Endpoint}

theorem lists_insert :
    Lists (Function.update dict session (some (insert ws ((dict session).getD ∅)))) session' ws'
      ↔ Lists dict session' ws' ∨ session' = session ∧ ws' = ws := by
  unfold Lists
  by_cases hsession : session' = session
  · subst hsession
    rw [Function.update_self]
    cases hdict : dict session' with
    | none => simp
    | some sockets => simp [or_comm]
  · rw [Function.update_of_ne hsession]
    simp [hsession]

theorem lists_without (hdict : dict session = some sockets) :
    Lists (Function.update dict session (WebSocketGateway.without sockets ws)) session' ws'
      ↔ Lists dict session' ws' ∧ ¬ (session' = session ∧ ws' = ws) := by
  unfold Lists WebSocketGateway.without
  by_cases hsession : session' = session
  · subst hsession
    rw [Function.update_self, hdict]
    split
    · rename_i hempty
      have honly : ∀ x ∈ sockets, x = ws := by
        intro x hx
        by_contra hne
        exact Finset.notMem_empty x (hempty ▸ Finset.mem_erase.mpr ⟨hne, hx⟩)
      simpa using fun hmem => honly ws' hmem
    · simp [and_comm]
  · rw [Function.update_of_ne hsession]
    simp [hsession]

theorem Inhabited.insert (h : Inhabited dict) (session ws : Nat) :
    Inhabited (Function.update dict session (some (insert ws ((dict session).getD ∅)))) := by
  intro session' sockets hentry
  by_cases hsession : session' = session
  · subst hsession
    rw [Function.update_self] at hentry
    cases hentry
    exact Finset.insert_ne_empty _ _
  · rw [Function.update_of_ne hsession] at hentry
    exact h session' sockets hentry

theorem Inhabited.without (h : Inhabited dict) (session ws : Nat) (sockets : Finset Nat) :
    Inhabited (Function.update dict session (WebSocketGateway.without sockets ws)) := by
  intro session' sockets' hentry
  by_cases hsession : session' = session
  · subst hsession
    rw [Function.update_self, WebSocketGateway.without] at hentry
    split at hentry
    · cases hentry
    · rename_i hne
      cases hentry
      exact hne
  · rw [Function.update_of_ne hsession] at hentry
    exact h session' sockets' hentry

namespace WebSocketGateway

theorem lists_disconnect :
    Lists (g.disconnect session ws).connections session' ws'
      ↔ Lists g.connections session' ws' ∧ ¬ (session' = session ∧ ws' = ws) := by
  unfold disconnect
  split
  · rename_i hnone
    refine ⟨fun hlists => ⟨hlists, ?_⟩, And.left⟩
    rintro ⟨rfl, rfl⟩
    obtain ⟨sockets, hentry, -⟩ := hlists
    rw [hnone] at hentry
    cases hentry
  · rename_i sockets hsome
    split
    · exact lists_without hsome
    · rename_i hother
      refine ⟨fun hlists => ⟨hlists, ?_⟩, And.left⟩
      rintro ⟨rfl, rfl⟩
      obtain ⟨sockets', hentry, hmem⟩ := hlists
      rw [hsome] at hentry
      cases hentry
      exact hother hmem

theorem mem_active_disconnect :
    ws' ∈ (g.disconnect session ws).activeConnections
      ↔ ws' ∈ g.activeConnections ∧ ¬ (ws' = ws ∧ Lists g.connections session ws) := by
  unfold disconnect
  split
  · rename_i hnone
    refine ⟨fun hmem => ⟨hmem, ?_⟩, And.left⟩
    rintro ⟨-, sockets, hentry, -⟩
    rw [hnone] at hentry
    cases hentry
  · rename_i sockets hsome
    split
    · rename_i hmem
      have hlists : Lists g.connections session ws := ⟨sockets, hsome, hmem⟩
      simp [unregisterConnection, hlists, and_comm]
    · rename_i hother
      refine ⟨fun hmem => ⟨hmem, ?_⟩, And.left⟩
      rintro ⟨-, sockets', hentry, hmem⟩
      rw [hsome] at hentry
      cases hentry
      exact hother hmem

@[simp] theorem observers_disconnect : (g.disconnect session ws).observers = g.observers := by
  unfold disconnect
  split
  · rfl
  · split <;> rfl

theorem inhabited_disconnect (h : Inhabited g.connections) :
    Inhabited (g.disconnect session ws).connections := by
  unfold disconnect
  split
  · exact h
  · split
    · exact h.without session ws _
    · exact h

theorem lists_disconnectObserver :
    Lists (g.disconnectObserver session ws).observers session' ws'
      ↔ Lists g.observers session' ws' ∧ ¬ (session' = session ∧ ws' = ws) := by
  unfold disconnectObserver
  split
  · rename_i hnone
    refine ⟨fun hlists => ⟨hlists, ?_⟩, And.left⟩
    rintro ⟨rfl, rfl⟩
    obtain ⟨sockets, hentry, -⟩ := hlists
    exact Option.some_ne_none sockets (hentry.symm.trans hnone)
  · rename_i sockets hsome
    exact lists_without hsome

theorem mem_active_disconnectObserver :
    ws' ∈ (g.disconnectObserver session ws).activeConnections ↔ ws' ≠ ws
      ∧ ws' ∈ g.activeConnections := by
  unfold disconnectObserver
  split <;> exact Finset.mem_erase

@[simp] theorem connections_disconnectObserver :
    (g.disconnectObserver session ws).connections = g.connections := by
  unfold disconnectObserver
  split <;> rfl

theorem inhabited_disconnectObserver (h : Inhabited g.observers) :
    Inhabited (g.disconnectObserver session ws).observers := by
  unfold disconnectObserver
  split
  · exact h
  · exact h.without session ws _

/-! A handler comes. -/

theorem lists_enter :
    (Lists (g.enter ws endpoint).connections session' ws'
        ↔ Lists g.connections session' ws' ∨ endpoint = .interventions session' ∧ ws' = ws)
      ∧ (Lists (g.enter ws endpoint).observers session' ws'
        ↔ Lists g.observers session' ws' ∨ endpoint = .observe session' ∧ ws' = ws) := by
  cases endpoint with
  | interventions session =>
      refine ⟨lists_insert.trans ?_, ?_⟩
      · rw [Endpoint.interventions.injEq, eq_comm (a := session)]
      · simp [enter, connect, registerConnection]
  | events session => simp [enter, registerConnection]
  | observe session =>
      refine ⟨?_, lists_insert.trans ?_⟩
      · simp [enter, connectObserver, registerConnection]
      · rw [Endpoint.observe.injEq, eq_comm (a := session)]

theorem mem_active_enter :
    ws' ∈ (g.enter ws endpoint).activeConnections ↔ ws' = ws ∨ ws' ∈ g.activeConnections := by
  cases endpoint <;> exact Finset.mem_insert

theorem inhabited_enter (hconnections : Inhabited g.connections)
    (hobservers : Inhabited g.observers) :
    Inhabited (g.enter ws endpoint).connections ∧ Inhabited (g.enter ws endpoint).observers := by
  cases endpoint with
  | interventions session => exact ⟨hconnections.insert session ws, hobservers⟩
  | events session => exact ⟨hconnections, hobservers⟩
  | observe session => exact ⟨hconnections, hobservers.insert session ws⟩

/-! A handler goes. -/

theorem lists_leave :
    (Lists (g.leave ws endpoint).connections session' ws'
        ↔ Lists g.connections session' ws' ∧ ¬ (endpoint = .interventions session' ∧ ws' = ws))
      ∧ (Lists (g.leave ws endpoint).observers session' ws'
        ↔ Lists g.observers session' ws' ∧ ¬ (endpoint = .observe session' ∧ ws' = ws)) := by
  cases endpoint with
  | interventions session =>
      refine ⟨lists_disconnect.trans ?_, ?_⟩
      · rw [Endpoint.interventions.injEq, eq_comm (a := session)]
      · simp [leave]
  | events session => simp [leave, unregisterConnection]
  | observe session =>
      refine ⟨?_, lists_disconnectObserver.trans ?_⟩
      · simp [leave]
      · rw [Endpoint.observe.injEq, eq_comm (a := session)]

/-- A socket stays only if it is another, or its session does not list it any more. -/
theorem mem_active_leave :
    ws' ∈ (g.leave ws endpoint).activeConnections ↔ ws' ∈ g.activeConnections
      ∧ (ws' = ws → ∃ session, endpoint = .interventions session
        ∧ ¬ Lists g.connections session ws) := by
  cases endpoint with
  | interventions session =>
      rw [leave, mem_active_disconnect, not_and]
      simp
  | events session => simp [leave, unregisterConnection, and_comm]
  | observe session =>
      rw [leave, mem_active_disconnectObserver]
      simp [and_comm]

theorem inhabited_leave (hconnections : Inhabited g.connections)
    (hobservers : Inhabited g.observers) :
    Inhabited (g.leave ws endpoint).connections ∧ Inhabited (g.leave ws endpoint).observers := by
  cases endpoint with
  | interventions session =>
      exact ⟨inhabited_disconnect hconnections, by simpa [leave] using hobservers⟩
  | events session => exact ⟨hconnections, hobservers⟩
  | observe session =>
      exact ⟨by simpa [leave] using hconnections, inhabited_disconnectObserver hobservers⟩

end WebSocketGateway

end Registries

/-! ### What is kept -/

/-- Each socket is attempted once, and none that was not found. -/
structure SendCall.Kept (call : SendCall) : Prop where
  once : (call.attempts.map Prod.fst).Nodup
  left : ∀ ws ∈ call.remaining, ws ∉ call.attempts.map Prod.fst
  found : ∀ ws, ws ∈ call.sockets ↔ ws ∈ call.remaining ∨ ws ∈ call.attempts.map Prod.fst

structure Kept (s : Server) : Prop where
  inhabited : Inhabited s.gateway.connections ∧ Inhabited s.gateway.observers
  connections : ∀ session ws, Lists s.gateway.connections session ws →
    s.Serves ws (.interventions session)
  observers : ∀ session ws, Lists s.gateway.observers session ws → s.Serves ws (.observe session)
  active : ∀ ws ∈ s.gateway.activeConnections, ∃ endpoint, s.Serves ws endpoint
    ∧ ∀ session, endpoint = .interventions session → Lists s.gateway.connections session ws
  connected : ∀ session ws, s.Serves ws (.interventions session) → s.Dropped ws
    ∨ Lists s.gateway.connections session ws
  observed : ∀ session ws, s.Serves ws (.observe session) → Lists s.gateway.observers session ws
  registered : s.cleared = false → ∀ ws endpoint, s.Serves ws endpoint → s.Dropped ws
    ∨ ws ∈ s.gateway.activeConnections
  calls : ∀ call ∈ s.calls, call.Kept

section Steps

variable {s s' : Server} {ws ws' : Nat} {endpoint endpoint' : Endpoint}

theorem kept_init : Kept {} where
  inhabited := ⟨fun _ _ h => (by cases h), fun _ _ h => (by cases h)⟩
  connections := by rintro session ws ⟨sockets, hentry, -⟩; cases hentry
  observers := by rintro session ws ⟨sockets, hentry, -⟩; cases hentry
  active ws h := absurd h (Finset.notMem_empty ws)
  connected session ws h := by simp [Server.Serves] at h
  observed session ws h := by simp [Server.Serves] at h
  registered _ ws endpoint h := by simp [Server.Serves] at h
  calls _ h := absurd h List.not_mem_nil

theorem Server.Serves.unique (h : s.Serves ws endpoint) (h' : s.Serves ws endpoint') :
    endpoint = endpoint' := by
  rw [Server.Serves, h, Option.some.injEq, Handler.mk.injEq] at h'
  exact h'.1

/-- A handler that is not at its socket yet, or not any more, serves nothing. -/
theorem serves_set {handlers : List Handler} {handler : Handler}
    (hserving : handler.pc ≠ .serving) :
    (handlers.set ws handler)[ws']? = some ⟨endpoint', .serving⟩
      ↔ ws' ≠ ws ∧ handlers[ws']? = some ⟨endpoint', .serving⟩ := by
  by_cases hws : ws' = ws
  · subst hws
    rw [List.getElem?_set]
    refine ⟨fun h => ?_, fun h => absurd rfl h.1⟩
    split at h
    · split at h
      · cases h
        exact absurd rfl hserving
      · cases h
    · rename_i hne
      exact absurd rfl hne
  · rw [List.getElem?_set_ne (Ne.symm hws)]
    exact ⟨fun h => ⟨hws, h⟩, And.right⟩

/-- Handlers that do not serve come and go unseen. -/
theorem Kept.handlers (h : Kept s) {handlers : List Handler}
    (hsame : ∀ ws endpoint, handlers[ws]? = some ⟨endpoint, .serving⟩ ↔ s.Serves ws endpoint) :
    Kept { s with handlers } where
  inhabited := h.inhabited
  connections session ws hlists := (hsame ws _).mpr (h.connections session ws hlists)
  observers session ws hlists := (hsame ws _).mpr (h.observers session ws hlists)
  active ws hmem := by
    obtain ⟨endpoint, hserves, hlisted⟩ := h.active ws hmem
    exact ⟨endpoint, (hsame ws endpoint).mpr hserves, hlisted⟩
  connected session ws hserves := h.connected session ws ((hsame ws _).mp hserves)
  observed session ws hserves := h.observed session ws ((hsame ws _).mp hserves)
  registered hcleared ws endpoint hserves :=
    h.registered hcleared ws endpoint ((hsame ws endpoint).mp hserves)
  calls := h.calls

theorem Kept.enter (h : Kept s) (haccepting : s.handlers[ws]? = some ⟨endpoint, .accepting⟩) :
    Kept { s with
      gateway := s.gateway.enter ws endpoint
      handlers := s.handlers.set ws ⟨endpoint, .serving⟩ } := by
  have hlt : ws < s.handlers.length := (List.getElem?_eq_some_iff.mp haccepting).1
  have hnew : (s.handlers.set ws ⟨endpoint, .serving⟩)[ws]? = some ⟨endpoint, .serving⟩ :=
    List.getElem?_set_self hlt
  have hold : ∀ ws' endpoint', s.Serves ws' endpoint' →
      (s.handlers.set ws ⟨endpoint, .serving⟩)[ws']? = some ⟨endpoint', .serving⟩ := by
    intro ws' endpoint' hserves
    by_cases hws : ws = ws'
    · subst hws
      rw [Server.Serves, haccepting] at hserves
      cases hserves
    · rw [List.getElem?_set_ne hws]
      exact hserves
  have hback : ∀ ws' endpoint',
      (s.handlers.set ws ⟨endpoint, .serving⟩)[ws']? = some ⟨endpoint', .serving⟩ →
      s.Serves ws' endpoint' ∨ endpoint = endpoint' ∧ ws' = ws := by
    intro ws' endpoint' hserves
    by_cases hws : ws = ws'
    · subst hws
      rw [hnew, Option.some.injEq, Handler.mk.injEq] at hserves
      exact Or.inr ⟨hserves.1, rfl⟩
    · rw [List.getElem?_set_ne hws] at hserves
      exact Or.inl hserves
  refine ⟨WebSocketGateway.inhabited_enter h.inhabited.1 h.inhabited.2, ?_, ?_, ?_, ?_, ?_,
    ?_, h.calls⟩
  · intro session ws' hlists
    rcases WebSocketGateway.lists_enter.1.mp hlists with hlists | ⟨rfl, rfl⟩
    · exact hold ws' _ (h.connections session ws' hlists)
    · exact hnew
  · intro session ws' hlists
    rcases WebSocketGateway.lists_enter.2.mp hlists with hlists | ⟨rfl, rfl⟩
    · exact hold ws' _ (h.observers session ws' hlists)
    · exact hnew
  · intro ws' hmem
    rcases WebSocketGateway.mem_active_enter.mp hmem with rfl | hmem
    · refine ⟨endpoint, hnew, ?_⟩
      rintro session rfl
      exact WebSocketGateway.lists_enter.1.mpr (Or.inr ⟨rfl, rfl⟩)
    · obtain ⟨endpoint', hserves, hlisted⟩ := h.active ws' hmem
      exact ⟨endpoint', hold ws' endpoint' hserves, fun session heq =>
        WebSocketGateway.lists_enter.1.mpr (Or.inl (hlisted session heq))⟩
  · intro session ws' hserves
    rcases hback ws' _ hserves with hserves | hthis
    · exact (h.connected session ws' hserves).imp_right fun hlists =>
        WebSocketGateway.lists_enter.1.mpr (Or.inl hlists)
    · exact Or.inr (WebSocketGateway.lists_enter.1.mpr (Or.inr hthis))
  · intro session ws' hserves
    apply WebSocketGateway.lists_enter.2.mpr
    exact (hback ws' _ hserves).imp_left (h.observed session ws')
  · intro hcleared ws' endpoint' hserves
    rcases hback ws' endpoint' hserves with hserves | ⟨-, hws⟩
    · exact (h.registered hcleared ws' endpoint' hserves).imp_right fun hmem =>
        WebSocketGateway.mem_active_enter.mpr (Or.inr hmem)
    · exact Or.inr (WebSocketGateway.mem_active_enter.mpr (Or.inl hws))

theorem Kept.leave (h : Kept s) (hserving : s.Serves ws endpoint) :
    Kept { s with
      gateway := s.gateway.leave ws endpoint
      handlers := s.handlers.set ws ⟨endpoint, .ended⟩ } := by
  have hsame : ∀ ws' endpoint',
      (s.handlers.set ws ⟨endpoint, .ended⟩)[ws']? = some ⟨endpoint', .serving⟩
      ↔ ws' ≠ ws ∧ s.Serves ws' endpoint' := fun ws' endpoint' => serves_set HandlerPc.noConfusion
  refine ⟨WebSocketGateway.inhabited_leave h.inhabited.1 h.inhabited.2, ?_, ?_, ?_, ?_, ?_,
    ?_, h.calls⟩
  · intro session ws' hlists
    obtain ⟨hlists, hother⟩ := WebSocketGateway.lists_leave.1.mp hlists
    have hserves := h.connections session ws' hlists
    refine (hsame ws' _).mpr ⟨?_, hserves⟩
    rintro rfl
    exact hother ⟨hserving.unique hserves, rfl⟩
  · intro session ws' hlists
    obtain ⟨hlists, hother⟩ := WebSocketGateway.lists_leave.2.mp hlists
    have hserves := h.observers session ws' hlists
    refine (hsame ws' _).mpr ⟨?_, hserves⟩
    rintro rfl
    exact hother ⟨hserving.unique hserves, rfl⟩
  · intro ws' hmem
    obtain ⟨hmem, hself⟩ := WebSocketGateway.mem_active_leave.mp hmem
    obtain ⟨endpoint', hserves, hlisted⟩ := h.active ws' hmem
    have hws : ws' ≠ ws := by
      rintro rfl
      obtain ⟨session, hendpoint, hgone⟩ := hself rfl
      exact hgone (hlisted session ((hserves.unique hserving).trans hendpoint))
    exact ⟨endpoint', (hsame ws' endpoint').mpr ⟨hws, hserves⟩, fun session heq =>
      WebSocketGateway.lists_leave.1.mpr ⟨hlisted session heq, fun hboth => hws hboth.2⟩⟩
  · intro session ws' hserves
    obtain ⟨hws, hserves⟩ := (hsame ws' _).mp hserves
    exact (h.connected session ws' hserves).imp_right fun hlists =>
      WebSocketGateway.lists_leave.1.mpr ⟨hlists, fun hboth => hws hboth.2⟩
  · intro session ws' hserves
    obtain ⟨hws, hserves⟩ := (hsame ws' _).mp hserves
    exact WebSocketGateway.lists_leave.2.mpr ⟨h.observed session ws' hserves, fun hboth =>
      hws hboth.2⟩
  · intro hcleared ws' endpoint' hserves
    obtain ⟨hws, hserves⟩ := (hsame ws' endpoint').mp hserves
    exact (h.registered hcleared ws' endpoint' hserves).imp_right fun hmem =>
      WebSocketGateway.mem_active_leave.mpr ⟨hmem, fun heq => absurd heq hws⟩

/-! An intervention. -/

theorem SendCall.Kept.attempt {call : SendCall} (h : call.Kept) (hws : ws ∈ call.remaining)
    (delivered : Bool) :
    SendCall.Kept { call with
      remaining := call.remaining.erase ws, attempts := call.attempts ++ [(ws, delivered)] } where
  once := by
    rw [List.map_append, List.map_singleton]
    exact h.once.append (List.nodup_singleton _) (List.disjoint_singleton.mpr (h.left ws hws))
  left ws' hws' := by
    obtain ⟨hne, hmem⟩ := Finset.mem_erase.mp hws'
    rw [List.map_append, List.map_singleton, List.mem_append, List.mem_singleton]
    exact not_or.mpr ⟨h.left ws' hmem, hne⟩
  found ws' := by
    rw [h.found ws', List.map_append, List.map_singleton, List.mem_append, List.mem_singleton,
      Finset.mem_erase]
    by_cases heq : ws' = ws
    · subst heq
      simp [hws]
    · simp [heq]

theorem Kept.send (h : Kept s) {c : Nat} {call : SendCall} (hcall : s.calls[c]? = some call)
    (hws : ws ∈ call.remaining) (delivered : Bool) :
    Kept { s with
      gateway := if delivered then s.gateway else s.gateway.disconnect call.session ws
      calls := s.calls.set c
        { call with
          remaining := call.remaining.erase ws
          attempts := call.attempts ++ [(ws, delivered)] } } := by
  have hcalls : ∀ call' ∈ s.calls.set c
      { call with
        remaining := call.remaining.erase ws
        attempts := call.attempts ++ [(ws, delivered)] }, call'.Kept :=
    forall_mem_set h.calls ((h.calls call (mem_of_getElem? hcall)).attempt hws delivered)
  -- the failures of before are failures still
  have hdropped : ∀ ws', s.Dropped ws' → ∃ call' ∈ s.calls.set c
      { call with
        remaining := call.remaining.erase ws, attempts := call.attempts ++ [(ws, delivered)] },
      (ws', false) ∈ call'.attempts :=
    fun ws' hbefore => Interleaving.exists_mem_set hbefore hcall fun hmem =>
      List.mem_append_left _ hmem
  cases delivered with
  | true =>
      exact ⟨h.inhabited, h.connections, h.observers, h.active,
        fun session ws' hserves => (h.connected session ws' hserves).imp_left (hdropped ws'),
          h.observed,
        fun hcleared ws' endpoint hserves => (h.registered hcleared ws' endpoint hserves).imp_left
          (hdropped ws'),
        hcalls⟩
  | false =>
      have hthis : ∃ call' ∈ s.calls.set c
          { call with
            remaining := call.remaining.erase ws, attempts := call.attempts ++ [(ws, false)] },
          (ws, false) ∈ call'.attempts :=
        ⟨_, List.mem_set (List.getElem?_eq_some_iff.mp hcall).1 _,
          List.mem_append_right _ List.mem_cons_self⟩
      refine ⟨⟨WebSocketGateway.inhabited_disconnect h.inhabited.1, ?_⟩, ?_, ?_, ?_, ?_, ?_,
        ?_, hcalls⟩
      · simpa using h.inhabited.2
      · exact fun session ws' hlists =>
          h.connections session ws' (WebSocketGateway.lists_disconnect.mp hlists).1
      · intro session ws' hlists
        refine h.observers session ws' ?_
        simpa using hlists
      · intro ws' hmem
        obtain ⟨hmem, hstays⟩ := WebSocketGateway.mem_active_disconnect.mp hmem
        obtain ⟨endpoint, hserves, hlisted⟩ := h.active ws' hmem
        refine ⟨endpoint, hserves, fun session heq =>
          WebSocketGateway.lists_disconnect.mpr ⟨hlisted session heq, ?_⟩⟩
        rintro ⟨rfl, rfl⟩
        exact hstays ⟨rfl, hlisted _ heq⟩
      · intro session ws' hserves
        by_cases heq : ws' = ws
        · exact Or.inl (heq ▸ hthis)
        · rcases h.connected session ws' hserves with hbefore | hlists
          · exact Or.inl (hdropped ws' hbefore)
          · exact Or.inr (WebSocketGateway.lists_disconnect.mpr ⟨hlists, fun hboth => heq hboth.2⟩)
      · intro session ws' hserves
        simpa using h.observed session ws' hserves
      · intro hcleared ws' endpoint hserves
        by_cases heq : ws' = ws
        · exact Or.inl (heq ▸ hthis)
        · rcases h.registered hcleared ws' endpoint hserves with hbefore | hmem
          · exact Or.inl (hdropped ws' hbefore)
          · exact Or.inr
              (WebSocketGateway.mem_active_disconnect.mpr ⟨hmem, fun hboth => heq hboth.1⟩)

theorem Kept.intervene (h : Kept s) (session : Nat) (sockets : Finset Nat) :
    Kept { s with calls := s.calls ++ [{ session, sockets, remaining := sockets }] } := by
  have hdropped : ∀ ws, s.Dropped ws →
      ∃ call ∈ s.calls ++ [{ session, sockets, remaining := sockets }],
      (ws, false) ∈ call.attempts := by
    rintro ws ⟨call, hcall, hfailed⟩
    exact ⟨call, List.mem_append_left _ hcall, hfailed⟩
  exact ⟨h.inhabited, h.connections, h.observers, h.active,
    fun session ws hserves => (h.connected session ws hserves).imp_left (hdropped ws), h.observed,
    fun hcleared ws endpoint hserves => (h.registered hcleared ws endpoint hserves).imp_left
      (hdropped ws),
    forall_mem_append h.calls ⟨List.nodup_nil, fun _ _ => List.not_mem_nil, fun ws => by simp⟩⟩

theorem Kept.step (h : Kept s) {move : Move} (hstep : s.step move = some s') : Kept s' := by
  cases move with
  | «open» endpoint =>
      cases hstep
      refine h.handlers fun ws endpoint' => ?_
      rw [Server.Serves, List.getElem?_append]
      split
      · rfl
      · rename_i hge
        rw [List.getElem?_eq_none (Nat.le_of_not_lt hge), List.getElem?_singleton]
        split <;> simp
  | accept ws =>
      dsimp only [Server.step] at hstep
      split at hstep
      · rename_i endpoint haccepting
        cases hstep
        exact h.enter haccepting
      · cases hstep
  | refuse ws =>
      dsimp only [Server.step] at hstep
      split at hstep
      · rename_i endpoint haccepting
        cases hstep
        refine h.handlers fun ws' endpoint' => ?_
        rw [serves_set HandlerPc.noConfusion]
        refine ⟨And.right, fun hserves => ⟨?_, hserves⟩⟩
        rintro rfl
        rw [Server.Serves, haccepting] at hserves
        cases hserves
      · cases hstep
  | leave ws =>
      dsimp only [Server.step] at hstep
      split at hstep
      · rename_i endpoint hserving
        cases hstep
        exact h.leave hserving
      · cases hstep
  | intervene session =>
      dsimp only [Server.step] at hstep
      split at hstep <;> cases hstep
      · exact h
      · exact h.intervene session _
  | send c ws delivered =>
      dsimp only [Server.step] at hstep
      split at hstep
      · cases hstep
      · rename_i call hcall
        split at hstep
        · rename_i hws
          cases hstep
          exact h.send hcall hws delivered
        · cases hstep
  | closeAll =>
      dsimp only [Server.step] at hstep
      split at hstep <;> cases hstep
      exact ⟨h.inhabited, h.connections, h.observers, h.active, h.connected, h.observed,
        h.registered, h.calls⟩
  | close ws =>
      dsimp only [Server.step] at hstep
      split at hstep
      · split at hstep <;> cases hstep
        exact ⟨h.inhabited, h.connections, h.observers, h.active, h.connected, h.observed,
          h.registered, h.calls⟩
      · cases hstep
  | clear =>
      dsimp only [Server.step] at hstep
      split at hstep <;> cases hstep
      exact ⟨h.inhabited, h.connections, h.observers, fun ws hmem =>
        absurd hmem (Finset.notMem_empty ws), h.connected, h.observed, fun hcleared =>
        (by cases hcleared), h.calls⟩

end Steps

/-! ### No socket is lost -/

end OnlinetLabs.Sessions.Gateway
