import OnlinetLabs.Lib.Interleaving

/-!
# The shared session of the MCP client

`MCPClient` keeps one session with the MCP server open for everybody. A session is owned by a task
of its own, which opens it and later unwinds it; whoever finds the shared one ended opens the next,
and a caller whose call breaks on the transport drops it and tries again. Calls, drops and the tasks
of the sessions run in any order.

The lock of the client is never held over an await, so what is done under it is one step.
-/

namespace OnlinetLabs.Clients

open Interleaving

/-- What a call may meet: an error of the network, one of the stream alone, or anything else. -/
inductive Failure where
  | network
  | stream
  | other
deriving Repr, DecidableEq

/-- `_TRANSPORT_ERRORS` -/
def Failure.isTransport : Failure → Bool
  | .network | .stream => true
  | .other => false

/-- `retry_if_exception_type`, which leaves out the errors of the stream. -/
def Failure.isRetried : Failure → Bool
  | .network => true
  | .stream | .other => false

/-- `stop_after_attempt` -/
def maxAttempts : Nat := 3

/-! ### A session -/

structure McpConnection where
  ready : Bool := false
  session : Bool := false
  error : Option Failure := none
  closing : Bool := false
  done : Bool := false
deriving Repr, DecidableEq

/-- What the owning task does: the session is initialized; it fails, with an exception or cancelled;
it unwinds. -/
inductive OwnerMove where
  | initialized
  | failed (error : Option Failure)
  | unwound
deriving Repr, DecidableEq

/-- `MCPConnection._run` -/
def McpConnection.run (conn : McpConnection) : OwnerMove → Option McpConnection
  | .initialized =>
      if conn.ready || conn.done then none else some { conn with ready := true, session := true }
  | .failed error =>
      if conn.done then none
      else some { conn with ready := true, session := false, error, done := true }
  | .unwound =>
      if conn.session && conn.closing && !conn.done
        then some { conn with session := false, done := true } else none

/-! ### The client -/

/-- A connection is its place among those opened. -/
structure McpClient where
  connection : Option Nat := none
  opened : List McpConnection := []
deriving Repr, DecidableEq

namespace McpClient

def usable (s : McpClient) (c : Nat) : Bool := s.opened[c]?.any fun conn => !conn.done

def current (s : McpClient) : Option Nat := s.connection.filter s.usable

def openNew (s : McpClient) : McpClient where
  connection := some s.opened.length
  opened := s.opened ++ [{}]

/-- `_drop`, up to the wait in `MCPConnection.close`. -/
def drop (s : McpClient) (c : Nat) : McpClient where
  connection := if s.connection = some c then none else s.connection
  opened := s.opened.modify c fun conn => { conn with closing := true }

def own (s : McpClient) (move : Nat × OwnerMove) : Option McpClient :=
  match s.opened[move.1]? with
  | none => none
  | some conn => (conn.run move.2).map fun conn' => { s with opened := s.opened.set move.1 conn' }

end McpClient

inductive CallPc where
  | connect
  | locking
  | session (c : Nat)
  | calling (c : Nat)
  | dropping (c : Nat) (error : Failure)
  | closing (c : Nat) (error : Failure)
  | sleeping
  | returned
  | raised (error : Failure)
  | cancelled
deriving Repr, DecidableEq

/-- A call of `_call_tool`, with its attempts. `sent` are the connections on which the tool has been
called. -/
structure Call where
  attempt : Nat := 1
  sent : List Nat := []
  pc : CallPc := .connect
deriving Repr, DecidableEq

inductive Answer where
  | go
  | result
  | raises (error : Failure)
  | timeout
  | cancelled
deriving Repr, DecidableEq

namespace Call

def fail (call : Call) (c : Nat) (error : Failure) : Call :=
  { call with pc := if error.isTransport then .dropping c error else .raised error }

def again (call : Call) (error : Failure) : Call :=
  { call with
    pc := if error.isRetried && call.attempt < maxAttempts then .sleeping else .raised error }

def step (s : McpClient) (call : Call) (a : Answer) : Option (McpClient × Call) :=
  match call.pc, a with
  | .connect, .go =>
      match s.current with
      | some c => some (s, { call with pc := .session c })
      | none => some (s, { call with pc := .locking })
  | .locking, .go =>
      match s.current with
      | some c => some (s, { call with pc := .session c })
      | none => some (s.openNew, { call with pc := .session s.opened.length })
  | .session c, .go =>
      match s.opened[c]? with
      | none => none
      | some conn =>
          if !conn.ready then none
          else if conn.session
            then some (s, { call with sent := call.sent ++ [c], pc := .calling c })
          else some (s, call.fail c (conn.error.getD .network))
  | .calling _, .result => some (s, { call with pc := .returned })
  | .calling c, .raises error => some (s, call.fail c error)
  | .dropping c error, .go => some (s.drop c, { call with pc := .closing c error })
  | .closing c error, .go => if s.usable c then none else some (s, call.again error)
  | .closing _ error, .timeout => some (s, call.again error)
  | .sleeping, .go => some (s, { call with attempt := call.attempt + 1, pc := .connect })
  | .session _, .cancelled | .calling _, .cancelled | .closing _ _, .cancelled | .sleeping,
      .cancelled =>
      some (s, { call with pc := .cancelled })
  | _, _ => none

end Call

/-- `MCPClient.close` -/
inductive ClosePc where
  | start
  | dropping (c : Nat)
  | closing (c : Nat)
  | closed
deriving Repr, DecidableEq

def ClosePc.step (s : McpClient) : ClosePc → Answer → Option (McpClient × ClosePc)
  | .start, .go =>
      match s.connection with
      | none => some (s, .closed)
      | some c => some (s, .dropping c)
  | .dropping c, .go => some (s.drop c, .closing c)
  | .closing c, .go => if s.usable c then none else some (s, .closed)
  | .closing _, .timeout | .closing _, .cancelled => some (s, .closed)
  | _, _ => none

inductive Task where
  | call (call : Call)
  | close (pc : ClosePc)
deriving Repr, DecidableEq

inductive Request where
  | callTool
  | close
deriving Repr, DecidableEq

/-- The client, the tasks that own its sessions, and whoever uses it. -/
def mcpClient : System McpClient Task (Nat × OwnerMove) Request Answer where
  env := McpClient.own
  spawn
    | .callTool => .call {}
    | .close => .close .start
  step s task a :=
    match task with
    | .call call => (call.step s a).map fun r => (r.1, .call r.2)
    | .close pc => (pc.step s a).map fun r => (r.1, .close r.2)

/-! ### What a step does to the connections -/

def McpClient.asked (s : McpClient) (c : Nat) :
    Prop := ∃ conn, s.opened[c]? = some conn ∧ conn.closing = true

/-- Connections are only added, and one that is asked to close stays so. -/
structure Later (s s' : McpClient) : Prop where
  known : s.opened.length ≤ s'.opened.length
  asked : ∀ c, s.asked c → s'.asked c

/-- The one connection that is neither ended nor asked to close is the shared one. -/
structure Shared (s : McpClient) : Prop where
  known : ∀ c ∈ s.connection, c < s.opened.length
  shared : ∀ (c : Nat) (conn : McpConnection), s.opened[c]? = some conn → conn.done = false →
    conn.closing = false → s.connection = some c
  wanted : ∀ c ∈ s.connection, ¬ s.asked c

variable {s s' : McpClient} {c : Nat} {call call' : Call} {a : Answer}

theorem Later.refl (s : McpClient) : Later s s := ⟨Nat.le_refl _, fun _ h => h⟩

theorem McpConnection.closing_run {conn conn' : McpConnection} {move : OwnerMove}
    (h : conn.run move = some conn') :
    conn'.closing = conn.closing ∧ (conn'.done = false → conn.done = false) := by
  cases move <;> simp only [McpConnection.run] at h <;> split at h <;> cases h <;> simp_all

namespace McpClient

theorem later_openNew (s : McpClient) : Later s s.openNew := by
  refine ⟨by simp [openNew], ?_⟩
  rintro c ⟨conn, hconn, hclosing⟩
  exact ⟨conn, by
    rw [openNew, List.getElem?_append_left (List.getElem?_eq_some_iff.mp hconn).1, hconn], hclosing⟩

theorem asked_drop {c' : Nat} :
    (s.drop c).asked c' ↔ s.asked c' ∨ c' = c ∧ c < s.opened.length := by
  unfold asked drop
  simp only [List.getElem?_modify]
  by_cases heq : c = c'
  · subst heq
    cases hconn : s.opened[c]? with
    | none => simp [List.getElem?_eq_none_iff.mp hconn]
    | some conn => simp [(List.getElem?_eq_some_iff.mp hconn).1]
  · simp [heq, Ne.symm heq]

theorem later_drop (s : McpClient) (c : Nat) : Later s (s.drop c) :=
  ⟨Nat.le_of_eq (List.length_modify _ _ _).symm, fun _ h => asked_drop.mpr (Or.inl h)⟩

theorem later_own {move : Nat × OwnerMove} (h : s.own move = some s') : Later s s' := by
  simp only [own] at h
  split at h
  · cases h
  · rename_i conn hconn
    obtain ⟨conn', hrun, rfl⟩ := Option.map_eq_some_iff.mp h
    refine ⟨by simp, ?_⟩
    rintro c ⟨d, hd, hclosing⟩
    by_cases heq : move.1 = c
    · subst heq
      rw [hconn] at hd
      cases hd
      refine ⟨conn', ?_, (McpConnection.closing_run hrun).1 ▸ hclosing⟩
      simp [(List.getElem?_eq_some_iff.mp hconn).1]
    · exact ⟨d, by rw [List.getElem?_set_ne heq, hd], hclosing⟩

theorem usable_of_current (h : s.current = some c) : s.connection = some c ∧ s.usable c = true :=
  Option.filter_eq_some_iff.mp h

theorem lt_of_asked (h : s.asked c) : c < s.opened.length := by
  obtain ⟨conn, hconn, -⟩ := h
  exact (List.getElem?_eq_some_iff.mp hconn).1

/-- A session is opened where none is usable, so the one it replaces has ended. -/
theorem shared_openNew (h : Shared s) (hnone : s.current = none) : Shared s.openNew := by
  refine ⟨?_, ?_, ?_⟩
  · rintro _ ⟨⟩
    simp [openNew]
  · intro c conn hconn hdone hclosing
    simp only [openNew, List.getElem?_append] at hconn
    split at hconn
    · have hshared := h.shared c conn hconn hdone hclosing
      have husable : s.usable c = true := by simp [usable, hconn, hdone]
      rw [current, hshared, Option.filter_some, husable] at hnone
      cases hnone
    · rename_i hge
      rw [List.getElem?_singleton] at hconn
      split at hconn
      · exact congrArg some (by omega)
      · cases hconn
  · rintro _ ⟨⟩ ⟨conn, hconn, hclosing⟩
    simp only [openNew, List.getElem?_concat_length, Option.some.injEq] at hconn
    subst hconn
    cases hclosing

theorem shared_drop (h : Shared s) (c : Nat) : Shared (s.drop c) := by
  refine ⟨?_, ?_, ?_⟩
  · intro d hd
    simp only [drop, List.length_modify] at hd ⊢
    split at hd
    · cases hd
    · exact h.known d hd
  · intro d conn hconn hdone hclosing
    simp only [drop, List.getElem?_modify] at hconn ⊢
    split at hconn
    · rename_i heq
      subst heq
      obtain ⟨old, -, rfl⟩ := Option.map_eq_some_iff.mp hconn
      cases hclosing
    · rename_i hne
      have hshared := h.shared d conn (by simpa using hconn) hdone hclosing
      rw [hshared, if_neg]
      exact fun heq => hne (Option.some.inj heq).symm
  · intro d hd hasked
    simp only [drop] at hd
    split at hd
    · cases hd
    · rename_i hne
      rcases asked_drop.mp hasked with hold | ⟨rfl, -⟩
      · exact h.wanted d hd hold
      · exact hne hd

theorem shared_own {move : Nat × OwnerMove} (h : Shared s) (hown : s.own move = some s') :
    Shared s' := by
  have hlater := later_own hown
  simp only [own] at hown
  split at hown
  · cases hown
  · rename_i conn hconn
    obtain ⟨conn', hrun, rfl⟩ := Option.map_eq_some_iff.mp hown
    obtain ⟨hclosing, hdone⟩ := McpConnection.closing_run hrun
    have hcases : ∀ (c : Nat) (d : McpConnection), (s.opened.set move.1 conn')[c]? = some d →
        ∃ d₀, s.opened[c]? = some d₀ ∧ d.closing = d₀.closing
          ∧ (d.done = false → d₀.done = false) := by
      intro c d hd
      by_cases heq : move.1 = c
      · subst heq
        rw [List.getElem?_set_self (List.getElem?_eq_some_iff.mp hconn).1, Option.some.injEq] at hd
        exact ⟨conn, hconn, hd ▸ hclosing, hd ▸ hdone⟩
      · exact ⟨d, by rwa [List.getElem?_set_ne heq] at hd, rfl, id⟩
    refine ⟨fun c hc => Nat.lt_of_lt_of_le (h.known c hc) hlater.known, ?_, ?_⟩
    · intro c d hd hnot hopen
      obtain ⟨d₀, hd₀, hsame, hended⟩ := hcases c d hd
      exact h.shared c d₀ hd₀ (hended hnot) (hsame ▸ hopen)
    · rintro c hc ⟨d, hd, hasked⟩
      obtain ⟨d₀, hd₀, hsame, -⟩ := hcases c d hd
      exact h.wanted c hc ⟨d₀, hd₀, hsame ▸ hasked⟩

end McpClient

/-! ### What a step does to a call -/

/-- How far a call may have come: a tool is called at most once in an attempt, and nothing is called
again on a session before that has been asked to close. -/
structure CallKept (s : McpClient) (call : Call) : Prop where
  attempts : call.attempt ≤ maxAttempts
  nodup : call.sent.Nodup
  earlier : ∀ c ∈ call.sent.dropLast, s.asked c
  here : match call.pc with
    | .connect | .locking => call.sent.length < call.attempt ∧ ∀ c ∈ call.sent, s.asked c
    | .session c =>
        call.sent.length < call.attempt ∧ (∀ d ∈ call.sent, s.asked d) ∧ c < s.opened.length
        ∧ c ∉ call.sent
    | .calling c | .dropping c _ =>
        call.sent.length ≤ call.attempt ∧ (∀ d ∈ call.sent, d = c ∨ s.asked d)
        ∧ c < s.opened.length
    | .closing _ _ => call.sent.length ≤ call.attempt ∧ ∀ d ∈ call.sent, s.asked d
    | .sleeping =>
        call.sent.length ≤ call.attempt ∧ (∀ d ∈ call.sent, s.asked d) ∧ call.attempt < maxAttempts
    | .returned | .raised _ | .cancelled => call.sent.length ≤ call.attempt

theorem CallKept.length_le (h : CallKept s call) : call.sent.length ≤ call.attempt := by
  have hhere := h.here
  revert hhere
  cases call.pc with
  | connect | locking | session => exact fun hhere => Nat.le_of_lt hhere.1
  | calling | dropping | closing | sleeping => exact fun hhere => hhere.1
  | returned | raised | cancelled => exact id

theorem CallKept.later (h : CallKept s call) (hlater : Later s s') : CallKept s' call := by
  refine ⟨h.attempts, h.nodup, fun c hc => hlater.asked c (h.earlier c hc), ?_⟩
  have hhere := h.here
  revert hhere
  cases call.pc with
  | connect | locking | closing =>
      exact fun ⟨hlength, hasked⟩ => ⟨hlength, fun d hd => hlater.asked d (hasked d hd)⟩
  | session c =>
      exact fun ⟨hlength, hasked, hknown, hnew⟩ =>
        ⟨hlength, fun d hd => hlater.asked d (hasked d hd),
          Nat.lt_of_lt_of_le hknown hlater.known, hnew⟩
  | calling c | dropping c =>
      exact fun ⟨hlength, hasked, hknown⟩ =>
        ⟨hlength, fun d hd => (hasked d hd).imp_right (hlater.asked d),
          Nat.lt_of_lt_of_le hknown hlater.known⟩
  | sleeping =>
      exact fun ⟨hlength, hasked, hleft⟩ =>
        ⟨hlength, fun d hd => hlater.asked d (hasked d hd), hleft⟩
  | returned | raised | cancelled => exact id

/-- All that a call does to the client. -/
theorem Call.step_client (h : call.step s a = some (s', call')) :
    s' = s ∨ (s' = s.openNew ∧ s.current = none) ∨ ∃ c, s' = s.drop c := by
  obtain ⟨attempt, sent, pc⟩ := call
  cases pc with
  | connect =>
      cases a with
      | go =>
          simp only [Call.step] at h
          split at h <;> cases h <;> exact Or.inl rfl
      | _ => cases h
  | locking =>
      cases a with
      | go =>
          simp only [Call.step] at h
          split at h
          · cases h
            exact Or.inl rfl
          · rename_i hnone
            cases h
            exact Or.inr (Or.inl ⟨rfl, hnone⟩)
      | _ => cases h
  | session c =>
      cases a with
      | go =>
          simp only [Call.step] at h
          split at h
          · cases h
          · split at h
            · cases h
            · split at h <;> cases h <;> exact Or.inl rfl
      | cancelled =>
          cases h
          exact Or.inl rfl
      | _ => cases h
  | calling c =>
      cases a with
      | result | raises | cancelled =>
          cases h
          exact Or.inl rfl
      | _ => cases h
  | dropping c error =>
      cases a with
      | go =>
          cases h
          exact Or.inr (Or.inr ⟨c, rfl⟩)
      | _ => cases h
  | closing c error =>
      cases a with
      | go =>
          simp only [Call.step] at h
          split at h <;> cases h
          exact Or.inl rfl
      | timeout | cancelled =>
          cases h
          exact Or.inl rfl
      | _ => cases h
  | sleeping =>
      cases a with
      | go | cancelled =>
          cases h
          exact Or.inl rfl
      | _ => cases h
  | returned | raised | cancelled => cases a <;> cases h

theorem ClosePc.step_client {pc pc' : ClosePc} (h : pc.step s a = some (s', pc')) :
    s' = s ∨ ∃ c, s' = s.drop c := by
  cases pc with
  | start =>
      cases a with
      | go =>
          simp only [ClosePc.step] at h
          split at h <;> cases h <;> exact Or.inl rfl
      | _ => cases h
  | dropping c =>
      cases a with
      | go =>
          cases h
          exact Or.inr ⟨c, rfl⟩
      | _ => cases h
  | closing c =>
      cases a with
      | go =>
          simp only [ClosePc.step] at h
          split at h <;> cases h
          exact Or.inl rfl
      | timeout | cancelled =>
          cases h
          exact Or.inl rfl
      | _ => cases h
  | closed => cases a <;> cases h

theorem Call.later_step (h : call.step s a = some (s', call')) : Later s s' := by
  rcases step_client h with rfl | ⟨rfl, -⟩ | ⟨c, rfl⟩
  · exact Later.refl _
  · exact McpClient.later_openNew s
  · exact McpClient.later_drop s c

theorem CallKept.fail (hattempts : call.attempt ≤ maxAttempts) (hnodup : call.sent.Nodup)
    (hearlier : ∀ d ∈ call.sent.dropLast, s.asked d) (hlength : call.sent.length ≤ call.attempt)
    (hasked : ∀ d ∈ call.sent, d = c ∨ s.asked d) (hknown : c < s.opened.length) (error : Failure) :
    CallKept s (call.fail c error) := by
  refine ⟨hattempts, hnodup, hearlier, ?_⟩
  unfold Call.fail
  by_cases htransport : error.isTransport = true
  · simp only [htransport, if_true]
    exact ⟨hlength, hasked, hknown⟩
  · simp only [htransport, if_false, Bool.false_eq_true]
    exact hlength

theorem CallKept.again (h : CallKept s call) (hlength : call.sent.length ≤ call.attempt)
    (hasked : ∀ d ∈ call.sent, s.asked d) (error : Failure) : CallKept s (call.again error) := by
  refine ⟨h.attempts, h.nodup, h.earlier, ?_⟩
  unfold Call.again
  by_cases hleft : (error.isRetried && call.attempt < maxAttempts) = true
  · simp only [hleft, if_true]
    exact ⟨hlength, hasked, by simpa using (Bool.and_eq_true_iff.mp hleft).2⟩
  · simp only [hleft, if_false, Bool.false_eq_true]
    exact hlength

/-- A session got from `_connect` was not asked to close, so the tool has not been called on it by
this call. -/
theorem CallKept.connected (h : CallKept s call) (hshared : Shared s)
    (hlength : call.sent.length < call.attempt)
    (hasked : ∀ d ∈ call.sent, s.asked d) (hcurrent : s.current = some c) :
    CallKept s { call with pc := .session c } := by
  have hconnection := (McpClient.usable_of_current hcurrent).1
  exact ⟨h.attempts, h.nodup, h.earlier, hlength, hasked, hshared.known c hconnection,
    fun hmem => hshared.wanted c hconnection (hasked c hmem)⟩

/-- The tool is called on a session that it was not called on before. -/
theorem CallKept.called (h : CallKept s call) (hlength : call.sent.length < call.attempt)
    (hasked : ∀ d ∈ call.sent, s.asked d) (hknown : c < s.opened.length) (hnew : c ∉ call.sent) :
    CallKept s { call with sent := call.sent ++ [c], pc := .calling c } := by
  refine ⟨h.attempts, ?_, ?_, ?_, ?_, hknown⟩
  · refine List.nodup_append.mpr ⟨h.nodup, by simp, ?_⟩
    rintro x hx y hy rfl
    exact hnew (List.mem_singleton.mp hy ▸ hx)
  · rw [List.dropLast_concat]
    exact hasked
  · simp only [List.length_append, List.length_singleton]
    omega
  · intro d hd
    rcases List.mem_append.mp hd with hold | hlast
    · exact Or.inr (hasked d hold)
    · exact Or.inl (List.mem_singleton.mp hlast)

theorem CallKept.step (h : CallKept s call) (hshared : Shared s)
    (hstep : call.step s a = some (s', call')) :
    CallKept s' call' := by
  obtain ⟨attempt, sent, pc⟩ := call
  have hhere := h.here
  cases pc with
  | connect =>
      cases a with
      | go =>
          simp only [Call.step] at hstep
          split at hstep
          · rename_i c hcurrent
            cases hstep
            exact h.connected hshared hhere.1 hhere.2 hcurrent
          · cases hstep
            exact ⟨h.attempts, h.nodup, h.earlier, hhere⟩
      | _ => cases hstep
  | locking =>
      cases a with
      | go =>
          simp only [Call.step] at hstep
          split at hstep
          · rename_i c hcurrent
            cases hstep
            exact h.connected hshared hhere.1 hhere.2 hcurrent
          · cases hstep
            have hlater := McpClient.later_openNew s
            have hasked : ∀ d ∈ sent, s.openNew.asked d := fun d hd => hlater.asked d (hhere.2 d hd)
            exact ⟨h.attempts, h.nodup, (h.later hlater).earlier, hhere.1, hasked, by
              simp [McpClient.openNew], fun hmem =>
              Nat.lt_irrefl _ (McpClient.lt_of_asked (hhere.2 _ hmem))⟩
      | _ => cases hstep
  | session c =>
      obtain ⟨hlength, hasked, hknown, hnew⟩ := hhere
      cases a with
      | go =>
          simp only [Call.step] at hstep
          split at hstep
          · cases hstep
          · split at hstep
            · cases hstep
            · split at hstep
              · cases hstep
                exact h.called hlength hasked hknown hnew
              · cases hstep
                exact CallKept.fail h.attempts h.nodup h.earlier (Nat.le_of_lt hlength)
                  (fun d hd => Or.inr (hasked d hd)) hknown _
      | cancelled =>
          cases hstep
          exact ⟨h.attempts, h.nodup, h.earlier, h.length_le⟩
      | _ => cases hstep
  | calling c =>
      cases a with
      | raises error =>
          cases hstep
          exact CallKept.fail h.attempts h.nodup h.earlier hhere.1 hhere.2.1 hhere.2.2 error
      | result | cancelled =>
          cases hstep
          exact ⟨h.attempts, h.nodup, h.earlier, h.length_le⟩
      | _ => cases hstep
  | dropping c error =>
      cases a with
      | go =>
          cases hstep
          have hkept := h.later (McpClient.later_drop s c)
          refine ⟨h.attempts, h.nodup, hkept.earlier, hhere.1, fun d hd =>
            McpClient.asked_drop.mpr ?_⟩
          rcases hhere.2.1 d hd with rfl | hold
          · exact Or.inr ⟨rfl, hhere.2.2⟩
          · exact Or.inl hold
      | _ => cases hstep
  | closing c error =>
      cases a with
      | go =>
          simp only [Call.step] at hstep
          split at hstep <;> cases hstep
          exact h.again hhere.1 hhere.2 error
      | timeout =>
          cases hstep
          exact h.again hhere.1 hhere.2 error
      | cancelled =>
          cases hstep
          exact ⟨h.attempts, h.nodup, h.earlier, h.length_le⟩
      | _ => cases hstep
  | sleeping =>
      cases a with
      | go =>
          cases hstep
          exact ⟨hhere.2.2, h.nodup, h.earlier, Nat.lt_succ_of_le hhere.1, hhere.2.1⟩
      | cancelled =>
          cases hstep
          exact ⟨h.attempts, h.nodup, h.earlier, h.length_le⟩
      | _ => cases hstep
  | returned | raised | cancelled => cases a <;> cases hstep

/-! ### Every run -/

structure Kept (conf : Conf McpClient Task) : Prop where
  shared : Shared conf.shared
  calls : ∀ task ∈ conf.procs, ∀ call, task = .call call → CallKept conf.shared call

theorem kept_next {conf conf' : Conf McpClient Task} {l : Label (Nat × OwnerMove) Request Answer}
    (h : Kept conf)
    (hnext : mcpClient.next conf l = some conf') : Kept conf' := by
  rcases mcpClient.next_cases hnext with ⟨move, s, rfl, hs, rfl⟩ | ⟨request, rfl, rfl⟩
    | ⟨pid, a, task, s, task', rfl, hpid, hstep, rfl⟩
  · exact ⟨McpClient.shared_own h.shared hs,
      fun task htask call hcall => (h.calls task htask call hcall).later (McpClient.later_own hs)⟩
  · refine ⟨h.shared, forall_mem_append h.calls fun call hcall => ?_⟩
    cases request with
    | close => cases hcall
    | callTool =>
        cases hcall
        exact ⟨by decide, List.nodup_nil, nofun, Nat.one_pos, nofun⟩
  · have hkept := h.calls task (mem_of_getElem? hpid)
    cases task with
    | close pc =>
        obtain ⟨⟨s₁, pc'⟩, hpc, heq⟩ := Option.map_eq_some_iff.mp hstep
        cases heq
        have hshared : Shared s₁ ∧ Later conf.shared s₁ := by
          rcases ClosePc.step_client hpc with rfl | ⟨c, rfl⟩
          · exact ⟨h.shared, Later.refl _⟩
          · exact ⟨McpClient.shared_drop h.shared c, McpClient.later_drop _ c⟩
        exact ⟨hshared.1, forall_mem_set
          (fun task htask call hcall => (h.calls task htask call hcall).later hshared.2) nofun⟩
    | call call =>
        obtain ⟨⟨s₁, call'⟩, hcall, heq⟩ := Option.map_eq_some_iff.mp hstep
        cases heq
        have hshared : Shared s₁ := by
          rcases Call.step_client hcall with rfl | ⟨rfl, hnone⟩ | ⟨c, rfl⟩
          · exact h.shared
          · exact McpClient.shared_openNew h.shared hnone
          · exact McpClient.shared_drop h.shared c
        refine ⟨hshared, forall_mem_set
          (fun task htask other hother => (h.calls task htask other hother).later
            (Call.later_step hcall)) ?_⟩
        rintro _ ⟨⟩
        exact (hkept call rfl).step h.shared hcall

theorem kept_throughout (ls : List (Label (Nat × OwnerMove) Request Answer)) :
    mcpClient.Throughout Kept ⟨{}, []⟩ ls := by
  apply mcpClient.throughout_of_preserved fun conf l conf' h hnext => kept_next h hnext
  exact ⟨⟨nofun, nofun, nofun⟩, nofun⟩

/-- In every order of the calls, the closes and the sessions' own tasks, at most one session is
neither ended nor asked to close, and that is the one the client shares. -/
theorem one_live_session (ls : List (Label (Nat × OwnerMove) Request Answer)) :
    mcpClient.Throughout (fun conf => ∀ (c : Nat) (conn : McpConnection),
      conf.shared.opened[c]? = some conn → conn.done = false → conn.closing = false →
      conf.shared.connection = some c) ⟨{}, []⟩ ls :=
  (kept_throughout ls).mono mcpClient fun _ h => h.shared.shared

/-- A call sends the tool at most three times, never twice on one session, and before it sends it
again it has asked the session of every earlier attempt to close. -/
theorem sent_at_most_three_times (ls : List (Label (Nat × OwnerMove) Request Answer)) :
    mcpClient.Throughout (fun conf => ∀ call, Task.call call ∈ conf.procs →
      call.sent.length ≤ maxAttempts ∧ call.sent.Nodup ∧ ∀ c ∈ call.sent.dropLast,
        conf.shared.asked c)
      ⟨{}, []⟩ ls := by
  apply (kept_throughout ls).mono mcpClient
  intro conf h call hcall
  have hkept := h.calls _ hcall call rfl
  exact ⟨Nat.le_trans hkept.length_le hkept.attempts, hkept.nodup, hkept.earlier⟩

end OnlinetLabs.Clients
