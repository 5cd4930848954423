import OnlinetLabs.Lib.Runs
import OnlinetLabs.Lib.Interleaving
import Mathlib.Logic.Function.Basic

/-!
# The backend token of the frontend

`getBackendToken` answers from a cache of its instance, joins the exchange that is under way for the
user, or begins one. An exchange that the backend refuses with 401 syncs the account and is made
once more. The answers of the backend come in any order, and in between the callers do. A call
without a session returns `null` before all of this, and is left out.

Promises settle once, and a caller goes on some time after that.
-/

namespace OnlinetLabs.Auth.BackendToken

open Interleaving (mem_of_getElem? forall_mem_set forall_mem_append)

/-- What a promise settles with: a token, `null`, or a `BackendUnavailableError`. -/
inductive Outcome (Token : Type) where
  | token (token : Token)
  | null
  | unavailable
deriving Repr, DecidableEq

/-- What the backend answers an exchange or a sync. -/
inductive Reply (Token : Type) where
  | token (token : Token)
  | synced
  | unauthorized
  | failed
deriving Repr, DecidableEq

inductive FlightPc (Token : Type) where
  | exchanging
  | syncing
  | exchangingAgain
  | settled (outcome : Outcome Token)
deriving Repr, DecidableEq

/-- `expiresAtMs` is `none` for a token that does not say when it expires, which is before no
time. -/
structure CachedToken (Token : Type) where
  token : Token
  expiresAtMs : Option Int
deriving Repr, DecidableEq

structure Flight (User Token : Type) where
  user : User
  pc : FlightPc Token := .exchanging
  replies : List (Reply Token) := []
deriving Repr, DecidableEq

inductive CallPc (Token : Type) where
  | waiting (flight : Nat)
  | returned (outcome : Outcome Token)
deriving Repr, DecidableEq

/-- A call of `getBackendToken` with a session, and the time of its look at the cache. -/
structure Call (User Token : Type) where
  user : User
  now : Int
  pc : CallPc Token
deriving Repr, DecidableEq

/-- A flight is its place among those begun. -/
structure Frontend (User Token : Type) where
  tokenCache : User → Option (CachedToken Token) := fun _ => none
  inflight : User → Option Nat := fun _ => none
  flights : List (Flight User Token) := []
  calls : List (Call User Token) := []

inductive Move (User Token : Type) where
  | call (user : User) (now : Int)
  | reply (flight : Nat) (reply : Reply Token)
  | resume (call : Nat)
deriving Repr, DecidableEq

def refreshSkewMs : Int := 60000

section

variable {User Token : Type} (decodeExpiryMs : Token → Option (Option Int))

/-- The promise goes on with an answer. What it puts into the cache stands beside it.
`decodeExpiryMs` is `none` where it throws. -/
def FlightPc.receive :
    FlightPc Token → Reply Token → Option (FlightPc Token × Option (CachedToken Token))
  | .exchanging, .token token =>
      match decodeExpiryMs token with
      | some expiresAtMs => some (.settled (.token token), some { token, expiresAtMs })
      | none => some (.settled .unavailable, none)
  | .exchanging, .unauthorized => some (.syncing, none)
  | .exchanging, .failed => some (.settled .unavailable, none)
  | .syncing, .synced => some (.exchangingAgain, none)
  | .syncing, .unauthorized | .syncing, .failed => some (.settled .null, none)
  | .exchangingAgain, .token token =>
      match decodeExpiryMs token with
      | some expiresAtMs => some (.settled (.token token), some { token, expiresAtMs })
      | none => some (.settled .null, none)
  | .exchangingAgain, .unauthorized | .exchangingAgain, .failed => some (.settled .null, none)
  | _, _ => none

def FlightPc.running : FlightPc Token → Bool
  | .settled _ => false
  | _ => true

namespace Frontend

def cached (s : Frontend User Token) (user : User) (now : Int) : Option Token :=
  match s.tokenCache user with
  | some { token, expiresAtMs := some expiresAtMs } =>
      if now < expiresAtMs - refreshSkewMs then some token else none
  | _ => none

/-- `getBackendToken`, up to its wait. -/
def getBackendToken [DecidableEq User] (s : Frontend User Token) (user : User) (now : Int) :
    Frontend User Token :=
  match s.cached user now with
  | some token => { s with calls := s.calls ++ [{ user, now, pc := .returned (.token token) }] }
  | none =>
      match s.inflight user with
      | some flight => { s with calls := s.calls ++ [{ user, now, pc := .waiting flight }] }
      | none =>
          { s with
            flights := s.flights ++ [{ user }]
            inflight := Function.update s.inflight user (some s.flights.length)
            calls := s.calls ++ [{ user, now, pc := .waiting s.flights.length }] }

/-- A flight goes on, and leaves `inflight` when it settles. -/
def advance [DecidableEq User] (s : Frontend User Token) (f : Nat) (flight : Flight User Token)
    (reply : Reply Token)
    (next : FlightPc Token × Option (CachedToken Token)) : Frontend User Token :=
  { s with
    flights := s.flights.set f { flight with pc := next.1, replies := flight.replies ++ [reply] }
    tokenCache := if next.2.isSome then Function.update s.tokenCache flight.user next.2
      else s.tokenCache
    inflight := if next.1.running then s.inflight else Function.update s.inflight flight.user none }

def step [DecidableEq User] (s : Frontend User Token) :
    Move User Token → Option (Frontend User Token)
  | .call user now => some (s.getBackendToken user now)
  | .reply f reply =>
      match s.flights[f]? with
      | none => none
      | some flight => (flight.pc.receive decodeExpiryMs reply).map (s.advance f flight reply)
  | .resume c =>
      match s.calls[c]? with
      | some { user, now, pc := .waiting f } =>
          match s.flights[f]? with
          | some { pc := .settled outcome, .. } =>
              some { s with calls := s.calls.set c { user, now, pc := .returned outcome } }
          | _ => none
      | _ => none

end Frontend

/-! ### What is kept -/

def Issued (flights : List (Flight User Token)) (user : User) (token : Token) : Prop :=
  ∃ flight ∈ flights, flight.user = user ∧ Reply.token token ∈ flight.replies

/-- What the backend has answered, by where the promise is. -/
def Flight.Answered (flight : Flight User Token) : Prop :=
  match flight.pc with
  | .exchanging => flight.replies = []
  | .syncing => flight.replies = [.unauthorized]
  | .exchangingAgain => flight.replies = [.unauthorized, .synced]
  | .settled (.token token) =>
      flight.replies = [.token token] ∨ flight.replies = [.unauthorized, .synced, .token token]
  | .settled .unavailable =>
      flight.replies = [.failed] ∨ ∃ token, flight.replies = [.token token]
        ∧ decodeExpiryMs token = none
  | .settled .null =>
      ∃ last, flight.replies = [.unauthorized, last]
        ∨ flight.replies = [.unauthorized, .synced, last]

/-- Where a call has its outcome from: the cache, while the token was good for more than a minute,
or a flight of its user. -/
def Call.Answered (flights : List (Flight User Token)) (call : Call User Token) : Prop :=
  match call.pc with
  | .waiting f => ∃ flight, flights[f]? = some flight ∧ flight.user = call.user
  | .returned outcome =>
      (∃ token expiresAtMs, outcome = .token token ∧ Issued flights call.user token
        ∧ decodeExpiryMs token = some (some expiresAtMs) ∧ call.now + refreshSkewMs < expiresAtMs)
      ∨ ∃ flight ∈ flights, flight.user = call.user ∧ flight.pc = .settled outcome

structure Kept (s : Frontend User Token) : Prop where
  flights : ∀ flight ∈ s.flights, flight.Answered decodeExpiryMs
  inflight : ∀ user f, s.inflight user = some f
    ↔ ∃ flight, s.flights[f]? = some flight ∧ flight.user = user ∧ flight.pc.running = true
  cache : ∀ user entry, s.tokenCache user = some entry →
    Issued s.flights user entry.token ∧ decodeExpiryMs entry.token = some entry.expiresAtMs
  calls : ∀ call ∈ s.calls, call.Answered decodeExpiryMs s.flights
  begun : s.flights.length ≤ s.calls.length

/-! ### What a step keeps -/

/-- Flights are only added, and go on with more answers until they settle. -/
def Grown (flights flights' : List (Flight User Token)) : Prop :=
  ∀ (f : Nat) (flight : Flight User Token), flights[f]? = some flight →
    ∃ flight' : Flight User Token,
    flights'[f]? = some flight' ∧ flight'.user = flight.user ∧ flight.replies <+: flight'.replies
      ∧ (flight.pc.running = false → flight' = flight)

variable {decodeExpiryMs} {s s' : Frontend User Token} {flights flights' : List (Flight User Token)}
  {flight flight' : Flight User Token} {f : Nat} {user : User} {token : Token}

theorem grown_append (flights : List (Flight User Token)) (flight : Flight User Token) :
    Grown flights (flights ++ [flight]) := by
  intro f old h
  refine ⟨old, ?_, rfl, List.prefix_rfl, fun _ => rfl⟩
  rw [List.getElem?_append_left (List.getElem?_eq_some_iff.mp h).1, h]

theorem grown_set (h : flights[f]? = some flight) (hrunning : flight.pc.running = true)
    (huser : flight'.user = flight.user) (hreplies : flight.replies <+: flight'.replies) :
    Grown flights (flights.set f flight') := by
  intro i old hold
  by_cases hi : f = i
  · subst hi
    rw [h, Option.some.injEq] at hold
    subst hold
    refine ⟨flight', List.getElem?_set_self (List.getElem?_eq_some_iff.mp h).1, huser, hreplies,
      fun hended => ?_⟩
    rw [hrunning] at hended
    cases hended
  · exact ⟨old, by rw [List.getElem?_set_ne hi, hold], rfl, List.prefix_rfl, fun _ => rfl⟩

theorem Issued.grown (h : Issued flights user token) (hgrown : Grown flights flights') :
    Issued flights' user token := by
  obtain ⟨flight, hmem, huser, htoken⟩ := h
  obtain ⟨f, hf⟩ := List.getElem?_of_mem hmem
  obtain ⟨flight', hf', huser', hreplies, -⟩ := hgrown f flight hf
  exact ⟨flight', mem_of_getElem? hf', huser'.trans huser, hreplies.subset htoken⟩

theorem Call.Answered.grown {call : Call User Token} (h : call.Answered decodeExpiryMs flights)
    (hgrown : Grown flights flights') : call.Answered decodeExpiryMs flights' := by
  rw [Call.Answered] at h ⊢
  split at h
  · obtain ⟨flight, hf, huser⟩ := h
    obtain ⟨flight', hf', huser', -⟩ := hgrown _ flight hf
    exact ⟨flight', hf', huser'.trans huser⟩
  · rcases h with ⟨token, expiresAtMs, houtcome, hissued, hdecode, hlate⟩
      | ⟨flight, hmem, huser, hpc⟩
    · exact Or.inl ⟨token, expiresAtMs, houtcome, hissued.grown hgrown, hdecode, hlate⟩
    · obtain ⟨f, hf⟩ := List.getElem?_of_mem hmem
      obtain ⟨flight', hf', -, -, hsame⟩ := hgrown f flight hf
      rw [hsame (by rw [hpc]; rfl)] at hf'
      exact Or.inr ⟨flight, mem_of_getElem? hf', huser, hpc⟩

/-- What one answer does to a flight. -/
theorem Flight.Answered.receive (h : flight.Answered decodeExpiryMs) {reply : Reply Token}
    {next : FlightPc Token × Option (CachedToken Token)}
    (hnext : flight.pc.receive decodeExpiryMs reply = some next) :
    flight.pc.running = true
      ∧ Flight.Answered decodeExpiryMs
        { flight with pc := next.1, replies := flight.replies ++ [reply] }
      ∧ ∀ entry, next.2 = some entry →
          reply = .token entry.token ∧ decodeExpiryMs entry.token = some entry.expiresAtMs := by
  obtain ⟨user, pc, replies⟩ := flight
  cases pc with
  | exchanging =>
      obtain rfl : replies = [] := h
      cases reply with
      | token token =>
          simp only [FlightPc.receive] at hnext
          split at hnext <;> rename_i hdecode <;> cases hnext
          · refine ⟨rfl, Or.inl rfl, ?_⟩
            rintro entry ⟨⟩
            exact ⟨rfl, hdecode⟩
          · exact ⟨rfl, Or.inr ⟨token, rfl, hdecode⟩, fun _ hentry => (by cases hentry)⟩
      | unauthorized =>
          cases hnext
          exact ⟨rfl, rfl, fun _ hentry => (by cases hentry)⟩
      | failed =>
          cases hnext
          exact ⟨rfl, Or.inl rfl, fun _ hentry => (by cases hentry)⟩
      | synced => cases hnext
  | syncing =>
      obtain rfl : replies = [.unauthorized] := h
      cases reply with
      | synced =>
          cases hnext
          exact ⟨rfl, rfl, fun _ hentry => (by cases hentry)⟩
      | unauthorized | failed =>
          cases hnext
          exact ⟨rfl, ⟨_, Or.inl rfl⟩, fun _ hentry => (by cases hentry)⟩
      | token => cases hnext
  | exchangingAgain =>
      obtain rfl : replies = [.unauthorized, .synced] := h
      cases reply with
      | token token =>
          simp only [FlightPc.receive] at hnext
          split at hnext <;> rename_i hdecode <;> cases hnext
          · refine ⟨rfl, Or.inr rfl, ?_⟩
            rintro entry ⟨⟩
            exact ⟨rfl, hdecode⟩
          · exact ⟨rfl, ⟨_, Or.inr rfl⟩, fun _ hentry => (by cases hentry)⟩
      | unauthorized | failed =>
          cases hnext
          exact ⟨rfl, ⟨_, Or.inr rfl⟩, fun _ hentry => (by cases hentry)⟩
      | synced => cases hnext
  | settled outcome => cases reply <;> cases hnext

theorem Frontend.cached_eq_some {now : Int} (h : s.cached user now = some token) :
    ∃ expiresAtMs, s.tokenCache user = some ⟨token, some expiresAtMs⟩
      ∧ now + refreshSkewMs < expiresAtMs := by
  unfold cached at h
  split at h
  · rename_i expiresAtMs hentry
    split at h
    · rename_i hlate
      cases h
      exact ⟨expiresAtMs, hentry, by omega⟩
    · cases h
  · cases h

theorem kept_init : Kept decodeExpiryMs ({} : Frontend User Token) where
  flights _ h := absurd h List.not_mem_nil
  inflight user f := by simp
  cache user entry h := by cases h
  calls _ h := absurd h List.not_mem_nil
  begun := Nat.le_refl 0

/-- Another call that waits for a flight of its user or has its outcome. -/
theorem Kept.enter (h : Kept decodeExpiryMs s) {call : Call User Token}
    (hcall : call.Answered decodeExpiryMs s.flights) :
    Kept decodeExpiryMs { s with calls := s.calls ++ [call] } where
  flights := h.flights
  inflight := h.inflight
  cache := h.cache
  calls := forall_mem_append h.calls hcall
  begun := by
    rw [List.length_append]
    exact Nat.le_add_right_of_le h.begun

/-- A flight begins where none of the user is under way. -/
theorem Kept.launch [DecidableEq User] (h : Kept decodeExpiryMs s) (hnone : s.inflight user = none)
    (now : Int) :
    Kept decodeExpiryMs { s with
      flights := s.flights ++ [{ user }]
      inflight := Function.update s.inflight user (some s.flights.length)
      calls := s.calls ++ [{ user, now, pc := .waiting s.flights.length }] } where
  flights := forall_mem_append h.flights rfl
  inflight user' f := by
    have hbefore := h.inflight user' f
    dsimp only
    by_cases hf : f = s.flights.length
    · subst hf
      rw [List.getElem?_concat_length]
      by_cases huser : user' = user
      · subst huser
        rw [Function.update_self]
        exact ⟨fun _ => ⟨_, rfl, rfl, rfl⟩, fun _ => rfl⟩
      · rw [Function.update_of_ne huser, hbefore, List.getElem?_eq_none (Nat.le_refl _)]
        constructor
        · rintro ⟨flight, hflight, -⟩
          cases hflight
        · rintro ⟨flight, hflight, rfl, -⟩
          cases hflight
          exact absurd rfl huser
    · have hget : (s.flights ++ [({ user } : Flight User Token)])[f]? = s.flights[f]? := by
        rcases Nat.lt_or_gt_of_ne hf with hlt | hgt
        · exact List.getElem?_append_left hlt
        · rw [List.getElem?_eq_none (Nat.le_of_lt hgt), List.getElem?_eq_none]
          rw [List.length_append]
          exact hgt
      rw [hget, ← hbefore]
      by_cases huser : user' = user
      · subst huser
        rw [Function.update_self, hnone, Option.some.injEq]
        exact ⟨fun heq => absurd heq.symm hf, fun heq => (by cases heq)⟩
      · rw [Function.update_of_ne huser]
  cache user' entry hentry :=
    ⟨(h.cache user' entry hentry).1.grown (grown_append _ _), (h.cache user' entry hentry).2⟩
  calls := forall_mem_append (fun call hcall => (h.calls call hcall).grown (grown_append _ _))
    ⟨_, List.getElem?_concat_length, rfl⟩
  begun := by
    rw [List.length_append, List.length_append]
    exact Nat.add_le_add_right h.begun 1

theorem Kept.call [DecidableEq User] (h : Kept decodeExpiryMs s) (user : User) (now : Int) :
    Kept decodeExpiryMs (s.getBackendToken user now) := by
  unfold Frontend.getBackendToken
  split
  · rename_i token hcached
    obtain ⟨expiresAtMs, hentry, hlate⟩ := Frontend.cached_eq_some hcached
    obtain ⟨hissued, hdecode⟩ := h.cache user _ hentry
    exact h.enter (Or.inl ⟨token, expiresAtMs, rfl, hissued, hdecode, hlate⟩)
  · split
    · rename_i f hinflight
      obtain ⟨flight, hflight, huser, -⟩ := (h.inflight user f).mp hinflight
      exact h.enter ⟨flight, hflight, huser⟩
    · rename_i hnone
      exact h.launch hnone now

theorem Kept.advance [DecidableEq User] (h : Kept decodeExpiryMs s)
    (hflight : s.flights[f]? = some flight)
    {reply : Reply Token} {next : FlightPc Token × Option (CachedToken Token)}
    (hnext : flight.pc.receive decodeExpiryMs reply = some next) :
    Kept decodeExpiryMs (s.advance f flight reply next) := by
  obtain ⟨hrunning, hanswered, hentry⟩ := (h.flights flight (mem_of_getElem? hflight)).receive hnext
  have hlt : f < s.flights.length := (List.getElem?_eq_some_iff.mp hflight).1
  have hmine : s.inflight flight.user = some f :=
    (h.inflight flight.user f).mpr ⟨flight, hflight, rfl, hrunning⟩
  have hgrown : Grown s.flights
      (s.flights.set f { flight with pc := next.1, replies := flight.replies ++ [reply] }) :=
    grown_set hflight hrunning rfl (List.prefix_append _ _)
  refine ⟨forall_mem_set h.flights hanswered, ?_, ?_, fun call hcall =>
    (h.calls call hcall).grown hgrown, ?_⟩
  · intro user f'
    dsimp only [Frontend.advance]
    have hbefore := h.inflight user f'
    by_cases hf : f = f'
    · subst hf
      rw [List.getElem?_set_self hlt]
      by_cases huser : user = flight.user
      · subst huser
        cases hended : next.1.running
        · rw [if_neg Bool.false_ne_true, Function.update_self]
          refine ⟨fun heq => (by cases heq), ?_⟩
          rintro ⟨_, heq, -, hrun⟩
          cases heq
          rw [hended] at hrun
          cases hrun
        · rw [if_pos rfl]
          exact ⟨fun _ => ⟨_, rfl, rfl, hended⟩, fun _ => hmine⟩
      · have hother : s.inflight user ≠ some f := by
          intro heq
          obtain ⟨flight', hflight', huser', -⟩ := hbefore.mp heq
          rw [hflight, Option.some.injEq] at hflight'
          exact huser (hflight' ▸ huser'.symm)
        constructor
        · intro heq
          split at heq
          · exact absurd heq hother
          · rw [Function.update_of_ne huser] at heq
            exact absurd heq hother
        · rintro ⟨_, heq, huser', -⟩
          cases heq
          exact absurd huser'.symm huser
    · rw [List.getElem?_set_ne hf, ← hbefore]
      split
      · rfl
      · by_cases huser : user = flight.user
        · subst huser
          rw [Function.update_self, hmine, Option.some.injEq]
          exact ⟨fun heq => (by cases heq), fun heq => absurd heq hf⟩
        · rw [Function.update_of_ne huser]
  · intro user entry hcached
    dsimp only [Frontend.advance] at hcached ⊢
    split at hcached
    · by_cases huser : user = flight.user
      · subst huser
        rw [Function.update_self] at hcached
        obtain ⟨htoken, hdecode⟩ := hentry entry hcached
        refine ⟨⟨_, List.mem_set hlt _, rfl, ?_⟩, hdecode⟩
        rw [htoken]
        exact List.mem_append_right _ List.mem_cons_self
      · rw [Function.update_of_ne huser] at hcached
        exact ⟨(h.cache user entry hcached).1.grown hgrown, (h.cache user entry hcached).2⟩
    · exact ⟨(h.cache user entry hcached).1.grown hgrown, (h.cache user entry hcached).2⟩
  · dsimp only [Frontend.advance]
    rw [List.length_set]
    exact h.begun

theorem Kept.step [DecidableEq User] (h : Kept decodeExpiryMs s) {move : Move User Token}
    (hstep : s.step decodeExpiryMs move = some s') :
    Kept decodeExpiryMs s' := by
  cases move with
  | call user now =>
      cases hstep
      exact h.call user now
  | reply f reply =>
      dsimp only [Frontend.step] at hstep
      split at hstep
      · cases hstep
      · rename_i flight hflight
        obtain ⟨next, hnext, rfl⟩ := Option.map_eq_some_iff.mp hstep
        exact h.advance hflight hnext
  | resume c =>
      dsimp only [Frontend.step] at hstep
      split at hstep
      · rename_i user now f hcall
        split at hstep
        · rename_i user' outcome replies hflight
          cases hstep
          obtain ⟨flight, hflight', huser⟩ := h.calls _ (mem_of_getElem? hcall)
          rw [hflight, Option.some.injEq] at hflight'
          subst hflight'
          refine ⟨h.flights, h.inflight, h.cache, ?_, by rw [List.length_set]; exact h.begun⟩
          exact forall_mem_set h.calls (Or.inr ⟨_, mem_of_getElem? hflight, huser, rfl⟩)
        · cases hstep
      · cases hstep

/-! ### What callers get -/

/-- The first answer of a flight. -/
theorem Flight.Answered.first (h : flight.Answered decodeExpiryMs) {outcome : Outcome Token}
    (hpc : flight.pc = .settled outcome) :
    (outcome = .null → flight.replies.head? = some .unauthorized)
      ∧ (outcome = .unavailable → flight.replies.head? ≠ some .unauthorized)
      ∧ ∀ token, outcome = .token token → Reply.token token ∈ flight.replies := by
  rw [Flight.Answered, hpc] at h
  cases outcome with
  | token token =>
      refine ⟨fun heq => (by cases heq), fun heq => (by cases heq), ?_⟩
      rintro _ ⟨⟩
      rcases h with h | h <;> rw [h] <;> simp
  | null =>
      refine ⟨fun _ => ?_, fun heq => (by cases heq), fun _ heq => (by cases heq)⟩
      obtain ⟨last, h | h⟩ := h <;> rw [h] <;> rfl
  | unavailable =>
      refine ⟨fun heq => (by cases heq), fun _ => ?_, fun _ heq => (by cases heq)⟩
      rcases h with h | ⟨token, h, -⟩ <;> rw [h] <;> simp

theorem Flight.Answered.length_le (h : flight.Answered decodeExpiryMs) :
    flight.replies.length ≤ 3 := by
  obtain ⟨user, pc, replies⟩ := flight
  cases pc with
  | exchanging =>
      obtain rfl : replies = [] := h
      simp
  | syncing =>
      obtain rfl : replies = [.unauthorized] := h
      simp
  | exchangingAgain =>
      obtain rfl : replies = [.unauthorized, .synced] := h
      simp
  | settled outcome =>
      cases outcome with
      | token token =>
          rcases h with h | h <;> cases h <;> simp
      | null =>
          obtain ⟨last, h | h⟩ := h <;> cases h <;> simp
      | unavailable =>
          rcases h with h | ⟨token, h, -⟩ <;> cases h <;> simp

end

end OnlinetLabs.Auth.BackendToken
