import Mathlib.Order.Nat
import OnlinetLabs.Lib.Interleaving

/-!
# The gate to GNS3's access rights

Every write of users or rights goes through one gate. A local lock orders the calls of a replica,
and a key in Redis, held by a token for a limited time, the replicas. To let the key go, a call
reads it and deletes it if the token is its own: two commands, between which the key can expire and
be granted again. The sibling lock of the same service does both in one script.
-/

namespace OnlinetLabs.Gns3

open Interleaving

abbrev Replica := Nat

/-- A DELETE that `_release_distributed` issued: by whom, and what the key held. -/
structure Deletion where
  token : Nat
  held : Option Nat
deriving Repr, DecidableEq

structure GateState where
  /-- What the key `lock:gns3_rbac_write` holds. -/
  key : Option Nat := none
  /-- The replicas whose local lock is held. -/
  locked : List Replica := []
  /-- What `uuid4().hex` gives next. -/
  nextToken : Nat := 0
  deletions : List Deletion := []
deriving Repr, DecidableEq

namespace GateState

variable (s : GateState)

def grant (token : Nat) : GateState := { s with key := some token }

def delete (token : Nat) : GateState :=
  { s with key := none, deletions := s.deletions ++ [⟨token, s.key⟩] }

def unlock (replica : Replica) : GateState := { s with locked := s.locked.erase replica }

end GateState

inductive GatePc where
  /-- Before the local lock. -/
  | waiting
  /-- About to set the key. -/
  | polling
  /-- The key is held: the deadline is looked at, then comes the sleep. -/
  | refused
  /-- In the body, with the key or without it. -/
  | inside (acquired : Bool)
  /-- About to read the key. -/
  | releasing
  /-- The key was read and held the own token: about to delete it. -/
  | deleting
  | left
deriving Repr, DecidableEq

structure GateCall where
  replica : Replica
  token : Option Nat := none
  pc : GatePc := .waiting
deriving Repr, DecidableEq

inductive GateStep where
  | lock
  | set
  /-- Redis raises, and the SET took effect or not. -/
  | setRaises (took : Bool)
  | timeOut
  | sleep
  /-- The body ends. -/
  | leave
  | get
  | getRaises
  | delete
  | deleteRaises (took : Bool)
  | crash
deriving Repr, DecidableEq

namespace GateCall

variable (call : GateCall)

/-- The local lock is let go at the end. -/
def exit (s : GateState) :
    GateState × GateCall := (s.unlock call.replica, { call with pc := .left })

def step (s : GateState) (a : GateStep) : Option (GateState × GateCall) :=
  match a, call.pc, call.token with
  | .lock, .waiting, _ =>
      if call.replica ∈ s.locked then none
      else
        some ({ s with locked := s.locked ++ [call.replica], nextToken := s.nextToken + 1 },
          { call with pc := .polling, token := some s.nextToken })
  | .set, .polling, some token =>
      match s.key with
      | none => some (s.grant token, { call with pc := .inside true })
      | some _ => some (s, { call with pc := .refused })
  | .setRaises took, .polling, some token =>
      some (if took ∧ s.key = none then s.grant token else s, { call with pc := .inside false })
  | .timeOut, .refused, _ => some (s, { call with pc := .inside false })
  | .sleep, .refused, _ => some (s, { call with pc := .polling })
  | .leave, .inside true, _ => some (s, { call with pc := .releasing })
  | .leave, .inside false, _ => some (call.exit s)
  | .get, .releasing, token =>
      if s.key = token then some (s, { call with pc := .deleting }) else some (call.exit s)
  | .getRaises, .releasing, _ => some (call.exit s)
  | .delete, .deleting, some token => some (call.exit (s.delete token))
  | .deleteRaises took, .deleting, some token =>
      some (call.exit (if took then s.delete token else s))
  | .crash, .left, _ => none
  | .crash, _, _ => some (s, { call with pc := .left })
  | _, _, _ => none

end GateCall

/-- The replicas' calls of the gate. The environment lets the key expire. -/
def rbacGate : System GateState GateCall Unit Replica GateStep where
  env s _ := some { s with key := none }
  spawn replica := { replica }
  step s call := call.step s

/-! ### The law -/

/-- No DELETE removes another's token. -/
def DeletesOwn (s : GateState) : Prop := ∀ d ∈ s.deletions, ∀ token ∈ d.held, token = d.token

/-- At most one call is in the body. -/
def OneInside (c : Conf GateState GateCall) : Prop :=
  Exclusive (fun call : GateCall => ∃ acquired, call.pc = .inside acquired) c.procs

/-! ### The conditions -/

def GateCall.Granted (s : GateState) (call : GateCall) (a : GateStep) : Prop :=
  call.pc = .polling ∧ s.key = none ∧ (a = .set ∨ a = .setRaises true)

/-- The key is granted while no call is between its GET and its DELETE. -/
def SparesDeleting (c : Conf GateState GateCall) : Label Unit Replica GateStep → Prop
  | .run pid a =>
      ∀ call ∈ c.procs[pid]?, call.Granted c.shared a → ∀ other ∈ c.procs, other.pc ≠ .deleting
  | _ => True

/-- No holder keeps the gate longer than the key lives, Redis answers, and nobody gives up
waiting. -/
def Dependable (c : Conf GateState GateCall) : Label Unit Replica GateStep → Prop
  | .env _ => ∀ call ∈ c.procs, call.pc ≠ .inside true
  | .run _ a => a ≠ .timeOut ∧ ∀ took, a ≠ .setRaises took
  | .spawn _ => True

instance (s : GateState) (call : GateCall) (a : GateStep) : Decidable (call.Granted s a) :=
  inferInstanceAs (Decidable (_ ∧ _))

instance (c : Conf GateState GateCall) : ∀ l, Decidable (SparesDeleting c l)
  | .env _ | .spawn _ => .isTrue trivial
  | .run pid a => inferInstanceAs
      (Decidable (∀ call ∈ c.procs[pid]?, call.Granted c.shared a → ∀ other ∈ c.procs,
        other.pc ≠ .deleting))

instance (c : Conf GateState GateCall) : ∀ l, Decidable (Dependable c l)
  | .env _ => inferInstanceAs (Decidable (∀ call ∈ c.procs, call.pc ≠ .inside true))
  | .run _ a => inferInstanceAs (Decidable (a ≠ .timeOut ∧ ∀ took, a ≠ .setRaises took))
  | .spawn _ => .isTrue trivial

/-! ### What a step can do -/

namespace GateCall

variable {s s' : GateState} {call call' : GateCall} {a : GateStep}

/-- What a step does to the key: nothing, or it grants it to the call, or the call deletes it. -/
inductive Moves (s : GateState) (call : GateCall) : GateStep → GateState → GateCall → Prop
  | lock (hpc : call.pc = .waiting) (s' : GateState) (hkey : s'.key = s.key)
      (hdeletions : s'.deletions = s.deletions)
      (hnext : s'.nextToken = s.nextToken + 1) :
      Moves s call .lock s' { call with pc := .polling, token := some s.nextToken }
  | grant {token : Nat} {acquired : Bool} {a : GateStep} (hpc : call.pc = .polling)
      (htoken : call.token = some token)
      (hkey : s.key = none)
        (ha : a = .set ∧ acquired = true ∨ a = .setRaises true ∧ acquired = false) :
      Moves s call a (s.grant token) { call with pc := .inside acquired }
  | enter {a : GateStep} (ha : a = .timeOut ∨ ∃ took, a = .setRaises took) :
      Moves s call a s { call with pc := .inside false }
  | read (hpc : call.pc = .releasing) (hkey : s.key = call.token) : Moves s call .get s
      { call with pc := .deleting }
  | stay {a : GateStep} {pc : GatePc} (s' : GateState) (hkey : s'.key = s.key)
      (hdeletions : s'.deletions = s.deletions) (hnext : s'.nextToken = s.nextToken)
      (hpc : pc = .polling ∨ pc = .refused ∨ pc = .releasing ∨ pc = .left) : Moves s call a s'
        { call with pc }
  | delete {token : Nat} {a : GateStep} (hpc : call.pc = .deleting)
      (htoken : call.token = some token)
      (s' : GateState) (hkey : s'.key = none)
        (hdeletions : s'.deletions = s.deletions ++ [⟨token, s.key⟩])
      (hnext : s'.nextToken = s.nextToken) : Moves s call a s' { call with pc := .left }

theorem step_moves (h : call.step s a = some (s', call')) : call.Moves s a s' call' := by
  obtain ⟨replica, token, pc⟩ := call
  cases a with
  | lock =>
      cases pc with
      | waiting =>
          simp only [step] at h
          split at h <;> cases h
          exact .lock rfl _ rfl rfl rfl
      | _ => cases h
  | set =>
      cases pc with
      | polling =>
          cases token with
          | none => cases h
          | some token =>
              simp only [step] at h
              split at h
              · rename_i hkey
                cases h
                exact .grant rfl rfl hkey (Or.inl ⟨rfl, rfl⟩)
              · cases h
                exact .stay _ rfl rfl rfl (by simp)
      | _ => cases h
  | setRaises took =>
      cases pc with
      | polling =>
          cases token with
          | none => cases h
          | some token =>
              cases h
              split
              · rename_i hgrant
                obtain ⟨rfl, hkey⟩ := hgrant
                exact .grant rfl rfl hkey (Or.inr ⟨rfl, rfl⟩)
              · exact .enter (Or.inr ⟨took, rfl⟩)
      | _ => cases h
  | timeOut =>
      cases pc with
      | refused =>
          cases h
          exact .enter (Or.inl rfl)
      | _ => cases h
  | sleep =>
      cases pc with
      | refused =>
          cases h
          exact .stay _ rfl rfl rfl (by simp)
      | _ => cases h
  | leave =>
      cases pc with
      | inside acquired => cases acquired <;> cases h <;> exact .stay _ rfl rfl rfl (by simp)
      | _ => cases h
  | get =>
      cases pc with
      | releasing =>
          simp only [step] at h
          split at h
          · rename_i hkey
            cases h
            exact .read rfl hkey
          · cases h
            exact .stay _ rfl rfl rfl (by simp)
      | _ => cases h
  | getRaises =>
      cases pc with
      | releasing =>
          cases h
          exact .stay _ rfl rfl rfl (by simp)
      | _ => cases h
  | delete =>
      cases pc with
      | deleting =>
          cases token with
          | none => cases h
          | some token =>
              cases h
              exact .delete rfl rfl _ rfl rfl rfl
      | _ => cases h
  | deleteRaises took =>
      cases pc with
      | deleting =>
          cases token with
          | none => cases h
          | some token =>
              cases took <;> cases h
              · exact .stay _ rfl rfl rfl (by simp)
              · exact .delete rfl rfl _ rfl rfl rfl
      | _ => cases h
  | crash =>
      cases pc with
      | left => cases h
      | _ =>
          cases h
          exact .stay _ rfl rfl rfl (by simp)

end GateCall

/-! ### Whose token is whose -/

/-- Tokens are the calls' own, and what the key holds was given out. -/
structure TokensOwn (c : Conf GateState GateCall) : Prop where
  own : ∀ token, Exclusive (fun call : GateCall => call.token = some token) c.procs
  given : ∀ call ∈ c.procs, ∀ token ∈ call.token, token < c.shared.nextToken
  waits : ∀ call ∈ c.procs, call.pc = .waiting → call.token = none

/-- A call about to delete finds its own token or none, and no DELETE has removed another's. -/
structure Spared (c : Conf GateState GateCall) : Prop where
  deleting : ∀ call ∈ c.procs, call.pc = .deleting → c.shared.key = call.token ∨ c.shared.key = none
  deletions : DeletesOwn c.shared

/-- Who is in the body holds the key. -/
def HoldsKey (c : Conf GateState GateCall) : Prop :=
  ∀ call ∈ c.procs, ∀ acquired, call.pc = .inside acquired →
    acquired = true ∧ ∃ token, call.token = some token ∧ c.shared.key = some token

variable {c c' : Conf GateState GateCall} {l : Label Unit Replica GateStep}

theorem GateCall.Moves.nextToken_le {s s' : GateState} {call call' : GateCall} {a : GateStep}
    (h : call.Moves s a s' call') : s.nextToken ≤ s'.nextToken := by
  cases h with
  | lock hpc s' hkey hdeletions hnext => omega
  | grant | enter | read => exact le_rfl
  | stay s' hkey hdeletions hnext hpc => exact hnext.ge
  | delete hpc htoken s' hkey hdeletions hnext => exact hnext.ge

/-- A call draws its token with the local lock and keeps it. -/
theorem GateCall.Moves.token_cases {s s' : GateState} {call call' : GateCall} {a : GateStep}
    (h : call.Moves s a s' call') :
    (call.pc = .waiting ∧ call'.pc = .polling ∧ call'.token = some s.nextToken
      ∧ s'.nextToken = s.nextToken + 1)
      ∨ (call'.token = call.token ∧ call'.pc ≠ .waiting) := by
  cases h with
  | lock hpc s' hkey hdeletions hnext => exact Or.inl ⟨hpc, rfl, rfl, hnext⟩
  | stay s' hkey hdeletions hnext hpc =>
      refine Or.inr ⟨rfl, ?_⟩
      rintro rfl
      simp at hpc
  | grant | enter | read | delete => exact Or.inr ⟨rfl, by rintro ⟨⟩⟩

theorem tokensOwn_next (h : TokensOwn c) (hnext : rbacGate.next c l = some c') : TokensOwn c' := by
  rcases rbacGate.next_cases hnext with ⟨e, s, rfl, henv, rfl⟩ | ⟨replica, rfl, rfl⟩
    | ⟨pid, a, call, s, call', rfl, hpid, hstep, rfl⟩
  · cases henv
    exact ⟨h.own, h.given, h.waits⟩
  · refine ⟨fun token => (h.own token).append ?_, forall_mem_append h.given ?_,
      forall_mem_append h.waits fun _ => rfl⟩
    · rintro ⟨⟩
    · rintro token ⟨⟩
  · have hmoves := GateCall.step_moves hstep
    have hmem := mem_of_getElem? hpid
    have hgrow : ∀ q ∈ c.procs, ∀ token ∈ q.token, token < s.nextToken :=
      fun q hq token htoken => (h.given q hq token htoken).trans_le hmoves.nextToken_le
    rcases hmoves.token_cases with ⟨hpc, hpc', htoken, hsupply⟩ | ⟨htoken, hpc'⟩
    · refine ⟨fun token => ?_, forall_mem_set hgrow ?_, forall_mem_set h.waits ?_⟩
      · by_cases heq : token = c.shared.nextToken
        · apply Exclusive.of_none
          intro q hq hheld
          have hlt := h.given q hq token hheld
          omega
        · apply (h.own token).set hpid
          intro hheld
          rw [htoken, Option.some.injEq] at hheld
          exact absurd hheld.symm heq
      · intro token hheld
        rw [htoken, Option.mem_some_iff] at hheld
        show token < s.nextToken
        omega
      · intro hwaiting
        rw [hpc'] at hwaiting
        cases hwaiting
    · refine ⟨fun token => (h.own token).set hpid fun hheld => htoken ▸ hheld,
        forall_mem_set hgrow ?_, forall_mem_set h.waits fun hwaiting => absurd hwaiting hpc'⟩
      rw [htoken]
      exact hgrow call hmem

/-- **What a step spares.** -/
theorem spared_next (h : Spared c) (hspares : SparesDeleting c l)
    (hnext : rbacGate.next c l = some c') : Spared c' := by
  rcases rbacGate.next_cases hnext with ⟨e, s, rfl, henv, rfl⟩ | ⟨replica, rfl, rfl⟩
    | ⟨pid, a, call, s, call', rfl, hpid, hstep, rfl⟩
  · cases henv
    exact ⟨fun call hmem hpc => Or.inr rfl, h.deletions⟩
  · refine ⟨forall_mem_append h.deleting ?_, h.deletions⟩
    rintro ⟨⟩
  · have hmem := mem_of_getElem? hpid
    cases GateCall.step_moves hstep with
    | lock hpc s' hkey hdeletions hsupply =>
        refine ⟨forall_mem_set (hkey.symm ▸ h.deleting) (by rintro ⟨⟩), ?_⟩
        rw [DeletesOwn, hdeletions]
        exact h.deletions
    | grant hpc htoken hkey ha =>
        have hgranted : call.Granted c.shared a := ⟨hpc, hkey, ha.imp And.left And.left⟩
        have hnone : ∀ q ∈ c.procs, q.pc ≠ .deleting := hspares call hpid hgranted
        exact ⟨forall_mem_set (fun q hq hdeleting => absurd hdeleting (hnone q hq)) (by rintro ⟨⟩),
          h.deletions⟩
    | enter ha => exact ⟨forall_mem_set h.deleting (by rintro ⟨⟩), h.deletions⟩
    | read hpc hkey => exact ⟨forall_mem_set h.deleting fun _ => Or.inl hkey, h.deletions⟩
    | stay s' hkey hdeletions hsupply hpc =>
        refine ⟨forall_mem_set (hkey.symm ▸ h.deleting) ?_, ?_⟩
        · rintro rfl
          simp at hpc
        · rw [DeletesOwn, hdeletions]
          exact h.deletions
    | @delete token _ hpc htoken s' hkey hdeletions hsupply =>
        refine ⟨fun q hq hdeleting => Or.inr hkey, ?_⟩
        rw [DeletesOwn, hdeletions]
        refine List.forall_mem_append.mpr
          ⟨h.deletions, List.forall_mem_singleton.mpr fun held hheld => ?_⟩
        rcases h.deleting call hmem hpc with hself | hnone
        · rw [hself, htoken] at hheld
          exact (Option.some.inj hheld).symm
        · rw [hnone] at hheld
          cases hheld

/-- **Who is in the body keeps the key.** -/
theorem holdsKey_next (hown : TokensOwn c) (hspared : Spared c) (h : HoldsKey c)
    (hdependable : Dependable c l)
    (hnext : rbacGate.next c l = some c') : HoldsKey c' := by
  rcases rbacGate.next_cases hnext with ⟨e, s, rfl, henv, rfl⟩ | ⟨replica, rfl, rfl⟩
    | ⟨pid, a, call, s, call', rfl, hpid, hstep, rfl⟩
  · intro call hmem acquired hpc
    obtain ⟨rfl, -⟩ := h call hmem acquired hpc
    exact absurd hpc (hdependable call hmem)
  · exact forall_mem_append h (by rintro _ ⟨⟩)
  · have hmem := mem_of_getElem? hpid
    cases GateCall.step_moves hstep with
    | lock hpc s' hkey hdeletions hsupply =>
        intro q hq acquired hinside
        rw [hkey]
        exact forall_mem_set h (by rintro _ ⟨⟩) q hq acquired hinside
    | @grant token acquired _ hpc htoken hkey ha =>
        have hnone : ∀ q ∈ c.procs, ∀ acquired, q.pc ≠ .inside acquired := by
          intro q hq acquired hinside
          obtain ⟨-, held, -, hheld⟩ := h q hq acquired hinside
          rw [hkey] at hheld
          cases hheld
        refine forall_mem_set (fun q hq acquired hinside => absurd hinside (hnone q hq acquired)) ?_
        rintro _ ⟨⟩
        rcases ha with ⟨-, rfl⟩ | ⟨rfl, -⟩
        · exact ⟨rfl, token, htoken, rfl⟩
        · exact absurd rfl (hdependable.2 true)
    | enter ha =>
        rcases ha with rfl | ⟨took, rfl⟩
        · exact absurd rfl hdependable.1
        · exact absurd rfl (hdependable.2 took)
    | read hpc hkey => exact forall_mem_set h (by rintro _ ⟨⟩)
    | stay s' hkey hdeletions hsupply hpc =>
        intro q hq acquired hinside
        rw [hkey]
        refine forall_mem_set h ?_ q hq acquired hinside
        rintro _ rfl
        simp at hpc
    | @delete token _ hpc htoken s' hkey hdeletions hsupply =>
        intro q hq acquired hinside
        rcases List.getElem?_of_mem hq with ⟨i, hi⟩
        rw [List.getElem?_set] at hi
        split at hi
        · split at hi
          · cases hi
            cases hinside
          · cases hi
        · rename_i hne
          -- The key would be of the call in the body and of the call that deletes.
          obtain ⟨-, held, hheld, hkeyHeld⟩ := h q (mem_of_getElem? hi) acquired hinside
          rcases hspared.deleting call hmem hpc with hself | hnone
          · rw [hkeyHeld, htoken] at hself
            have hsame : token = held := (Option.some.inj hself).symm
            exact absurd (hown.own held pid i call q hpid hi (hsame ▸ htoken) hheld) hne
          · rw [hnone] at hkeyHeld
            cases hkeyHeld

theorem HoldsKey.oneInside (hown : TokensOwn c) (h : HoldsKey c) : OneInside c := by
  rintro i j p q hi hj ⟨acquired, hp⟩ ⟨acquired', hq⟩
  obtain ⟨-, token, htoken, hkey⟩ := h p (mem_of_getElem? hi) acquired hp
  obtain ⟨-, token', htoken', hkey'⟩ := h q (mem_of_getElem? hj) acquired' hq
  have hsame : token' = token := Option.some.inj (hkey'.symm.trans hkey)
  exact hown.own token i j p q hi hj htoken (hsame ▸ htoken')

/-! ### All runs -/

theorem tokensOwn_start : TokensOwn ⟨{}, []⟩ :=
  ⟨fun _ => exclusive_nil _, List.forall_mem_nil _, List.forall_mem_nil _⟩

theorem spared_start : Spared ⟨{}, []⟩ := ⟨List.forall_mem_nil _, List.forall_mem_nil _⟩

/-- **When the gate is let go safely.** Where the key is granted only while no call is between its
GET and its DELETE, no DELETE removes another's token, and as long as holders are quick and Redis
answers, one call at most is in the body. -/
theorem gate_let_go_safely (ls : List (Label Unit Replica GateStep))
    (h : rbacGate.Along SparesDeleting ⟨{}, []⟩ ls) :
    rbacGate.Throughout (fun c => DeletesOwn c.shared) ⟨{}, []⟩ ls
      ∧ (rbacGate.Along Dependable ⟨{}, []⟩ ls → rbacGate.Throughout OneInside ⟨{}, []⟩ ls) := by
  constructor
  · have hall : rbacGate.Throughout (fun c => TokensOwn c ∧ Spared c) ⟨{}, []⟩ ls := by
      refine rbacGate.throughout_of_along (fun c l c' hc hl hnext => ?_)
        ⟨tokensOwn_start, spared_start⟩ h
      exact ⟨tokensOwn_next hc.1 hnext, spared_next hc.2 hl hnext⟩
    exact hall.mono _ fun c hc => hc.2.deletions
  · intro hdependable
    have hboth : rbacGate.Along (fun c l => SparesDeleting c l ∧ Dependable c l) ⟨{}, []⟩ ls :=
      h.and _ hdependable
    have hall : rbacGate.Throughout (fun c => (TokensOwn c ∧ Spared c) ∧ HoldsKey c) ⟨{},
        []⟩ ls := by
      refine rbacGate.throughout_of_along (fun c l c' hc hl hnext => ?_)
        ⟨⟨tokensOwn_start, spared_start⟩, List.forall_mem_nil _⟩ hboth
      exact ⟨⟨tokensOwn_next hc.1.1 hnext, spared_next hc.1.2 hl.1 hnext⟩,
        holdsKey_next hc.1.1 hc.1.2 hc.2 hl.2 hnext⟩
    exact hall.mono _ fun c hc => hc.2.oneInside hc.1.1

def inTurn : List (Label Unit Replica GateStep) :=
  [.spawn 0, .spawn 1, .run 0 .lock, .run 0 .set, .run 1 .lock, .run 1 .set, .run 0 .leave,
    .run 0 .get, .run 0 .delete, .run 1 .sleep, .run 1 .set]

theorem gate_let_go_safely_inTurn : rbacGate.Along SparesDeleting ⟨{}, []⟩ inTurn
    ∧ rbacGate.Throughout (fun c => DeletesOwn c.shared) ⟨{}, []⟩ inTurn :=
  have hspares : rbacGate.Along SparesDeleting ⟨{}, []⟩ inTurn := by decide
  ⟨hspares, (gate_let_go_safely inTurn hspares).1⟩

/-- The key of the first replica expires after its GET. The second is granted the key, the first
deletes it, and the third comes in to the second. -/
def expiryUnderDelete : List (Label Unit Replica GateStep) :=
  [.spawn 0, .spawn 1, .spawn 2, .run 0 .lock, .run 0 .set, .run 0 .leave, .run 0 .get, .env (),
    .run 1 .lock, .run 1 .set, .run 0 .delete, .run 2 .lock, .run 2 .set]

/-- **A DELETE that removes another's token**, and two calls in the body, though every holder was
quick. -/
theorem delete_removes_another :
    ¬ rbacGate.Throughout (fun c => DeletesOwn c.shared) ⟨{}, []⟩ expiryUnderDelete
    ∧ rbacGate.Along Dependable ⟨{}, []⟩ expiryUnderDelete
    ∧ ¬ rbacGate.Throughout OneInside ⟨{}, []⟩ expiryUnderDelete := by
  have hrun : (rbacGate.exec ⟨{}, []⟩ expiryUnderDelete).map
      (fun c => (c.shared.deletions, c.procs))
      = some ([⟨0, some 1⟩],
        [⟨0, some 0, .left⟩, ⟨1, some 1, .inside true⟩, ⟨2, some 2, .inside true⟩]) := by decide
  obtain ⟨c, hexec, heq⟩ := Option.map_eq_some_iff.mp hrun
  obtain ⟨hdeletions, hprocs⟩ := Prod.mk.inj heq
  refine ⟨fun hall => ?_, ?_, fun hall => ?_⟩
  · have hown := hall.exec _ hexec
    rw [DeletesOwn, hdeletions] at hown
    exact absurd (hown _ List.mem_cons_self 1 rfl) (by decide)
  · decide
  · have hone := hall.exec _ hexec
    rw [OneInside, hprocs] at hone
    exact absurd (hone 1 2 _ _ rfl rfl ⟨true, rfl⟩ ⟨true, rfl⟩) (by decide)

end OnlinetLabs.Gns3
