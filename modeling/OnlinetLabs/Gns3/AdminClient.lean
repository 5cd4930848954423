import OnlinetLabs.Lib.Interleaving
import OnlinetLabs.Lib.Runs
import Mathlib.Data.List.Basic

/-!
# The admin client of GNS3

All requests of the service go through one client, which authenticates as the administrator. A task
of its own renews the token before it expires, and a request that is refused with 401 renews it and
is sent again. Both authenticate under one lock, and every new token cancels the task that was
waiting for the old one, even where that task is the one that has brought it.

The tokens are numbered in the order in which GNS3 mints them, which is not the order in which its
answers arrive.
-/

namespace OnlinetLabs.Gns3.AdminClient

open Interleaving (forall_mem_append mem_of_getElem?)

/-- What a request may meet: an error of the network, a status that is raised, or anything else. -/
inductive Failure where
  | transport
  | status (code : Nat)
  | other
deriving Repr, DecidableEq

def Failure.isTransient : Failure → Bool
  | .transport => true
  | .status code => decide (500 ≤ code ∧ code < 600)
  | .other => false

/-- `stop_after_attempt` -/
def maxAttempts : Nat := 3

/-- The methods under `retry_on_401`. -/
inductive Method where
  | createUser
  | deleteUser
  | findUserByName
  | getUserToken
  | createAcl
  | duplicateProject
  | openProject
  | deleteProject
  | getBuiltinRole
  | getNodes
  | getLinks
  | nodeAction
  | bulkNodeAction
deriving Repr, DecidableEq

namespace Method

/-- Those under `transient_retry`. -/
def transientRetry : Method → Bool
  | createUser | getUserToken | createAcl | duplicateProject | openProject => true
  | deleteUser | findUserByName | deleteProject | getBuiltinRole | getNodes | getLinks | nodeAction
  | bulkNodeAction => false

def attempts (method : Method) : Nat := if method.transientRetry then maxAttempts else 1

/-- How often the body posts: `duplicate_project` does so again while GNS3 answers 409. -/
def posts : Method → Nat
  | duplicateProject => 5
  | _ => 1

theorem posts_pos (method : Method) : 0 < method.posts := by cases method <;> decide

/-- Whether the body may return without a request, from the cache of roles. -/
def caches (method : Method) : Bool := method == getBuiltinRole

/-- Whether the body may raise before its request, for an action there is not. -/
def checksAction (method : Method) : Bool := method == nodeAction || method == bulkNodeAction

end Method

/-! ### The parties -/

/-- A party that authenticates has the token that GNS3 has minted for it, from when it has. -/
inductive RefreshPc where
  | sleeping
  | waiting
  | authenticating (minted : Option Nat)
  | done
deriving Repr, DecidableEq

/-- A task of `_refresh_after`. -/
structure Refresh where
  due : Int
  pc : RefreshPc := .sleeping
  cancelled : Bool := false
deriving Repr, DecidableEq

/-- A request: the client's token, which the requests of `get_user_token` alone do not carry, and
how many tokens there were when the call was refused with 401, where it was. -/
structure Sent where
  token : Nat
  refusedAt : Option Nat
deriving Repr, DecidableEq

inductive CallPc where
  | ready
  | sent
  | conflicted
  | refused
  | authenticating (minted : Option Nat)
  | sleeping
  | returned
  | raised (error : Failure)
  | cancelled
deriving Repr, DecidableEq

/-- A call of a method. `refusedAt` is of the attempt, and `tries` are the posts of this run of the
body. -/
structure Call where
  method : Method
  attempt : Nat := 1
  tries : Nat := 0
  refusedAt : Option Nat := none
  sends : List Sent := []
  authentications : Nat := 0
  pc : CallPc := .ready
deriving Repr, DecidableEq

inductive Task where
  | refresh (r : Refresh)
  | call (c : Call)
deriving Repr, DecidableEq

/-- Where the task authenticates, and then what was minted for it. -/
def Task.authenticating : Task → Option (Option Nat)
  | .refresh { pc := .authenticating minted, .. } | .call { pc := .authenticating minted, .. } =>
      some minted
  | _ => none

/-- A task that will renew the token. -/
def Task.live : Task → Bool
  | .refresh r => r.pc ≠ .done && !r.cancelled
  | .call _ => false

/-- `Task.cancel`, of a task that is not done. -/
def Task.cancel : Task → Task
  | .refresh r => .refresh (if r.pc = .done then r else { r with cancelled := true })
  | .call c => .call c

/-! ### The client -/

/-- The client and whoever runs in it. A task is its place in the list. -/
structure World where
  now : Int := 0
  minted : Nat := 1
  token : Nat := 0
  lock : Option Nat := none
  refreshTask : Option Nat := none
  tasks : List Task := []
  /-- Every token that the client was given. -/
  delivered : List Nat := [0]
deriving Repr, DecidableEq

namespace World

def cancelRefresh (w : World) : World :=
  match w.refreshTask with
  | none => w
  | some pid => { w with tasks := w.tasks.modify pid Task.cancel }

/-- `_schedule_refresh`, with the expiry that `_decode_exp` finds in the token, where it does. -/
def scheduleRefresh (w : World) (exp : Option Int) : World :=
  match exp with
  | none => w.cancelRefresh
  | some exp =>
      { w.cancelRefresh with
        refreshTask := some w.tasks.length
        tasks := w.cancelRefresh.tasks ++ [.refresh { due := w.now + max 60 (exp - w.now - 60) }] }

/-- `authenticate` has its answer, and whoever awaited it gives the lock back. -/
def authenticated (w : World) (token : Nat) (exp : Option Int) : World :=
  { w with token, delivered := w.delivered ++ [token], lock := none }.scheduleRefresh exp

/-- The lock, after a task has ended in it or before. -/
def release (w : World) (pid : Nat) :
    World := { w with lock := if w.lock = some pid then none else w.lock }

/-- The service has started, so it has authenticated. -/
def started (exp : Option Int) : World := ({} : World).scheduleRefresh exp

end World

inductive Answer where
  | go
  | ok
  /-- The answer to `authenticate`, and what `_decode_exp` finds. -/
  | token (exp : Option Int)
  | raises (error : Failure)
  | cancelled
deriving Repr, DecidableEq

/-- One step of `_refresh_after`, which a cancellation ends where it waits. -/
def Refresh.step (w : World) (pid : Nat) (r : Refresh) (a : Answer) : Option (World × Refresh) :=
  if r.pc = .done then none
  else if r.cancelled then
    if a = .cancelled then some (w.release pid, { r with pc := .done }) else none
  else
    match r.pc, a with
    | .sleeping, .go => if r.due ≤ w.now then some (w, { r with pc := .waiting }) else none
    | .waiting, .go =>
        if w.lock = none
          then some ({ w with lock := some pid }, { r with pc := .authenticating none }) else none
    | .authenticating (some minted), .token exp =>
        some (w.authenticated minted exp, { r with pc := .done })
    | .authenticating _, .raises _ => some (w.release pid, { r with pc := .done })
    | _, _ => none

namespace Call

/-- What `transient_retry` makes of an error. -/
def fail (c : Call) (error : Failure) : Call :=
  { c with
    pc := if error.isTransient && c.attempt < c.method.attempts then .sleeping else .raised error }

/-- What `retry_on_401` makes of one, the first time in an attempt. -/
def refuse (w : World) (c : Call) (error : Failure) : Call :=
  if error = .status 401 ∧ c.refusedAt = none
    then { c with tries := 0, refusedAt := some w.minted, pc := .refused }
  else c.fail error

def step (w : World) (pid : Nat) (c : Call) (a : Answer) : Option (World × Call) :=
  match c.pc, a with
  | .ready, .go =>
      some (w, { c with
        tries := c.tries + 1, sends := c.sends ++ [⟨w.token, c.refusedAt⟩], pc := .sent })
  | .ready, .ok => if c.method.caches then some (w, { c with pc := .returned }) else none
  | .ready, .raises .other => if c.method.checksAction then some (w, c.fail .other) else none
  | .sent, .ok => some (w, { c with pc := .returned })
  | .sent, .raises error =>
      if error = .status 409 ∧ 1 < c.method.posts then some (w, { c with pc := .conflicted })
      else some (w, c.refuse w error)
  | .conflicted, .go =>
      if c.tries < c.method.posts then some (w, { c with pc := .ready })
      else some (w, c.fail (.status 409))
  | .refused, .go =>
      if w.lock = none then
        some ({ w with lock := some pid },
          { c with authentications := c.authentications + 1, pc := .authenticating none })
      else none
  | .authenticating (some minted), .token exp =>
      some (w.authenticated minted exp, { c with pc := .ready })
  | .authenticating _, .raises error => some (w.release pid, c.fail error)
  | .sleeping, .go =>
      some (w, { c with attempt := c.attempt + 1, tries := 0, refusedAt := none, pc := .ready })
  | .sent, .cancelled | .conflicted, .cancelled | .refused, .cancelled
  | .authenticating _, .cancelled
  | .sleeping, .cancelled => some (w.release pid, { c with pc := .cancelled })
  | _, _ => none

end Call

def Task.step (w : World) (pid : Nat) (t : Task) (a : Answer) : Option (World × Task) :=
  match t with
  | .refresh r => (r.step w pid a).map fun next => (next.1, .refresh next.2)
  | .call c => (c.step w pid a).map fun next => (next.1, .call next.2)

/-- GNS3 mints a token for a task that authenticates. -/
def Task.mint (t : Task) (token : Nat) : Option Task :=
  match t with
  | .refresh r =>
      if r.pc = .authenticating none
        then some (.refresh { r with pc := .authenticating (some token) }) else none
  | .call c =>
      if c.pc = .authenticating none
        then some (.call { c with pc := .authenticating (some token) }) else none

inductive Move where
  | tick (elapsed : Nat)
  | call (method : Method)
  | mint (pid : Nat)
  | go (pid : Nat) (a : Answer)
  | close
deriving Repr, DecidableEq

def World.step (w : World) : Move → Option World
  | .tick elapsed => some { w with now := w.now + elapsed }
  | .call method => some { w with tasks := w.tasks ++ [.call { method }] }
  | .mint pid =>
      match w.tasks[pid]? with
      | none => none
      | some t =>
          (t.mint w.minted).map fun t' =>
            { w with minted := w.minted + 1, tasks := w.tasks.set pid t' }
  | .go pid a =>
      match w.tasks[pid]? with
      | none => none
      | some t =>
          (t.step w pid a).map fun next => { next.1 with tasks := next.1.tasks.set pid next.2 }
  | .close => some w.cancelRefresh

/-! ### What is kept -/

/-- Whether the body is under way, after the answer of `authenticate` if the attempt was refused. -/
def CallPc.inBody : CallPc → Bool
  | .ready | .sent | .conflicted => true
  | .refused | .authenticating _ | .sleeping | .returned | .raised _ | .cancelled => false

/-- Whether the body has yet to post. -/
def CallPc.before : CallPc → Bool
  | .ready | .refused | .authenticating _ => true
  | .sent | .conflicted | .sleeping | .returned | .raised _ | .cancelled => false

/-- How often the body was run before this time. -/
def Call.runs (c : Call) : Nat := 2 * (c.attempt - 1) + c.refusedAt.toList.length

structure CallKept (w : World) (c : Call) : Prop where
  attempt : 1 ≤ c.attempt ∧ c.attempt ≤ c.method.attempts
  tries : c.tries ≤ c.method.posts
  before : c.pc.before = true → c.tries < c.method.posts
  sleeping : c.pc = .sleeping → c.attempt < c.method.attempts
  sends : c.sends.length ≤ c.runs * c.method.posts + c.tries
  authentications : c.authentications + (if c.pc = .refused then 1 else 0)
    ≤ c.attempt - 1 + c.refusedAt.toList.length
  renewed : ∀ s ∈ c.sends, ∀ m ∈ s.refusedAt, m ≤ s.token
  refusedAt : ∀ m ∈ c.refusedAt, m ≤ w.minted
  minted : ∀ n, c.pc = .authenticating (some n) → ∀ m ∈ c.refusedAt, m ≤ n
  inBody : c.pc.inBody = true → ∀ m ∈ c.refusedAt, m ≤ w.token

structure TaskKept (w : World) (pid : Nat) (t : Task) : Prop where
  holds : ∀ minted, t.authenticating = some minted → w.lock = some pid
  minted : ∀ n, t.authenticating = some (some n) → w.token < n ∧ n < w.minted
  live : t.live = true → w.refreshTask = some pid
  call : ∀ c, t = .call c → CallKept w c

structure Kept (w : World) : Prop where
  token : w.token < w.minted
  delivered : w.delivered.Pairwise (· < ·)
  newest : w.delivered.getLast? = some w.token
  lock : ∀ pid, w.lock = some pid → ∃ t, w.tasks[pid]? = some t ∧ t.authenticating.isSome
  tasks : ∀ pid t, w.tasks[pid]? = some t → TaskKept w pid t

/-! ### Cancelling and scheduling -/

variable {w w' : World} {pid : Nat} {t t' : Task} {c c' : Call}

@[simp] theorem Task.authenticating_cancel (t : Task) :
    t.cancel.authenticating = t.authenticating := by
  cases t with
  | refresh r =>
      obtain ⟨due, pc, cancelled⟩ := r
      cases pc <;> rfl
  | call c => rfl

@[simp] theorem Task.live_cancel (t : Task) : t.cancel.live = false := by
  cases t with
  | refresh r =>
      unfold cancel
      dsimp only
      split
      · rename_i hdone
        simp [live, hdone]
      · simp [live]
  | call c => rfl

theorem Task.cancel_eq_call (h : t.cancel = .call c) : t = .call c := by
  cases t with
  | refresh r => cases h
  | call c => exact h

theorem CallKept.later (h : CallKept w c) (hminted : w.minted ≤ w'.minted)
    (htoken : w.token ≤ w'.token) :
    CallKept w' c :=
  { h with
    refusedAt := fun m hm => Nat.le_trans (h.refusedAt m hm) hminted
    inBody := fun hbody m hm => Nat.le_trans (h.inBody hbody m hm) htoken }

/-- The refresh task is cancelled, and all else is as it was. -/
theorem World.cancelRefresh_eq (w : World) :
    w.cancelRefresh = { w with tasks := w.cancelRefresh.tasks } := by
  unfold cancelRefresh
  split <;> rfl

theorem World.length_cancelRefresh (w : World) : w.cancelRefresh.tasks.length = w.tasks.length := by
  unfold cancelRefresh
  split <;> simp

theorem World.getElem?_cancelRefresh (w : World) (pid : Nat) :
    w.cancelRefresh.tasks[pid]? =
      if w.refreshTask = some pid then w.tasks[pid]?.map Task.cancel else w.tasks[pid]? := by
  unfold cancelRefresh
  split
  · rename_i hnone
    rw [if_neg (by rw [hnone]; simp)]
  · rename_i i hsome
    rw [hsome, List.getElem?_modify]
    by_cases heq : i = pid
    · simp [heq]
    · simp [heq]

theorem Kept.cancelRefresh (h : Kept w) :
    Kept w.cancelRefresh ∧ ∀ t ∈ w.cancelRefresh.tasks, t.live = false := by
  have hget : ∀ pid t, w.cancelRefresh.tasks[pid]? = some t → ∃ old, w.tasks[pid]? = some old
      ∧ (t = old ∧ w.refreshTask ≠ some pid ∨ t = old.cancel) := by
    intro pid t ht
    rw [World.getElem?_cancelRefresh] at ht
    split at ht
    · obtain ⟨old, hold, rfl⟩ := Option.map_eq_some_iff.mp ht
      exact ⟨old, hold, Or.inr rfl⟩
    · rename_i hne
      exact ⟨t, ht, Or.inl ⟨rfl, hne⟩⟩
  have hdead : ∀ t ∈ w.cancelRefresh.tasks, t.live = false := by
    intro t hmem
    obtain ⟨pid, hpid⟩ := List.getElem?_of_mem hmem
    obtain ⟨old, hold, ⟨rfl, hne⟩ | rfl⟩ := hget pid t hpid
    · exact Bool.eq_false_iff.mpr fun hlive => hne ((h.tasks pid t hold).live hlive)
    · exact Task.live_cancel old
  refine ⟨?_, hdead⟩
  rw [World.cancelRefresh_eq]
  refine ⟨h.token, h.delivered, h.newest, fun pid hlock => ?_, fun pid t ht => ?_⟩
  · obtain ⟨t, ht, hauth⟩ := h.lock pid hlock
    dsimp only
    rw [World.getElem?_cancelRefresh, ht]
    split
    · exact ⟨t.cancel, rfl, by rwa [Task.authenticating_cancel]⟩
    · exact ⟨t, rfl, hauth⟩
  · have hlive := hdead t (mem_of_getElem? ht)
    obtain ⟨old, hold, hor⟩ := hget pid t ht
    have hkept := h.tasks pid old hold
    have hauth : t.authenticating = old.authenticating := by
      rcases hor with ⟨rfl, -⟩ | rfl
      · rfl
      · exact Task.authenticating_cancel old
    refine ⟨fun m hm => hkept.holds m (hauth ▸ hm), fun n hn => hkept.minted n (hauth ▸ hn),
      fun hl => absurd hl (by rw [hlive]; decide), fun c hc => ?_⟩
    have hcall : old = .call c := by
      rcases hor with ⟨rfl, -⟩ | rfl
      · exact hc
      · exact Task.cancel_eq_call hc
    exact (hkept.call c hcall).later (Nat.le_refl _) (Nat.le_refl _)

theorem Kept.scheduleRefresh (h : Kept w) (exp : Option Int) : Kept (w.scheduleRefresh exp) := by
  obtain ⟨hkept, hdead⟩ := h.cancelRefresh
  cases exp with
  | none => exact hkept
  | some exp =>
      unfold World.scheduleRefresh
      dsimp only
      refine ⟨hkept.token, hkept.delivered, hkept.newest, fun pid hlock => ?_, fun pid t ht => ?_⟩
      · obtain ⟨t, ht, hauth⟩ := hkept.lock pid hlock
        exact ⟨t, by rw [List.getElem?_append_left (List.getElem?_eq_some_iff.mp ht).1, ht], hauth⟩
      · dsimp only at ht
        rw [List.getElem?_append] at ht
        split at ht
        · have hold := hkept.tasks pid t ht
          exact ⟨hold.holds, hold.minted, fun hl =>
            absurd hl (by rw [hdead t (mem_of_getElem? ht)]; decide), fun c hc =>
            (hold.call c hc).later (Nat.le_refl _) (Nat.le_refl _)⟩
        · rename_i hge
          rw [List.getElem?_singleton] at ht
          split at ht
          · cases ht
            refine ⟨fun _ hm => (by cases hm), fun _ hn => (by cases hn), fun _ => ?_, fun _ hc =>
              (by cases hc)⟩
            rw [← w.length_cancelRefresh]
            exact congrArg some (by omega)
          · cases ht

theorem kept_started (exp : Option Int) : Kept (World.started exp) := by
  have hinit : Kept {} :=
    ⟨Nat.zero_lt_one, List.pairwise_singleton _ _, rfl, fun _ h => (by cases h), fun _ _ h =>
      (by cases h)⟩
  exact hinit.scheduleRefresh exp

/-! ### What a step does -/

/-- What a task does to the client: it takes the lock, it brings a token and gives the lock back, it
gives the lock back if it has it, or it leaves the client alone. -/
inductive Effect (w : World) (pid : Nat) (t t' : Task) : World → Prop where
  | acquires (hfree : w.lock = none) (hin : t'.authenticating = some none) :
      Effect w pid t t' { w with lock := some pid }
  | delivers (n : Nat) (exp : Option Int) (hin : t.authenticating = some (some n))
      (hout : t'.authenticating = none)
      (hdone : t'.cancel = t') : Effect w pid t t' (w.authenticated n exp)
  | releases (hout : t'.authenticating = none) : Effect w pid t t' (w.release pid)
  | goesOn (hin : t.authenticating = none) (hout : t'.authenticating = none) : Effect w pid t t' w

theorem Refresh.step_effect {r r' : Refresh} {a : Answer} (h : r.step w pid a = some (w', r')) :
    Effect w pid (.refresh r) (.refresh r') w'
      ∧ (Task.live (.refresh r') = true → Task.live (.refresh r) = true) := by
  obtain ⟨due, pc, cancelled⟩ := r
  unfold Refresh.step at h
  split at h
  · cases h
  · rename_i hpc
    split at h
    · split at h
      · cases h
        exact ⟨.releases rfl, fun hl => (by cases hl)⟩
      · cases h
    · rename_i hcancelled
      dsimp only at h hpc hcancelled
      refine ⟨?_, fun _ => by simp [Task.live, hpc, hcancelled]⟩
      split at h
      · split at h <;> cases h
        exact .goesOn rfl rfl
      · split at h
        · rename_i hfree
          cases h
          exact .acquires hfree rfl
        · cases h
      · cases h
        exact .delivers _ _ rfl rfl rfl
      · cases h
        exact .releases rfl
      · cases h

theorem Call.authenticating_fail (c : Call) (error : Failure) :
    Task.authenticating (.call (c.fail error)) = none := by
  unfold fail
  split <;> rfl

theorem Call.authenticating_refuse (w : World) (c : Call) (error : Failure) :
    Task.authenticating (.call (c.refuse w error)) = none := by
  unfold refuse
  split
  · rfl
  · exact c.authenticating_fail error

theorem Call.step_effect {a : Answer} (h : c.step w pid a = some (w', c')) : Effect w pid (.call c)
    (.call c') w' := by
  obtain ⟨method, attempt, tries, refusedAt, sends, authentications, pc⟩ := c
  cases pc with
  | ready =>
      cases a with
      | go =>
          cases h
          exact .goesOn rfl rfl
      | ok =>
          simp only [Call.step] at h
          split at h <;> cases h
          exact .goesOn rfl rfl
      | raises error =>
          cases error with
          | other =>
              simp only [Call.step] at h
              split at h <;> cases h
              exact .goesOn rfl (Call.authenticating_fail _ _)
          | _ => cases h
      | token | cancelled => cases h
  | sent =>
      cases a with
      | ok =>
          cases h
          exact .goesOn rfl rfl
      | raises error =>
          simp only [Call.step] at h
          split at h <;> cases h
          · exact .goesOn rfl rfl
          · exact .goesOn rfl (Call.authenticating_refuse _ _ _)
      | cancelled =>
          cases h
          exact .releases rfl
      | go | token => cases h
  | conflicted =>
      cases a with
      | go =>
          simp only [Call.step] at h
          split at h <;> cases h
          · exact .goesOn rfl rfl
          · exact .goesOn rfl (Call.authenticating_fail _ _)
      | cancelled =>
          cases h
          exact .releases rfl
      | ok | token | raises => cases h
  | refused =>
      cases a with
      | go =>
          simp only [Call.step] at h
          split at h
          · rename_i hfree
            cases h
            exact .acquires hfree rfl
          · cases h
      | cancelled =>
          cases h
          exact .releases rfl
      | ok | token | raises => cases h
  | authenticating minted =>
      cases a with
      | token exp =>
          cases minted with
          | none => cases h
          | some minted =>
              cases h
              exact .delivers _ _ rfl rfl rfl
      | raises error => cases minted <;> cases h <;> exact .releases (Call.authenticating_fail _ _)
      | cancelled => cases minted <;> cases h <;> exact .releases rfl
      | go | ok => cases minted <;> cases h
  | sleeping =>
      cases a with
      | go =>
          cases h
          exact .goesOn rfl rfl
      | cancelled =>
          cases h
          exact .releases rfl
      | ok | token | raises => cases h
  | returned | raised | cancelled => cases a <;> cases h

/-- A step to elsewhere: no run of the body, and no authentication, begins. -/
theorem CallKept.goOn (h : CallKept w c) {pc : CallPc}
    (hbefore : pc.before = true → c.tries < c.method.posts)
    (hrefused : pc ≠ .refused) (hminted : ∀ n, pc ≠ .authenticating (some n))
    (hbody : pc.inBody = true → c.pc.inBody = true)
    (hsleeping : pc = .sleeping → c.attempt < c.method.attempts) :
    CallKept w { c with pc } where
  attempt := h.attempt
  tries := h.tries
  before := hbefore
  sleeping := hsleeping
  sends := h.sends
  authentications := by
    rw [if_neg hrefused]
    exact Nat.le_trans (Nat.le_add_right _ _) h.authentications
  renewed := h.renewed
  refusedAt := h.refusedAt
  minted n hpc := absurd hpc (hminted n)
  inBody hin := h.inBody (hbody hin)

theorem CallKept.fail (h : CallKept w c) (error : Failure) : CallKept w (c.fail error) := by
  unfold Call.fail
  split
  · rename_i hagain
    rw [Bool.and_eq_true, decide_eq_true_eq] at hagain
    exact h.goOn (fun hb => (by cases hb)) nofun (fun _ => nofun)
      (fun hin => (by cases hin)) fun _ => hagain.2
  · exact h.goOn (fun hb => (by cases hb)) nofun (fun _ => nofun)
      (fun hin => (by cases hin)) fun hs => (by cases hs)

/-- The body has been run once more, so it may be run again. -/
theorem CallKept.length_le (h : CallKept w c) {runs : Nat} (hruns : c.runs < runs) :
    c.sends.length ≤ runs * c.method.posts + 0 :=
  calc c.sends.length ≤ c.runs * c.method.posts + c.tries := h.sends
    _ ≤ c.runs * c.method.posts + c.method.posts := Nat.add_le_add_left h.tries _
    _ = (c.runs + 1) * c.method.posts := (Nat.succ_mul _ _).symm
    _ ≤ runs * c.method.posts := Nat.mul_le_mul_right _ hruns

theorem CallKept.refuse (h : CallKept w c) (hpc : c.pc = .sent) (error : Failure) :
    CallKept w (c.refuse w error) := by
  unfold Call.refuse
  split
  · rename_i hfirst
    have hruns : c.runs = 2 * (c.attempt - 1) := by simp [Call.runs, hfirst.2]
    have hauth := h.authentications
    simp only [hpc, hfirst.2, reduceCtorEq, if_false, Option.toList_none, List.length_nil] at hauth
    refine ⟨h.attempt, Nat.zero_le _, fun _ => c.method.posts_pos, fun hs => (by cases hs), ?_, ?_,
      h.renewed, ?_, fun _ hm => (by cases hm), fun hin => (by cases hin)⟩
    · exact h.length_le (by rw [hruns]; exact Nat.lt_succ_self _)
    · simp only [if_true, Option.toList_some, List.length_singleton]
      omega
    · rintro m hm
      cases hm
      exact Nat.le_refl _
  · exact h.fail error

@[simp] theorem World.minted_authenticated (w : World) (token : Nat) (exp : Option Int) :
    (w.authenticated token exp).minted = w.minted := by
  cases exp <;> dsimp only [authenticated, scheduleRefresh] <;> rw [cancelRefresh_eq]

@[simp] theorem World.token_authenticated (w : World) (token : Nat) (exp : Option Int) :
    (w.authenticated token exp).token = token := by
  cases exp <;> dsimp only [authenticated, scheduleRefresh] <;> rw [cancelRefresh_eq]

theorem CallKept.step {a : Answer} (h : CallKept w c)
    (hminted : ∀ n, c.pc = .authenticating (some n) → w.token < n)
    (hstep : c.step w pid a = some (w', c')) : CallKept w' c' := by
  obtain ⟨method, attempt, tries, refusedAt, sends, authentications, pc⟩ := c
  have hauth := h.authentications
  have hleaves : ∀ pc' : CallPc, pc'.before = false → pc'.inBody = false → pc' ≠ .refused →
      pc' ≠ .sleeping →
      CallKept w ⟨method, attempt, tries, refusedAt, sends, authentications, pc'⟩ :=
    fun pc' hbefore hbody hrefused hsleeping =>
      h.goOn (fun hb => absurd hb (by rw [hbefore]; decide)) hrefused
      (fun n heq => (by rw [heq] at hbefore; cases hbefore))
        (fun hb => absurd hb (by rw [hbody]; decide))
      fun hpc => absurd hpc hsleeping
  have hcancelled : CallKept (w.release pid) ⟨method, attempt, tries, refusedAt, sends,
      authentications, .cancelled⟩ :=
    (hleaves .cancelled rfl rfl nofun nofun).later (Nat.le_refl _) (Nat.le_refl _)
  cases pc with
  | ready =>
      cases a with
      | go =>
          cases hstep
          have htries := h.before rfl
          refine ⟨h.attempt, htries, fun hb => (by cases hb), fun hs => (by cases hs), ?_, hauth,
            ?_, h.refusedAt, fun _ hm => (by cases hm), fun _ => h.inBody rfl⟩
          · rw [List.length_append, List.length_singleton, ← Nat.add_assoc]
            exact Nat.succ_le_succ h.sends
          · exact forall_mem_append h.renewed (h.inBody rfl)
      | ok =>
          simp only [Call.step] at hstep
          split at hstep <;> cases hstep
          exact hleaves .returned rfl rfl nofun nofun
      | raises error =>
          cases error with
          | other =>
              simp only [Call.step] at hstep
              split at hstep <;> cases hstep
              exact h.fail _
          | _ => cases hstep
      | token | cancelled => cases hstep
  | sent =>
      cases a with
      | ok =>
          cases hstep
          exact hleaves .returned rfl rfl nofun nofun
      | raises error =>
          simp only [Call.step] at hstep
          split at hstep <;> cases hstep
          · exact h.goOn (fun hb => (by cases hb)) nofun (fun _ => nofun) (fun _ => rfl) fun hs =>
              (by cases hs)
          · exact h.refuse rfl _
      | cancelled =>
          cases hstep
          exact hcancelled
      | go | token => cases hstep
  | conflicted =>
      cases a with
      | go =>
          simp only [Call.step] at hstep
          split at hstep
          · rename_i htries
            cases hstep
            exact h.goOn (fun _ => htries) nofun (fun _ => nofun) (fun _ => rfl) fun hs =>
              (by cases hs)
          · cases hstep
            exact h.fail _
      | cancelled =>
          cases hstep
          exact hcancelled
      | ok | token | raises => cases hstep
  | refused =>
      cases a with
      | go =>
          simp only [Call.step] at hstep
          split at hstep <;> cases hstep
          exact ⟨h.attempt, h.tries, fun _ => h.before rfl, fun hs => (by cases hs), h.sends,
            hauth, h.renewed, h.refusedAt, fun _ hm => (by cases hm), fun hin => (by cases hin)⟩
      | cancelled =>
          cases hstep
          exact hcancelled
      | ok | token | raises => cases hstep
  | authenticating minted =>
      cases a with
      | token exp =>
          cases minted with
          | none => cases hstep
          | some minted =>
              cases hstep
              refine ⟨h.attempt, h.tries, fun _ => h.before rfl, fun hs => (by cases hs), h.sends,
                hauth, h.renewed, ?_, fun _ hm => (by cases hm), fun _ => ?_⟩
              · rw [World.minted_authenticated]
                exact h.refusedAt
              · rw [World.token_authenticated]
                exact h.minted minted rfl
      | raises error =>
          cases minted <;> cases hstep <;> exact (h.fail _).later (Nat.le_refl _) (Nat.le_refl _)
      | cancelled => cases minted <;> cases hstep <;> exact hcancelled
      | go | ok => cases minted <;> cases hstep
  | sleeping =>
      cases a with
      | go =>
          cases hstep
          have hone := refusedAt.length_toList_le
          obtain ⟨hattempt, -⟩ := h.attempt
          refine ⟨⟨Nat.le_add_left 1 _, h.sleeping rfl⟩, Nat.zero_le _, fun _ => method.posts_pos,
            fun hs => (by cases hs), ?_, ?_, h.renewed, fun _ hm => (by cases hm), fun _ hm =>
              (by cases hm),
            fun _ _ hm => (by cases hm)⟩
          · refine h.length_le ?_
            simp only [Call.runs, Option.toList_none, List.length_nil] at hattempt ⊢
            omega
          · simp only [reduceCtorEq, if_false, Option.toList_none,
              List.length_nil] at hauth hattempt ⊢
            omega
      | cancelled =>
          cases hstep
          exact hcancelled
      | ok | token | raises => cases hstep
  | returned | raised | cancelled => cases a <;> cases hstep

/-! ### The client keeps its promises -/

theorem Task.step_kept {a : Answer} (h : TaskKept w pid t)
    (hstep : t.step w pid a = some (w', t')) :
    Effect w pid t t' w' ∧ (t'.live = true → t.live = true) ∧ ∀ c, t' = .call c →
      CallKept w' c := by
  cases t with
  | refresh r =>
      obtain ⟨⟨w₁, r'⟩, hrefresh, heq⟩ := Option.map_eq_some_iff.mp hstep
      cases heq
      obtain ⟨heffect, hlive⟩ := Refresh.step_effect hrefresh
      exact ⟨heffect, hlive, fun c hc => (by cases hc)⟩
  | call c =>
      obtain ⟨⟨w₁, c'⟩, hcall, heq⟩ := Option.map_eq_some_iff.mp hstep
      cases heq
      refine ⟨Call.step_effect hcall, fun hl => (by cases hl), ?_⟩
      rintro _ ⟨⟩
      refine (h.call c rfl).step (fun n hn => (h.minted n ?_).1) hcall
      obtain ⟨method, attempt, tries, refusedAt, sends, authentications, pc⟩ := c
      cases hn
      rfl

/-- The token of the client is the newest it was given. -/
theorem Kept.delivered_le (h : Kept w) {d : Nat} (hd : d ∈ w.delivered) : d ≤ w.token := by
  obtain ⟨earlier, heq⟩ := List.getLast?_eq_some_iff.mp h.newest
  rw [heq] at hd
  rcases List.mem_append.mp hd with hearlier | hlast
  · have hsorted := h.delivered
    rw [heq] at hsorted
    exact Nat.le_of_lt ((List.pairwise_append.mp hsorted).2.2 d hearlier w.token List.mem_cons_self)
  · exact Nat.le_of_eq (List.mem_singleton.mp hlast)

/-- One task is replaced, and what the others hold and have is theirs as before. -/
theorem Kept.put (h : Kept w) (ht : w.tasks[pid]? = some t) (htasks : w'.tasks = w.tasks.set pid t')
    (hrefresh : w'.refreshTask = w.refreshTask) (hminted : w.minted ≤ w'.minted)
    (htoken : w.token ≤ w'.token)
    (hlt : w'.token < w'.minted) (hdelivered : w'.delivered.Pairwise (· < ·))
    (hnewest : w'.delivered.getLast? = some w'.token)
    (hothers : ∀ other, other ≠ pid → (w'.lock = some other ↔ w.lock = some other))
    (hsame : ∀ other, other ≠ pid → w.lock = some other → w'.token = w.token)
    (hmine : w'.lock = some pid ↔ t'.authenticating.isSome)
    (hown : ∀ n, t'.authenticating = some (some n) → w'.token < n ∧ n < w'.minted)
    (hlive : t'.live = true → t.live = true) (hcall : ∀ c, t' = .call c → CallKept w' c) :
    Kept w' where
  token := hlt
  delivered := hdelivered
  newest := hnewest
  lock other hlock := by
    rw [htasks]
    by_cases heq : other = pid
    · subst heq
      exact ⟨t', List.getElem?_set_self (List.getElem?_eq_some_iff.mp ht).1, hmine.mp hlock⟩
    · obtain ⟨t₀, ht₀, hauth⟩ := h.lock other ((hothers other heq).mp hlock)
      exact ⟨t₀, by rw [List.getElem?_set_ne (Ne.symm heq), ht₀], hauth⟩
  tasks other t₀ ht₀ := by
    rw [htasks] at ht₀
    by_cases heq : other = pid
    · subst heq
      rw [List.getElem?_set_self (List.getElem?_eq_some_iff.mp ht).1, Option.some.injEq] at ht₀
      subst ht₀
      refine ⟨fun m hm => hmine.mpr (by rw [hm]; rfl), hown, fun hl => ?_, hcall⟩
      rw [hrefresh]
      exact (h.tasks other t ht).live (hlive hl)
    · rw [List.getElem?_set_ne (Ne.symm heq)] at ht₀
      have hold := h.tasks other t₀ ht₀
      refine ⟨fun m hm => (hothers other heq).mpr (hold.holds m hm), fun n hn => ?_, fun hl =>
        hrefresh ▸ hold.live hl, fun c hc => (hold.call c hc).later hminted htoken⟩
      rw [hsame other heq (hold.holds _ hn)]
      exact ⟨(hold.minted n hn).1, Nat.lt_of_lt_of_le (hold.minted n hn).2 hminted⟩

/-- A task that is not cancelled where it stands can be put there before or after. -/
theorem World.set_authenticated {n : Nat} {exp : Option Int} (hdone : t'.cancel = t')
    (hlt : pid < w.tasks.length) :
    { w.authenticated n exp with tasks := (w.authenticated n exp).tasks.set pid t' }
      = World.scheduleRefresh
          { w with
            token := n
            delivered := w.delivered ++ [n]
            lock := none
            tasks := w.tasks.set pid t' } exp := by
  have hcancel : ∀ (tasks : List Task) (i : Nat),
      (tasks.modify i Task.cancel).set pid t' = (tasks.set pid t').modify i Task.cancel := by
    intro tasks i
    apply List.ext_getElem?
    intro j
    simp only [List.getElem?_set, List.getElem?_modify, List.length_modify]
    by_cases hj : pid = j
    · subst hj
      by_cases hi : i = pid <;> by_cases hlen : pid < tasks.length <;> simp [hi, hlen, hdone]
    · simp [hj]
  unfold authenticated scheduleRefresh cancelRefresh
  cases exp <;> cases w.refreshTask <;> simp [hcancel, List.set_append_left, hlt]

theorem Kept.go {a : Answer} (h : Kept w) (ht : w.tasks[pid]? = some t)
    (hstep : t.step w pid a = some (w', t')) :
    Kept { w' with tasks := w'.tasks.set pid t' } := by
  have hkept := h.tasks pid t ht
  obtain ⟨heffect, hlive, hcall⟩ := Task.step_kept hkept hstep
  cases heffect with
  | acquires hfree hin =>
      refine h.put ht rfl rfl (Nat.le_refl _) (Nat.le_refl _) h.token h.delivered h.newest ?_
        (fun _ _ _ => rfl) ?_ ?_
        hlive fun c hc => (hcall c hc).later (Nat.le_refl _) (Nat.le_refl _)
      · intro other hne
        simp [hfree, Ne.symm hne]
      · simp [hin]
      · simp [hin]
  | releases hout =>
      refine h.put ht rfl rfl (Nat.le_refl _) (Nat.le_refl _) h.token h.delivered h.newest ?_
        (fun _ _ _ => rfl) ?_ ?_
        hlive fun c hc => (hcall c hc).later (Nat.le_refl _) (Nat.le_refl _)
      · intro other hne
        dsimp only [World.release]
        split
        · rename_i hmine
          simp [hmine, Ne.symm hne]
        · exact Iff.rfl
      · dsimp only [World.release]
        split
        · simp [hout]
        · rename_i hnot
          simp [hout, hnot]
      · simp [hout]
  | goesOn hin hout =>
      refine h.put ht rfl rfl (Nat.le_refl _) (Nat.le_refl _) h.token h.delivered h.newest
        (fun _ _ => Iff.rfl)
        (fun _ _ _ => rfl) ?_ ?_ hlive fun c hc => (hcall c hc).later (Nat.le_refl _)
          (Nat.le_refl _)
      · rw [hout]
        refine ⟨fun hmine => ?_, fun hsome => (by cases hsome)⟩
        obtain ⟨t₀, ht₀, hauth⟩ := h.lock pid hmine
        rw [ht, Option.some.injEq] at ht₀
        rw [← ht₀, hin] at hauth
        cases hauth
      · simp [hout]
  | delivers n exp hin hout hdone =>
      rw [World.set_authenticated hdone (List.getElem?_eq_some_iff.mp ht).1]
      have hmine := hkept.holds _ hin
      obtain ⟨hnewer, hknown⟩ := hkept.minted n hin
      apply Kept.scheduleRefresh
      refine h.put ht rfl rfl (Nat.le_refl _) (Nat.le_of_lt hnewer) hknown ?_ ?_ ?_ ?_ ?_ ?_ hlive
        fun c hc => ?_
      · refine List.pairwise_append.mpr ⟨h.delivered, List.pairwise_singleton _ _,
          fun d hd m hm => ?_⟩
        rw [List.mem_singleton.mp hm]
        exact Nat.lt_of_le_of_lt (h.delivered_le hd) hnewer
      · simp
      · intro other hne
        simp [hmine, Ne.symm hne]
      · intro other hne hother
        rw [hmine, Option.some.injEq] at hother
        exact absurd hother.symm hne
      · simp [hout]
      · simp [hout]
      · exact (hcall c hc).later (Nat.le_of_eq (w.minted_authenticated n exp))
          (Nat.le_of_eq (w.token_authenticated n exp))

theorem Kept.mint (h : Kept w) (ht : w.tasks[pid]? = some t) (hmint : t.mint w.minted = some t') :
    Kept { w with minted := w.minted + 1, tasks := w.tasks.set pid t' } := by
  have hkept := h.tasks pid t ht
  have hauth : t.authenticating = some none ∧ t'.authenticating = some (some w.minted)
      ∧ (t'.live = true → t.live = true) ∧ ∀ c, t' = .call c → CallKept w c := by
    cases t with
    | refresh r =>
        obtain ⟨due, pc, cancelled⟩ := r
        dsimp only [Task.mint] at hmint
        split at hmint <;> cases hmint
        rename_i hpc
        subst hpc
        exact ⟨rfl, rfl, id, fun c hc => (by cases hc)⟩
    | call c =>
        obtain ⟨method, attempt, tries, refusedAt, sends, authentications, pc⟩ := c
        dsimp only [Task.mint] at hmint
        split at hmint <;> cases hmint
        rename_i hpc
        subst hpc
        refine ⟨rfl, rfl, id, ?_⟩
        rintro _ ⟨⟩
        have hcall := hkept.call _ rfl
        refine ⟨hcall.attempt, hcall.tries, fun _ => hcall.before rfl, fun hs => (by cases hs),
          hcall.sends, hcall.authentications, hcall.renewed, hcall.refusedAt, ?_, fun hin =>
          (by cases hin)⟩
        rintro _ ⟨⟩
        exact hcall.refusedAt
  obtain ⟨hin, hout, hlive, hcall⟩ := hauth
  refine h.put ht rfl rfl (Nat.le_succ _) (Nat.le_refl _)
    (Nat.lt_succ_of_lt h.token) h.delivered h.newest
    (fun _ _ => Iff.rfl) (fun _ _ _ => rfl) ?_ ?_ hlive fun c hc =>
      (hcall c hc).later (Nat.le_succ _) (Nat.le_refl _)
  · rw [hout]
    exact ⟨fun _ => rfl, fun _ => hkept.holds _ hin⟩
  · rw [hout]
    rintro _ ⟨⟩
    exact ⟨h.token, Nat.lt_succ_self _⟩

theorem Kept.step {move : Move} (h : Kept w) (hstep : w.step move = some w') : Kept w' := by
  cases move with
  | tick elapsed =>
      cases hstep
      exact ⟨h.token, h.delivered, h.newest, h.lock, fun pid t ht =>
        { h.tasks pid t ht with
          call := fun c hc => ((h.tasks pid t ht).call c hc).later (Nat.le_refl _)
            (Nat.le_refl _) }⟩
  | call method =>
      cases hstep
      refine ⟨h.token, h.delivered, h.newest, fun pid hlock => ?_, fun pid t ht => ?_⟩
      · obtain ⟨t, ht, hauth⟩ := h.lock pid hlock
        exact ⟨t, by rw [List.getElem?_append_left (List.getElem?_eq_some_iff.mp ht).1, ht], hauth⟩
      · dsimp only at ht
        rw [List.getElem?_append] at ht
        split at ht
        · exact { h.tasks pid t ht with
            call := fun c hc => ((h.tasks pid t ht).call c hc).later (Nat.le_refl _)
              (Nat.le_refl _) }
        · rw [List.getElem?_singleton] at ht
          split at ht <;> cases ht
          refine ⟨fun _ hm => (by cases hm), fun _ hn => (by cases hn), fun hl => (by cases hl), ?_⟩
          rintro _ ⟨⟩
          refine ⟨⟨Nat.le_refl 1, ?_⟩, Nat.zero_le _, fun _ => method.posts_pos, fun hs =>
            (by cases hs), Nat.zero_le _, Nat.le_refl 0, fun _ hs => absurd hs List.not_mem_nil,
            fun _ hm => (by cases hm), fun _ hm => (by cases hm),
            fun _ _ hm => (by cases hm)⟩
          cases method <;> decide
  | mint pid =>
      dsimp only [World.step] at hstep
      split at hstep
      · cases hstep
      · rename_i t ht
        obtain ⟨t', hmint, rfl⟩ := Option.map_eq_some_iff.mp hstep
        exact h.mint ht hmint
  | go pid a =>
      dsimp only [World.step] at hstep
      split at hstep
      · cases hstep
      · rename_i t ht
        obtain ⟨⟨w₁, t'⟩, hgo, rfl⟩ := Option.map_eq_some_iff.mp hstep
        exact h.go ht hgo
  | close =>
      cases hstep
      exact h.cancelRefresh.1

/-- **One authentication at a time, and the newest token.** Whatever the order of requests, answers,
renewals and cancellations: at most one party authenticates, and the lock is never held by another;
at most one task will renew the token; the token of the client is the newest that it was given, and
none it was given was older than one before. A call runs its body twice for each of its attempts and
authenticates once; what it sends after a 401, it sends with a token that was minted later. -/
theorem always_renewed (exp : Option Int) : Runs.Always World.step (World.started exp) fun w =>
    (∀ (pid other : Nat) (t t' : Task), w.tasks[pid]? = some t → w.tasks[other]? = some t' →
      (t.authenticating.isSome → t'.authenticating.isSome → pid = other)
        ∧ (t.live = true → t'.live = true → pid = other))
    ∧ (∀ pid, w.lock = some pid → ∃ t, w.tasks[pid]? = some t ∧ t.authenticating.isSome)
    ∧ w.delivered.Pairwise (· < ·) ∧ w.delivered.getLast? = some w.token
    ∧ ∀ c, Task.call c ∈ w.tasks → c.sends.length ≤ 2 * c.method.attempts * c.method.posts
      ∧ c.authentications ≤ c.method.attempts ∧ ∀ s ∈ c.sends, ∀ m ∈ s.refusedAt, m ≤ s.token := by
  refine Runs.always_of_invariant (fun _ _ _ h hstep => Kept.step h hstep)
    (kept_started exp) fun w h =>
    ⟨fun pid other t t' ht ht' => ⟨fun hauth hauth' => ?_, fun hlive hlive' => ?_⟩, h.lock,
      h.delivered, h.newest, fun c hc => ?_⟩
  · obtain ⟨m, hm⟩ := Option.isSome_iff_exists.mp hauth
    obtain ⟨m', hm'⟩ := Option.isSome_iff_exists.mp hauth'
    have hsame := ((h.tasks pid t ht).holds m hm).symm.trans ((h.tasks other t' ht').holds m' hm')
    exact Option.some.inj hsame
  · exact Option.some.inj
      (((h.tasks pid t ht).live hlive).symm.trans ((h.tasks other t' ht').live hlive'))
  · obtain ⟨pid, hpid⟩ := List.getElem?_of_mem hc
    have hcall := (h.tasks pid _ hpid).call c rfl
    obtain ⟨hfirst, hattempt⟩ := hcall.attempt
    have hone := c.refusedAt.length_toList_le
    refine ⟨?_, ?_, hcall.renewed⟩
    · have hruns : c.runs < 2 * c.method.attempts := by
        unfold Call.runs
        omega
      exact hcall.length_le hruns
    · have hauth := hcall.authentications
      omega

end OnlinetLabs.Gns3.AdminClient
