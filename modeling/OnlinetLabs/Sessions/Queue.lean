import Mathlib.Logic.Function.Basic
import OnlinetLabs.Sessions.Models

/-!
# The session queue

Two counters bound the sessions the platform runs, one per lab and one for all labs, and a list per
lab holds the learners waiting for a slot. Each Lua script is one atomic move of this state. A
missing key reads as zero, and key expiry is left out.
-/

namespace OnlinetLabs.Sessions

structure QueueState where
  /-- `active_sessions:{lab}` -/
  active : Slug → Nat
  /-- `active_sessions_total` -/
  total : Nat
  /-- `queue:{lab}` -/
  waiting : Slug → List UserId

structure CapacityConfig where
  globalCap : Nat
  perLabCaps : Slug → Option Nat
  maxSessionsPerUser : Nat
  sessionMaxTime : Time

/-- `SessionQueueService._caps`. -/
def CapacityConfig.caps (capacity : CapacityConfig) (labSlug : Slug) : Nat × Nat :=
  ((capacity.perLabCaps labSlug).getD capacity.globalCap, capacity.globalCap)

/-- One of the counters: a lab's, or the total. -/
inductive Scope where
  | lab (labSlug : Slug)
  | all
deriving Repr, DecidableEq

def Scope.covers : Scope → Slug → Bool
  | .lab labSlug, other => labSlug == other
  | .all, _ => true

namespace QueueState

def counter (q : QueueState) : Scope → Nat
  | .lab labSlug => q.active labSlug
  | .all => q.total

def init : QueueState := { active := fun _ => 0, total := 0, waiting := fun _ => [] }

/-- `LUA_TRY_ACQUIRE`: both counters move together, or the request is rejected. -/
def tryAcquire (q : QueueState) (caps : Nat × Nat) (labSlug : Slug) : Bool × QueueState :=
  if q.active labSlug ≥ caps.1 ∨ q.total ≥ caps.2 then (false, q)
  else (true, { q with
    active := Function.update q.active labSlug (q.active labSlug + 1)
    total := q.total + 1 })

/-- `LUA_RELEASE`: each counter is decremented on its own, and never below zero. -/
def release (q : QueueState) (labSlug : Slug) : QueueState :=
  { q with
    active := if q.active labSlug > 0 then
      Function.update q.active labSlug (q.active labSlug - 1) else q.active
    total := if q.total > 0 then q.total - 1 else q.total }

/-- `LUA_ENQUEUE`: appends the learner once, and returns the 1-based position. -/
def enqueue (q : QueueState) (userId : UserId) (labSlug : Slug) : Nat × QueueState :=
  match (q.waiting labSlug).findIdx? (· == userId) with
  | some i => (i + 1, q)
  | none =>
      let items := q.waiting labSlug ++ [userId]
      (items.length, { q with waiting := Function.update q.waiting labSlug items })

/-- `SessionQueueService.dequeue`: LREM of every entry of the learner. -/
def dequeue (q : QueueState) (userId : UserId) (labSlug : Slug) : QueueState :=
  { q with
    waiting := Function.update q.waiting labSlug
      ((q.waiting labSlug).filter fun v => v != userId) }

variable {q : QueueState} {caps : Nat × Nat} {labSlug : Slug} {userId : UserId}

@[simp] theorem counter_enqueue {scope : Scope} :
    (q.enqueue userId labSlug).2.counter scope = q.counter scope := by
  unfold enqueue
  split <;> cases scope <;> rfl

@[simp] theorem counter_dequeue {scope : Scope} :
    (q.dequeue userId labSlug).counter scope = q.counter scope := by
  cases scope <;> rfl

theorem tryAcquire_granted {q' : QueueState} (scope : Scope)
    (h : q.tryAcquire caps labSlug = (true, q')) :
    q'.counter scope = q.counter scope + (if scope.covers labSlug then 1 else 0) := by
  unfold tryAcquire at h
  split at h
  · exact nomatch h
  · cases h
    cases scope with
    | lab other =>
        by_cases heq : other = labSlug
        · simp [counter, Scope.covers, heq]
        · simp [counter, Scope.covers, heq]
    | all => rfl

theorem tryAcquire_refused {q' : QueueState} (h : q.tryAcquire caps labSlug = (false, q')) :
    q' = q := by
  unfold tryAcquire at h
  split at h
  · cases h
    rfl
  · exact nomatch h

theorem counter_release (scope : Scope)
    (hpos : ∀ sc : Scope, sc.covers labSlug = true → 0 < q.counter sc) :
    (q.release labSlug).counter scope + (if scope.covers labSlug then 1 else 0)
      = q.counter scope := by
  have hlab : 0 < q.active labSlug := hpos (.lab labSlug) (by simp [Scope.covers])
  have htotal : 0 < q.total := hpos .all rfl
  cases scope with
  | lab other =>
      by_cases heq : other = labSlug
      · simp only [release, counter, Scope.covers, heq, hlab, if_true, Function.update_self,
          beq_self_eq_true]
        omega
      · simp [release, counter, Scope.covers, heq, hlab]
  | all =>
      simp only [release, counter, Scope.covers, htotal, if_true]
      omega

end QueueState

end OnlinetLabs.Sessions
