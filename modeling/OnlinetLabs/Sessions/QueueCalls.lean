import Mathlib.Algebra.BigOperators.Finprod
import OnlinetLabs.Sessions.Queue

/-!
# Runs of the queue service

The calls of `SessionQueueService`, each one atomic, in any order, of any learners and labs. A slot
is released only by whom it was granted to, so the counters are what is granted and not released,
and the lists change at their end and by what leaves them.
-/

namespace OnlinetLabs.Sessions

namespace QueueState

variable {q : QueueState} {caps : Nat × Nat} {labSlug other : Slug} {userId : UserId}

/-- `SessionQueueService.position`. -/
def position (q : QueueState) (userId : UserId) (labSlug : Slug) : Option Nat :=
  ((q.waiting labSlug).findIdx? (· == userId)).map (· + 1)

theorem waiting_tryAcquire : (q.tryAcquire caps labSlug).2.waiting = q.waiting := by
  unfold tryAcquire
  split
  · rfl
  · rfl

theorem waiting_dequeue :
    (q.dequeue userId labSlug).waiting other
      = if other = labSlug then (q.waiting other).filter fun v => v != userId
        else q.waiting other := by
  by_cases heq : other = labSlug
  · subst heq
    simp [dequeue]
  · simp [dequeue, heq]

theorem waiting_enqueue :
    (q.enqueue userId labSlug).2.waiting other
      = if other = labSlug ∧ userId ∉ q.waiting labSlug then q.waiting other ++ [userId]
        else q.waiting other := by
  unfold enqueue
  cases hfind : (q.waiting labSlug).findIdx? (· == userId) with
  | none =>
    have hnew : userId ∉ q.waiting labSlug := by
      intro hmem
      have hnone := List.findIdx?_eq_none_iff.mp hfind userId hmem
      simp at hnone
    by_cases heq : other = labSlug
    · subst heq
      simp [hnew]
    · simp [heq]
  | some i =>
    have hmem : userId ∈ q.waiting labSlug := by
      obtain ⟨hi, heq, -⟩ := List.findIdx?_eq_some_iff_getElem.mp hfind
      have huser : (q.waiting labSlug)[i] = userId := by simpa using heq
      exact huser ▸ List.getElem_mem hi
    simp [hmem]

/-- **What `enqueue` returns is the place of the learner**, and what `position` says. -/
theorem enqueue_fst :
    (q.enqueue userId labSlug).2.position userId labSlug = some (q.enqueue userId labSlug).1 ∧
      0 < (q.enqueue userId labSlug).1 ∧
      ((q.enqueue userId labSlug).2.waiting labSlug)[(q.enqueue userId labSlug).1 - 1]?
        = some userId := by
  unfold enqueue
  cases hfind : (q.waiting labSlug).findIdx? (· == userId) with
  | none =>
    have hend : (q.waiting labSlug ++ [userId]).findIdx? (· == userId)
        = some (q.waiting labSlug).length := by
      rw [List.findIdx?_append, hfind]
      simp [List.findIdx?_cons]
    simp [position, hend]
  | some i =>
    obtain ⟨hi, heq, -⟩ := List.findIdx?_eq_some_iff_getElem.mp hfind
    have huser : (q.waiting labSlug)[i] = userId := by simpa using heq
    refine ⟨by simp [position, hfind], Nat.succ_pos i, ?_⟩
    rw [Nat.add_sub_cancel, List.getElem?_eq_getElem hi, huser]

end QueueState

/-! ### Runs -/

inductive QueueCall where
  | enqueue (userId : UserId) (labSlug : Slug)
  | dequeue (userId : UserId) (labSlug : Slug)
  | tryAcquire (userId : UserId) (labSlug : Slug)
  | release (labSlug : Slug)
deriving Repr, DecidableEq

/-- The queue, and for each lab the slots that were granted and not yet released. -/
structure Ledger where
  queue : QueueState
  granted : Slug → Nat

namespace Ledger

def init : Ledger := ⟨QueueState.init, fun _ => 0⟩

def step (capacity : CapacityConfig) (s : Ledger) : QueueCall → Option Ledger
  | .enqueue userId labSlug => some { s with queue := (s.queue.enqueue userId labSlug).2 }
  | .dequeue userId labSlug => some { s with queue := s.queue.dequeue userId labSlug }
  | .tryAcquire userId labSlug =>
      match s.queue.tryAcquire (capacity.caps labSlug) labSlug with
      | (true, queue) =>
          some ⟨queue.dequeue userId labSlug,
            Function.update s.granted labSlug (s.granted labSlug + 1)⟩
      | (false, queue) => some { s with queue := queue }
  -- only what was granted is released
  | .release labSlug =>
      if 0 < s.granted labSlug then
        some ⟨s.queue.release labSlug, Function.update s.granted labSlug (s.granted labSlug - 1)⟩
      else none

def exec (capacity : CapacityConfig) (s : Ledger) (calls : List QueueCall) : Option Ledger :=
  calls.foldlM (step capacity) s

end Ledger

/-! ### Counters -/

/-- A total is the sum of counters, all but finitely many of which are zero. -/
def Tally (counts : Slug → Nat) (total : Nat) : Prop :=
  ∃ labs : Finset Slug, (∀ labSlug ∉ labs, counts labSlug = 0) ∧ total = ∑ labSlug ∈ labs,
    counts labSlug

section Tally

variable {counts : Slug → Nat} {total : Nat} {labSlug : Slug}

theorem Tally.le (h : Tally counts total) : counts labSlug ≤ total := by
  obtain ⟨labs, hzero, rfl⟩ := h
  by_cases hmem : labSlug ∈ labs
  · exact Finset.single_le_sum (fun _ _ => Nat.zero_le _) hmem
  · rw [hzero labSlug hmem]
    exact Nat.zero_le _

theorem Tally.update (h : Tally counts total) (labSlug : Slug) (n : Nat) :
    Tally (Function.update counts labSlug n) (total - counts labSlug + n) := by
  obtain ⟨labs, hzero, rfl⟩ := h
  refine ⟨insert labSlug labs, fun other hother => ?_, ?_⟩
  · rw [Finset.mem_insert, not_or] at hother
    rw [Function.update_of_ne hother.1, hzero other hother.2]
  · have hmem : labSlug ∈ insert labSlug labs := Finset.mem_insert_self _ _
    have hsame : ∑ other ∈ labs, counts other = ∑ other ∈ insert labSlug labs, counts other :=
      (Finset.sum_insert_of_eq_zero_if_notMem (hzero labSlug)).symm
    have hsplit := Finset.add_sum_erase (insert labSlug labs) counts hmem
    rw [Finset.sum_update_of_mem hmem, Finset.sdiff_singleton_eq_erase, hsame]
    omega

theorem Tally.finsum_eq (h : Tally counts total) :
    (Function.support counts).Finite ∧ total = ∑ᶠ labSlug, counts labSlug := by
  obtain ⟨labs, hzero, rfl⟩ := h
  have hsupport : Function.support counts ⊆ labs := by
    intro other hother
    by_contra hnot
    exact hother (hzero other hnot)
  exact ⟨labs.finite_toSet.subset hsupport, (finsum_eq_sum_of_support_subset counts hsupport).symm⟩

end Tally

structure Ledger.Balanced (capacity : CapacityConfig) (s : Ledger) : Prop where
  nodup : ∀ labSlug, (s.queue.waiting labSlug).Nodup
  active_eq : ∀ labSlug, s.queue.active labSlug = s.granted labSlug
  active_le : ∀ labSlug, s.queue.active labSlug ≤ (capacity.caps labSlug).1
  total_le : s.queue.total ≤ capacity.globalCap
  tally : Tally s.queue.active s.queue.total

/-- `a` waits before `b`. -/
def Ahead (a b : UserId) (waiting : List UserId) : Prop := [a, b].Sublist waiting

section Ahead

variable {a b userId : UserId} {waiting : List UserId}

theorem Ahead.filter (h : Ahead a b waiting) (ha : a ≠ userId) (hb : b ≠ userId) :
    Ahead a b (waiting.filter fun v => v != userId) := by
  have hboth : [a, b].filter (fun v => v != userId) = [a, b] := by
    rw [List.filter_eq_self]
    intro v hv
    rcases List.mem_pair.mp hv with rfl | rfl
    · simpa using ha
    · simpa using hb
  have hfilter := List.Sublist.filter (fun v => v != userId) h
  rwa [hboth] at hfilter

theorem ahead_append (ha : a ∈ waiting) : Ahead a b (waiting ++ [b]) :=
  (List.singleton_sublist.mpr ha).append (List.Sublist.refl [b])

end Ahead

namespace Ledger

variable {capacity : CapacityConfig} {s t : Ledger} {call : QueueCall} {calls : List QueueCall}
  {a b : UserId}
  {labSlug : Slug}

theorem balanced_init : init.Balanced capacity where
  nodup _ := List.nodup_nil
  active_eq _ := rfl
  active_le _ := Nat.zero_le _
  total_le := Nat.zero_le _
  tally := ⟨∅, fun _ _ => rfl, rfl⟩

/-- A list changes at its end, or by what one learner has in it. -/
theorem waiting_step (h : step capacity s call = some t) (labSlug : Slug) :
    t.queue.waiting labSlug = s.queue.waiting labSlug ∨
      (∃ userId ∉ s.queue.waiting labSlug,
        t.queue.waiting labSlug = s.queue.waiting labSlug ++ [userId]) ∨
      ∃ userId, t.queue.waiting labSlug = (s.queue.waiting labSlug).filter fun v =>
        v != userId := by
  cases call with
  | enqueue userId other =>
    cases h
    rw [QueueState.waiting_enqueue]
    split
    · rename_i hnew
      exact Or.inr (Or.inl ⟨userId, hnew.1 ▸ hnew.2, rfl⟩)
    · exact Or.inl rfl
  | dequeue userId other =>
    cases h
    rw [QueueState.waiting_dequeue]
    split
    · exact Or.inr (Or.inr ⟨userId, rfl⟩)
    · exact Or.inl rfl
  | tryAcquire userId other =>
    have hwaiting : (s.queue.tryAcquire (capacity.caps other) other).2.waiting = s.queue.waiting :=
      QueueState.waiting_tryAcquire
    simp only [step] at h
    split at h
    · rename_i queue hqueue
      rw [hqueue] at hwaiting
      cases h
      rw [QueueState.waiting_dequeue, hwaiting]
      split
      · exact Or.inr (Or.inr ⟨userId, rfl⟩)
      · exact Or.inl rfl
    · rename_i queue hqueue
      rw [hqueue] at hwaiting
      cases h
      exact Or.inl (congrFun hwaiting labSlug)
  | release other =>
    simp only [step] at h
    split at h
    · cases h
      exact Or.inl rfl
    · cases h

theorem nodup_step (hs : s.Balanced capacity) (h : step capacity s call = some t) (labSlug : Slug) :
    (t.queue.waiting labSlug).Nodup := by
  rcases waiting_step h labSlug with heq | ⟨userId, hnew, heq⟩ | ⟨userId, heq⟩
  · rw [heq]
    exact hs.nodup labSlug
  · rw [heq]
    have hother : ∀ v ∈ s.queue.waiting labSlug, v ≠ userId := by
      rintro v hv rfl
      exact hnew hv
    exact List.nodup_append.mpr ⟨hs.nodup labSlug, by simp, by simpa using hother⟩
  · rw [heq]
    exact (hs.nodup labSlug).filter _

theorem balanced_grant {waiting : Slug → List UserId} (hs : s.Balanced capacity)
    (hnodup : ∀ labSlug, (waiting labSlug).Nodup)
    (hlab : s.queue.active labSlug < (capacity.caps labSlug).1)
    (htotal : s.queue.total < capacity.globalCap) :
    Balanced capacity
      ⟨⟨Function.update s.queue.active labSlug (s.queue.active labSlug + 1),
        s.queue.total + 1, waiting⟩,
          Function.update s.granted labSlug (s.granted labSlug + 1)⟩ where
  nodup := hnodup
  active_eq other := by
    by_cases heq : other = labSlug
    · subst heq
      simp [hs.active_eq]
    · simp [heq, hs.active_eq]
  active_le other := by
    show Function.update s.queue.active labSlug (s.queue.active labSlug + 1) other
        ≤ (capacity.caps other).1
    by_cases heq : other = labSlug
    · subst heq
      rw [Function.update_self]
      exact hlab
    · rw [Function.update_of_ne heq]
      exact hs.active_le other
  total_le := htotal
  tally := by
    have hle : s.queue.active labSlug ≤ s.queue.total := hs.tally.le
    have htally := hs.tally.update labSlug (s.queue.active labSlug + 1)
    have heq : s.queue.total - s.queue.active labSlug + (s.queue.active labSlug + 1) = s.queue.total
        + 1 := by omega
    rwa [heq] at htally

theorem balanced_release (hs : s.Balanced capacity) (hgranted : 0 < s.granted labSlug) :
    Balanced capacity
      ⟨s.queue.release labSlug, Function.update s.granted labSlug (s.granted labSlug - 1)⟩ := by
  have hlab : 0 < s.queue.active labSlug := (hs.active_eq labSlug).symm ▸ hgranted
  have hle : s.queue.active labSlug ≤ s.queue.total := hs.tally.le
  have htotal : 0 < s.queue.total := hlab.trans_le hle
  have hrelease : s.queue.release labSlug =
      ⟨Function.update s.queue.active labSlug (s.queue.active labSlug - 1), s.queue.total - 1,
        s.queue.waiting⟩ := by
    simp [QueueState.release, hlab, htotal]
  rw [hrelease]
  constructor
  · exact hs.nodup
  · intro other
    by_cases heq : other = labSlug
    · subst heq
      simp [hs.active_eq]
    · simp [heq, hs.active_eq]
  · intro other
    show Function.update s.queue.active labSlug (s.queue.active labSlug - 1) other
        ≤ (capacity.caps other).1
    by_cases heq : other = labSlug
    · subst heq
      have hcap := hs.active_le other
      rw [Function.update_self]
      omega
    · rw [Function.update_of_ne heq]
      exact hs.active_le other
  · have hcap := hs.total_le
    show s.queue.total - 1 ≤ capacity.globalCap
    omega
  · have htally := hs.tally.update labSlug (s.queue.active labSlug - 1)
    have heq : s.queue.total - s.queue.active labSlug + (s.queue.active labSlug - 1) = s.queue.total
        - 1 := by omega
    rwa [heq] at htally

/-- **Every call keeps the queue in order.** -/
theorem balanced_step (hs : s.Balanced capacity) (h : step capacity s call = some t) :
    t.Balanced capacity := by
  have hnodup := nodup_step hs h
  cases call with
  | enqueue userId other =>
    cases h
    have hcounter : ∀ scope,
        (s.queue.enqueue userId other).2.counter scope = s.queue.counter scope :=
      fun _ => QueueState.counter_enqueue
    have hactive : (s.queue.enqueue userId other).2.active = s.queue.active :=
      funext fun labSlug => hcounter (.lab labSlug)
    have htotal : (s.queue.enqueue userId other).2.total = s.queue.total := hcounter .all
    refine ⟨hnodup, ?_, ?_, ?_, ?_⟩
    · exact fun labSlug => (congrFun hactive labSlug).trans (hs.active_eq labSlug)
    · exact fun labSlug => (congrFun hactive labSlug).trans_le (hs.active_le labSlug)
    · exact htotal.trans_le hs.total_le
    · show Tally (s.queue.enqueue userId other).2.active (s.queue.enqueue userId other).2.total
      rw [hactive, htotal]
      exact hs.tally
  | dequeue userId other =>
    cases h
    exact ⟨hnodup, hs.active_eq, hs.active_le, hs.total_le, hs.tally⟩
  | tryAcquire userId other =>
    simp only [step, QueueState.tryAcquire] at h
    by_cases hfull : s.queue.active other ≥ (capacity.caps other).1
      ∨ s.queue.total ≥ (capacity.caps other).2
    · rw [if_pos hfull] at h
      cases h
      exact hs
    · rw [if_neg hfull] at h
      cases h
      rw [not_or, not_le, not_le] at hfull
      exact balanced_grant hs hnodup hfull.1 hfull.2
  | release other =>
    simp only [step] at h
    split at h
    · rename_i hgranted
      cases h
      exact balanced_release hs hgranted
    · cases h

theorem balanced_exec (hs : s.Balanced capacity) (h : exec capacity s calls = some t) :
    t.Balanced capacity := by
  induction calls generalizing s with
  | nil =>
    cases h
    exact hs
  | cons call calls ih =>
    obtain ⟨u, hstep, hrest⟩ := Option.bind_eq_some_iff.mp h
    exact ih (balanced_step hs hstep) hrest

/-! ### Order -/

theorem ahead_step (h : step capacity s call = some t)
    (hahead : Ahead a b (s.queue.waiting labSlug))
    (ha : a ∈ t.queue.waiting labSlug) (hb : b ∈ t.queue.waiting labSlug) :
    Ahead a b (t.queue.waiting labSlug) := by
  rcases waiting_step h labSlug with heq | ⟨userId, -, heq⟩ | ⟨userId, heq⟩
  · exact heq ▸ hahead
  · rw [heq]
    exact List.Sublist.trans hahead (List.sublist_append_left _ _)
  · rw [heq, List.mem_filter] at ha hb
    have hane : a ≠ userId := by simpa using ha.2
    have hbne : b ≠ userId := by simpa using hb.2
    rw [heq]
    exact hahead.filter hane hbne

/-- The learner is in the list after every call of a run. -/
def StaysIn (capacity : CapacityConfig) (labSlug : Slug) (userId : UserId) (s : Ledger)
    (calls : List QueueCall) : Prop :=
  ∀ first rest u, calls = first ++ rest → exec capacity s first = some u →
    userId ∈ u.queue.waiting labSlug

theorem ahead_exec (h : exec capacity s calls = some t)
    (hahead : Ahead a b (s.queue.waiting labSlug))
    (ha : StaysIn capacity labSlug a s calls) (hb : StaysIn capacity labSlug b s calls) :
    Ahead a b (t.queue.waiting labSlug) := by
  induction calls generalizing s with
  | nil =>
    cases h
    exact hahead
  | cons call calls ih =>
    obtain ⟨u, hstep, hrest⟩ := Option.bind_eq_some_iff.mp h
    have hfirst : exec capacity s [call] = some u := by
      rw [exec, List.foldlM_cons, hstep]
      rfl
    have hlater : ∀ userId, StaysIn capacity labSlug userId s (call :: calls) →
        StaysIn capacity labSlug userId u calls := by
      rintro userId hstays first rest v rfl hv
      apply hstays (call :: first) rest v rfl
      rw [exec, List.foldlM_cons, hstep]
      exact hv
    have hnext := ahead_step hstep hahead (ha [call] calls u rfl hfirst)
        (hb [call] calls u rfl hfirst)
    exact ih hrest hnext (hlater a ha) (hlater b hb)

end Ledger

/-- What is promised of the queue in a state. -/
structure InOrder (capacity : CapacityConfig) (s : Ledger) : Prop where
  nodup : ∀ labSlug, (s.queue.waiting labSlug).Nodup
  place : ∀ userId labSlug,
    (s.queue.enqueue userId labSlug).2.position userId labSlug
      = some (s.queue.enqueue userId labSlug).1 ∧
      0 < (s.queue.enqueue userId labSlug).1 ∧
      ((s.queue.enqueue userId labSlug).2.waiting labSlug)[(s.queue.enqueue userId labSlug).1 - 1]?
        = some userId
  order : ∀ calls t labSlug a b, s.exec capacity calls = some t →
    Ahead a b (s.queue.waiting labSlug) →
    Ledger.StaysIn capacity labSlug a s calls → Ledger.StaysIn capacity labSlug b s calls →
      Ahead a b (t.queue.waiting labSlug)
  active_le : ∀ labSlug, s.queue.active labSlug ≤ (capacity.caps labSlug).1
  total_le : s.queue.total ≤ capacity.globalCap
  total_eq : (Function.support s.queue.active).Finite ∧ s.queue.total = ∑ᶠ labSlug,
    s.queue.active labSlug

/-- **The queue is in order after every run of calls.** -/
theorem inOrder_of_exec {capacity : CapacityConfig} {calls : List QueueCall} {s : Ledger}
    (h : Ledger.init.exec capacity calls = some s) : InOrder capacity s where
  nodup := (Ledger.balanced_exec Ledger.balanced_init h).nodup
  place _ _ := QueueState.enqueue_fst
  order _ _ _ _ _ hexec hahead ha hb := Ledger.ahead_exec hexec hahead ha hb
  active_le := (Ledger.balanced_exec Ledger.balanced_init h).active_le
  total_le := (Ledger.balanced_exec Ledger.balanced_init h).total_le
  total_eq := (Ledger.balanced_exec Ledger.balanced_init h).tally.finsum_eq

def oneSlot : CapacityConfig := ⟨1, fun _ => none, 2, 0⟩

/-- The first learner gets the slot, two wait, and the first of them moves up when it is
released. -/
def moveUp : List QueueCall :=
  [.tryAcquire "ann" "vlan", .tryAcquire "bob" "vlan", .enqueue "bob" "vlan", .enqueue "eve" "vlan",
    .release "vlan", .tryAcquire "bob" "vlan"]

theorem inOrder_moveUp : ∃ s, Ledger.init.exec oneSlot moveUp = some s ∧ InOrder oneSlot s := by
  have h : Ledger.init.exec oneSlot moveUp = some _ := rfl
  exact ⟨_, h, inOrder_of_exec h⟩

end OnlinetLabs.Sessions
