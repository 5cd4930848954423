import OnlinetLabs.Lib.Interleaving
import OnlinetLabs.Sessions.QueueCalls
import OnlinetLabs.Sessions.System

/-!
# Who is let in next

A learner who finds no free slot is put into the lab's queue and polls `launch_endpoint` again.
Whether a poll is let in is decided by the counters alone, so a slot that is released goes to
whoever polls first. The list of a lab expires when nobody has polled for the lifetime of its key.
-/

namespace OnlinetLabs.Sessions

open Interleaving

structure QueueConfig where
  capacity : CapacityConfig
  /-- `queue_ttl_seconds` -/
  queueTtl : Time

/-- What the polls share. When each learner's last poll came to the queue is kept beside it. -/
structure Hall where
  queue : QueueState := .init
  /-- When `queue:{lab}` expires. -/
  expires : Slug → Time := fun _ => 0
  now : Time := 0
  polled : Slug → UserId → Option Time := fun _ _ => none

inductive PollPc where
  | lookup
  | acquire
  | dequeue
  | enqueue
  | provision (isNew : Bool)
  | release
  | done
deriving Repr, DecidableEq

/-- A request of `launch_endpoint`. -/
structure Poll where
  req : LaunchRequest
  pc : PollPc
deriving Repr, DecidableEq

/-- What a request meets: before the queue it is rejected, or an active session is found or missing;
then `launch_session` creates a session, resumes one or fails. -/
inductive PollAnswer where
  | rejected
  | found
  | missing
  | created
  | resumed
  | failed
deriving Repr, DecidableEq

/-- A session that ends elsewhere gives its slot back, a counter expires, time passes. -/
inductive HallMove where
  | release (labSlug : Slug)
  | lapse (scope : Scope)
  | pass (duration : Time)
deriving Repr, DecidableEq

/-- A counter whose key has expired reads as zero. -/
def QueueState.lapse (q : QueueState) : Scope → QueueState
  | .lab labSlug => { q with active := Function.update q.active labSlug 0 }
  | .all => { q with total := 0 }

namespace Hall

/-- A list whose key has expired is gone. -/
def pass (s : Hall) (duration : Time) : Hall :=
  { s with
    now := s.now + duration
    queue := { s.queue with
      waiting := fun labSlug => if s.expires labSlug ≤ s.now + duration then []
        else s.queue.waiting labSlug } }

def env (s : Hall) : HallMove → Option Hall
  | .release labSlug => some { s with queue := s.queue.release labSlug }
  | .lapse scope => some { s with queue := s.queue.lapse scope }
  | .pass duration => some (s.pass duration)

/-- `LUA_ENQUEUE` sets the lifetime of the list anew, wherever the learner stands in it. -/
def enqueue (cfg : QueueConfig) (s : Hall) (req : LaunchRequest) : Hall where
  queue := (s.queue.enqueue req.userId req.labSlug).2
  expires := Function.update s.expires req.labSlug (s.now + cfg.queueTtl)
  now := s.now
  polled labSlug userId :=
    if labSlug = req.labSlug ∧ userId = req.userId then some s.now else s.polled labSlug userId

end Hall

def Poll.step (cfg : QueueConfig) (s : Hall) (p : Poll) (a : PollAnswer) : Option (Hall × Poll) :=
  match p.pc with
  | .lookup =>
      match a with
      | .rejected => some (s, { p with pc := .done })
      | .found => some (s, { p with pc := .provision false })
      | _ => some (s, { p with pc := .acquire })
  | .acquire =>
      match s.queue.tryAcquire (cfg.capacity.caps p.req.labSlug) p.req.labSlug with
      | (true, queue) => some ({ s with queue }, { p with pc := .dequeue })
      | (false, queue) => some ({ s with queue }, { p with pc := .enqueue })
  | .dequeue =>
      some ({ s with queue := s.queue.dequeue p.req.userId p.req.labSlug },
        { p with pc := .provision true })
  -- the answer is 202, with the place in the queue
  | .enqueue => some (s.enqueue cfg p.req, { p with pc := .done })
  | .provision isNew =>
      match a with
      | .created => some (s, { p with pc := .done })
      | _ => some (s, { p with pc := if isNew then .release else .done })
  | .release => some ({ s with queue := s.queue.release p.req.labSlug }, { p with pc := .done })
  | .done => none

def hallSystem (cfg : QueueConfig) : System Hall Poll HallMove LaunchRequest PollAnswer where
  env := Hall.env
  spawn req := ⟨req, .lookup⟩
  step := Poll.step cfg

abbrev HallConf := Conf Hall Poll

abbrev HallLabel := Label HallMove LaunchRequest PollAnswer

def HallConf.init : HallConf := ⟨{}, []⟩

/-! ### What is promised -/

/-- Whom `try_acquire` grants a slot by a move. -/
def grants (cfg : QueueConfig) (c : HallConf) : HallLabel → Option LaunchRequest
  | .run pid _ =>
      match c.procs[pid]? with
      | some ⟨req, .acquire⟩ =>
          if (c.shared.queue.tryAcquire (cfg.capacity.caps req.labSlug) req.labSlug).1
            then some req else none
      | _ => none
  | _ => none

/-- A learner is in the queue of a lab, and no slot was granted for which the entry is still to be
removed. -/
def Waits (c : HallConf) (req : LaunchRequest) : Prop :=
  req.userId ∈ c.shared.queue.waiting req.labSlug ∧ ∀ p ∈ c.procs, p.req = req → p.pc ≠ .dequeue

/-- `b` is behind `a` in the queue of a lab, or not in it. -/
def Precedes (s : Hall) (labSlug : Slug) (a b : UserId) : Prop :=
  b ∉ s.queue.waiting labSlug ∨ Ahead a b (s.queue.waiting labSlug)

/-- The learner's last poll is not longer ago than the queue lives. -/
def Polls (cfg : QueueConfig) (s : Hall) (req : LaunchRequest) : Prop :=
  ∃ t, s.polled req.labSlug req.userId = some t ∧ s.now < t + cfg.queueTtl

/-- In a run, no learner is granted a slot of a lab before one who waits ahead and keeps polling. -/
def NoOvertaking (cfg : QueueConfig) (ls : List HallLabel) : Prop :=
  ∀ (first mid : List HallLabel) (l : HallLabel) (rest : List HallLabel) (c c' d : HallConf)
    (labSlug : Slug)
    (a b : UserId), ls = first ++ (mid ++ l :: rest) → a ≠ b →
    (hallSystem cfg).exec HallConf.init first = some c → Waits c ⟨a, labSlug⟩ →
      Precedes c.shared labSlug a b →
    (hallSystem cfg).Throughout (fun c => Polls cfg c.shared ⟨a, labSlug⟩) c mid →
    (hallSystem cfg).Along (fun c l => grants cfg c l ≠ some ⟨a, labSlug⟩) c mid →
    (hallSystem cfg).exec c mid = some c' → (hallSystem cfg).next c' l = some d →
    grants cfg c' l ≠ some ⟨b, labSlug⟩

def QueueState.hasFreeSlot (q : QueueState) (caps : Nat × Nat) (labSlug : Slug) : Bool :=
  decide (q.active labSlug < caps.1) && decide (q.total < caps.2)

/-- A request that comes to the counters while a slot is free comes while nobody ahead of its
learner still polls. -/
def InTurn (cfg : QueueConfig) (c : HallConf) (l : HallLabel) : Prop :=
  ∀ pid answer req, l = .run pid answer → c.procs[pid]? = some ⟨req, .acquire⟩ →
    c.shared.queue.hasFreeSlot (cfg.capacity.caps req.labSlug) req.labSlug = true →
      ∀ a, a ≠ req.userId → Waits c ⟨a, req.labSlug⟩ → Precedes c.shared req.labSlug a req.userId →
        ¬ Polls cfg c.shared ⟨a, req.labSlug⟩

/-! ### What a move does -/

variable {cfg : QueueConfig} {c c' d : HallConf} {l : HallLabel} {ls : List HallLabel}
  {req : LaunchRequest}
  {labSlug : Slug} {a b : UserId} {s s' : Hall} {p p' : Poll} {answer : PollAnswer}

theorem tryAcquire_fst {q : QueueState} {caps : Nat × Nat} :
    (q.tryAcquire caps labSlug).1 = q.hasFreeSlot caps labSlug := by
  unfold QueueState.tryAcquire QueueState.hasFreeSlot
  by_cases hfull : q.active labSlug ≥ caps.1 ∨ q.total ≥ caps.2
  · rw [if_pos hfull]
    rcases hfull with hlab | htotal
    · simp [Nat.not_lt.mpr hlab]
    · simp [Nat.not_lt.mpr htotal]
  · rw [if_neg hfull]
    rw [not_or, not_le, not_le] at hfull
    simp [hfull.1, hfull.2]

theorem waiting_of_tryAcquire {q queue : QueueState} {caps : Nat × Nat} {granted : Bool}
    (h : q.tryAcquire caps labSlug = (granted, queue)) : queue.waiting = q.waiting := by
  have hwaiting : (q.tryAcquire caps labSlug).2.waiting = q.waiting := QueueState.waiting_tryAcquire
  rwa [h] at hwaiting

theorem grants_eq_some (h : grants cfg c l = some req) :
    ∃ pid answer, l = .run pid answer ∧ c.procs[pid]? = some ⟨req, .acquire⟩ ∧
      c.shared.queue.hasFreeSlot (cfg.capacity.caps req.labSlug) req.labSlug = true := by
  unfold grants at h
  split at h
  · rename_i pid answer
    split at h
    · rename_i req' hproc
      split at h
      · rename_i hfree
        cases h
        exact ⟨pid, answer, rfl, hproc, tryAcquire_fst ▸ hfree⟩
      · cases h
    · cases h
  · cases h

inductive Poll.Moves (cfg : QueueConfig) (s : Hall) : Poll → Hall → Poll → Prop where
  | passes {req : LaunchRequest} {pc pc' : PollPc} (queue : QueueState)
      (hwaiting : queue.waiting = s.queue.waiting) (hpc : pc ≠ .dequeue ∧ pc ≠ .enqueue)
      (hpc' : pc' ≠ .dequeue) : Moves cfg s ⟨req, pc⟩ { s with queue } ⟨req, pc'⟩
  | granted {req : LaunchRequest} (queue : QueueState)
      (hgranted : s.queue.tryAcquire (cfg.capacity.caps req.labSlug) req.labSlug = (true, queue)) :
      Moves cfg s ⟨req, .acquire⟩ { s with queue } ⟨req, .dequeue⟩
  | leaves (req : LaunchRequest) :
      Moves cfg s ⟨req, .dequeue⟩ { s with queue := s.queue.dequeue req.userId req.labSlug }
        ⟨req, .provision true⟩
  | queued (req : LaunchRequest) : Moves cfg s ⟨req, .enqueue⟩ (s.enqueue cfg req) ⟨req, .done⟩

theorem Poll.moves_of_step (h : p.step cfg s answer = some (s', p')) :
    Poll.Moves cfg s p s' p' := by
  obtain ⟨req, pc⟩ := p
  cases pc with
  | lookup =>
    cases answer <;> cases h <;> exact .passes s.queue rfl (by decide) (by decide)
  | acquire =>
    simp only [Poll.step] at h
    split at h
    · rename_i queue hqueue
      cases h
      exact .granted queue hqueue
    · rename_i queue hqueue
      cases h
      exact .passes queue (waiting_of_tryAcquire hqueue) (by decide) (by decide)
  | dequeue =>
    cases h
    exact .leaves req
  | enqueue =>
    cases h
    exact .queued req
  | provision isNew =>
    cases isNew <;> cases answer <;> cases h <;> exact .passes s.queue rfl (by decide) (by decide)
  | release =>
    cases h
    exact .passes _ rfl (by decide) (by decide)
  | done => cases h

theorem waiting_step (h : p.step cfg s answer = some (s', p')) (labSlug : Slug) :
    s'.queue.waiting labSlug = s.queue.waiting labSlug ∨
      (∃ userId ∉ s.queue.waiting labSlug,
        s'.queue.waiting labSlug = s.queue.waiting labSlug ++ [userId]) ∨
      ∃ userId, p = ⟨⟨userId, labSlug⟩, .dequeue⟩ ∧
        s'.queue.waiting labSlug = (s.queue.waiting labSlug).filter fun v => v != userId := by
  cases Poll.moves_of_step h with
  | passes queue hwaiting _ _ => exact Or.inl (congrFun hwaiting labSlug)
  | granted queue hgranted => exact Or.inl (congrFun (waiting_of_tryAcquire hgranted) labSlug)
  | leaves req =>
    rw [QueueState.waiting_dequeue]
    split
    · rename_i heq
      exact Or.inr (Or.inr ⟨req.userId, by rw [heq], rfl⟩)
    · exact Or.inl rfl
  | queued req =>
    simp only [Hall.enqueue]
    rw [QueueState.waiting_enqueue]
    split
    · rename_i hnew
      exact Or.inr (Or.inl ⟨req.userId, hnew.1 ▸ hnew.2, rfl⟩)
    · exact Or.inl rfl

/-- A list changes at its end, by a learner who was granted a slot, or by its expiry. -/
theorem waiting_next (h : (hallSystem cfg).next c l = some d) (labSlug : Slug) :
    d.shared.queue.waiting labSlug = c.shared.queue.waiting labSlug ∨
      (∃ userId ∉ c.shared.queue.waiting labSlug,
        d.shared.queue.waiting labSlug = c.shared.queue.waiting labSlug ++ [userId]) ∨
      (∃ userId, ⟨⟨userId, labSlug⟩, .dequeue⟩ ∈ c.procs ∧
        d.shared.queue.waiting labSlug = (c.shared.queue.waiting labSlug).filter fun v =>
          v != userId) ∨
      (d.shared.expires labSlug ≤ d.shared.now ∧ d.shared.queue.waiting labSlug = []) := by
  rcases (hallSystem cfg).next_cases h with ⟨e, s, rfl, henv, rfl⟩ | ⟨req, rfl, rfl⟩ |
    ⟨pid, answer, p, s, p', rfl, hproc, hstep, rfl⟩
  · cases e with
    | release other =>
      cases henv
      exact Or.inl rfl
    | lapse scope =>
      cases henv
      cases scope <;> exact Or.inl rfl
    | pass duration =>
      cases henv
      by_cases hexpired : c.shared.expires labSlug ≤ c.shared.now + duration
      · exact Or.inr (Or.inr (Or.inr ⟨hexpired, if_pos hexpired⟩))
      · exact Or.inl (if_neg hexpired)
  · exact Or.inl rfl
  · rcases waiting_step hstep labSlug with heq | hnew | ⟨userId, rfl, heq⟩
    · exact Or.inl heq
    · exact Or.inr (Or.inl hnew)
    · exact Or.inr (Or.inr (Or.inl ⟨userId, mem_of_getElem? hproc, heq⟩))

/-- Who is to be removed from a list has just been granted a slot, or was to be removed before. -/
theorem dequeue_next (h : (hallSystem cfg).next c l = some d) (hmem : ⟨req, .dequeue⟩ ∈ d.procs) :
    ⟨req, .dequeue⟩ ∈ c.procs ∨ grants cfg c l = some req := by
  rcases (hallSystem cfg).next_cases h with ⟨e, s, rfl, henv, rfl⟩ | ⟨other, rfl, rfl⟩ |
    ⟨pid, answer, p, s, p', rfl, hproc, hstep, rfl⟩
  · exact Or.inl hmem
  · rcases List.mem_append.mp hmem with hold | hnew
    · exact Or.inl hold
    · cases List.mem_singleton.mp hnew
  · rcases List.mem_or_eq_of_mem_set hmem with hold | rfl
    · exact Or.inl hold
    · right
      cases Poll.moves_of_step hstep with
      | passes queue _ _ hpc' => exact absurd rfl hpc'
      | granted queue hgranted => simp [grants, hproc, hgranted]

/-! ### The lifetime of a list -/

/-- The list of a lab lives as long as the latest poll of each learner has made it live. -/
def Dated (cfg : QueueConfig) (s : Hall) : Prop :=
  ∀ labSlug userId t, s.polled labSlug userId = some t → t ≤ s.now
    ∧ t + cfg.queueTtl ≤ s.expires labSlug

theorem dated_init : Dated cfg HallConf.init.shared := by
  intro labSlug userId t hpolled
  cases hpolled

theorem dated_enqueue (h : Dated cfg s) : Dated cfg (s.enqueue cfg req) := by
  intro labSlug userId t hpolled
  simp only [Hall.enqueue] at hpolled ⊢
  split at hpolled
  · rename_i heq
    cases hpolled
    rw [heq.1, Function.update_self]
    exact ⟨le_rfl, le_rfl⟩
  · obtain ⟨hle, hexpires⟩ := h labSlug userId t hpolled
    by_cases heq : labSlug = req.labSlug
    · rw [heq, Function.update_self]
      exact ⟨hle, Nat.add_le_add_right hle _⟩
    · rw [Function.update_of_ne heq]
      exact ⟨hle, hexpires⟩

theorem dated_step (h : Dated cfg s) (hstep : p.step cfg s answer = some (s', p')) :
    Dated cfg s' := by
  cases Poll.moves_of_step hstep with
  | passes queue _ _ _ => exact h
  | granted queue _ => exact h
  | leaves req => exact h
  | queued req => exact dated_enqueue h

theorem dated_next (h : Dated cfg c.shared) (hnext : (hallSystem cfg).next c l = some d) :
    Dated cfg d.shared := by
  rcases (hallSystem cfg).next_cases hnext with ⟨e, s, rfl, henv, rfl⟩ | ⟨req, rfl, rfl⟩ |
    ⟨pid, answer, p, s, p', rfl, hproc, hstep, rfl⟩
  · cases e with
    | release other =>
      cases henv
      exact h
    | lapse scope =>
      cases henv
      exact h
    | pass duration =>
      cases henv
      intro labSlug userId t hpolled
      obtain ⟨hle, hexpires⟩ := h labSlug userId t hpolled
      exact ⟨hle.trans (Nat.le_add_right _ _), hexpires⟩
  · exact h
  · exact dated_step h hstep

theorem dated_exec (hexec : (hallSystem cfg).exec HallConf.init ls = some c) :
    Dated cfg c.shared := by
  have hinit : Dated cfg HallConf.init.shared := dated_init
  have hrun : (hallSystem cfg).Throughout (fun c => Dated cfg c.shared) HallConf.init ls :=
    (hallSystem cfg).throughout_of_preserved (fun _ _ _ hc hstep => dated_next hc hstep) hinit
  exact hrun.exec _ hexec

/-! ### Keeping one's place -/

theorem not_expired_of_polls (hdated : Dated cfg s) (hpolls : Polls cfg s ⟨a, labSlug⟩) :
    ¬ s.expires labSlug ≤ s.now := by
  obtain ⟨t, hpolled, hlt⟩ := hpolls
  have hexpires := (hdated labSlug a t hpolled).2
  exact not_le.mpr (hlt.trans_le hexpires)

/-- A learner who waits ahead of another, and is not granted a slot, waits ahead of the other
afterwards. -/
theorem waits_next (hnext : (hallSystem cfg).next c l = some d) (hdated : Dated cfg d.shared)
    (hpolls : Polls cfg d.shared ⟨a, labSlug⟩) (hgrant : grants cfg c l ≠ some ⟨a, labSlug⟩)
    (hwaits : Waits c ⟨a, labSlug⟩) (hprec : Precedes c.shared labSlug a b) :
    Waits d ⟨a, labSlug⟩ ∧ Precedes d.shared labSlug a b := by
  obtain ⟨hmem, hidle⟩ := hwaits
  have hleft : ∀ p ∈ d.procs, p.req = ⟨a, labSlug⟩ → p.pc ≠ .dequeue := by
    rintro ⟨req, pc⟩ hp rfl rfl
    rcases dequeue_next hnext hp with hold | hnow
    · exact hidle _ hold rfl rfl
    · exact hgrant hnow
  rcases waiting_next hnext labSlug with heq | ⟨userId, hnew, heq⟩ | ⟨userId, hproc, heq⟩
    | ⟨hexpired, -⟩
  · unfold Waits Precedes
    rw [heq]
    exact ⟨⟨hmem, hleft⟩, hprec⟩
  · have hmem' : a ∈ d.shared.queue.waiting labSlug := heq ▸ List.mem_append_left _ hmem
    refine ⟨⟨hmem', hleft⟩, ?_⟩
    unfold Precedes
    rw [heq]
    rcases hprec with hout | hahead
    · by_cases hb : b = userId
      · exact Or.inr (hb ▸ ahead_append hmem)
      · left
        rw [List.mem_append, List.mem_singleton, not_or]
        exact ⟨hout, hb⟩
    · exact Or.inr (List.Sublist.trans hahead (List.sublist_append_left _ _))
  · have hne : a ≠ userId := by
      rintro rfl
      exact hidle _ hproc rfl rfl
    have hmem' : a ∈ d.shared.queue.waiting labSlug := by
      rw [heq, List.mem_filter]
      exact ⟨hmem, by simpa using hne⟩
    refine ⟨⟨hmem', hleft⟩, ?_⟩
    unfold Precedes
    rw [heq]
    rcases hprec with hout | hahead
    · exact Or.inl fun hb => hout (List.mem_filter.mp hb).1
    · by_cases hb : b = userId
      · left
        rw [List.mem_filter]
        rintro ⟨-, hkept⟩
        simp [hb] at hkept
      · exact Or.inr (hahead.filter hne hb)
  · exact absurd hexpired (not_expired_of_polls hdated hpolls)

/-- And so to the end of every run in which the learner keeps polling. -/
theorem waits_exec {mid : List HallLabel} (hexec : (hallSystem cfg).exec c mid = some d)
    (hdated : Dated cfg c.shared) (hwaits : Waits c ⟨a, labSlug⟩)
    (hprec : Precedes c.shared labSlug a b)
    (hpolls : (hallSystem cfg).Throughout (fun c => Polls cfg c.shared ⟨a, labSlug⟩) c mid)
    (hgrant : (hallSystem cfg).Along (fun c l => grants cfg c l ≠ some ⟨a, labSlug⟩) c mid) :
    Waits d ⟨a, labSlug⟩ ∧ Precedes d.shared labSlug a b := by
  induction mid generalizing c with
  | nil =>
    cases hexec
    exact ⟨hwaits, hprec⟩
  | cons l mid ih =>
    simp only [System.exec] at hexec
    split at hexec
    · cases hexec
    · rename_i u hu
      obtain ⟨hgrant, hgrants⟩ := hgrant u hu
      have hlater := hpolls.2 u hu
      have hdated' : Dated cfg u.shared := dated_next hdated hu
      have hnext := waits_next hu hdated' (System.Throughout.head _ hlater) hgrant hwaits hprec
      exact ih hexec hdated' hnext.1 hnext.2 hlater hgrants

/-- Nobody overtakes in a run exactly when every request that meets a free slot is in its turn. -/
theorem noOvertaking_iff_along_inTurn (cfg : QueueConfig) (ls : List HallLabel) :
    NoOvertaking cfg ls ↔ (hallSystem cfg).Along (InTurn cfg) HallConf.init ls := by
  rw [System.along_iff_forall_split]
  constructor
  · rintro h first _ rest c d hsplit hexec hnext pid answer req rfl hproc hfree a hne hwaits
      hprec hpolls
    have hgrants : grants cfg c (.run pid answer) = some req := by
      simp only [grants, hproc]
      rw [tryAcquire_fst, if_pos hfree]
    exact h first [] _ rest c c d req.labSlug a req.userId hsplit hne hexec hwaits hprec hpolls
      trivial rfl hnext
      hgrants
  · intro h first mid l rest c c' d labSlug a b hsplit hne hexec hwaits hprec hpolls hgrant hmid
      hnext hgrants
    have hdated : Dated cfg c.shared := dated_exec hexec
    obtain ⟨hwaits', hprec'⟩ := waits_exec hmid hdated hwaits hprec hpolls hgrant
    have hpolls' : Polls cfg c'.shared ⟨a, labSlug⟩ := hpolls.exec _ hmid
    obtain ⟨pid, answer, rfl, hproc, hfree⟩ := grants_eq_some hgrants
    have hboth : (hallSystem cfg).exec HallConf.init (first ++ mid) = some c' :=
      (System.exec_append _).mpr ⟨c, hexec, hmid⟩
    have hturn := h (first ++ mid) _ rest c' d (by rw [hsplit, List.append_assoc]) hboth hnext
    exact hturn pid answer ⟨b, labSlug⟩ rfl hproc hfree a hne hwaits' hprec' hpolls'

end OnlinetLabs.Sessions
