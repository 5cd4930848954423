import OnlinetLabs.Sessions.Overtaking

/-!
# Who came first

The list of a lab is never compared with the order of the requests that come after a slot was given
back. Here the order in which the learners came is read off the moves of a run, without the list: a
poll counts from the move that answered it with a place, until the learner is taken off the queue or
nobody has polled for the lifetime of the key. The list keeps this order, so that nobody overtakes
exactly when the learners come back to the counters in the order in which they came.
-/

namespace OnlinetLabs.Sessions

open Interleaving

variable {cfg : QueueConfig} {c d : HallConf} {l : HallLabel} {ls : List HallLabel}
  {req : LaunchRequest}
  {labSlug : Slug} {a b u v : UserId} {w : List UserId} {n : Nat} {s s' : Hall} {p p' : Poll}
  {answer : PollAnswer}

/-- The request that takes the step `pc` by a move. -/
def stepsFrom (pc : PollPc) (c : HallConf) : HallLabel → Option LaunchRequest
  | .run pid _ =>
      match c.procs[pid]? with
      | some p => if p.pc = pc then some p.req else none
      | none => none
  | _ => none

/-- Somebody's last poll of the lab is not longer ago than the queue lives. -/
def Kept (cfg : QueueConfig) (s : Hall) (labSlug : Slug) : Prop :=
  ∃ userId, Polls cfg s ⟨userId, labSlug⟩

/-- The `n`-th move of a run is a poll by which the learner stands in the line of the lab: it was
answered with a place, and since then the learner was not taken off the queue and the queue was
kept. -/
def Came (cfg : QueueConfig) (ls : List HallLabel) (req : LaunchRequest) (n : Nat) : Prop :=
  ∃ first l rest c d, ls = first ++ l :: rest ∧ first.length = n ∧
    (hallSystem cfg).exec HallConf.init first = some c ∧ (hallSystem cfg).next c l = some d ∧
    stepsFrom .enqueue c l = some req ∧
    (hallSystem cfg).Along (fun c l => stepsFrom .dequeue c l ≠ some req) d rest ∧
    (hallSystem cfg).Throughout (fun c => Kept cfg c.shared req.labSlug) d rest

def CameBefore (cfg : QueueConfig) (ls : List HallLabel) (labSlug : Slug) (a b : UserId) : Prop :=
  ∃ n, Came cfg ls ⟨a, labSlug⟩ n ∧ ∀ m, Came cfg ls ⟨b, labSlug⟩ m → n < m

/-- A request of the learner has its slot, and is still to take the learner off the queue. -/
def LetIn (c : HallConf) (req : LaunchRequest) : Prop :=
  ∃ p ∈ c.procs, p.req = req ∧ p.pc = .dequeue

/-- In a run, whoever comes to the counters of a lab while a slot is free came before every other
learner who came, has not been let in and still polls. -/
def ReturnsInOrder (cfg : QueueConfig) (ls : List HallLabel) : Prop :=
  ∀ (first : List HallLabel) (l : HallLabel) (rest : List HallLabel) (c d : HallConf)
    (labSlug : Slug)
    (a b : UserId), ls = first ++ l :: rest → (hallSystem cfg).exec HallConf.init first = some c →
    (hallSystem cfg).next c l = some d → stepsFrom .acquire c l = some ⟨b, labSlug⟩ →
    c.shared.queue.hasFreeSlot (cfg.capacity.caps labSlug) labSlug = true → a ≠ b →
    (∃ n, Came cfg first ⟨a, labSlug⟩ n) → ¬ LetIn c ⟨a, labSlug⟩ →
      Polls cfg c.shared ⟨a, labSlug⟩ →
    CameBefore cfg first labSlug b a

/-! ### The line of a lab, move by move -/

theorem Came.lt (h : Came cfg ls req n) : n < ls.length := by
  obtain ⟨first, l, rest, c, d, rfl, rfl, -⟩ := h
  simp

/-- A poll counts after a move if it counted before and the learner is not taken off by it, or if it
is the poll; and only in a queue that is kept. -/
theorem came_snoc (hexec : (hallSystem cfg).exec HallConf.init ls = some c)
    (hnext : (hallSystem cfg).next c l = some d) :
    Came cfg (ls ++ [l]) req n ↔ Kept cfg d.shared req.labSlug ∧
      ((Came cfg ls req n ∧ stepsFrom .dequeue c l ≠ some req) ∨
        (ls.length = n ∧ stepsFrom .enqueue c l = some req)) := by
  constructor
  · rintro ⟨first, l', rest, c', d', hsplit, hlen, hfirst, hl', hpoll, hstays, hkept⟩
    rcases List.eq_nil_or_concat rest with rfl | ⟨rest, l'', rfl⟩
    · obtain ⟨rfl, rfl⟩ := List.append_singleton_inj.mp hsplit
      cases hexec.symm.trans hfirst
      cases hnext.symm.trans hl'
      exact ⟨hkept, Or.inr ⟨hlen, hpoll⟩⟩
    · rw [List.concat_eq_append, ← List.cons_append, ← List.append_assoc,
        List.append_singleton_inj] at hsplit
      obtain ⟨rfl, rfl⟩ := hsplit
      have hrest : (hallSystem cfg).exec d' rest = some c := System.exec_of_split _ hexec hfirst hl'
      rw [List.concat_eq_append] at hstays hkept
      rw [System.along_append _ hrest] at hstays
      rw [System.throughout_append _ hrest] at hkept
      have hbefore : Came cfg (first ++ l' :: rest) req n :=
        ⟨first, l', rest, c', d', rfl, hlen, hfirst, hl', hpoll, hstays.1, hkept.1⟩
      exact ⟨hkept.2.2 d hnext, Or.inl ⟨hbefore, (hstays.2 d hnext).1⟩⟩
  · rintro ⟨hkept,
      ⟨⟨first, l', rest, c', d', rfl, hlen, hfirst, hl', hpoll, hstays, hrest⟩, hleaves⟩
      | ⟨rfl, hpoll⟩⟩
    · have hrun : (hallSystem cfg).exec d' rest = some c := System.exec_of_split _ hexec hfirst hl'
      refine ⟨first, l', rest ++ [l], c', d', by rw [List.append_assoc, List.cons_append], hlen,
        hfirst, hl', hpoll, ?_, ?_⟩
      · refine (System.along_append _ hrun).mpr ⟨hstays, fun d' hd' => ⟨hleaves, trivial⟩⟩
      · refine (System.throughout_append _ hrun).mpr ⟨hrest, hrest.exec _ hrun, fun d' hd' => ?_⟩
        cases hnext.symm.trans hd'
        exact hkept
    · exact ⟨ls, l, [], c, d, rfl, rfl, hexec, hnext, hpoll, trivial, hkept⟩

/-- A list that is not empty lives as long as the last poll of somebody has made it live. -/
def Refreshed (cfg : QueueConfig) (s : Hall) : Prop :=
  ∀ labSlug, s.queue.waiting labSlug ≠ [] → s.now < s.expires labSlug ∧
    ∃ userId t, s.polled labSlug userId = some t ∧ s.expires labSlug = t + cfg.queueTtl

theorem refreshed_init : Refreshed cfg HallConf.init.shared := by
  intro labSlug hwaiting
  exact absurd rfl hwaiting

theorem Refreshed.kept (h : Refreshed cfg s) (hwaiting : s.queue.waiting labSlug ≠ []) :
    Kept cfg s labSlug := by
  obtain ⟨hlt, userId, t, hpolled, hexpires⟩ := h labSlug hwaiting
  exact ⟨userId, t, hpolled, hexpires ▸ hlt⟩

theorem refreshed_step (httl : 0 < cfg.queueTtl) (h : Refreshed cfg s)
    (hstep : p.step cfg s answer = some (s', p')) : Refreshed cfg s' := by
  intro labSlug hwaiting
  cases Poll.moves_of_step hstep with
  | passes queue hqueue _ _ => exact h labSlug (congrFun hqueue labSlug ▸ hwaiting)
  | granted queue hgranted =>
    exact h labSlug (congrFun (waiting_of_tryAcquire hgranted) labSlug ▸ hwaiting)
  | leaves req =>
    apply h labSlug
    intro hempty
    apply hwaiting
    simp [QueueState.waiting_dequeue, hempty]
  | queued req =>
    by_cases hlab : labSlug = req.labSlug
    · subst hlab
      refine ⟨?_, req.userId, s.now, ?_, ?_⟩
      · simpa [Hall.enqueue] using httl
      · simp [Hall.enqueue]
      · simp [Hall.enqueue]
    · have hsame : (s.enqueue cfg req).queue.waiting labSlug = s.queue.waiting labSlug := by
        simp [Hall.enqueue, QueueState.waiting_enqueue, hlab]
      have hold := h labSlug (hsame ▸ hwaiting)
      simpa [Hall.enqueue, hlab] using hold

theorem refreshed_next (httl : 0 < cfg.queueTtl) (h : Refreshed cfg c.shared)
    (hnext : (hallSystem cfg).next c l = some d) : Refreshed cfg d.shared := by
  rcases (hallSystem cfg).next_cases hnext with ⟨e, s, rfl, henv, rfl⟩ | ⟨req, rfl, rfl⟩ |
    ⟨pid, answer, p, s, p', rfl, hproc, hstep, rfl⟩
  · cases e with
    | release other =>
      cases henv
      exact h
    | lapse scope =>
      cases henv
      cases scope <;> exact h
    | pass duration =>
      cases henv
      intro labSlug hwaiting
      by_cases hexpired : c.shared.expires labSlug ≤ c.shared.now + duration
      · exact absurd (if_pos hexpired) hwaiting
      · have hsame : (c.shared.pass duration).queue.waiting labSlug =
            c.shared.queue.waiting labSlug := if_neg hexpired
        exact ⟨not_le.mp hexpired, (h labSlug (hsame ▸ hwaiting)).2⟩
  · exact h
  · exact refreshed_step httl h hstep

/-- What a move does to the list of a lab that has not expired. -/
theorem line_next (hnext : (hallSystem cfg).next c l = some d)
    (hlives : d.shared.now < d.shared.expires labSlug) :
    (∃ userId, stepsFrom .enqueue c l = some ⟨userId, labSlug⟩ ∧ d.shared.queue.waiting labSlug =
      if userId ∈ c.shared.queue.waiting labSlug then c.shared.queue.waiting labSlug
      else c.shared.queue.waiting labSlug ++ [userId]) ∨
    (∃ userId, stepsFrom .dequeue c l = some ⟨userId, labSlug⟩ ∧ d.shared.queue.waiting labSlug =
      (c.shared.queue.waiting labSlug).filter fun v => v != userId) ∨
    ((∀ userId, stepsFrom .enqueue c l ≠ some ⟨userId, labSlug⟩ ∧
      stepsFrom .dequeue c l ≠ some ⟨userId, labSlug⟩) ∧
      d.shared.queue.waiting labSlug = c.shared.queue.waiting labSlug) := by
  rcases (hallSystem cfg).next_cases hnext with ⟨e, s, rfl, henv, rfl⟩ | ⟨req, rfl, rfl⟩ |
    ⟨pid, answer, p, s, p', rfl, hproc, hstep, rfl⟩
  · refine Or.inr (Or.inr ⟨fun userId => ⟨nofun, nofun⟩, ?_⟩)
    cases e with
    | release other =>
      cases henv
      rfl
    | lapse scope =>
      cases henv
      cases scope <;> rfl
    | pass duration =>
      cases henv
      exact if_neg (not_le.mpr hlives)
  · exact Or.inr (Or.inr ⟨fun userId => ⟨nofun, nofun⟩, rfl⟩)
  · cases Poll.moves_of_step hstep with
    | passes queue hqueue hpc _ =>
      refine Or.inr (Or.inr ⟨fun userId => ?_, congrFun hqueue labSlug⟩)
      simp [stepsFrom, hproc, hpc.1, hpc.2]
    | granted queue hgranted =>
      refine Or.inr (Or.inr ⟨fun userId => ?_, congrFun (waiting_of_tryAcquire hgranted) labSlug⟩)
      simp [stepsFrom, hproc]
    | leaves req =>
      obtain ⟨userId, lab⟩ := req
      by_cases hlab : labSlug = lab
      · subst hlab
        refine Or.inr (Or.inl ⟨userId, by simp [stepsFrom, hproc], ?_⟩)
        simp [QueueState.waiting_dequeue]
      · refine Or.inr (Or.inr ⟨fun userId => ?_, ?_⟩)
        · simp [stepsFrom, hproc, Ne.symm hlab]
        · simp [QueueState.waiting_dequeue, hlab]
    | queued req =>
      obtain ⟨userId, lab⟩ := req
      by_cases hlab : labSlug = lab
      · subst hlab
        refine Or.inl ⟨userId, by simp [stepsFrom, hproc], ?_⟩
        simp only [Hall.enqueue, QueueState.waiting_enqueue]
        by_cases hmem : userId ∈ c.shared.queue.waiting labSlug <;> simp [hmem]
      · refine Or.inr (Or.inr ⟨fun userId => ?_, ?_⟩)
        · simp [stepsFrom, hproc, Ne.symm hlab]
        · simp [Hall.enqueue, QueueState.waiting_enqueue, hlab]

/-! ### The list is in the order of arrivals -/

theorem ahead_or_ahead (hne : a ≠ b) (ha : a ∈ w) (hb : b ∈ w) : Ahead a b w ∨ Ahead b a w := by
  induction w with
  | nil => cases ha
  | cons x w ih =>
    rcases List.mem_cons.mp ha with rfl | ha' <;> rcases List.mem_cons.mp hb with rfl | hb'
    · exact absurd rfl hne
    · exact Or.inl ((List.singleton_sublist.mpr hb').cons_cons _)
    · exact Or.inr ((List.singleton_sublist.mpr ha').cons_cons _)
    · exact (ih ha' hb').imp (.cons _) (.cons _)

theorem ahead_append_singleton (h : Ahead u v (w ++ [b])) : Ahead u v w ∨ (u ∈ w ∧ v = b) := by
  obtain ⟨pre, suf, hsplit, hpre, hsuf⟩ := List.sublist_append_iff.mp h
  rcases List.sublist_singleton.mp hsuf with rfl | rfl
  · rw [List.append_nil] at hsplit
    subst hsplit
    exact Or.inl hpre
  · have hpair : [u] ++ [v] = pre ++ [b] := hsplit
    obtain ⟨rfl, rfl⟩ := List.append_singleton_inj.mp hpair
    exact Or.inr ⟨List.singleton_sublist.mp hpre, rfl⟩

/-- The list of a lab holds those who came, as they came. -/
structure KeepsOrder (cfg : QueueConfig) (ls : List HallLabel) (c : HallConf)
    (labSlug : Slug) : Prop where
  mem_iff : ∀ u, u ∈ c.shared.queue.waiting labSlug ↔ ∃ n, Came cfg ls ⟨u, labSlug⟩ n
  before : ∀ u v, Ahead u v (c.shared.queue.waiting labSlug) → CameBefore cfg ls labSlug u v

theorem keepsOrder_of_empty (hempty : c.shared.queue.waiting labSlug = [])
    (hnobody : ∀ u n, ¬ Came cfg ls ⟨u, labSlug⟩ n) : KeepsOrder cfg ls c labSlug where
  mem_iff u := by
    rw [hempty]
    exact ⟨nofun, fun ⟨n, hcame⟩ => absurd hcame (hnobody u n)⟩
  before u v h := by
    rw [hempty] at h
    cases List.eq_nil_of_sublist_nil h

theorem not_came_nil : ¬ Came cfg [] req n := by
  rintro ⟨first, l, rest, c, d, hsplit, -⟩
  cases first <;> cases hsplit

theorem stepsFrom_eq_some {pc : PollPc} (h : stepsFrom pc c l = some req) :
    ∃ pid answer, l = .run pid answer ∧ c.procs[pid]? = some ⟨req, pc⟩ := by
  unfold stepsFrom at h
  split at h
  · rename_i pid answer
    split at h
    · rename_i p hproc
      rw [Option.ite_none_right_eq_some, Option.some.injEq] at h
      obtain ⟨rfl, rfl⟩ := h
      exact ⟨pid, answer, rfl, hproc⟩
    · cases h
  · cases h

theorem stepsFrom_unique {pc pc' : PollPc} {req req' : LaunchRequest}
    (h : stepsFrom pc c l = some req)
    (h' : stepsFrom pc' c l = some req') : pc = pc' := by
  obtain ⟨pid, answer, rfl, hproc⟩ := stepsFrom_eq_some h
  obtain ⟨pid', answer', hlabel, hproc'⟩ := stepsFrom_eq_some h'
  cases hlabel
  cases hproc.symm.trans hproc'
  rfl

/-- A poll is answered: the learner stands where they stood, or at the end. -/
theorem KeepsOrder.poll (h : KeepsOrder cfg ls c labSlug)
    (hcame : ∀ u n, Came cfg (ls ++ [l]) ⟨u, labSlug⟩ n ↔
      Came cfg ls ⟨u, labSlug⟩ n ∨ (ls.length = n ∧ u = a))
    (hlist : d.shared.queue.waiting labSlug =
      if a ∈ c.shared.queue.waiting labSlug then c.shared.queue.waiting labSlug
      else c.shared.queue.waiting labSlug ++ [a]) : KeepsOrder cfg (ls ++ [l]) d labSlug := by
  have hstill : ∀ u v, Ahead u v (c.shared.queue.waiting labSlug) →
      CameBefore cfg (ls ++ [l]) labSlug u v := by
    intro u v hahead
    obtain ⟨n, hn, hfirst⟩ := h.before u v hahead
    refine ⟨n, (hcame u n).mpr (Or.inl hn), fun m hm => ?_⟩
    rcases (hcame v m).mp hm with hold | ⟨rfl, -⟩
    · exact hfirst m hold
    · exact hn.lt
  by_cases hmem : a ∈ c.shared.queue.waiting labSlug
  · rw [if_pos hmem] at hlist
    refine ⟨fun u => ?_, fun u v hahead => hstill u v (hlist ▸ hahead)⟩
    rw [hlist]
    constructor
    · intro hu
      obtain ⟨n, hn⟩ := (h.mem_iff u).mp hu
      exact ⟨n, (hcame u n).mpr (Or.inl hn)⟩
    · rintro ⟨n, hn⟩
      rcases (hcame u n).mp hn with hold | ⟨-, rfl⟩
      · exact (h.mem_iff u).mpr ⟨n, hold⟩
      · exact hmem
  · rw [if_neg hmem] at hlist
    refine ⟨fun u => ?_, fun u v hahead => ?_⟩
    · rw [hlist, List.mem_append, List.mem_singleton, h.mem_iff]
      constructor
      · rintro (⟨n, hn⟩ | rfl)
        · exact ⟨n, (hcame u n).mpr (Or.inl hn)⟩
        · exact ⟨ls.length, (hcame u _).mpr (Or.inr ⟨rfl, rfl⟩)⟩
      · rintro ⟨n, hn⟩
        exact ((hcame u n).mp hn).imp (fun hold => ⟨n, hold⟩) And.right
    · rw [hlist] at hahead
      rcases ahead_append_singleton hahead with hold | ⟨hu, rfl⟩
      · exact hstill u v hold
      · obtain ⟨n, hn⟩ := (h.mem_iff u).mp hu
        refine ⟨n, (hcame u n).mpr (Or.inl hn), fun m hm => ?_⟩
        rcases (hcame v m).mp hm with hold | ⟨rfl, -⟩
        · exact absurd ((h.mem_iff v).mpr ⟨m, hold⟩) hmem
        · exact hn.lt

/-- A learner is taken off the list, or nobody. -/
theorem KeepsOrder.leave (keep : UserId → Bool) (h : KeepsOrder cfg ls c labSlug)
    (hcame : ∀ u n, Came cfg (ls ++ [l]) ⟨u, labSlug⟩ n ↔ Came cfg ls ⟨u, labSlug⟩ n
      ∧ keep u = true)
    (hlist : d.shared.queue.waiting labSlug = (c.shared.queue.waiting labSlug).filter keep) :
    KeepsOrder cfg (ls ++ [l]) d labSlug where
  mem_iff u := by
    rw [hlist, List.mem_filter, h.mem_iff]
    simp only [hcame, exists_and_right]
  before u v hahead := by
    rw [hlist] at hahead
    obtain ⟨n, hn, hfirst⟩ := h.before u v (hahead.trans List.filter_sublist)
    have hu : keep u = true := (List.mem_filter.mp (hahead.subset List.mem_cons_self)).2
    exact ⟨n, (hcame u n).mpr ⟨hn, hu⟩, fun m hm => hfirst m ((hcame v m).mp hm).1⟩

theorem keepsOrder_snoc (hrefreshed : Refreshed cfg d.shared) (hdated : Dated cfg d.shared)
    (hexec : (hallSystem cfg).exec HallConf.init ls = some c)
    (hnext : (hallSystem cfg).next c l = some d) (h : KeepsOrder cfg ls c labSlug) :
    KeepsOrder cfg (ls ++ [l]) d labSlug := by
  by_cases hkept : Kept cfg d.shared labSlug
  · have hlives : d.shared.now < d.shared.expires labSlug := by
      obtain ⟨userId, hpolls⟩ := hkept
      exact not_le.mp (not_expired_of_polls hdated hpolls)
    rcases line_next hnext hlives with ⟨userId, hpoll, hlist⟩ | ⟨userId, hleaves, hlist⟩
      | ⟨hidle, hlist⟩
    · refine h.poll (fun u n => ?_) hlist
      have hstays : stepsFrom .dequeue c l ≠ some ⟨u, labSlug⟩ := fun hleaves =>
        absurd (stepsFrom_unique hpoll hleaves) (by decide)
      rw [came_snoc hexec hnext]
      simp [hkept, hstays, hpoll, eq_comm]
    · refine h.leave (fun v => v != userId) (fun u n => ?_) hlist
      have hpoll : stepsFrom .enqueue c l ≠ some ⟨u, labSlug⟩ := fun hpoll =>
        absurd (stepsFrom_unique hleaves hpoll) (by decide)
      have hother : stepsFrom .dequeue c l ≠ some ⟨u, labSlug⟩ ↔ (u != userId) = true := by
        rw [hleaves, bne_iff_ne, not_iff_not]
        simp [eq_comm]
      rw [came_snoc hexec hnext, hother]
      simp [hkept, hpoll]
    · refine h.leave (fun _ => true) (fun u n => ?_) (by rw [hlist, List.filter_true])
      rw [came_snoc hexec hnext]
      simp [hkept, hidle]
  · refine keepsOrder_of_empty ?_ fun u n hcame => hkept ((came_snoc hexec hnext).mp hcame).1
    by_contra hwaiting
    exact hkept (hrefreshed.kept hwaiting)

theorem keepsOrder_exec (httl : 0 < cfg.queueTtl) (labSlug : Slug) :
    ∀ {ls : List HallLabel} {c : HallConf}, (hallSystem cfg).exec HallConf.init ls = some c →
      KeepsOrder cfg ls c labSlug := by
  intro ls
  induction ls using List.reverseRecOn with
  | nil =>
    intro c hexec
    cases hexec
    exact keepsOrder_of_empty rfl fun u n => not_came_nil
  | append_singleton ls l ih =>
    intro d hexec
    obtain ⟨c, hc, hlast⟩ := (System.exec_append _).mp hexec
    simp only [System.exec] at hlast
    split at hlast
    · cases hlast
    · rename_i d' hnext
      cases hlast
      have hinit : Refreshed cfg HallConf.init.shared ∧ Dated cfg HallConf.init.shared :=
        ⟨refreshed_init, dated_init⟩
      have hrun : (hallSystem cfg).Throughout (fun c => Refreshed cfg c.shared ∧ Dated cfg c.shared)
          HallConf.init (ls ++ [l]) :=
        (hallSystem cfg).throughout_of_preserved
          (fun _ _ _ hc hstep => ⟨refreshed_next httl hc.1 hstep, dated_next hc.2 hstep⟩) hinit
      obtain ⟨hrefreshed, hdated⟩ := hrun.exec _ hexec
      exact keepsOrder_snoc hrefreshed hdated hc hnext (ih hc)

/-- Of two learners in a list the one who came first is ahead. -/
theorem not_precedes_iff (h : KeepsOrder cfg ls c labSlug) (hne : a ≠ b)
    (ha : a ∈ c.shared.queue.waiting labSlug) :
    ¬ Precedes c.shared labSlug a b ↔ CameBefore cfg ls labSlug b a := by
  constructor
  · intro hprec
    rw [Precedes, not_or, not_not] at hprec
    have hahead : Ahead b a (c.shared.queue.waiting labSlug) :=
      (ahead_or_ahead hne ha hprec.1).resolve_left hprec.2
    exact h.before b a hahead
  · rintro ⟨n, hn, hfirst⟩ (hout | hahead)
    · exact hout ((h.mem_iff b).mpr ⟨n, hn⟩)
    · obtain ⟨m, hm, hfirst'⟩ := h.before a b hahead
      exact absurd (hfirst m hm) (hfirst' n hn).not_gt

/-- Where somebody polls the queue lives longer than no time. -/
theorem ttl_pos (hexec : (hallSystem cfg).exec HallConf.init ls = some c)
    (h : Polls cfg c.shared req) :
    0 < cfg.queueTtl := by
  obtain ⟨t, hpolled, hlt⟩ := h
  have hle : t ≤ c.shared.now := (dated_exec hexec req.labSlug req.userId t hpolled).1
  exact (lt_add_iff_pos_right t).mp (hle.trans_lt hlt)

/-- **Nobody overtakes in a run exactly when the learners come back to the counters in the order in
which they came.** -/
theorem noOvertaking_iff (cfg : QueueConfig) (ls : List HallLabel) :
    NoOvertaking cfg ls ↔ ReturnsInOrder cfg ls := by
  rw [noOvertaking_iff_along_inTurn, System.along_iff_forall_split]
  constructor
  · intro h first l rest c d labSlug a b hsplit hexec hnext hask hfree hne hcame hletIn hpolls
    have hkeeps : KeepsOrder cfg first c labSlug :=
      keepsOrder_exec (ttl_pos hexec hpolls) labSlug hexec
    have hmem : a ∈ c.shared.queue.waiting labSlug := (hkeeps.mem_iff a).mpr hcame
    have hidle : ∀ p ∈ c.procs, p.req = ⟨a, labSlug⟩ → p.pc ≠ .dequeue := fun p hp hreq hpc =>
      hletIn ⟨p, hp, hreq, hpc⟩
    obtain ⟨pid, answer, rfl, hproc⟩ := stepsFrom_eq_some hask
    refine (not_precedes_iff hkeeps hne hmem).mp fun hprec => ?_
    exact h first _ rest c d hsplit hexec hnext pid answer ⟨b, labSlug⟩ rfl hproc hfree a hne
      ⟨hmem, hidle⟩
      hprec hpolls
  · rintro h first _ rest c d hsplit hexec hnext pid answer ⟨b, labSlug⟩ rfl hproc hfree a hne
      ⟨hmem, hidle⟩ hprec hpolls
    have hkeeps : KeepsOrder cfg first c labSlug :=
      keepsOrder_exec (ttl_pos hexec hpolls) labSlug hexec
    have hask : stepsFrom .acquire c (.run pid answer) = some ⟨b, labSlug⟩ := by
      simp [stepsFrom, hproc]
    have hletIn : ¬ LetIn c ⟨a, labSlug⟩ := fun ⟨p, hp, hreq, hpc⟩ => hidle p hp hreq hpc
    have hbefore : CameBefore cfg first labSlug b a :=
      h first _ rest c d labSlug a b hsplit hexec hnext hask hfree hne ((hkeeps.mem_iff a).mp hmem)
        hletIn hpolls
    exact (not_precedes_iff hkeeps hne hmem).mpr hbefore hprec

def oneSlotQueue : QueueConfig := ⟨oneSlot, 900⟩

/-- Ann has the only slot and bob is put into the queue; when ann's session ends, eve is the first
to ask. -/
def eveAsksFirst : List HallLabel :=
  [.spawn ⟨"ann", "vlan"⟩, .run 0 .missing, .run 0 .missing, .run 0 .missing, .run 0 .created,
    .spawn ⟨"bob", "vlan"⟩, .run 1 .missing, .run 1 .missing, .run 1 .missing,
    .env (.release "vlan"), .spawn ⟨"eve", "vlan"⟩, .run 2 .missing]

theorem not_noOvertaking_eveAsksFirst :
    ¬ NoOvertaking oneSlotQueue (eveAsksFirst ++ [.run 2 .missing]) := by
  intro h
  have hwaits : Waits ((hallSystem oneSlotQueue).last HallConf.init eveAsksFirst) ⟨"bob",
      "vlan"⟩ := by
    constructor
    · decide
    · decide
  have hprec :
      Precedes ((hallSystem oneSlotQueue).last HallConf.init eveAsksFirst).shared "vlan"
      "bob" "eve" :=
    Or.inl (by decide)
  have hpolls :
      Polls oneSlotQueue ((hallSystem oneSlotQueue).last HallConf.init eveAsksFirst).shared
      ⟨"bob", "vlan"⟩ := ⟨0, by decide, by decide⟩
  exact h eveAsksFirst [] (.run 2 .missing) [] _ _ _ "vlan" "bob" "eve" rfl (by decide) rfl hwaits
    hprec hpolls
    trivial rfl rfl (by decide)

end OnlinetLabs.Sessions
