import OnlinetLabs.Sessions.WellFormed

/-!
# The limit of a learner

The count in `launch_session` is taken without a lock, and two launches can both pass it. What
bounds the live rows of a learner is the advisory lock of the transaction that inserts one: whoever
is past its recount holds the lock, so the count it found can only have gone down since. The two
commits after the external call leave the count as it is or take the row out of it, as long as
nobody ends the row meanwhile: finalizing an ended row would bring it back.
-/

namespace OnlinetLabs.Sessions

open Interleaving

variable {cfg : Config} {s s' : Shared} {p p' q : Proc} {a : Answer} {c c' : World} {l : Move}
  {req : LaunchRequest} {userId : UserId} {cap : Nat} {pid : Nat} {sid : SessionId}

def LaunchPc.holdsLock : LaunchPc → Bool
  | .recount _ => true
  | .insert _ => true
  | _ => false

def Proc.holdsLock (userId : UserId) : Proc → Bool
  | .launch req pc => pc.holdsLock && req.userId == userId
  | _ => false

def Proc.inserts (userId : UserId) : Proc → Bool
  | .launch req (.insert _) => req.userId == userId
  | _ => false

def Proc.isLaunch : Proc → Bool
  | .launch _ _ => true
  | .done => true
  | _ => false

/-- Launches, the clock and erasures, but nothing that ends a session. -/
def withoutEnds : Move → Bool
  | .env _ => true
  | .spawn (.launch _ _) => true
  | .spawn _ => false
  | .run _ _ => true

theorem Proc.holdsLock_of_inserts (h : p.inserts userId = true) : p.holdsLock userId = true := by
  cases p with
  | launch req pc =>
      cases pc with
      | insert isNew => exact h
      | _ => cases h
  | _ => cases h

theorem releaseIfNew_isLaunch {isNew : Bool} : (releaseIfNew req isNew).isLaunch = true := by
  cases isNew <;> rfl

theorem releaseIfNew_holdsLock {isNew : Bool} :
    (releaseIfNew req isNew).holdsLock userId = false := by
  cases isNew <;> rfl

/-! ### The lock -/

theorem count_unlock (h : req.userId = userId → userId ∈ s.advisory) :
    (s.unlock req.userId).advisory.count userId + (if req.userId == userId then 1 else 0)
      = s.advisory.count userId := by
  rw [Shared.unlock, List.count_erase]
  by_cases huser : req.userId = userId
  · have hpos : 0 < s.advisory.count userId := List.count_pos_iff.mpr (h huser)
    rw [huser]
    simp only [beq_self_eq_true, if_true]
    omega
  · simp [huser]

/-- What a step of a launch does to the lock, and what it goes on with. -/
structure LockStep (cap : Nat) (userId : UserId) (s s' : Shared) (p p' : Proc) : Prop where
  isLaunch : p'.isLaunch = true
  held : s'.advisory.count userId + (if p.holdsLock userId then 1 else 0)
    = s.advisory.count userId + (if p'.holdsLock userId then 1 else 0)
  enters : p'.holdsLock userId = true → p.holdsLock userId = false → userId ∉ s.advisory
  leaves : p.inserts userId = true → p'.holdsLock userId = false
  room : p'.inserts userId = true → countActiveSessions s'.sessions userId < cap

theorem lockStep_outside (hlaunch : p'.isLaunch = true) (hadvisory : s'.advisory = s.advisory)
    (hp : p.holdsLock userId = false) (hp' : p'.holdsLock userId = false) :
    LockStep cap userId s s' p p' where
  isLaunch := hlaunch
  held := by rw [hadvisory, hp, hp']
  enters := fun h => by rw [hp'] at h; cases h
  leaves := fun _ => hp'
  room := fun h => by rw [Proc.holdsLock_of_inserts h] at hp'; cases hp'

theorem lockStep_unlock (hlaunch : p'.isLaunch = true)
    (hadvisory : s'.advisory = (s.unlock req.userId).advisory)
    (hmem : req.userId = userId → userId ∈ s.advisory)
    (hp : p.holdsLock userId = (req.userId == userId))
    (hp' : p'.holdsLock userId = false) : LockStep cap userId s s' p p' where
  isLaunch := hlaunch
  held := by
    rw [hadvisory, hp, hp']
    exact count_unlock hmem
  enters := fun h => by rw [hp'] at h; cases h
  leaves := fun _ => hp'
  room := fun h => by rw [Proc.holdsLock_of_inserts h] at hp'; cases hp'

theorem LaunchPc.lockStep {pc : LaunchPc} (h : pc.step cfg s req a = some (s', p'))
    (hlock : pc.holdsLock = true → req.userId = userId → userId ∈ s.advisory) :
    LockStep cfg.capacity.maxSessionsPerUser userId s s' (.launch req pc) p' := by
  cases pc with
  | lock isNew =>
      simp only [step] at h
      split at h
      · cases h
      · rename_i hfree
        cases h
        refine ⟨rfl, ?_, fun huser _ => ?_, (by rintro ⟨⟩), (by rintro ⟨⟩)⟩
        · simp only [Proc.holdsLock, LaunchPc.holdsLock, Bool.false_and, Bool.true_and,
            Bool.false_eq_true, if_false, Nat.add_zero, List.count_cons]
        · simp only [Proc.holdsLock, LaunchPc.holdsLock, Bool.true_and, beq_iff_eq] at huser
          rwa [huser] at hfree
  | recount isNew =>
      simp only [step] at h
      split at h
      · cases h
        exact lockStep_unlock releaseIfNew_isLaunch rfl (hlock rfl) rfl releaseIfNew_holdsLock
      · rename_i hroom
        cases h
        refine ⟨rfl, rfl, fun huser hno => ?_, (by rintro ⟨⟩), fun huser => ?_⟩
        · exact absurd (hno.symm.trans huser) Bool.false_ne_true
        · rw [Proc.inserts, beq_iff_eq] at huser
          rw [← huser]
          exact Nat.lt_of_not_le hroom
  | insert isNew =>
      simp only [step] at h
      split at h
      · cases h
        exact lockStep_unlock releaseIfNew_isLaunch rfl (hlock rfl) rfl releaseIfNew_holdsLock
      · cases h
        exact lockStep_unlock rfl rfl (hlock rfl) rfl rfl
  | lookup | acquire | relookup | checks | create | finalizeGet | finalizeCommit
  | finalizeRefresh =>
      simp only [step] at h
      repeat' split at h
      all_goals
        cases h
        first
          | exact lockStep_outside rfl rfl rfl rfl
          | exact lockStep_outside releaseIfNew_isLaunch rfl rfl releaseIfNew_holdsLock
  | resume isNew =>
      cases h
      exact lockStep_outside releaseIfNew_isLaunch rfl rfl releaseIfNew_holdsLock
  | dequeue | enqueue | startMonitor | release =>
      cases h
      exact lockStep_outside rfl rfl rfl rfl

/-! ### The rows that count -/

/-- The row of every launch that has still to finalize it is provisioning. -/
def Provisional (c : World) : Prop :=
  ∀ p ∈ c.procs, ∀ sid, p.launching = some sid →
    ∀ r, c.shared.sessions.get? sid = some r → r.status = .provisioning

theorem Writes.get?_other {sessions : SessionTable} (h : Writes cfg s p sessions p')
    (hlaunch : p.isLaunch = true) (hlt : sid < s.sessions.size) (hother : p.launching ≠ some sid) :
    sessions.get? sid = s.sessions.get? sid := by
  cases h with
  | nothing => rfl
  | insert hfree => rw [Table.get?_insert, if_neg (Nat.ne_of_lt hlt)]
  | finalize hrow hfree =>
      apply Table.get?_set_of_ne hrow
      rintro rfl
      exact hother rfl
  | markEnded hrow => cases hlaunch

theorem Provisional.run (h : Provisional c) (hwf : Wf c) (hpid : c.procs[pid]? = some p)
    (hlaunch : p.isLaunch = true) (hstep : p.step cfg c.shared a = some (s', p')) :
    Provisional ⟨s', c.procs.set pid p'⟩ := by
  have hwrites := Proc.step_writes hstep
  have hmem := mem_of_getElem? hpid
  have hp := hwf.procs p hmem
  intro q hq sid hsid r hr
  obtain ⟨j, hj⟩ := List.mem_iff_getElem?.mp hq
  rw [List.getElem?_set] at hj
  by_cases hpidj : pid = j
  · -- the process that moved
    rw [if_pos hpidj] at hj
    split at hj
    · cases hj
      have hkept : s'.sessions = c.shared.sessions → r.status = .provisioning := by
        intro hsame
        rw [hsame] at hr
        rcases Proc.step_launching hstep hwf.keyed with hnone | hold | hnew
        · exact absurd (hnone.symm.trans hsid) nofun
        · exact h p hmem sid (hold.symm.trans hsid) r hr
        · rw [hsid, Option.some.injEq] at hnew
          exact absurd (Table.lt_size_of_get? hr) (by rw [hnew]; exact Nat.lt_irrefl _)
      generalize s'.sessions = sessions at hwrites hr hkept
      cases hwrites with
      | nothing => exact hkept rfl
      | insert hfree =>
          cases hsid
          rw [Table.get?_insert_size] at hr
          cases hr
          rfl
      | finalize hrow hfree => cases hsid
      | markEnded hrow => cases hlaunch
    · cases hj
  · -- any other process: its row is not the one that was written
    rw [if_neg hpidj] at hj
    have hother : p.launching ≠ some sid := fun hmover =>
      hpidj (hwf.exclusive sid pid j p q hpid hj hmover hsid)
    have hq' := mem_of_getElem? hj
    obtain ⟨req, pc, -, hrow⟩ := (hwf.procs q hq').unfinalized hsid
    rw [hwrites.get?_other hlaunch hrow.lt hother] at hr
    exact h q hq' sid hsid r hr

/-- **What a launch does to the count**: only the insert of a row adds to it. -/
theorem Writes.countActive {sessions : SessionTable} (h : Writes cfg s p sessions p')
    (hlaunch : p.isLaunch = true)
    (hrow : ∀ sid, p.launching = some sid → ∀ r, s.sessions.get? sid = some r →
      r.status = .provisioning) :
    countActiveSessions sessions userId
      ≤ countActiveSessions s.sessions userId + (if p.inserts userId then 1 else 0) := by
  unfold countActiveSessions
  cases h with
  | nothing => exact Nat.le_add_right _ _
  | insert hfree =>
      rw [Table.count_insert]
      apply Nat.add_le_add_left
      simp only [provisioningRow, Status.isLive, Bool.and_true, Proc.inserts]
      exact Nat.le_refl _
  | finalize hcurrent hfree =>
      rename_i req isNew loaded current result
      apply Nat.le_trans _ (Nat.le_add_right _ _)
      apply Table.count_set_le _ hcurrent
      -- the row counted before, whatever it becomes
      intro hcounts
      rw [Bool.and_eq_true] at hcounts ⊢
      rw [hrow loaded.id rfl current hcurrent]
      exact ⟨hcounts.1, rfl⟩
  | markEnded hcurrent => cases hlaunch

/-! ### The invariant -/

/-- Who is past the recount holds the lock, alone, and there is room for one more row. -/
structure Capped (cap : Nat) (userId : UserId) (c : World) : Prop where
  wf : Wf c
  launches : ∀ p ∈ c.procs, p.isLaunch = true
  provisional : Provisional c
  lock : c.procs.countP (Proc.holdsLock userId) = c.shared.advisory.count userId
  alone : c.shared.advisory.count userId ≤ 1
  within : countActiveSessions c.shared.sessions userId ≤ cap
  room : ∀ p ∈ c.procs, p.inserts userId = true →
    countActiveSessions c.shared.sessions userId < cap

theorem Capped.env (h : Capped cap userId c) {e : Env} (hs : e.apply c.shared = some s) :
    Capped cap userId { c with shared := s } := by
  have hwf := h.wf.env hs
  cases e with
  | tick d =>
      cases hs
      exact ⟨hwf, h.launches, h.provisional, h.lock, h.alone, h.within, h.room⟩
  | erase erased =>
      cases hs
      have hfewer : countActiveSessions (c.shared.sessions.deleteWhere (·.userId == erased)) userId
          ≤ countActiveSessions c.shared.sessions userId :=
        Table.count_deleteWhere_le _ _
      refine ⟨hwf, h.launches, ?_, h.lock, h.alone, Nat.le_trans hfewer h.within, ?_⟩
      · exact fun p hp sid hsid r hr =>
          h.provisional p hp sid hsid r (Table.get?_of_get?_deleteWhere hr)
      · exact fun p hp hinserts => Nat.lt_of_le_of_lt hfewer (h.room p hp hinserts)

theorem Capped.spawn (h : Capped cap userId c) (who : UserId) (labSlug : Slug)
    (hwf : Wf { c with procs := c.procs ++ [(Request.launch who labSlug).spawn] }) :
    Capped cap userId { c with procs := c.procs ++ [(Request.launch who labSlug).spawn] } where
  wf := hwf
  launches := forall_mem_append h.launches rfl
  provisional := forall_mem_append h.provisional nofun
  lock := by
    rw [List.countP_append, h.lock]
    rfl
  alone := h.alone
  within := h.within
  room := forall_mem_append h.room nofun

theorem Capped.run (h : Capped cfg.capacity.maxSessionsPerUser userId c)
    (hpid : c.procs[pid]? = some p) (hstep : p.step cfg c.shared a = some (s', p')) :
    Capped cfg.capacity.maxSessionsPerUser userId ⟨s', c.procs.set pid p'⟩ := by
  have hmem := mem_of_getElem? hpid
  have hlaunch := h.launches p hmem
  have hwf := h.wf.step hpid hstep
  obtain ⟨req, pc, rfl⟩ : ∃ req pc, p = .launch req pc := by
    cases p with
    | launch req pc => exact ⟨req, pc, rfl⟩
    | done => cases hstep
    | _ => cases hlaunch
  -- a launch past the lock holds it
  have hlock : pc.holdsLock = true → req.userId = userId → userId ∈ c.shared.advisory := by
    intro hpc huser
    have hholds : (Proc.launch req pc).holdsLock userId = true := by
      rw [Proc.holdsLock, hpc, huser, Bool.true_and, beq_self_eq_true]
    rw [← List.count_pos_iff, ← h.lock]
    exact List.countP_pos_iff.mpr ⟨_, hmem, hholds⟩
  have hstepped := @LaunchPc.lockStep cfg c.shared s' p' a req userId pc hstep hlock
  have hcount : countActiveSessions s'.sessions userId
      ≤ countActiveSessions c.shared.sessions userId
        + (if (Proc.launch req pc).inserts userId then 1 else 0) :=
    (Proc.step_writes hstep).countActive hlaunch (h.provisional _ hmem)
  have hheld := countP_set_add (Proc.holdsLock userId) hpid p'
  have hbalance := hstepped.held
  have hbefore := h.lock
  have hlocked :
      (c.procs.set pid p').countP (Proc.holdsLock userId) = s'.advisory.count userId := by
    omega
  have hone := h.alone
  have halone : s'.advisory.count userId ≤ 1 := by
    cases hholds : p'.holdsLock userId with
    | false =>
        rw [hholds] at hbalance
        exact Nat.le_trans (Nat.le.intro hbalance) hone
    | true =>
        cases hheld' : (Proc.launch req pc).holdsLock userId with
        | true =>
            rw [hholds, hheld', if_pos rfl] at hbalance
            omega
        | false =>
            -- nobody held it
            have hnone := List.count_eq_zero.mpr (hstepped.enters hholds hheld')
            rw [hholds, hheld', if_neg Bool.false_ne_true, if_pos rfl] at hbalance
            omega
  refine ⟨hwf, forall_mem_set h.launches hstepped.isLaunch,
    h.provisional.run h.wf hpid hlaunch hstep, hlocked, halone, ?_, ?_⟩
  · by_cases hinserts : (Proc.launch req pc).inserts userId = true
    · rw [if_pos hinserts] at hcount
      have hroom := h.room _ hmem hinserts
      exact Nat.le_trans hcount hroom
    · rw [if_neg hinserts] at hcount
      exact Nat.le_trans hcount h.within
  · intro q hq hinserts
    obtain ⟨j, hj⟩ := List.mem_iff_getElem?.mp hq
    rw [List.getElem?_set] at hj
    by_cases hpidj : pid = j
    · rw [if_pos hpidj] at hj
      split at hj
      · cases hj
        exact hstepped.room hinserts
      · cases hj
    · rw [if_neg hpidj] at hj
      by_cases hmover : (Proc.launch req pc).inserts userId = true
      · -- there would be two holders
        have hq' : 0 < (c.procs.set pid p').countP (Proc.holdsLock userId) :=
          List.countP_pos_iff.mpr ⟨q, hq, Proc.holdsLock_of_inserts hinserts⟩
        rw [hstepped.leaves hmover, Proc.holdsLock_of_inserts hmover] at hheld
        simp only [Bool.false_eq_true, if_false, if_true] at hheld
        omega
      · rw [if_neg hmover] at hcount
        exact Nat.lt_of_le_of_lt hcount (h.room q (mem_of_getElem? hj) hinserts)

theorem Capped.next (h : Capped cfg.capacity.maxSessionsPerUser userId c)
    (hl : withoutEnds l = true) (hnext : (platform cfg).next c l = some c') :
    Capped cfg.capacity.maxSessionsPerUser userId c' := by
  have hwf := h.wf.next hnext
  rcases (platform cfg).next_cases hnext with ⟨e, s, rfl, hs, rfl⟩ | ⟨i, rfl, rfl⟩
    | ⟨pid, a, p, s, p', rfl, hpid, hstep, rfl⟩
  · exact h.env hs
  · cases i with
    | launch who labSlug => exact h.spawn who labSlug hwf
    | _ => cases hl
  · exact h.run hpid hstep

/-- **The limit of a learner.** Launches from anywhere, in any interleaving, while no session is
ended: a learner who is within the limit stays within it, with one live row for each lab. -/
theorem live_sessions_capped (cfg : Config) (userId : UserId) (c : World) (hwf : Wf c)
    (hcalls : ∀ p ∈ c.procs, ∃ req isNew, p = .launch req (.relookup isNew))
    (hfree : c.shared.advisory = [])
    (hcap : countActiveSessions c.shared.sessions userId ≤ cfg.capacity.maxSessionsPerUser)
    (ls : List Move) (hls : ∀ l ∈ ls, withoutEnds l = true) :
    (platform cfg).Throughout (fun c =>
      countActiveSessions c.shared.sessions userId ≤ cfg.capacity.maxSessionsPerUser
        ∧ ∀ k k' r r', c.shared.sessions.get? k = some r → c.shared.sessions.get? k' = some r' →
            r.userId = userId → r'.userId = userId → r.status.isLive → r'.status.isLive →
              r.labSlug = r'.labSlug → k = k') c ls := by
  have hstart : Capped cfg.capacity.maxSessionsPerUser userId c := by
    refine ⟨hwf, ?_, ?_, ?_, ?_, hcap, ?_⟩
    · intro p hp
      obtain ⟨req, isNew, rfl⟩ := hcalls p hp
      rfl
    · intro p hp sid hsid
      obtain ⟨req, isNew, rfl⟩ := hcalls p hp
      cases hsid
    · rw [hfree, List.count_nil, List.countP_eq_zero]
      intro p hp
      obtain ⟨req, isNew, rfl⟩ := hcalls p hp
      exact Bool.false_ne_true
    · rw [hfree]
      exact Nat.zero_le _
    · intro p hp hinserts
      obtain ⟨req, isNew, rfl⟩ := hcalls p hp
      cases hinserts
  have hcapped :=
    (platform cfg).throughout_of_along (fun _ _ _ h hl hnext => h.next hl hnext) hstart
    ((platform cfg).along_of_forall_mem hls)
  refine System.Throughout.mono _ (fun c h => ⟨h.within, ?_⟩) hcapped
  intro k k' r r' hr hr' huser huser' hlive hlive' hlab
  exact h.wf.oneLive k k' r r' hr hr' hlive hlive' (huser.trans huser'.symm) hlab

/-- Two calls on two labs where one more session is allowed: one of them is refused by the
recount. -/
theorem live_sessions_capped_twoLabs :
    (platform (.uniform 5 1 (minutes 60))).Throughout (fun c =>
      countActiveSessions c.shared.sessions "learner" ≤ 1
        ∧ ∀ k k' r r', c.shared.sessions.get? k = some r → c.shared.sessions.get? k' = some r' →
            r.userId = "learner" → r'.userId = "learner" → r.status.isLive → r'.status.isLive →
              r.labSlug = r'.labSlug → k = k')
      ⟨.init, [.launch ⟨"learner", "vlan"⟩ (.relookup true),
        .launch ⟨"learner", "ospf"⟩ (.relookup true)]⟩
      [.run 0 .ok, .run 1 .ok, .run 0 .ok, .run 1 .ok, .run 0 .ok, .run 0 .ok, .run 0 .ok,
        .run 1 .ok, .run 1 .ok, .run 0 .ok, .run 0 .ok, .run 0 .ok, .run 0 .ok, .run 0 .ok] := by
  apply live_sessions_capped (.uniform 5 1 (minutes 60)) "learner"
  · refine ⟨wf_init.keyed, wf_init.oneLive, wf_init.recorded, ?_, fun sid => ?_⟩
    · exact List.forall_mem_cons.mpr ⟨trivial, List.forall_mem_singleton.mpr trivial⟩
    · have hfirst : Exclusive (fun p : Proc => p.launching = some sid)
          [.launch ⟨"learner", "vlan"⟩ (.relookup true)] := (exclusive_nil _).append nofun
      exact hfirst.append nofun
  · exact List.forall_mem_cons.mpr
      ⟨⟨_, _, rfl⟩, List.forall_mem_singleton.mpr ⟨_, _, rfl⟩⟩
  · rfl
  · decide
  · decide

end OnlinetLabs.Sessions
