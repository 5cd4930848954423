import OnlinetLabs.Sessions.Invariants

/-!
# Every move preserves well-formedness

The rows first, by the four writes; then the process that moved, by its program counter; then every
other process, whose copies survive any write and whose unfinalized row is nobody else's.
-/

namespace OnlinetLabs.Sessions

open Interleaving

variable {cfg : Config} {s s' : Shared} {p p' : Proc} {a : Answer} {sessions : SessionTable}
  {sid : SessionId} {req : LaunchRequest}

/-! ### The rows -/

theorem Writes.oneLive (h : Writes cfg s p sessions p') (hp : p.Wf s.sessions)
    (hkeyed : Keyed s.sessions) (hone : OneLive s.sessions) : OneLive sessions := by
  cases h with
  | nothing => exact hone
  | insert hfree => exact hone.insert hkeyed rfl hfree
  | finalize hrow hfree =>
      have hid := hkeyed _ _ hrow
      exact hone.set hkeyed hrow hid hfree
  | markEnded hrow =>
      have hid := hkeyed _ _ hrow
      rw [LearningSession.flush_markEnded hp.1.2.1 hp.1.2.2]
      refine hone.set hkeyed hrow hid (liveTwin_eq_false_iff.mpr fun hlive => ?_)
      simp [Sessions.markEnded] at hlive

theorem Writes.recorded (h : Writes cfg s p sessions p') (hp : p.Wf s.sessions)
    (hrec : ∀ (k : SessionId) (r : LearningSession), s.sessions.get? k = some r → r.EndRecorded) :
    ∀ (k : SessionId) (r : LearningSession), sessions.get? k = some r → r.EndRecorded := by
  intro k r hk
  cases h with
  | nothing => exact hrec k r hk
  | insert hfree =>
      rw [Table.get?_insert] at hk
      split at hk
      · cases hk
        exact fun hend => Bool.noConfusion hend
      · exact hrec k r hk
  | @finalize req isNew loaded current result hrow hfree =>
      rw [LearningSession.flush_assign hp.2, Table.get?_set hrow] at hk
      split at hk
      · cases hk
        cases result with
        | active gns3 => exact fun hend => Bool.noConfusion hend
        | error => exact fun hend => Bool.noConfusion hend
      · exact hrec k r hk
  | markEnded hrow =>
      rw [LearningSession.flush_markEnded hp.1.2.1 hp.1.2.2, Table.get?_set hrow] at hk
      split at hk
      · cases hk
        exact fun _ => rfl
      · exact hrec k r hk

/-- A finalization is the only write of `meta`, and finds none. -/
theorem Writes.evolves (h : Writes cfg s p sessions p') (hp : p.Wf s.sessions) :
    Evolves s.sessions sessions := by
  cases h with
  | nothing => exact .refl _
  | insert hfree => exact .insert
  | @finalize req isNew loaded current result hrow hfree =>
      refine .set hrow ⟨rfl, rfl, rfl, fun m hm => ?_⟩
      rw [(hp.1.row current hrow).2.2.1] at hm
      exact nomatch hm
  | markEnded hrow =>
      rw [LearningSession.flush_markEnded hp.1.2.1 hp.1.2.2]
      exact .set hrow ⟨rfl, rfl, rfl, fun _ hm => hm⟩

/-- Until its own launch finalizes it, a row is only ended. -/
theorem Writes.unfinalized (h : Writes cfg s p sessions p') (hp : p.Wf s.sessions)
    (hrow : Unfinalized s.sessions req sid) (hne : p.launching ≠ some sid) :
    Unfinalized sessions req sid := by
  refine ⟨Nat.lt_of_lt_of_le hrow.lt (h.evolves hp).size_le, fun r hr => ?_⟩
  cases h with
  | nothing => exact hrow.row r hr
  | insert hfree =>
      rw [Table.get?_insert, if_neg (Nat.ne_of_lt hrow.lt)] at hr
      exact hrow.row r hr
  | finalize hcur hfree =>
      rw [Table.get?_set_of_ne hcur (fun heq => hne (by rw [heq]; rfl))] at hr
      exact hrow.row r hr
  | markEnded hcur =>
      rw [LearningSession.flush_markEnded hp.1.2.1 hp.1.2.2, Table.get?_set hcur] at hr
      split at hr
      · rename_i heq
        cases hr
        obtain ⟨huser, hlab, hmeta, -⟩ := hrow.row _ (heq ▸ hcur)
        exact ⟨huser, hlab, hmeta, Or.inr ⟨by simp [Sessions.markEnded], rfl⟩⟩
      · exact hrow.row r hr

theorem Unfinalized.deleteWhere (h : Unfinalized sessions req sid) (P : LearningSession → Bool) :
    Unfinalized (sessions.deleteWhere P) req sid :=
  ⟨by simpa using h.lt, fun r hr => h.row r (Table.get?_of_get?_deleteWhere hr)⟩

/-! ### The process that moved -/

theorem unfinalized_insert : Unfinalized (s.sessions.insert (provisioningRow cfg s req)) req
    s.sessions.size := by
  refine ⟨by simp, fun r hr => ?_⟩
  rw [Table.get?_insert_size] at hr
  cases hr
  exact ⟨rfl, rfl, rfl, Or.inl ⟨rfl, rfl⟩⟩

theorem releaseIfNew_wf {isNew : Bool} : (releaseIfNew req isNew).Wf sessions := by
  cases isNew with
  | false => trivial
  | true => trivial

theorem reapNext_wf {rest : List LearningSession} (h : ∀ r ∈ rest, CopyOf sessions r) :
    (reapNext rest).Wf sessions := by
  cases rest with
  | nil => trivial
  | cons session rest =>
      exact ⟨h session List.mem_cons_self, fun r hr => h r (List.mem_cons_of_mem _ hr)⟩

theorem Caller.resume_wf {caller : Caller} {session : LearningSession} (h : caller.Wf sessions) :
    (caller.resume session).Wf sessions := by
  cases caller with
  | endSession | sweep => trivial
  | endLab =>
      simp only [resume]
      split
      · exact fun r hr => absurd hr List.not_mem_nil
      · trivial
  | reaper gns3Sid rest =>
      cases gns3Sid with
      | none => exact reapNext_wf h
      | some gns3Sid => exact h

theorem Caller.raise_wf {caller : Caller} (h : caller.Wf sessions) : caller.raise.Wf sessions := by
  cases caller with
  | endSession | sweep | endLab => trivial
  | reaper gns3Sid rest => exact reapNext_wf h

theorem markEndedAndFinalize_wf {session : LearningSession} {status : EndStatus} {caller : Caller}
    (hcopy : CopyOf sessions session) (hrec : session.EndRecorded) (hcaller : caller.Wf sessions) :
    (markEndedAndFinalize session status caller).Wf sessions := by
  unfold markEndedAndFinalize
  split
  · exact Caller.resume_wf hcaller
  · rename_i hopen
    exact ⟨⟨hcopy, hrec, by simpa using hopen⟩, hcaller⟩

theorem LaunchPc.step_wf {pc : LaunchPc} (h : pc.step cfg s req a = some (s', p'))
    (hkeyed : Keyed s.sessions) (hp : pc.Wf s.sessions req) : p'.Wf s'.sessions := by
  cases pc with
  | insert isNew =>
      simp only [step] at h
      split at h
      · cases h
        exact releaseIfNew_wf
      · cases h
        exact unfinalized_insert
  | create isNew sid =>
      simp only [step] at h
      split at h
      all_goals
        cases h
        exact hp
  | finalizeGet isNew sid result =>
      simp only [step] at h
      split at h
      · cases h
        exact releaseIfNew_wf
      · rename_i loaded hloaded
        cases h
        have hid := hkeyed _ _ hloaded
        exact ⟨by rw [hid]; exact hp, (hp.row loaded hloaded).2.2⟩
  | finalizeCommit isNew loaded result =>
      simp only [step] at h
      repeat' split at h
      · cases h
        exact releaseIfNew_wf
      · cases h
        exact releaseIfNew_wf
      · cases h
        change loaded.id < Table.size _
        rw [Table.size_set]
        exact hp.1.lt
  | lock isNew =>
      simp only [step] at h
      split at h
      · cases h
      · cases h
        trivial
  | lookup | acquire =>
      simp only [step] at h
      split at h
      all_goals
        cases h
        trivial
  | relookup | checks | recount | finalizeRefresh =>
      simp only [step] at h
      repeat' split at h
      all_goals
        cases h
        first
          | trivial
          | exact releaseIfNew_wf
  | resume isNew =>
      cases h
      exact releaseIfNew_wf
  | dequeue | enqueue | startMonitor | release =>
      cases h
      trivial

theorem FinalizePc.step_wf {pc : FinalizePc} {caller : Caller}
    (h : (Proc.finalize pc caller).step cfg s a = some (s', p')) (hkeyed : Keyed s.sessions)
    (hp : (Proc.finalize pc caller).Wf s.sessions) : p'.Wf s'.sessions := by
  have hev : Evolves s.sessions s'.sessions := (Proc.step_writes h).evolves hp
  have hcaller : caller.Wf s'.sessions := by
    cases caller with
    | reaper gns3Sid rest => exact fun r hr => (hp.2 r hr).evolves hev
    | _ => trivial
  cases pc with
  | commit loaded status =>
      simp only [Proc.step, step] at h
      split at h
      · cases h
        exact Caller.raise_wf hcaller
      · cases h
        exact ⟨(hp.1.1.evolves hev).markEnded _ _, hcaller⟩
  | refresh session wasActive =>
      simp only [Proc.step, step] at h
      split at h
      · cases h
        exact Caller.raise_wf hcaller
      · rename_i row hrow
        cases h
        exact ⟨hkeyed.copyOf hrow, hcaller⟩
  | metrics session wasActive =>
      simp only [Proc.step, step] at h
      split at h
      · cases h
        exact Caller.raise_wf hcaller
      · cases h
        exact ⟨hp.1, hcaller⟩
      · cases h
        exact ⟨hp.1, hcaller⟩
  | release session wasActive =>
      cases h
      exact Caller.resume_wf hcaller

theorem Proc.step_wf (h : p.step cfg s a = some (s', p')) (hkeyed : Keyed s.sessions)
    (hrec : ∀ (k : SessionId) (r : LearningSession), s.sessions.get? k = some r → r.EndRecorded)
    (hp : p.Wf s.sessions) : p'.Wf s'.sessions := by
  cases p with
  | launch req pc => exact LaunchPc.step_wf h hkeyed hp
  | finalize pc caller => exact FinalizePc.step_wf h hkeyed hp
  | done => cases h
  | endLabRead sid userId =>
      simp only [step] at h
      split at h
      · cases h
        trivial
      · rename_i session hsession
        cases h
        have hget := (getOwnedSession_eq_some hsession).1
        exact ⟨hkeyed.copyOf hget, hrec _ _ hget⟩
  | endLabStop session =>
      cases h
      exact markEndedAndFinalize_wf hp.1 hp.2 trivial
  | endSessionRead sid userId status =>
      simp only [step] at h
      split at h
      · cases h
        trivial
      · rename_i session hsession
        cases h
        have hget := (getOwnedSession_eq_some hsession).1
        exact markEndedAndFinalize_wf (hkeyed.copyOf hget) (hrec _ _ hget) trivial
  | sweepRead sid userId =>
      simp only [step] at h
      split at h
      · cases h
        trivial
      · rename_i session hsession
        have hget := (getOwnedSession_eq_some hsession).1
        split at h
        · cases h
          trivial
        · cases h
          exact ⟨hkeyed.copyOf hget, hrec _ _ hget⟩
  | sweepState session =>
      simp only [step] at h
      split at h
      · cases h
        exact markEndedAndFinalize_wf hp.1 hp.2 trivial
      · cases h
        trivial
  | reapSelect =>
      cases h
      exact reapNext_wf fun r hr => hkeyed.copyOf_of_mem (List.mem_filter.mp hr).1
  | reapStop session rest =>
      cases h
      exact hp
  | reapGet session rest =>
      simp only [step] at h
      split at h
      · cases h
        exact Caller.resume_wf hp.2
      · rename_i row hrow
        cases h
        exact markEndedAndFinalize_wf (hkeyed.copyOf hrow) (hrec _ _ hrow) hp.2
  | teardown gns3Sid rest =>
      cases h
      exact reapNext_wf hp

/-! Only a launch between its two transactions stands over a row. -/

theorem releaseIfNew_launching {isNew : Bool} : (releaseIfNew req isNew).launching = none := by
  cases isNew <;> rfl

theorem reapNext_launching {rest : List LearningSession} : (reapNext rest).launching = none := by
  cases rest <;> rfl

theorem Caller.resume_launching {caller : Caller} {session : LearningSession} :
    (caller.resume session).launching = none := by
  cases caller with
  | endSession | sweep => rfl
  | endLab =>
      simp only [resume]
      split <;> rfl
  | reaper gns3Sid rest =>
      cases gns3Sid with
      | none => exact reapNext_launching
      | some gns3Sid => rfl

theorem Caller.raise_launching {caller : Caller} : caller.raise.launching = none := by
  cases caller with
  | endSession | sweep | endLab => rfl
  | reaper gns3Sid rest => exact reapNext_launching

theorem markEndedAndFinalize_launching {session : LearningSession} {status : EndStatus}
    {caller : Caller} : (markEndedAndFinalize session status caller).launching = none := by
  unfold markEndedAndFinalize
  split
  · exact Caller.resume_launching
  · rfl

theorem FinalizePc.step_launching {pc : FinalizePc} {caller : Caller}
    (h : pc.step s caller a = some (s', p')) : p'.launching = none := by
  cases pc with
  | commit | refresh | metrics =>
      simp only [step] at h
      split at h
      all_goals
        cases h
        first
          | rfl
          | exact Caller.raise_launching
  | release =>
      cases h
      exact Caller.resume_launching

/-- A launch comes to stand over a row either from an earlier step over it or by inserting it. -/
theorem LaunchPc.step_launching {pc : LaunchPc} (h : pc.step cfg s req a = some (s', p'))
    (hkeyed : Keyed s.sessions) :
    p'.launching = none ∨ p'.launching = pc.launching ∨ p'.launching = some s.sessions.size := by
  cases pc with
  | insert isNew =>
      simp only [step] at h
      split at h
      · cases h
        exact Or.inl releaseIfNew_launching
      · cases h
        exact Or.inr (Or.inr rfl)
  | create isNew sid =>
      simp only [step] at h
      split at h
      all_goals
        cases h
        exact Or.inr (Or.inl rfl)
  | finalizeGet isNew sid result =>
      simp only [step] at h
      split at h
      · cases h
        exact Or.inl releaseIfNew_launching
      · rename_i loaded hloaded
        cases h
        exact Or.inr (Or.inl (congrArg some (hkeyed _ _ hloaded)))
  | lock isNew =>
      simp only [step] at h
      split at h
      · cases h
      · cases h
        exact Or.inl rfl
  | lookup | acquire | relookup | checks | recount | finalizeCommit | finalizeRefresh =>
      simp only [step] at h
      repeat' split at h
      all_goals
        cases h
        first
          | exact Or.inl rfl
          | exact Or.inl releaseIfNew_launching
  | resume isNew =>
      cases h
      exact Or.inl releaseIfNew_launching
  | dequeue | enqueue | startMonitor | release =>
      cases h
      exact Or.inl rfl

theorem Proc.step_launching (h : p.step cfg s a = some (s', p')) (hkeyed : Keyed s.sessions) :
    p'.launching = none ∨ p'.launching = p.launching ∨ p'.launching = some s.sessions.size := by
  cases p with
  | launch req pc => exact LaunchPc.step_launching h hkeyed
  | finalize pc caller => exact Or.inl (FinalizePc.step_launching h)
  | done => cases h
  | endLabRead | endSessionRead | sweepRead | sweepState | reapGet =>
      simp only [step] at h
      repeat' split at h
      all_goals
        cases h
        first
          | exact Or.inl rfl
          | exact Or.inl markEndedAndFinalize_launching
          | exact Or.inl Caller.resume_launching
  | endLabStop =>
      cases h
      exact Or.inl markEndedAndFinalize_launching
  | reapSelect | teardown =>
      cases h
      exact Or.inl reapNext_launching
  | reapStop =>
      cases h
      exact Or.inl rfl

/-! ### Every process -/

structure Wf (c : World) : Prop where
  keyed : Keyed c.shared.sessions
  oneLive : OneLive c.shared.sessions
  recorded : ∀ (k : SessionId) (r : LearningSession), c.shared.sessions.get? k = some r →
    r.EndRecorded
  procs : ∀ p ∈ c.procs, p.Wf c.shared.sessions
  exclusive : ∀ sid, Exclusive (fun p : Proc => p.launching = some sid) c.procs

theorem wf_init : Wf World.init where
  keyed := fun _ _ h => nomatch h
  oneLive := fun _ _ _ _ h => nomatch h
  recorded := fun _ _ h => nomatch h
  procs := fun _ h => absurd h List.not_mem_nil
  exclusive := fun _ => exclusive_nil _

theorem Request.spawn_wf (i : Request) : i.spawn.Wf sessions := by
  cases i <;> trivial

theorem Request.launching_spawn (i : Request) : i.spawn.launching = none := by
  cases i <;> rfl

theorem Wf.env {c : World} (h : Wf c) {e : Env} (hs : e.apply c.shared = some s) :
    Wf { c with shared := s } := by
  cases e with
  | tick d =>
      cases hs
      exact ⟨h.keyed, h.oneLive, h.recorded, h.procs, h.exclusive⟩
  | erase userId =>
      cases hs
      refine ⟨fun k r hk => h.keyed k r (Table.get?_of_get?_deleteWhere hk),
        h.oneLive.deleteWhere _, fun k r hk => h.recorded k r (Table.get?_of_get?_deleteWhere hk),
        fun p hp => (h.procs p hp).mono .deleteWhere fun sid req _ hrow => hrow.deleteWhere _,
        h.exclusive⟩

/-- The row a launch stands over is nobody else's, also after the step that inserts it. -/
theorem Wf.exclusive_set {c : World} (h : Wf c) {pid : Nat} (hpid : c.procs[pid]? = some p)
    (hstep : p.step cfg c.shared a = some (s', p')) (sid : SessionId) :
    Exclusive (fun q : Proc => q.launching = some sid) (c.procs.set pid p') := by
  by_cases hsid : p'.launching = some sid
  · rcases Proc.step_launching hstep h.keyed with hnone | hold | hnew
    · exact absurd (hnone.symm.trans hsid) nofun
    · exact (h.exclusive sid).set hpid fun _ => hold.symm.trans hsid
    · refine Exclusive.of_none fun q hq hlaunching => ?_
      obtain ⟨req, pc, -, hrow⟩ := (h.procs q hq).unfinalized hlaunching
      rw [hsid, Option.some.injEq] at hnew
      exact absurd hrow.lt (by rw [hnew]; exact Nat.lt_irrefl _)
  · exact (h.exclusive sid).set hpid fun hp' => absurd hp' hsid

theorem Wf.step {c : World} (h : Wf c) {pid : Nat} (hpid : c.procs[pid]? = some p)
    (hstep : p.step cfg c.shared a = some (s', p')) : Wf ⟨s', c.procs.set pid p'⟩ := by
  have hp := h.procs p (mem_of_getElem? hpid)
  have hwrites := Proc.step_writes hstep
  refine ⟨hwrites.keyed h.keyed, hwrites.oneLive hp h.keyed h.oneLive,
    hwrites.recorded hp h.recorded, ?_, h.exclusive_set hpid hstep⟩
  intro q hq
  obtain ⟨j, hj⟩ := List.mem_iff_getElem?.mp hq
  rw [List.getElem?_set] at hj
  split at hj
  · split at hj
    · cases hj
      exact Proc.step_wf hstep h.keyed h.recorded hp
    · cases hj
  · rename_i hne
    refine (h.procs q (mem_of_getElem? hj)).mono (hwrites.evolves hp) fun sid req hsid hrow => ?_
    exact hwrites.unfinalized hp hrow fun hmover =>
      hne (h.exclusive sid pid j p q hpid hj hmover hsid)

theorem Wf.next {c c' : World} {l : Move} (h : Wf c) (hnext : (platform cfg).next c l = some c') :
    Wf c' := by
  rcases (platform cfg).next_cases hnext with ⟨e, s, -, hs, rfl⟩ | ⟨i, -, rfl⟩
    | ⟨pid, a, p, s, p', -, hpid, hstep, rfl⟩
  · exact h.env hs
  · refine ⟨h.keyed, h.oneLive, h.recorded, forall_mem_append h.procs i.spawn_wf, fun sid => ?_⟩
    refine (h.exclusive sid).append ?_
    change ¬ i.spawn.launching = some sid
    rw [i.launching_spawn]
    exact nofun
  · exact h.step hpid hstep

theorem wf_throughout (cfg : Config) (ls : List Move) :
    (platform cfg).Throughout Wf World.init ls :=
  (platform cfg).throughout_of_preserved (fun _ _ _ h hnext => h.next hnext) wf_init

end OnlinetLabs.Sessions
