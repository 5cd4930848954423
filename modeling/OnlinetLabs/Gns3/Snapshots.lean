import OnlinetLabs.Gns3.Lifecycle

/-!
# How old a snapshot can be

`get_state` puts its snapshot into the cache after three reads, and the operations that empty the
cache do so in one moment. A read that was under way then brings back what it has read before.
`delete_session` empties the cache before it does anything, and `reset_project` does not empty it.
-/

namespace OnlinetLabs.Gns3

open Interleaving

/-- The row was read after that many effects, and GNS3 too. -/
structure Snapshot.TakenAfter (snapshot : Snapshot) (effects : Nat) : Prop where
  row : effects ≤ snapshot.rowAt
  nodes : effects ≤ snapshot.nodesAt
  links : effects ≤ snapshot.linksAt

/-- What is returned was read after the effects that had settled when the call started. -/
def FreshSnapshots (c : Conf Service Call) : Prop :=
  ∀ since snapshot, .state (.returned since snapshot) ∈ c.procs → snapshot.TakenAfter since

/-- A snapshot goes into the cache only when no operation has returned whose effect its row does not
have, and a reset or a deletion returns only when the cache has no such snapshot to give. -/
def KeepsCacheFresh (sessionId : String) (c : Conf Service Call) :
    Label Move Operation Answer → Prop
  | .run pid _ =>
      match c.procs[pid]? with
      | some (.state (.gathering _ row (some _) (some _))) => c.shared.settled ≤ row.taken
      | some (.reset (.deletingOld _ _ effect)) | some (.delete (.closed effect)) =>
          ∀ snapshot ∈ c.shared.cache.get c.shared.clock sessionId, effect ≤ snapshot.rowAt
      | _ => True
  | _ => True

/-! ### Dates -/

/-- What can be had from the cache has every settled effect, and what was read of GNS3 was read
after the row. -/
structure Service.Fresh (sessionId : String) (s : Service) : Prop where
  settled : s.settled ≤ s.effects
  cached : ∀ snapshot, s.cache.get s.clock sessionId = some snapshot →
    s.settled ≤ snapshot.rowAt ∧ snapshot.TakenAfter snapshot.rowAt

def Call.Dates (s : Service) : Call → Prop
  | .reset (.deletingOld _ _ effect) | .delete (.closed effect) | .action (.acted effect) =>
      effect ≤ s.effects
  | .state (.reading since) => since ≤ s.settled
  | .state (.gathering since row nodes links) =>
      since ≤ row.taken ∧ row.taken ≤ s.effects ∧ (∀ n ∈ nodes, row.taken ≤ n.taken) ∧ ∀ l ∈ links,
        row.taken ≤ l.taken
  | .state (.returned since snapshot) => snapshot.TakenAfter since
  | _ => True

structure Service.Grows (s s' : Service) : Prop where
  effects : s.effects ≤ s'.effects
  settled : s.settled ≤ s'.settled

variable {sessionId : String} {s s' : Service} {call call' : Call} {a : Answer}

theorem Service.Grows.refl (s : Service) : s.Grows s := ⟨Nat.le_refl _, Nat.le_refl _⟩

theorem Snapshot.TakenAfter.mono {snapshot : Snapshot} {effects effects' : Nat}
    (h : snapshot.TakenAfter effects')
    (hle : effects ≤ effects') : snapshot.TakenAfter effects :=
  ⟨Nat.le_trans hle h.row, Nat.le_trans hle h.nodes, Nat.le_trans hle h.links⟩

theorem Call.Dates.grow (h : call.Dates s) (hgrows : s.Grows s') : call.Dates s' := by
  cases call with
  | reset pc =>
      cases pc with
      | deletingOld old new effect => exact Nat.le_trans h hgrows.effects
      | _ => exact trivial
  | delete pc =>
      cases pc with
      | closed effect => exact Nat.le_trans h hgrows.effects
      | _ => exact trivial
  | action pc =>
      cases pc with
      | acted effect => exact Nat.le_trans h hgrows.effects
      | _ => exact trivial
  | state pc =>
      cases pc with
      | reading since => exact Nat.le_trans h hgrows.settled
      | gathering since row nodes links => exact ⟨h.1, Nat.le_trans h.2.1 hgrows.effects, h.2.2⟩
      | returned since snapshot => exact h
      | start | raised => exact trivial

namespace Service.Fresh

theorem congr (h : s.Fresh sessionId) (hcache : s'.cache = s.cache) (hclock : s'.clock = s.clock)
    (hsettled : s'.settled = s.settled) (heffects : s.effects ≤ s'.effects) :
    s'.Fresh sessionId := by
  refine ⟨?_, fun snapshot hget => ?_⟩
  · rw [hsettled]
    exact Nat.le_trans h.settled heffects
  · rw [hcache, hclock] at hget
    rw [hsettled]
    exact h.cached snapshot hget

/-- An operation returns and the cache has nothing older than its effect. -/
theorem settle (h : s.Fresh sessionId) {effect : Nat} (hle : effect ≤ s.effects)
    (hcache : ∀ snapshot ∈ s.cache.get s.clock sessionId, effect ≤ snapshot.rowAt) :
    (s.settle effect).Fresh sessionId := by
  refine ⟨Nat.max_le.mpr ⟨h.settled, hle⟩, fun snapshot hget => ?_⟩
  obtain ⟨hrow, hordered⟩ := h.cached snapshot hget
  exact ⟨Nat.max_le.mpr ⟨hrow, hcache snapshot hget⟩, hordered⟩

theorem write (h : s.Fresh sessionId) (row : Row) :
    Service.Fresh sessionId { s with row, effects := s.effects + 1 } :=
  h.congr rfl rfl rfl (Nat.le_succ _)

theorem invalidate {settled : Nat} (hle : settled ≤ s.effects) :
    Service.Fresh sessionId { s with settled, cache := s.cache.invalidate sessionId } := by
  refine ⟨hle, fun snapshot hget => ?_⟩
  rw [show StateCache.get _ _ _ = none from StateCache.get_invalidate] at hget
  cases hget

end Service.Fresh

theorem Service.grows_write (s : Service) (row : Row) :
    s.Grows { s with row, effects := s.effects + 1 } :=
  ⟨Nat.le_succ _, Nat.le_refl _⟩

theorem Service.grows_settle (s : Service) (effect : Nat) : s.Grows (s.settle effect) :=
  ⟨Nat.le_refl _, Nat.le_max_left _ _⟩

/-! ### Steps -/

theorem reset_dates {pc pc' : ResetPc} (h : s.Fresh sessionId) (hdates : Call.Dates s (.reset pc))
    (hcache : ∀ old new effect, pc = .deletingOld old new effect →
      ∀ snapshot ∈ s.cache.get s.clock sessionId, effect ≤ snapshot.rowAt)
    (hstep : pc.step s a = some (s', pc')) :
    s.Grows s' ∧ s'.Fresh sessionId ∧ Call.Dates s' (.reset pc') := by
  cases pc with
  | start =>
      cases a with
      | done =>
          cases hstep
          refine ⟨.refl _, h, ?_⟩
          split <;> exact trivial
      | failed =>
          cases hstep
          exact ⟨.refl _, h, trivial⟩
      | _ => cases hstep
  | duplicating old =>
      cases a with
      | duplicated made ok =>
          simp only [ResetPc.step] at hstep
          split at hstep
          · split at hstep
            · cases hstep
            · cases hstep
              exact ⟨⟨Nat.le_refl _, Nat.le_refl _⟩, h.congr rfl rfl rfl (Nat.le_refl _), trivial⟩
          · cases hstep
            exact ⟨⟨Nat.le_refl _, Nat.le_refl _⟩, h.congr rfl rfl rfl (Nat.le_refl _), trivial⟩
      | _ => cases hstep
  | calling p old new made =>
      cases a with
      | done =>
          simp only [ResetPc.step] at hstep
          split at hstep <;> cases hstep <;> exact ⟨.refl _, h, trivial⟩
      | failed =>
          cases hstep
          exact ⟨.refl _, h, trivial⟩
      | _ => cases hstep
  | committing old new made =>
      cases a with
      | committed ok took =>
          simp only [ResetPc.step] at hstep
          split at hstep
          · split at hstep
            · cases hstep
              exact ⟨s.grows_write _, h.write _, Nat.le_refl _⟩
            · cases hstep
          · cases hstep
            split
            · exact ⟨s.grows_write _, h.write _, trivial⟩
            · exact ⟨.refl _, h, trivial⟩
      | _ => cases hstep
  | deletingOld old new effect =>
      have hsettled := h.settle hdates (hcache old new effect rfl)
      cases a with
      | done =>
          cases hstep
          exact ⟨⟨Nat.le_refl _, Nat.le_max_left _ _⟩,
            hsettled.congr rfl rfl rfl (Nat.le_refl _), trivial⟩
      | failed =>
          cases hstep
          exact ⟨s.grows_settle effect, hsettled, trivial⟩
      | _ => cases hstep
  | returned | raised => cases a <;> cases hstep

theorem delete_dates {pc pc' : DeletePc} (h : s.Fresh sessionId)
    (hdates : Call.Dates s (.delete pc))
    (hcache : ∀ effect, pc = .closed effect →
      ∀ snapshot ∈ s.cache.get s.clock sessionId, effect ≤ snapshot.rowAt)
    (hstep : pc.step sessionId s a = some (s', pc')) :
    s.Grows s' ∧ s'.Fresh sessionId ∧ Call.Dates s' (.delete pc') := by
  cases pc with
  | start =>
      cases a with
      | done =>
          cases hstep
          refine ⟨.refl _, h, ?_⟩
          split <;> exact trivial
      | failed =>
          cases hstep
          exact ⟨.refl _, h, trivial⟩
      | _ => cases hstep
  | found project =>
      cases a with
      | done =>
          cases hstep
          exact ⟨⟨Nat.le_refl _, Nat.le_refl _⟩, Service.Fresh.invalidate h.settled, trivial⟩
      | _ => cases hstep
  | deletingProject project =>
      cases a with
      | done =>
          cases hstep
          exact ⟨⟨Nat.le_refl _, Nat.le_refl _⟩, h.congr rfl rfl rfl (Nat.le_refl _), trivial⟩
      | failed =>
          cases hstep
          exact ⟨.refl _, h, trivial⟩
      | _ => cases hstep
  | closing =>
      cases a with
      | committed ok took =>
          simp only [DeletePc.step] at hstep
          split at hstep
          · split at hstep
            · cases hstep
              exact ⟨s.grows_write _, h.write _, Nat.le_refl _⟩
            · cases hstep
          · cases hstep
            split
            · exact ⟨s.grows_write _, h.write _, trivial⟩
            · exact ⟨.refl _, h, trivial⟩
      | _ => cases hstep
  | closed effect =>
      cases a with
      | done =>
          cases hstep
          exact ⟨s.grows_settle effect, h.settle hdates (hcache effect rfl), trivial⟩
      | _ => cases hstep
  | returned | raised => cases a <;> cases hstep

theorem action_dates {pc pc' : ActionPc} (h : s.Fresh sessionId)
    (hdates : Call.Dates s (.action pc))
    (hstep : pc.step sessionId s a = some (s', pc')) :
    s.Grows s' ∧ s'.Fresh sessionId ∧ Call.Dates s' (.action pc') := by
  cases pc with
  | start =>
      cases a with
      | done =>
          cases hstep
          refine ⟨.refl _, h, ?_⟩
          split <;> exact trivial
      | failed =>
          cases hstep
          exact ⟨.refl _, h, trivial⟩
      | _ => cases hstep
  | acting =>
      cases a with
      | done =>
          cases hstep
          exact ⟨⟨Nat.le_succ _, Nat.le_refl _⟩, h.congr rfl rfl rfl (Nat.le_succ _), Nat.le_refl _⟩
      | failed =>
          cases hstep
          exact ⟨.refl _, h, trivial⟩
      | _ => cases hstep
  | acted effect =>
      cases a with
      | done =>
          cases hstep
          have hsettled :
              Service.Fresh sessionId
              { s.settle effect with cache := s.cache.invalidate sessionId } :=
            Service.Fresh.invalidate (Nat.max_le.mpr ⟨h.settled, hdates⟩)
          exact ⟨⟨Nat.le_refl _, Nat.le_max_left _ _⟩, hsettled, trivial⟩
      | failed =>
          cases hstep
          exact ⟨.refl _, h, trivial⟩
      | _ => cases hstep
  | returned | raised => cases a <;> cases hstep

theorem state_dates {pc pc' : StatePc} (h : s.Fresh sessionId) (hdates : Call.Dates s (.state pc))
    (hfill : ∀ since row nodes links, pc = .gathering since row (some nodes) (some links) →
      s.settled ≤ row.taken)
    (hstep : pc.step sessionId s a = some (s', pc')) :
    s.Grows s' ∧ s'.Fresh sessionId ∧ Call.Dates s' (.state pc') := by
  cases pc with
  | start =>
      cases a with
      | done =>
          simp only [StatePc.step] at hstep
          split at hstep
          · rename_i snapshot hget
            cases hstep
            obtain ⟨hrow, hordered⟩ := h.cached snapshot hget
            exact ⟨.refl _, h, hordered.mono hrow⟩
          · cases hstep
            exact ⟨.refl _, h, Nat.le_refl _⟩
      | _ => cases hstep
  | reading since =>
      cases a with
      | done =>
          cases hstep
          exact ⟨.refl _, h, Nat.le_trans hdates h.settled, Nat.le_refl _, by
            rintro _ ⟨⟩, by rintro _ ⟨⟩⟩
      | failed =>
          cases hstep
          exact ⟨.refl _, h, trivial⟩
      | _ => cases hstep
  | gathering since row nodes links =>
      obtain ⟨hsince, htaken, hnodes, hlinks⟩ := hdates
      cases a with
      | nodes raw =>
          cases nodes with
          | none =>
              simp only [StatePc.step] at hstep
              cases hstep
              refine ⟨.refl _, h, hsince, htaken, ?_, hlinks⟩
              rintro _ ⟨⟩
              exact htaken
          | some => cases links <;> cases hstep
      | links raw =>
          cases links with
          | none =>
              simp only [StatePc.step] at hstep
              cases hstep
              refine ⟨.refl _, h, hsince, htaken, hnodes, ?_⟩
              rintro _ ⟨⟩
              exact htaken
          | some => cases nodes <;> cases hstep
      | resumed now =>
          cases nodes with
          | none => cases hstep
          | some nodes =>
              cases links with
              | none => cases hstep
              | some links =>
                  simp only [StatePc.step] at hstep
                  split at hstep
                  · cases hstep
                    exact ⟨.refl _, h, trivial⟩
                  · rename_i state _
                    cases hstep
                    have hordered : Snapshot.TakenAfter ⟨state, row.taken, nodes.taken,
                        links.taken⟩ row.taken :=
                      ⟨Nat.le_refl _, hnodes nodes rfl, hlinks links rfl⟩
                    refine ⟨⟨Nat.le_refl _, Nat.le_refl _⟩, ⟨h.settled, fun snapshot hget => ?_⟩,
                      hordered.mono hsince⟩
                    rw [StateCache.get_set_eq_some hget]
                    exact ⟨hfill since row nodes links rfl, hordered⟩
      | failed =>
          simp only [StatePc.step] at hstep
          cases hstep
          exact ⟨.refl _, h, trivial⟩
      | done | duplicated | committed => cases nodes <;> cases links <;> cases hstep
  | returned | raised => cases a <;> cases hstep

theorem Call.step_dates (h : s.Fresh sessionId) (hdates : call.Dates s) {calls : List Call}
    {pid : Nat}
    (hpid : calls[pid]? = some call) (hkeeps : KeepsCacheFresh sessionId ⟨s, calls⟩ (.run pid a))
    (hstep : call.step sessionId s a = some (s', call')) :
    s.Grows s' ∧ s'.Fresh sessionId ∧ call'.Dates s' := by
  simp only [KeepsCacheFresh, hpid] at hkeeps
  cases call with
  | reset pc =>
      obtain ⟨⟨s₁, pc'⟩, hpc, heq⟩ := Option.map_eq_some_iff.mp hstep
      cases heq
      refine reset_dates h hdates ?_ hpc
      rintro old new effect rfl
      exact hkeeps
  | delete pc =>
      obtain ⟨⟨s₁, pc'⟩, hpc, heq⟩ := Option.map_eq_some_iff.mp hstep
      cases heq
      refine delete_dates h hdates ?_ hpc
      rintro effect rfl
      exact hkeeps
  | action pc =>
      obtain ⟨⟨s₁, pc'⟩, hpc, heq⟩ := Option.map_eq_some_iff.mp hstep
      cases heq
      exact action_dates h hdates hpc
  | state pc =>
      obtain ⟨⟨s₁, pc'⟩, hpc, heq⟩ := Option.map_eq_some_iff.mp hstep
      cases heq
      refine state_dates h hdates ?_ hpc
      rintro since row nodes links rfl
      exact hkeeps

/-! ### All runs -/

variable {c c' : Conf Service Call} {l : Label Move Operation Answer}

theorem dates_next (h : c.shared.Fresh sessionId ∧ ∀ call ∈ c.procs, call.Dates c.shared)
    (hkeeps : KeepsCacheFresh sessionId c l) (hnext : (lifecycle sessionId).next c l = some c') :
    c'.shared.Fresh sessionId ∧ ∀ call ∈ c'.procs, call.Dates c'.shared := by
  obtain ⟨hfresh, hdates⟩ := h
  rcases (lifecycle sessionId).next_cases hnext with ⟨move, s, rfl, henv, rfl⟩ | ⟨op, rfl, rfl⟩
    | ⟨pid, a, call, s, call', rfl, hpid, hstep, rfl⟩
  · cases henv
    cases move with
    | tick seconds =>
        have hle : c.shared.clock ≤ c.shared.clock + seconds := by omega
        refine ⟨⟨hfresh.settled, fun snapshot hget =>
          hfresh.cached snapshot (StateCache.get_of_le hle hget)⟩, ?_⟩
        exact fun call hcall => (hdates call hcall).grow ⟨Nat.le_refl _, Nat.le_refl _⟩
    | sweep =>
        refine ⟨⟨hfresh.settled, fun snapshot hget =>
          hfresh.cached snapshot (StateCache.get_of_sweepStale hget)⟩, ?_⟩
        exact fun call hcall => (hdates call hcall).grow ⟨Nat.le_refl _, Nat.le_refl _⟩
  · refine ⟨hfresh, forall_mem_append hdates ?_⟩
    cases op <;> exact trivial
  · obtain ⟨hgrows, hfresh', hdates'⟩ :=
      Call.step_dates hfresh (hdates call (mem_of_getElem? hpid)) hpid hkeeps hstep
    exact ⟨hfresh', forall_mem_set (fun q hq => (hdates q hq).grow hgrows) hdates'⟩

/-- **When snapshots are fresh.** As long as no snapshot goes into the cache behind an operation
that has returned, and no reset or deletion returns with an older snapshot in the cache, every
snapshot was read after the operations that had returned when it was asked for. -/
theorem snapshots_fresh (sessionId : String) (ls : List (Label Move Operation Answer))
    (h : (lifecycle sessionId).Along (KeepsCacheFresh sessionId) ⟨{}, []⟩ ls) :
    (lifecycle sessionId).Throughout FreshSnapshots ⟨{}, []⟩ ls := by
  have hstart : Service.Fresh sessionId {} := ⟨Nat.le_refl _, by rintro snapshot ⟨⟩⟩
  have hall :=
    System.throughout_of_along _ (fun _ _ _ => dates_next) ⟨hstart, List.forall_mem_nil _⟩ h
  refine hall.mono _ fun c hc => ?_
  intro since snapshot hmem
  exact hc.2 _ hmem

instance (c : Conf Service Call) : DecidablePred (KeepsCacheFresh sessionId c)
  | .run pid a => by
      unfold KeepsCacheFresh
      dsimp only
      generalize c.procs[pid]? = call
      revert call
      refine Option.rec (.isTrue trivial) fun call => ?_
      cases call with
      | reset pc => cases pc <;> infer_instance
      | delete pc => cases pc <;> infer_instance
      | action => exact .isTrue trivial
      | state pc =>
          cases pc with
          | gathering _ _ nodes links => cases nodes <;> cases links <;> infer_instance
          | _ => exact .isTrue trivial
  | .env _ => .isTrue trivial
  | .spawn _ => .isTrue trivial

def readState (pid : Nat) (status : String) : List (Label Move Operation Answer) :=
  [.run pid .done, .run pid .done,
    .run pid (.nodes
      [{ nodeId := "n", name := "R1", nodeType := "dynamips", status := some status }]),
    .run pid (.links []), .run pid (.resumed 0)]

def stoppedBetween : List (Label Move Operation Answer) :=
  [.spawn .getState] ++ readState 0 "started"
    ++ [.spawn .nodeAction, .run 1 .done, .run 1 .done, .run 1 .done, .spawn .getState]
    ++ readState 2 "stopped"

/-- The session is read, reset, and read again at once. -/
def resetBetween : List (Label Move Operation Answer) :=
  [.spawn .getState] ++ readState 0 "started"
    ++ [.spawn .resetProject, .run 1 .done, .run 1 (.duplicated 1 true), .run 1 .done,
    .run 1 .done, .run 1 .done, .run 1 (.committed true true), .run 1 .done, .spawn .getState,
      .run 2 .done]

theorem snapshots_fresh_stoppedBetween :
    (lifecycle "s").Along (KeepsCacheFresh "s") ⟨{}, []⟩ stoppedBetween
    ∧ (lifecycle "s").Throughout FreshSnapshots ⟨{}, []⟩ stoppedBetween :=
  have hkeeps : (lifecycle "s").Along (KeepsCacheFresh "s") ⟨{}, []⟩ stoppedBetween := by decide
  ⟨hkeeps, snapshots_fresh "s" stoppedBetween hkeeps⟩

def Call.rowAt : Call → Option (Nat × Nat)
  | .state (.returned since snapshot) => some (since, snapshot.rowAt)
  | _ => none

theorem snapshot_of_before_reset :
    ¬ (lifecycle "s").Throughout FreshSnapshots ⟨{}, []⟩ resetBetween := by
  have hrun : ((lifecycle "s").exec ⟨{}, []⟩ resetBetween).map (fun c => c.procs.map Call.rowAt)
      = some [some (0, 0), none, some (1, 0)] := by decide
  obtain ⟨c, hexec, hrows⟩ := Option.map_eq_some_iff.mp hrun
  intro hall
  have hmem : some (1, 0) ∈ c.procs.map Call.rowAt := by
    rw [hrows]
    decide
  obtain ⟨call, hcall, hrow⟩ := List.mem_map.mp hmem
  unfold Call.rowAt at hrow
  split at hrow
  · rename_i since snapshot
    obtain ⟨hsince, hzero⟩ := Prod.mk.inj (Option.some.inj hrow)
    have hfresh := (hall.exec _ hexec since snapshot hcall).row
    rw [hsince, hzero] at hfresh
    exact absurd hfresh (by decide)
  · cases hrow

end OnlinetLabs.Gns3
