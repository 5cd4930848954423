import OnlinetLabs.Gns3.Lifecycle

/-!
# The projects of a session

A reset makes a project, grants it, and only then writes it to the row; it cleans nothing up when
one of these calls raises. What the row said at the beginning of a request is taken for what it says
at its end, so a reset that commits after a deletion has read the row gives a closed session a
project, and of two resets that read the same row only one gets its project deleted again.
-/

namespace OnlinetLabs.Gns3

open Interleaving

def Call.ended : Call → Bool
  | .reset (.returned _) | .reset (.raised _) | .delete .returned | .delete .raised => true
  | .action .returned | .action .raised | .state (.returned ..) | .state .raised => true
  | _ => false

def Service.owned (s : Service) : List ProjectId :=
  match s.row.status with
  | .active => [s.row.gns3ProjectId]
  | .closed => []

structure OneProject (c : Conf Service Call) : Prop where
  undone : ∀ made, .reset (.raised made) ∈ c.procs → ∀ p ∈ made, p ∉ c.shared.projects
  settled : (∀ call ∈ c.procs, call.ended = true) → c.shared.projects = c.shared.owned

/-- A deletion that found the session active and has not returned. -/
def Call.deleting : Call → Bool
  | .delete (.found _) | .delete (.deletingProject _) | .delete .closing | .delete (.closed _) =>
      true
  | _ => false

/-- The GNS3 server deletes the project it is asked to when it has it, and a deletion commits. -/
def DeletionsSucceed (c : Conf Service Call) : Label Move Operation Answer → Prop
  | .run pid a =>
      match c.procs[pid]? with
      | some (.reset (.deletingOld project ..)) | some (.delete (.deletingProject project)) =>
          a = .done ∨ project ∉ c.shared.projects
      | some (.delete .closing) => a = .committed true true
      | _ => True
  | _ => True

/-- `duplicate_project` makes the project it returns and no other, a reset that has one comes to its
commit, and the commit finds the row as the reset has read it, with no deletion under way. -/
def KeepsOneProject (c : Conf Service Call) : Label Move Operation Answer → Prop
  | .run pid a =>
      match c.procs[pid]? with
      | some (.reset (.duplicating _)) => a = .duplicated 1 true ∨ a = .duplicated 0 false
      | some (.reset (.calling ..)) => a = .done
      | some (.reset (.committing old ..)) =>
          a = .committed true true ∧ c.shared.row.status = .active
            ∧ c.shared.row.gns3ProjectId = old
            ∧ ∀ call ∈ c.procs, call.deleting = false
      | _ => True
  | _ => True

/-! ### What a step does to the projects -/

/-- The project that only the call will commit or delete. -/
def Call.owes : Call → Option ProjectId
  | .reset (.calling _ _ new _) | .reset (.committing _ new _) => some new
  | .reset (.deletingOld old ..) => some old
  | _ => none

def Call.target : Call → Option ProjectId
  | .delete (.found project) | .delete (.deletingProject project) => some project
  | _ => none

variable {sessionId : String} {s s' : Service} {call call' : Call} {a : Answer}

def Call.isClosing : Call → Bool
  | .delete .closing => true
  | _ => false

/-- What a step of a session's call does to the row and the projects. -/
inductive Call.Moves (s : Service) (call : Call) : Answer → Service → Call → Prop
  | quiet {a : Answer} {s' : Service} {call' : Call} (hrow : s'.row = s.row)
      (hprojects : s'.projects = s.projects)
      (hnext : s'.nextProject = s.nextProject) (howes : call'.owes = call.owes)
      (htarget : ∀ project, call'.target = some project → call.target = some project
        ∨ project = s.row.gns3ProjectId)
      (hclosing : call'.isClosing = call.isClosing)
        (hraised : ∀ made, call' = .reset (.raised made) → made = []) :
      Moves s call a s' call'
  | duplicates {old : ProjectId} {made : Nat} {ok : Bool} {call' : Call}
      (hcall : call = .reset (.duplicating old))
      (hok : ok = true → ∃ new, (List.range' s.nextProject made).getLast? = some new
        ∧ call' = .reset (.calling .openProject old new (List.range' s.nextProject made)))
      (hfailed : ok = false → call' = .reset (.raised (List.range' s.nextProject made))) :
      Moves s call (.duplicated made ok)
        { s with
          projects := s.projects ++ List.range' s.nextProject made
          nextProject := s.nextProject + made } call'
  | fails {p : ResetCall} {old new : ProjectId} {made : List ProjectId}
      (hcall : call = .reset (.calling p old new made)) : Moves s call .failed s
        (.reset (.raised made))
  | commits {old new : ProjectId} {made : List ProjectId} {ok took : Bool} {s' : Service}
      {call' : Call}
      (hcall : call = .reset (.committing old new made))
      (htook : ok = true → took = true →
        s' = { s with row := { s.row with gns3ProjectId := new }, effects := s.effects + 1 }
        ∧ call' = .reset (.deletingOld old new (s.effects + 1))) :
          Moves s call (.committed ok took) s' call'
  | deletesOld {old new : ProjectId} {effect : Nat} {a : Answer} {s' : Service}
      (hcall : call = .reset (.deletingOld old new effect))
      (hs : s' = { s.settle effect with projects := s.projects.filter (· ≠ old) } ∨ a = .failed) :
      Moves s call a s' (.reset (.returned new))
  | deletes {project : ProjectId} {a : Answer} {s' : Service}
      (hcall : call = .delete (.deletingProject project))
      (hs : s' = { s with projects := s.projects.filter (· ≠ project) } ∨ (a = .failed ∧ s' = s)) :
      Moves s call a s' (.delete .closing)
  | closes {a : Answer} {s' : Service} {call' : Call} (hcall : call = .delete .closing)
      (htook : a = .committed true true →
        s' = { s with row := { s.row with status := .closed }, effects := s.effects + 1 }
          ∧ call' = .delete (.closed (s.effects + 1))) : Moves s call a s' call'

theorem reset_moves {pc pc' : ResetPc} (h : pc.step s a = some (s', pc')) :
    Call.Moves s (.reset pc) a s' (.reset pc') := by
  cases pc with
  | start =>
      cases a with
      | done =>
          cases h
          split
          · exact .quiet rfl rfl rfl rfl (by rintro _ ⟨⟩) rfl (by rintro _ ⟨⟩; rfl)
          · exact .quiet rfl rfl rfl rfl (by rintro _ ⟨⟩) rfl (by rintro _ ⟨⟩)
      | failed =>
          cases h
          exact .quiet rfl rfl rfl rfl (by rintro _ ⟨⟩) rfl (by rintro _ ⟨⟩; rfl)
      | _ => cases h
  | duplicating old =>
      cases a with
      | duplicated made ok =>
          simp only [ResetPc.step] at h
          split at h
          · split at h
            · cases h
            · rename_i hok _ new hnew
              cases h
              exact .duplicates rfl (fun _ => ⟨new, hnew, rfl⟩) fun hfailed =>
                Bool.noConfusion (hok.symm.trans hfailed)
          · rename_i hok
            cases h
            exact .duplicates rfl (fun htrue => absurd htrue hok) fun _ => rfl
      | _ => cases h
  | calling p old new made =>
      cases a with
      | done =>
          simp only [ResetPc.step] at h
          split at h <;> cases h <;> exact .quiet rfl rfl rfl rfl (by rintro _ ⟨⟩) rfl
            (by rintro _ ⟨⟩)
      | failed =>
          cases h
          exact .fails rfl
      | _ => cases h
  | committing old new made =>
      cases a with
      | committed ok took =>
          refine .commits rfl ?_
          rintro rfl rfl
          cases h
          exact ⟨rfl, rfl⟩
      | _ => cases h
  | deletingOld old new effect =>
      cases a with
      | done =>
          cases h
          exact .deletesOld rfl (Or.inl rfl)
      | failed =>
          cases h
          exact .deletesOld rfl (Or.inr rfl)
      | _ => cases h
  | returned | raised => cases a <;> cases h

theorem delete_moves {pc pc' : DeletePc} (h : pc.step sessionId s a = some (s', pc')) :
    Call.Moves s (.delete pc) a s' (.delete pc') := by
  cases pc with
  | start =>
      cases a with
      | done =>
          cases h
          split
          · exact .quiet rfl rfl rfl rfl (by rintro _ ⟨⟩) rfl (by rintro _ ⟨⟩)
          · refine .quiet rfl rfl rfl rfl ?_ rfl (by rintro _ ⟨⟩)
            rintro project ⟨⟩
            exact Or.inr rfl
      | failed =>
          cases h
          exact .quiet rfl rfl rfl rfl (by rintro _ ⟨⟩) rfl (by rintro _ ⟨⟩)
      | _ => cases h
  | found project =>
      cases a with
      | done =>
          cases h
          exact .quiet rfl rfl rfl rfl (fun _ h => Or.inl h) rfl (by rintro _ ⟨⟩)
      | _ => cases h
  | deletingProject project =>
      cases a with
      | done =>
          cases h
          exact .deletes rfl (Or.inl rfl)
      | failed =>
          cases h
          exact .deletes rfl (Or.inr ⟨rfl, rfl⟩)
      | _ => cases h
  | closing =>
      cases a with
      | committed ok took =>
          refine .closes rfl ?_
          rintro ⟨⟩
          cases h
          exact ⟨rfl, rfl⟩
      | _ => cases h
  | closed effect =>
      cases a with
      | done =>
          cases h
          exact .quiet rfl rfl rfl rfl (by rintro _ ⟨⟩) rfl (by rintro _ ⟨⟩)
      | _ => cases h
  | returned | raised => cases a <;> cases h

theorem action_moves {pc pc' : ActionPc} (h : pc.step sessionId s a = some (s', pc')) :
    Call.Moves s (.action pc) a s' (.action pc') := by
  unfold ActionPc.step at h
  split at h
  all_goals cases h
  all_goals exact .quiet rfl rfl rfl rfl (by rintro _ ⟨⟩) rfl (by rintro _ ⟨⟩)

theorem state_moves {pc pc' : StatePc} (h : pc.step sessionId s a = some (s', pc')) :
    Call.Moves s (.state pc) a s' (.state pc') := by
  have hquiet : ∀ (pc : StatePc) (s' : Service), s'.row = s.row → s'.projects = s.projects →
      s'.nextProject = s.nextProject → Call.Moves s (.state pc) a s' (.state pc') := by
    intro pc s' hrow hprojects hnext
    exact .quiet hrow hprojects hnext rfl (by rintro _ ⟨⟩) rfl (by rintro _ ⟨⟩)
  cases pc with
  | start =>
      cases a with
      | done =>
          simp only [StatePc.step] at h
          split at h <;> cases h <;> exact hquiet _ _ rfl rfl rfl
      | _ => cases h
  | reading since =>
      cases a with
      | done | failed =>
          cases h
          exact hquiet _ _ rfl rfl rfl
      | _ => cases h
  | gathering since row nodes links =>
      cases a with
      | nodes raw =>
          cases nodes with
          | none =>
              simp only [StatePc.step] at h
              cases h
              exact hquiet _ _ rfl rfl rfl
          | some => cases links <;> cases h
      | links raw =>
          cases links with
          | none =>
              simp only [StatePc.step] at h
              cases h
              exact hquiet _ _ rfl rfl rfl
          | some => cases nodes <;> cases h
      | resumed now =>
          cases nodes with
          | none => cases h
          | some nodes =>
              cases links with
              | none => cases h
              | some links =>
                  simp only [StatePc.step] at h
                  split at h <;> cases h <;> exact hquiet _ _ rfl rfl rfl
      | failed =>
          simp only [StatePc.step] at h
          cases h
          exact hquiet _ _ rfl rfl rfl
      | done | duplicated | committed => cases nodes <;> cases links <;> cases h
  | returned | raised => cases a <;> cases h

theorem Call.step_moves (h : call.step sessionId s a = some (s', call')) :
    call.Moves s a s' call' := by
  cases call with
  | reset pc =>
      obtain ⟨⟨s₁, pc'⟩, hpc, heq⟩ := Option.map_eq_some_iff.mp h
      cases heq
      exact reset_moves hpc
  | delete pc =>
      obtain ⟨⟨s₁, pc'⟩, hpc, heq⟩ := Option.map_eq_some_iff.mp h
      cases heq
      exact delete_moves hpc
  | action pc =>
      obtain ⟨⟨s₁, pc'⟩, hpc, heq⟩ := Option.map_eq_some_iff.mp h
      cases heq
      exact action_moves hpc
  | state pc =>
      obtain ⟨⟨s₁, pc'⟩, hpc, heq⟩ := Option.map_eq_some_iff.mp h
      cases heq
      exact state_moves hpc

theorem Call.owes_of_ended (h : call.ended = true) : call.owes = none := by
  unfold ended at h
  split at h
  all_goals first | rfl | cases h

theorem Call.isClosing_of_ended (h : call.ended = true) : call.isClosing = false := by
  unfold ended at h
  split at h
  all_goals first | rfl | cases h

/-! ### What is kept -/

/-- Every project that exists is the row's or in the hands of one call, and the row's exists until a
deletion has deleted it. -/
structure ProjectsKept (s : Service) (calls : List Call) : Prop where
  sound : ∀ p ∈ s.projects, p = s.row.gns3ProjectId ∨ ∃ call ∈ calls, call.owes = some p
  named : s.row.status = .active → s.row.gns3ProjectId ∈ s.projects ∨ ∃ call ∈ calls,
    call.isClosing = true
  gone : (s.row.status = .closed ∨ ∃ call ∈ calls, call.isClosing = true) →
    s.row.gns3ProjectId ∉ s.projects
  nodup : s.projects.Nodup
  fresh : ∀ p ∈ s.projects, p < s.nextProject
  freshRow : s.row.gns3ProjectId < s.nextProject
  target : ∀ call ∈ calls, ∀ p, call.target = some p → p = s.row.gns3ProjectId
  owed : ∀ call ∈ calls, ∀ p, call.owes = some p → p ∈ s.projects ∧ p ≠ s.row.gns3ProjectId
  one : ∀ p, Exclusive (fun call : Call => call.owes = some p) calls
  raised : ∀ call ∈ calls, ∀ made, call = .reset (.raised made) → made = []

namespace ProjectsKept

variable {calls : List Call} {pid : Nat}

theorem quiet (h : ProjectsKept s calls) (hpid : calls[pid]? = some call) (hrow : s'.row = s.row)
    (hprojects : s'.projects = s.projects) (hnext : s'.nextProject = s.nextProject)
    (howes : call'.owes = call.owes)
    (htarget : ∀ p, call'.target = some p → call.target = some p ∨ p = s.row.gns3ProjectId)
    (hclosing : call'.isClosing = call.isClosing)
    (hraised : ∀ made, call' = .reset (.raised made) → made = []) :
    ProjectsKept s' (calls.set pid call') := by
  have hmem := mem_of_getElem? hpid
  refine ⟨?_, ?_, ?_, hprojects ▸ h.nodup, ?_, ?_, ?_, ?_, ?_, forall_mem_set h.raised hraised⟩
  · rw [hprojects, hrow]
    intro p hp
    exact (h.sound p hp).imp id fun hex => exists_mem_set hex hpid fun hq => howes.trans hq
  · rw [hprojects, hrow]
    exact fun hactive => (h.named hactive).imp id fun hex => exists_mem_set hex hpid fun hq =>
      hclosing.trans hq
  · rw [hprojects, hrow]
    exact fun hor =>
      h.gone (hor.imp id fun hex => exists_mem_of_set hex hpid fun hq => hclosing.symm.trans hq)
  · rw [hprojects, hnext]
    exact h.fresh
  · rw [hrow, hnext]
    exact h.freshRow
  · rw [hrow]
    exact forall_mem_set h.target fun p hp => (htarget p hp).elim (h.target call hmem p) id
  · rw [hprojects, hrow]
    exact forall_mem_set h.owed fun p hp => h.owed call hmem p (howes ▸ hp)
  · exact fun p => (h.one p).set hpid fun hp => howes ▸ hp

/-- The project made is new, and only the call has it. -/
theorem duplicates (h : ProjectsKept s calls)
    (hpid : calls[pid]? = some (.reset (.duplicating old)))
    (howes : call'.owes = some s.nextProject) (htarget : call'.target = none)
    (hclosing : call'.isClosing = false)
    (hraised : ∀ made, call' ≠ .reset (.raised made)) :
    ProjectsKept
      { s with projects := s.projects ++ [s.nextProject], nextProject := s.nextProject + 1 }
      (calls.set pid call') := by
  have hnew : s.nextProject ∉ s.projects := fun hmem => absurd (h.fresh _ hmem) (Nat.lt_irrefl _)
  have hne : s.nextProject ≠ s.row.gns3ProjectId := (Nat.ne_of_lt h.freshRow).symm
  refine ⟨?_, ?_, ?_, ?_, ?_, Nat.lt_succ_of_lt h.freshRow, ?_, ?_, ?_,
    forall_mem_set h.raised fun made heq =>
    absurd heq (hraised made)⟩
  · intro p hp
    rcases List.mem_append.mp hp with hold | hnew
    · exact (h.sound p hold).imp id fun hex => exists_mem_set hex hpid (by rintro ⟨⟩)
    · rw [List.mem_singleton.mp hnew]
      obtain ⟨hlt, -⟩ := List.getElem?_eq_some_iff.mp hpid
      exact Or.inr ⟨call', List.mem_set hlt call', howes⟩
  · intro hactive
    exact (h.named hactive).imp (List.mem_append_left _) fun hex =>
      exists_mem_set hex hpid (by rintro ⟨⟩)
  · intro hor hmem
    rcases List.mem_append.mp hmem with hold | hnew
    · refine h.gone (hor.imp id fun hex => exists_mem_of_set hex hpid fun hq => ?_) hold
      rw [hclosing] at hq
      cases hq
    · exact hne (List.mem_singleton.mp hnew).symm
  · refine List.nodup_append.mpr ⟨h.nodup, by simp, ?_⟩
    rintro p hp q hq rfl
    exact hnew (List.mem_singleton.mp hq ▸ hp)
  · intro p hp
    rcases List.mem_append.mp hp with hold | hnew
    · exact Nat.lt_succ_of_lt (h.fresh p hold)
    · rw [List.mem_singleton.mp hnew]
      exact Nat.lt_succ_self _
  · refine forall_mem_set h.target fun p hp => ?_
    rw [htarget] at hp
    cases hp
  · refine forall_mem_set (fun q hq p hp => ?_) fun p hp => ?_
    · obtain ⟨hin, hother⟩ := h.owed q hq p hp
      exact ⟨List.mem_append_left _ hin, hother⟩
    · rw [howes, Option.some.injEq] at hp
      subst hp
      exact ⟨List.mem_append_right _ (List.mem_singleton_self _), hne⟩
  · intro p
    by_cases heq : p = s.nextProject
    · apply Exclusive.of_none
      intro q hq hp
      exact hnew (heq ▸ (h.owed q hq p hp).1)
    · refine (h.one p).set hpid fun hp => ?_
      rw [howes, Option.some.injEq] at hp
      exact absurd hp.symm heq

/-- The row changes hands: the call has the old project, and the row its new one. -/
theorem commits {old new : ProjectId} {made : List ProjectId} (h : ProjectsKept s calls)
    (hpid : calls[pid]? = some (.reset (.committing old new made)))
    (hactive : s.row.status = .active)
    (hold : s.row.gns3ProjectId = old) (hnone : ∀ q ∈ calls, q.deleting = false) (effect : Nat) :
    ProjectsKept { s with row := { s.row with gns3ProjectId := new }, effects := effect }
      (calls.set pid (.reset (.deletingOld old new effect))) := by
  obtain ⟨hlt, -⟩ := List.getElem?_eq_some_iff.mp hpid
  obtain ⟨hnew, hne⟩ := h.owed _ (mem_of_getElem? hpid) new rfl
  have hclosing : ¬ ∃ q ∈ calls, q.isClosing = true := by
    rintro ⟨q, hq, hclosed⟩
    have hnot := hnone q hq
    unfold Call.isClosing at hclosed
    split at hclosed
    · cases hnot
    · cases hclosed
  have hheld : old ∈ s.projects := hold ▸ (h.named hactive).resolve_right hclosing
  refine ⟨?_, fun _ => Or.inl hnew, ?_, h.nodup, h.fresh, h.fresh new hnew, ?_, ?_, ?_,
    forall_mem_set h.raised (by rintro _ ⟨⟩)⟩
  · intro p hp
    by_cases heq : p = old
    · exact Or.inr ⟨_, List.mem_set hlt _, congrArg some heq.symm⟩
    · rcases h.sound p hp with hrow | hex
      · exact absurd (hrow.trans hold) heq
      · by_cases hpnew : p = new
        · exact Or.inl hpnew
        · exact Or.inr (exists_mem_set hex hpid fun hp => absurd (Option.some.inj hp).symm hpnew)
  · rintro (hclosed | hex)
    · exact absurd (hactive.symm.trans hclosed) (by rintro ⟨⟩)
    · exact absurd (exists_mem_of_set hex hpid (by rintro ⟨⟩)) hclosing
  · refine forall_mem_set (fun q hq p hp => ?_) (by rintro _ ⟨⟩)
    have hnot := hnone q hq
    unfold Call.target at hp
    split at hp
    · cases hnot
    · cases hnot
    · cases hp
  · refine forall_mem_set_of_ne (fun i q hi hother p hp => ?_) ?_
    · refine ⟨(h.owed q (mem_of_getElem? hi) p hp).1, ?_⟩
      rintro rfl
      exact hother (h.one p i pid q _ hi hpid hp rfl)
    · rintro p ⟨⟩
      exact ⟨hheld, fun heq => hne (heq.symm.trans hold.symm)⟩
  · intro p
    by_cases heq : p = old
    · apply Exclusive.of_none
      intro q hq hp
      exact (h.owed q hq p hp).2 (heq.trans hold.symm)
    · exact (h.one p).set hpid fun hp => absurd (Option.some.inj hp).symm heq

theorem deletesOld {old new : ProjectId} {effect : Nat} (h : ProjectsKept s calls)
    (hpid : calls[pid]? = some (.reset (.deletingOld old new effect))) :
    ProjectsKept { s.settle effect with projects := s.projects.filter (· ≠ old) }
      (calls.set pid (.reset (.returned new))) := by
  have hmem := mem_of_getElem? hpid
  obtain ⟨-, hne⟩ := h.owed _ hmem old rfl
  have hkeep : ∀ {p}, p ∈ s.projects → p ≠ old → p ∈ s.projects.filter (· ≠ old) := fun hp hother =>
    List.mem_filter.mpr ⟨hp, decide_eq_true hother⟩
  refine ⟨?_, ?_, ?_, h.nodup.filter _, fun p hp => h.fresh p (List.mem_of_mem_filter hp),
    h.freshRow, forall_mem_set h.target (by rintro _ ⟨⟩), ?_, fun p =>
    (h.one p).set hpid (by rintro ⟨⟩),
    forall_mem_set h.raised (by rintro _ ⟨⟩)⟩
  · intro p hp
    obtain ⟨hin, hother⟩ := List.mem_filter.mp hp
    refine (h.sound p hin).imp id fun hex => exists_mem_set hex hpid fun hp => ?_
    exact absurd (Option.some.inj hp).symm (of_decide_eq_true hother)
  · exact fun hactive => (h.named hactive).imp (fun hrow => hkeep hrow hne.symm) fun hex =>
      exists_mem_set hex hpid (by rintro ⟨⟩)
  · intro hor hrow
    have hex := hor.imp id fun hex => exists_mem_of_set hex hpid (by rintro ⟨⟩)
    exact h.gone hex (List.mem_of_mem_filter hrow)
  · refine forall_mem_set_of_ne (fun i q hi hother p hp => ?_) (by rintro _ ⟨⟩)
    obtain ⟨hin, hrow⟩ := h.owed q (mem_of_getElem? hi) p hp
    refine ⟨hkeep hin ?_, hrow⟩
    rintro rfl
    exact hother (h.one p i pid q _ hi hpid hp rfl)

theorem deletes {project : ProjectId} (h : ProjectsKept s calls)
    (hpid : calls[pid]? = some (.delete (.deletingProject project))) :
    ProjectsKept { s with projects := s.projects.filter (· ≠ project) }
      (calls.set pid (.delete .closing)) := by
  obtain ⟨hlt, -⟩ := List.getElem?_eq_some_iff.mp hpid
  have hrow : project = s.row.gns3ProjectId := h.target _ (mem_of_getElem? hpid) project rfl
  refine ⟨?_, fun _ => Or.inr ⟨_, List.mem_set hlt _, rfl⟩, ?_, h.nodup.filter _,
    fun p hp => h.fresh p (List.mem_of_mem_filter hp), h.freshRow,
      forall_mem_set h.target (by rintro _ ⟨⟩), ?_,
    fun p => (h.one p).set hpid (by rintro ⟨⟩), forall_mem_set h.raised (by rintro _ ⟨⟩)⟩
  · intro p hp
    exact (h.sound p (List.mem_of_mem_filter hp)).imp id fun hex =>
      exists_mem_set hex hpid (by rintro ⟨⟩)
  · intro _ hmem
    exact absurd hrow.symm (of_decide_eq_true (List.mem_filter.mp hmem).2)
  · refine forall_mem_set (fun q hq p hp => ?_) (by rintro _ ⟨⟩)
    obtain ⟨hin, hother⟩ := h.owed q hq p hp
    exact ⟨List.mem_filter.mpr ⟨hin, decide_eq_true fun heq => hother (heq.trans hrow)⟩, hother⟩

theorem closes {effect : Nat} (h : ProjectsKept s calls)
    (hpid : calls[pid]? = some (.delete .closing)) :
    ProjectsKept { s with row := { s.row with status := .closed }, effects := effect }
      (calls.set pid (.delete (.closed effect))) := by
  have hgone := h.gone (Or.inr ⟨_, mem_of_getElem? hpid, rfl⟩)
  refine ⟨?_, by
    rintro ⟨⟩, fun _ => hgone, h.nodup, h.fresh, h.freshRow,
    forall_mem_set h.target (by rintro _ ⟨⟩), forall_mem_set h.owed (by rintro _ ⟨⟩), fun p =>
    (h.one p).set hpid (by rintro ⟨⟩),
    forall_mem_set h.raised (by rintro _ ⟨⟩)⟩
  intro p hp
  exact (h.sound p hp).imp id fun hex => exists_mem_set hex hpid (by rintro ⟨⟩)

theorem step (h : ProjectsKept s calls) (hpid : calls[pid]? = some call)
    (hkeeps : KeepsOneProject ⟨s, calls⟩ (.run pid a))
    (hdeleted : DeletionsSucceed ⟨s, calls⟩ (.run pid a))
    (hmoves : call.Moves s a s' call') : ProjectsKept s' (calls.set pid call') := by
  simp only [KeepsOneProject, DeletionsSucceed, hpid] at hkeeps hdeleted
  cases hmoves with
  | quiet hrow hprojects hnext howes htarget hclosing hraised =>
      exact h.quiet hpid hrow hprojects hnext howes htarget hclosing hraised
  | duplicates hcall hok hfailed =>
      subst hcall
      rcases hkeeps with ⟨⟨⟩⟩ | ⟨⟨⟩⟩
      · obtain ⟨new, hnew, rfl⟩ := hok rfl
        cases hnew
        exact h.duplicates hpid rfl rfl rfl (by rintro _ ⟨⟩)
      · rw [hfailed rfl]
        refine h.quiet hpid rfl (List.append_nil _) rfl rfl (by rintro _ ⟨⟩) rfl ?_
        rintro made ⟨⟩
        rfl
  | fails hcall =>
      subst hcall
      cases hkeeps
  | commits hcall htook =>
      subst hcall
      obtain ⟨⟨⟩, hactive, hold, hnone⟩ := hkeeps
      obtain ⟨rfl, rfl⟩ := htook rfl rfl
      exact h.commits hpid hactive hold hnone _
  | deletesOld hcall hs =>
      subst hcall
      rcases hs with rfl | rfl
      · exact h.deletesOld hpid
      · have hheld := (h.owed _ (mem_of_getElem? hpid) _ rfl).1
        exact absurd hheld (hdeleted.resolve_left (by rintro ⟨⟩))
  | @deletes project _ _ hcall hs =>
      subst hcall
      have hclosing := h.deletes hpid
      rcases hs with rfl | ⟨rfl, rfl⟩
      · exact hclosing
      · have hmissing : project ∉ s'.projects := hdeleted.resolve_left (by rintro ⟨⟩)
        have hsame : s'.projects.filter (· ≠ project) = s'.projects :=
          List.filter_eq_self.mpr fun p hp => decide_eq_true fun heq => hmissing (heq ▸ hp)
        rw [hsame] at hclosing
        exact hclosing
  | closes hcall htook =>
      subst hcall
      obtain ⟨rfl, rfl⟩ := htook hdeleted
      exact h.closes hpid

theorem oneProject (h : ProjectsKept s calls) : OneProject ⟨s, calls⟩ := by
  refine ⟨fun made hmem p hp => ?_, fun hended => ?_⟩
  · rw [h.raised _ hmem made rfl] at hp
    cases hp
  · have hnotOwed : ∀ p, ¬ ∃ call ∈ calls, call.owes = some p := by
      rintro p ⟨call, hcall, hp⟩
      rw [Call.owes_of_ended (hended call hcall)] at hp
      cases hp
    have hnotClosing : ¬ ∃ call ∈ calls, call.isClosing = true := by
      rintro ⟨call, hcall, hclosing⟩
      rw [Call.isClosing_of_ended (hended call hcall)] at hclosing
      cases hclosing
    have hrow : ∀ p ∈ s.projects, p = s.row.gns3ProjectId := fun p hp =>
        (h.sound p hp).resolve_right (hnotOwed p)
    show s.projects = s.owned
    unfold Service.owned
    split
    · rename_i hactive
      have hmem := (h.named hactive).resolve_right hnotClosing
      apply List.Perm.eq_singleton
      apply (List.perm_ext_iff_of_nodup h.nodup (by simp)).mpr
      intro p
      rw [List.mem_singleton]
      exact ⟨hrow p, fun heq => heq ▸ hmem⟩
    · rename_i hclosed
      apply List.eq_nil_iff_forall_not_mem.mpr
      intro p hp
      exact h.gone (Or.inl hclosed) (hrow p hp ▸ hp)

end ProjectsKept

/-! ### All runs -/

variable {c c' : Conf Service Call} {l : Label Move Operation Answer}

theorem projectsKept_next (h : ProjectsKept c.shared c.procs) (hkeeps : KeepsOneProject c l)
    (hdeleted : DeletionsSucceed c l) (hnext : (lifecycle sessionId).next c l = some c') :
    ProjectsKept c'.shared c'.procs := by
  rcases (lifecycle sessionId).next_cases hnext with ⟨e, s, rfl, henv, rfl⟩ | ⟨op, rfl, rfl⟩
    | ⟨pid, a, call, s, call', rfl, hpid, hstep, rfl⟩
  · cases henv
    cases e <;> exact ⟨h.sound, h.named, h.gone, h.nodup, h.fresh, h.freshRow, h.target, h.owed,
      h.one, h.raised⟩
  · have hstart : ∀ {P : Call → Prop}, (∃ call ∈ c.procs, P call) →
        ∃ call ∈ c.procs ++ [Call.start op], P call := by
      rintro P ⟨call, hcall, hp⟩
      exact ⟨call, List.mem_append_left _ hcall, hp⟩
    have howes : (Call.start op).owes = none := by cases op <;> rfl
    refine ⟨fun p hp => (h.sound p hp).imp id hstart, fun hactive =>
      (h.named hactive).imp id hstart, ?_, h.nodup, h.fresh, h.freshRow,
      forall_mem_append h.target ?_, forall_mem_append h.owed ?_,
      fun p => (h.one p).append ?_, forall_mem_append h.raised ?_⟩
    · rintro (hclosed | ⟨call, hcall, hclosing⟩)
      · exact h.gone (Or.inl hclosed)
      · rcases List.mem_append.mp hcall with hold | hnew
        · exact h.gone (Or.inr ⟨call, hold, hclosing⟩)
        · rw [List.mem_singleton.mp hnew] at hclosing
          cases op <;> cases hclosing
    · cases op <;> rintro p ⟨⟩
    · show ∀ p, (Call.start op).owes = some p → _
      rw [howes]
      rintro p ⟨⟩
    · show ¬ (Call.start op).owes = some p
      rw [howes]
      rintro ⟨⟩
    · cases op <;> rintro made ⟨⟩
  · exact h.step hpid hkeeps hdeleted (Call.step_moves hstep)

theorem projectsKept_start : ProjectsKept {} [] where
  sound p hp := Or.inl (List.mem_singleton.mp hp)
  named _ := Or.inl (List.mem_singleton_self _)
  gone := by
    rintro (hclosed | ⟨_, hmem, -⟩)
    · cases hclosed
    · cases hmem
  nodup := by simp
  fresh p hp := by
    rw [List.mem_singleton.mp hp]
    exact Nat.zero_lt_one
  freshRow := Nat.zero_lt_one
  target := List.forall_mem_nil _
  owed := List.forall_mem_nil _
  one _ := exclusive_nil _
  raised := List.forall_mem_nil _

/-! ### A reset alone -/

/-- What a reset has made of the service it found, when nothing else moves. -/
def ResetPc.Alone (s s' : Service) : ResetPc → Prop
  | .start | .duplicating _ => s' = s
  | .calling _ _ new made | .committing _ new made =>
      s'.projects = s.projects ++ made ∧ s'.row = s.row ∧ new ∈ made
  | .raised made =>
      s'.projects = s.projects ++ made ∧ (s'.row = s.row ∨ s'.row.gns3ProjectId ∈ made)
  | .deletingOld .. | .returned _ => True

theorem ResetPc.Alone.step {s₁ s₂ : Service} {pc pc' : ResetPc} (h : pc.Alone s s₁)
    (hstep : pc.step s₁ a = some (s₂, pc')) : pc'.Alone s s₂ := by
  cases pc with
  | start =>
      obtain rfl : s₁ = s := h
      cases a with
      | done =>
          cases hstep
          split
          · exact ⟨(List.append_nil _).symm, Or.inl rfl⟩
          · exact rfl
      | failed =>
          cases hstep
          exact ⟨(List.append_nil _).symm, Or.inl rfl⟩
      | _ => cases hstep
  | duplicating old =>
      obtain rfl : s₁ = s := h
      cases a with
      | duplicated made ok =>
          simp only [ResetPc.step] at hstep
          split at hstep
          · split at hstep
            · cases hstep
            · rename_i new hnew
              cases hstep
              exact ⟨rfl, rfl, List.mem_of_getLast? hnew⟩
          · cases hstep
            exact ⟨rfl, Or.inl rfl⟩
      | _ => cases hstep
  | calling p old new made =>
      cases a with
      | done =>
          simp only [ResetPc.step] at hstep
          split at hstep <;> cases hstep <;> exact h
      | failed =>
          cases hstep
          exact ⟨h.1, Or.inl h.2.1⟩
      | _ => cases hstep
  | committing old new made =>
      cases a with
      | committed ok took =>
          simp only [ResetPc.step] at hstep
          split at hstep
          · split at hstep
            · cases hstep
              exact trivial
            · cases hstep
          · cases hstep
            split
            · exact ⟨h.1, Or.inr h.2.2⟩
            · exact ⟨h.1, Or.inl h.2.1⟩
      | _ => cases hstep
  | deletingOld old new effect =>
      cases a with
      | done | failed =>
          cases hstep
          exact trivial
      | _ => cases hstep
  | returned | raised => cases a <;> cases hstep

theorem ResetPc.Alone.run {s₁ : Service} {pc : ResetPc} {answers : List Answer}
    {c : Conf Service Call}
    (h : pc.Alone s s₁)
    (hexec : (lifecycle sessionId).exec ⟨s₁, [.reset pc]⟩ (answers.map (.run 0)) = some c) :
    ∃ s₂ pc', c = ⟨s₂, [.reset pc']⟩ ∧ pc'.Alone s s₂ := by
  induction answers generalizing s₁ pc with
  | nil =>
      cases hexec
      exact ⟨s₁, pc, rfl, h⟩
  | cons a answers ih =>
      simp only [List.map_cons, System.exec] at hexec
      split at hexec
      · cases hexec
      · rename_i c' hnext
        obtain ⟨⟨s₂, call⟩, hstep, rfl⟩ := Option.map_eq_some_iff.mp hnext
        obtain ⟨⟨s₃, pc'⟩, hpc, heq⟩ := Option.map_eq_some_iff.mp hstep
        cases heq
        exact ih (h.step hpc) hexec

/-- **When a session has one project.** Where `duplicate_project` makes no more than it returns, a
reset that has a project comes to its commit, and commits over the row it has read with no deletion
under way, a session at rest owns the project of its row while it is active and none once it is
closed. A reset that runs alone and raises leaves the row with a project that exists and nothing it
made exactly when it had made nothing. -/
theorem session_owns_one_project (sessionId : String) :
    (∀ ls : List (Label Move Operation Answer),
      (lifecycle sessionId).Along DeletionsSucceed ⟨{}, []⟩ ls →
      (lifecycle sessionId).Along KeepsOneProject ⟨{}, []⟩ ls →
      (lifecycle sessionId).Throughout OneProject ⟨{}, []⟩ ls)
    ∧ ∀ (s : Service) (answers : List Answer) (s' : Service) (made : List ProjectId),
        s.row.gns3ProjectId ∈ s.projects →
        (lifecycle sessionId).exec ⟨s, [.reset .start]⟩ (answers.map (.run 0))
          = some ⟨s', [.reset (.raised made)]⟩ →
        ((s'.row.gns3ProjectId ∈ s'.projects ∧ ∀ p ∈ made, p ∉ s'.projects) ↔ made = []) := by
  constructor
  · intro ls hdeleted hkeeps
    have hboth := hkeeps.and _ hdeleted
    have hall : (lifecycle sessionId).Throughout (fun c =>
        ProjectsKept c.shared c.procs) ⟨{}, []⟩ ls :=
      System.throughout_of_along _ (fun _ _ _ h hl => projectsKept_next h hl.1 hl.2)
        projectsKept_start hboth
    exact hall.mono _ fun _ => ProjectsKept.oneProject
  · intro s answers s' made hrow hexec
    have hstart : ResetPc.start.Alone s s := rfl
    obtain ⟨s₂, pc', heq, halone⟩ := hstart.run hexec
    cases heq
    obtain ⟨hprojects, hnamed⟩ := halone
    rw [hprojects]
    constructor
    · rintro ⟨-, hundone⟩
      apply List.eq_nil_iff_forall_not_mem.mpr
      exact fun p hp => hundone p hp (List.mem_append_right _ hp)
    · rintro rfl
      refine ⟨List.mem_append_left _ ?_, List.forall_mem_nil _⟩
      rcases hnamed with hsame | hmade
      · rw [hsame]
        exact hrow
      · cases hmade

instance (c : Conf Service Call) : DecidablePred (DeletionsSucceed c)
  | .run pid a => by
      unfold DeletionsSucceed
      dsimp only
      split <;> infer_instance
  | .env _ => .isTrue trivial
  | .spawn _ => .isTrue trivial

def resetToCommit (pid : Nat) : List (Label Move Operation Answer) :=
  [.run pid .done, .run pid (.duplicated 1 true), .run pid .done, .run pid .done, .run pid .done]

def resetThenDeleted : List (Label Move Operation Answer) :=
  [.spawn .resetProject] ++ resetToCommit 0
    ++ [.run 0 (.committed true true), .run 0 .done, .spawn .deleteSession, .run 1 .done,
      .run 1 .done, .run 1 .done, .run 1 (.committed true true), .run 1 .done]

/-- The session is deleted while the reset is about to commit. -/
def deletedUnderReset : List (Label Move Operation Answer) :=
  [.spawn .resetProject] ++ resetToCommit 0 ++ [.spawn .deleteSession, .run 1 .done, .run 1 .done,
    .run 1 .done, .run 1 (.committed true true), .run 1 .done, .run 0 (.committed true true),
    .run 0 .failed]

instance (c : Conf Service Call) : DecidablePred (KeepsOneProject c)
  | .run pid a => by
      unfold KeepsOneProject
      dsimp only
      split <;> infer_instance
  | .env _ => .isTrue trivial
  | .spawn _ => .isTrue trivial

theorem session_owns_one_project_resetThenDeleted :
    ((lifecycle "s").Along DeletionsSucceed ⟨{}, []⟩ resetThenDeleted
      ∧ (lifecycle "s").Along KeepsOneProject ⟨{}, []⟩ resetThenDeleted
      ∧ (lifecycle "s").Throughout OneProject ⟨{}, []⟩ resetThenDeleted)
    ∧ ((0 : ProjectId) ∈ ({} : Service).projects ∧ ∀ p ∈ ([] : List ProjectId),
      p ∉ ({} : Service).projects) :=
  have hdeleted : (lifecycle "s").Along DeletionsSucceed ⟨{}, []⟩ resetThenDeleted := by decide
  have hkeeps : (lifecycle "s").Along KeepsOneProject ⟨{}, []⟩ resetThenDeleted := by decide
  have hrefused : (lifecycle "s").exec ⟨{}, [.reset .start]⟩
      ([.done, .duplicated 0 false].map (.run 0))
      = some ⟨{}, [.reset (.raised [])]⟩ := rfl
  ⟨⟨hdeleted, hkeeps, (session_owns_one_project "s").1 resetThenDeleted hdeleted hkeeps⟩,
    ((session_owns_one_project "s").2 {} _ {} [] (by decide) hrefused).mpr rfl⟩

theorem project_left_behind :
    (∃ s' : Service,
      (lifecycle "s").exec ⟨{}, [.reset .start]⟩ ([.done, .duplicated 1 true, .failed].map (.run 0))
        = some ⟨s', [.reset (.raised [1])]⟩ ∧ 1 ∈ s'.projects)
      ∧ (lifecycle "s").Along DeletionsSucceed ⟨{}, []⟩ deletedUnderReset
      ∧ ¬ (lifecycle "s").Throughout OneProject ⟨{}, []⟩ deletedUnderReset := by
  refine ⟨⟨{ projects := [0, 1], nextProject := 2 }, rfl, by decide⟩, by decide, fun hall => ?_⟩
  have hrun : (lifecycle "s").exec ⟨{}, []⟩ deletedUnderReset
      = some ⟨{ row := { status := .closed, gns3ProjectId := 1 }
                projects := [1]
                nextProject := 2
                effects := 2
                settled := 2 },
          [.reset (.returned 1), .delete .returned]⟩ := rfl
  have hone := (hall.exec _ hrun).settled (by decide)
  cases hone

end OnlinetLabs.Gns3
