import OnlinetLabs.Sessions.WellFormed

/-!
# An ended row stays ended

`_mark_ended_and_finalize` looks at `ended_at` before it writes. `_finalize_session_row` does not,
and between the insert of a launch's row and its finalization there is a GNS3 call of about half a
minute in which anybody may end the row. When the call succeeds, the launch writes `active` on it.

That commit is the only way to a live row with an `ended_at`. A run reaches one exactly when it
makes such a commit: `endedTerminal_iff`.
-/

namespace OnlinetLabs.Sessions

open Interleaving

variable {cfg : Config} {c c' : World} {l : Move}

/-- A row whose `ended_at` is set is neither active nor provisioning. -/
def EndedTerminal (c : World) : Prop :=
  ∀ (k : SessionId) (r : LearningSession), c.shared.sessions.get? k = some r →
    r.endedAt.isSome → r.status.isLive = false

/-- The next step is the commit of `_finalize_session_row` with `active`, the row has been ended
since the launch inserted it, and the unique index lets the write through. -/
def Revives (c : World) (l : Move) : Prop :=
  ∃ pid a req isNew loaded gns3 current, l = .run pid a
    ∧ c.procs[pid]? = some (.launch req (.finalizeCommit isNew loaded (.active gns3)))
    ∧ c.shared.sessions.get? loaded.id = some current
    ∧ current.endedAt.isSome
    ∧ liveTwin c.shared.sessions ((Provisioned.active gns3).assign current) = false

theorem EndedTerminal.env {s : Shared} {e : Env} (h : EndedTerminal c)
    (hs : e.apply c.shared = some s) : EndedTerminal { c with shared := s } := by
  cases e with
  | tick d =>
      cases hs
      exact h
  | erase userId =>
      cases hs
      exact fun k r hk => h k r (Table.get?_of_get?_deleteWhere hk)

/-- Any other write leaves an ended row terminal. -/
theorem EndedTerminal.writes {s : Shared} {sessions : SessionTable} {p p' : Proc}
    (hwrites : Writes cfg s p sessions p') (hp : p.Wf s.sessions)
    (h : ∀ (k : SessionId) (r : LearningSession), s.sessions.get? k = some r →
      r.endedAt.isSome → r.status.isLive = false)
    (hno : ∀ req isNew loaded gns3 current,
      p = .launch req (.finalizeCommit isNew loaded (.active gns3)) →
        s.sessions.get? loaded.id = some current →
        liveTwin s.sessions ((Provisioned.active gns3).assign current) = false →
          current.endedAt = none) :
    ∀ (k : SessionId) (r : LearningSession), sessions.get? k = some r →
      r.endedAt.isSome → r.status.isLive = false := by
  intro k r hk hended
  cases hwrites with
  | nothing => exact h k r hk hended
  | insert hfree =>
      rw [Table.get?_insert] at hk
      split at hk
      · cases hk
        exact nomatch hended
      · exact h k r hk hended
  | @finalize req isNew loaded current result hrow hfree =>
      rw [LearningSession.flush_assign hp.2] at hk hfree
      rw [Table.get?_set hrow] at hk
      split at hk
      · cases hk
        cases result with
        | active gns3 =>
            have hopen := hno req isNew loaded gns3 current rfl hrow hfree
            simp [Provisioned.assign, hopen] at hended
        | error => rfl
      · exact h k r hk hended
  | markEnded hrow =>
      rw [LearningSession.flush_markEnded hp.1.2.1 hp.1.2.2, Table.get?_set hrow] at hk
      split at hk
      · cases hk
        exact EndStatus.isLive_toStatus _
      · exact h k r hk hended

theorem EndedTerminal.next (hwf : Wf c) (h : EndedTerminal c) (hno : ¬ Revives c l)
    (hnext : (platform cfg).next c l = some c') : EndedTerminal c' := by
  rcases (platform cfg).next_cases hnext with ⟨e, s, -, hs, rfl⟩ | ⟨i, -, rfl⟩
    | ⟨pid, a, p, s, p', rfl, hpid, hstep, rfl⟩
  · exact h.env hs
  · exact h
  · have hwrites : Writes cfg c.shared p s.sessions p' := Proc.step_writes hstep
    refine EndedTerminal.writes hwrites (hwf.procs p (mem_of_getElem? hpid)) h ?_
    rintro req isNew loaded gns3 current rfl hrow hfree
    by_contra hended
    exact hno ⟨pid, a, req, isNew, loaded, gns3, current, rfl, hpid, hrow,
      Option.ne_none_iff_isSome.mp hended, hfree⟩

/-- The commit leaves the row active and ended. -/
theorem Revives.not_endedTerminal (hwf : Wf c) (h : Revives c l)
    (hnext : (platform cfg).next c l = some c') : ¬ EndedTerminal c' := by
  obtain ⟨pid, a, req, isNew, loaded, gns3, current, rfl, hpid, hrow, hended, hfree⟩ := h
  have hflush : loaded.flush ((Provisioned.active gns3).assign loaded) current
      = (Provisioned.active gns3).assign current :=
    LearningSession.flush_assign (hwf.procs _ (mem_of_getElem? hpid)).2
  simp only [System.next, hpid, platform, Proc.step, LaunchPc.step, hrow, hflush, hfree,
    Bool.false_eq_true, if_false, Option.map_some, Option.some.injEq] at hnext
  subst hnext
  intro hterminal
  have := hterminal loaded.id _ (Table.get?_set_self hrow) hended
  simp [Provisioned.assign, Status.isLive] at this

/-- **Ended rows are terminal, up to a revived row.** In a run of launches, ends, reaper passes and
erasures, every ended row is terminal in every state exactly when no step is the commit of an
`active` finalization that finds its row already ended. -/
theorem endedTerminal_iff (cfg : Config) (ls : List Move) :
    (platform cfg).Throughout EndedTerminal World.init ls
      ↔ (platform cfg).Along (fun c l => ¬ Revives c l) World.init ls := by
  refine (platform cfg).throughout_iff_along (fun _ _ _ hwf hnext => hwf.next hnext) ?_ wf_init
    (fun _ _ hk => nomatch hk)
  intro c l c' hwf h hnext
  exact ⟨fun hterminal hrevives => hrevives.not_endedTerminal hwf hnext hterminal,
    fun hno => h.next hwf hno hnext⟩

/-- A launch, and an end of the lab while GNS3 is still provisioning. -/
def endedWhileProvisioning : List Move :=
  [Label.spawn (Request.launch "ann" "vlan")] ++ List.replicate 8 (Label.run 0 Answer.ok)
    ++ [Label.spawn (Request.endLab 0 "ann")] ++ List.replicate 6 (Label.run 1 Answer.ok)
    ++ List.replicate 3 (Label.run 0 Answer.ok)

/-- The launch finishes last, and the row it leaves is active and ended. -/
theorem launch_revives_ended_row :
    ¬ ∀ (cfg : Config) (ls : List Move), (platform cfg).Throughout EndedTerminal World.init ls := by
  intro h
  have hrun : ((platform (.uniform 10 2 (minutes 480))).exec World.init endedWhileProvisioning).map
      (fun c => c.shared.sessions.get? 0)
      = some (some ⟨0, "ann", "vlan", .active, 0, some 0, some (minutes 480), some ⟨0⟩⟩) := by
    decide
  obtain ⟨c, hexec, hrow⟩ := Option.map_eq_some_iff.mp hrun
  exact nomatch (h _ _).exec _ hexec 0 _ hrow rfl

end OnlinetLabs.Sessions
