import OnlinetLabs.Sessions.Reclaim

/-!
# A pause and the learner's presence

The pass marks a row by its key, whatever has become of the row since it was read. A start action
clears the mark by the copy it loaded, and does nothing where the copy has none. So a session in use
can be marked, and one that has been resumed can stay so.
-/

namespace OnlinetLabs.Sessions

open Interleaving

/-! ### The law -/

/-- A session is marked paused only while it is idle, and is not paused once it has been resumed. -/
structure SparesUse (s : Site) : Prop where
  marks : ∀ mark ∈ s.marks,
    mark.row.status = .active ∧ mark.row.endedAt = none ∧ mark.row.lastSeenAt < mark.cutoff
  resumed : ∀ id row, s.sessions.get? id = some row → s.resumed id = true → row.pausedAt = none

/-- Since the pass read the row nobody has ended it, changed its status or stamped it past the
cutoff, and nobody has completed a start action since the pass stopped its nodes. -/
structure Undisturbed (s : Site) (turn : Turn) (row : SeenSession) : Prop where
  status : row.status = turn.session.status
  running : row.endedAt = none
  unseen : row.lastSeenAt = turn.session.lastSeenAt ∨ row.lastSeenAt < s.pass.cutoff
  stopped : s.resumed turn.session.id = false

/-- The move marks no row that has been disturbed, and returns no start action while its row is
marked. -/
def SparingMove (c : Conf Site StartAction) : Label SiteMove (SessionId × UserId) StartAnswer → Prop
  | .env (.pass (.mark _ true)) => ∀ turn rest row, c.shared.pass.pc = .marking turn rest →
      c.shared.sessions.get? turn.session.id = some row → Undisturbed c.shared turn row
  | .run pid .ok => ∀ p row, c.procs[pid]? = some p → p.pc = .cleared →
      c.shared.sessions.get? p.sessionId = some row → row.pausedAt = none
  | _ => True

/-! ### The copies of the pass -/

def PassPc.copies : PassPc → List SeenSession
  | .idle | .selecting | .raised => []
  | .looping rest => rest
  | .fetching turn rest | .saving turn rest | .stopping turn rest | .marking turn rest =>
      turn.session :: rest

/-- Every row the pass goes by was idle when it was read. -/
def Pass.ReadIdle (pass : Pass) : Prop := ∀ copy ∈ pass.pc.copies, copy.isIdle pass.cutoff = true

variable {s s' : Site} {turn : Turn} {a : PassAnswer} {row : SeenSession} {id : SessionId}
  {f : SeenSession → SeenSession} {p p' : StartAction} {answer : StartAnswer} {now : Time}

theorem SeenSession.isIdle_iff {cutoff : Time} : row.isIdle cutoff = true
    ↔ row.status = .active ∧ row.pausedAt = none ∧ row.lastSeenAt < cutoff := by
  simp [isIdle, and_assoc]

theorem Pass.ReadIdle.goTo {pass : Pass} (h : pass.ReadIdle) {pc : PassPc}
    (hcopies : ∀ copy ∈ pc.copies, copy ∈ pass.pc.copies) : Pass.ReadIdle { pass with pc } :=
  fun copy hcopy => h copy (hcopies copy hcopy)

theorem Pass.ReadIdle.advance (h : s.pass.ReadIdle) (ha : Advances s a s') : s'.pass.ReadIdle := by
  cases ha with
  | begin hpc =>
      intro copy hcopy
      cases hcopy
  | @select ok hpc =>
      cases ok with
      | true => exact fun copy hcopy => (List.mem_filter.mp hcopy).2
      | false =>
          intro copy hcopy
          cases hcopy
  | @skip session rest found turns pc hpc hturns hnext =>
      rcases hnext with rfl | rfl
      · intro copy hcopy
        exact h copy (by rw [hpc]; exact List.mem_cons_of_mem _ hcopy)
      · intro copy hcopy
        cases hcopy
  | turn hpc hsid =>
      intro copy hcopy
      exact h copy (by rw [hpc]; exact hcopy)
  | fetch hpc | blind hpc | save hpc | gather hpc =>
      apply h.goTo
      intro copy hcopy
      rw [hpc]
      exact hcopy
  | @stop turn rest ok hpc =>
      apply h.goTo
      intro copy hcopy
      rw [hpc]
      cases ok with
      | true => exact hcopy
      | false => exact List.mem_cons_of_mem _ hcopy
  | @mark turn rest now ok hpc =>
      have hrest : Pass.ReadIdle { s.pass with pc := .looping rest } := by
        apply h.goTo
        intro copy hcopy
        rw [hpc]
        exact List.mem_cons_of_mem _ hcopy
      cases ok with
      | true =>
          simp only [Site.goTo, if_true, Site.pass_markPaused]
          exact hrest
      | false => exact hrest

/-! ### Updates of the rows -/

namespace SparesUse

/-- An UPDATE that does not pause. -/
theorem update (h : SparesUse s) (hf : ∀ row, row.pausedAt = none → (f row).pausedAt = none) :
    SparesUse (s.update id f) := by
  refine ⟨by rw [Site.marks_update]; exact h.marks, ?_⟩
  intro other row hrow hresumed
  rw [Site.resumed_update] at hresumed
  rw [Site.get?_update] at hrow
  split at hrow
  · obtain ⟨old, hold, rfl⟩ := Option.map_eq_some_iff.mp hrow
    exact hf old (h.resumed other old hold hresumed)
  · exact h.resumed other row hrow hresumed

theorem stopped (h : SparesUse s) (id : SessionId) : SparesUse (s.setResumed id false) := by
  refine ⟨h.marks, fun other row hrow hresumed => ?_⟩
  simp only [Site.setResumed] at hresumed
  split at hresumed
  · cases hresumed
  · exact h.resumed other row hrow hresumed

/-- What the return of a start action takes. -/
theorem resumed_iff (h : SparesUse s) : SparesUse (s.setResumed id true)
    ↔ ∀ row, s.sessions.get? id = some row → row.pausedAt = none := by
  constructor
  · intro h' row hrow
    exact h'.resumed id row hrow (by simp [Site.setResumed])
  · intro hrow
    refine ⟨h.marks, fun other row hother hresumed => ?_⟩
    simp only [Site.setResumed] at hresumed
    split at hresumed
    · rename_i heq
      exact hrow row (heq ▸ hother)
    · exact h.resumed other row hother hresumed

/-- **The mark of a row.** -/
theorem mark_iff (h : SparesUse s) (hidle : turn.session.isIdle s.pass.cutoff = true) :
    SparesUse (s.markPaused turn.session.id now)
      ↔ ∀ row, s.sessions.get? turn.session.id = some row → Undisturbed s turn row := by
  obtain ⟨hactive, -, hlast⟩ := SeenSession.isIdle_iff.mp hidle
  unfold Site.markPaused
  split
  · rename_i row hrow
    have hmarked :
        (s.update turn.session.id fun row => { row with pausedAt := some now }).sessions.get?
        turn.session.id = some { row with pausedAt := some now } := by
      rw [Site.get?_update, if_pos rfl, hrow, Option.map_some]
    simp only [hrow, Option.some.injEq, forall_eq']
    constructor
    · intro h'
      obtain ⟨hstatus, hended, hseen⟩ := h'.marks { cutoff := s.pass.cutoff, row } (by simp)
      refine ⟨hstatus.trans hactive.symm, hended, Or.inr hseen, ?_⟩
      by_contra hresumed
      have hpaused := h'.resumed turn.session.id _ hmarked (by simpa using hresumed)
      cases hpaused
    · intro hun
      refine ⟨?_, fun other row' hrow' hresumed => ?_⟩
      · refine List.forall_mem_append.mpr ⟨h.marks, List.forall_mem_singleton.mpr ?_⟩
        refine ⟨hun.status.trans hactive, hun.running, ?_⟩
        rcases hun.unseen with hsame | hbefore
        · exact hsame ▸ hlast
        · exact hbefore
      · simp only [Site.resumed_update] at hresumed
        rw [Site.get?_update] at hrow'
        split at hrow'
        · rename_i heq
          rw [heq, hun.stopped] at hresumed
          cases hresumed
        · exact h.resumed other row' hrow' hresumed
  · rename_i hnone
    refine iff_of_true h fun row hrow => ?_
    rw [hnone] at hrow
    cases hrow

theorem advance_iff (h : SparesUse s) (hread : s.pass.ReadIdle) (ha : Advances s a s') :
    SparesUse s'
    ↔ ∀ now, a = .mark now true → ∀ turn rest row, s.pass.pc = .marking turn rest →
        s.sessions.get? turn.session.id = some row → Undisturbed s turn row := by
  cases ha with
  | begin | select | skip | turn | fetch | blind | save | gather =>
      refine iff_of_true ⟨h.marks, h.resumed⟩ ?_
      rintro now ⟨⟩
  | @stop turn rest ok hpc =>
      refine iff_of_true ⟨(h.stopped turn.session.id).marks, (h.stopped turn.session.id).resumed⟩ ?_
      rintro now ⟨⟩
  | @mark turn rest now ok hpc =>
      cases ok with
      | false =>
          refine iff_of_true ⟨h.marks, h.resumed⟩ ?_
          rintro now ⟨⟩
      | true =>
          have hidle : turn.session.isIdle s.pass.cutoff = true :=
            hread turn.session (by rw [hpc]; exact List.mem_cons_self)
          have hgone : SparesUse ((s.markPaused turn.session.id now).goTo (.looping rest))
              ↔ SparesUse (s.markPaused turn.session.id now) :=
            ⟨fun h' => ⟨h'.marks, h'.resumed⟩, fun h' => ⟨h'.marks, h'.resumed⟩⟩
          simp only [if_true, hgone, h.mark_iff hidle]
          constructor
          · intro hun _ _ turn' rest' row hpc'
            rw [hpc, PassPc.marking.injEq] at hpc'
            exact hpc'.1 ▸ hun row
          · exact fun hall row hrow => hall now rfl turn rest row hpc hrow

end SparesUse

theorem SeenSession.pausedAt_touch : (row.touch now).pausedAt = row.pausedAt := by
  unfold touch
  split
  · rfl
  · rfl

theorem SeenSession.pausedAt_touchOwned {userId : UserId} :
    (row.touchOwned now userId).pausedAt = row.pausedAt := by
  unfold touchOwned
  split
  · exact pausedAt_touch
  · rfl

theorem SparesUse.move {move : SiteMove} (h : SparesUse s) (hmove : s.move move = some s')
    (hother : ∀ a, move ≠ .pass a) : SparesUse s' := by
  cases move with
  | pass a => exact absurd rfl (hother a)
  | touched id userId now =>
      cases hmove
      exact h.update fun row hrow => SeenSession.pausedAt_touchOwned.trans hrow
  | observed id now =>
      cases hmove
      exact h.update fun row hrow => SeenSession.pausedAt_touch.trans hrow
  | ended id status now =>
      cases hmove
      exact h.update fun row hrow => hrow
  | erased userId =>
      cases hmove
      exact ⟨h.marks, fun id row hrow => h.resumed id row (Table.get?_of_get?_deleteWhere hrow)⟩
  | nodes | saved =>
      cases hmove
      exact ⟨h.marks, h.resumed⟩
  | stopped id =>
      cases hmove
      exact h.stopped id

/-- **A step of a start action.** It keeps the law, or it returns. -/
theorem StartAction.step_cases (h : SparesUse s) (hstep : p.step s answer = some (s', p')) :
    (SparesUse s' ∧ ¬ (answer = .ok ∧ p.pc = .cleared))
      ∨ (answer = .ok ∧ p.pc = .cleared ∧ s' = s.setResumed p.sessionId true) := by
  obtain ⟨sessionId, userId, pc⟩ := p
  cases answer with
  | failed =>
      cases pc with
      | returned | raised => cases hstep
      | called | loaded | acted | cleared =>
          cases hstep
          exact Or.inl ⟨h, by simp⟩
  | ok =>
      cases pc with
      | returned | raised => cases hstep
      | called =>
          simp only [step] at hstep
          split at hstep
          · cases hstep
            exact Or.inl ⟨h, by simp⟩
          · cases hstep
            exact Or.inl ⟨h, by simp⟩
      | loaded copy =>
          cases hstep
          exact Or.inl ⟨h, by simp⟩
      | acted copy =>
          simp only [step] at hstep
          split at hstep
          · cases hstep
            exact Or.inl ⟨h, by simp⟩
          · split at hstep
            · cases hstep
              exact Or.inl ⟨h.update fun _ _ => rfl, by simp⟩
            · cases hstep
              exact Or.inl ⟨h, by simp⟩
      | cleared =>
          cases hstep
          exact Or.inr ⟨rfl, rfl, rfl⟩

/-! ### All runs -/

variable {c c' : Conf Site StartAction} {l : Label SiteMove (SessionId × UserId) StartAnswer}

theorem readIdle_next (h : c.shared.pass.ReadIdle) (hnext : reclaiming.next c l = some c') :
    c'.shared.pass.ReadIdle := by
  rcases reclaiming.next_cases hnext with ⟨move, s, rfl, hmove, rfl⟩ | ⟨i, rfl, rfl⟩
    | ⟨pid, answer, p, s, p', rfl, hpid, hstep, rfl⟩
  · rcases Site.move_cases hmove with ⟨a, -, ha⟩ | ⟨hpass, -, -, -⟩
    · exact h.advance ha
    · simp only [hpass]
      exact h
  · exact h
  · obtain ⟨hpass, -, -⟩ := StartAction.step_frame hstep
    simp only [hpass]
    exact h

theorem sparesUse_next_iff (hread : c.shared.pass.ReadIdle) (h : SparesUse c.shared)
    (hnext : reclaiming.next c l = some c') : SparesUse c'.shared ↔ SparingMove c l := by
  rcases reclaiming.next_cases hnext with ⟨move, s, rfl, hmove, rfl⟩ | ⟨i, rfl, rfl⟩
    | ⟨pid, answer, p, s, p', rfl, hpid, hstep, rfl⟩
  · have hmove' : c.shared.move move = some s := hmove
    by_cases hother : ∀ a, move ≠ .pass a
    · refine iff_of_true (h.move hmove' hother) ?_
      cases move with
      | pass a => exact absurd rfl (hother a)
      | _ => exact trivial
    · push Not at hother
      obtain ⟨a, rfl⟩ := hother
      rw [h.advance_iff hread (advances_of_advance hmove')]
      cases a with
      | mark now ok =>
          cases ok with
          | true => exact ⟨fun hall => hall now rfl, fun hall _ _ => hall⟩
          | false => exact iff_of_true (by rintro _ ⟨⟩) trivial
      | _ => exact iff_of_true (by rintro _ ⟨⟩) trivial
  · exact iff_of_true h trivial
  · have hcond : SparingMove c (.run pid answer) ↔ (answer = .ok → p.pc = .cleared →
        ∀ row, c.shared.sessions.get? p.sessionId = some row → row.pausedAt = none) := by
      cases answer with
      | failed => exact iff_of_true trivial nofun
      | ok =>
          constructor
          · exact fun hall _ hpc row hrow => hall p row hpid hpc hrow
          · intro hall q row hq hpc hrow
            rw [hpid, Option.some.injEq] at hq
            subst hq
            exact hall rfl hpc row hrow
    rw [hcond]
    rcases StartAction.step_cases h hstep with ⟨hkept, hnot⟩ | ⟨rfl, hpc, rfl⟩
    · exact iff_of_true hkept fun hok hpc => absurd ⟨hok, hpc⟩ hnot
    · rw [h.resumed_iff]
      simp [hpc]

/-- **When the reclaimer spares what is in use**: exactly in the runs of sparing moves. -/
theorem spares_use_iff (sessions : Table SeenSession) (nodes : Gns3Id → List Node)
    (ls : List (Label SiteMove (SessionId × UserId) StartAnswer)) :
    reclaiming.Throughout (fun c => SparesUse c.shared) (atRest sessions nodes) ls
      ↔ reclaiming.Along SparingMove (atRest sessions nodes) ls := by
  apply reclaiming.throughout_iff_along (I := fun c => c.shared.pass.ReadIdle)
  · exact fun c l c' h hnext => readIdle_next h hnext
  · exact fun c l c' hread h hnext => sparesUse_next_iff hread h hnext
  · intro copy hcopy
    cases hcopy
  · refine ⟨?_, ?_⟩
    · intro mark hmark
      cases hmark
    · intro id row hrow hresumed
      cases hresumed

/-- The learner comes back and starts the nodes between the stop and the mark of the pass. -/
def comeback : List (Label SiteMove (SessionId × UserId) StartAnswer) :=
  [.env (.pass (.begin (minutes 40))), .env (.pass (.select true)), .env (.pass (.activity .none)),
    .env (.pass (.fetch true)), .env (.pass .gather), .env (.pass (.stop true)),
    .env (.touched 0 "ada" (minutes 41)), .spawn (0, "ada"), .run 0 .ok, .run 0 .ok, .run 0 .ok,
      .run 0 .ok,
    .env (.pass (.mark (minutes 41) true))]

/-- **A session in use is paused.** It was seen a moment ago and its start action has completed. -/
theorem session_in_use_paused :
    (∃ c row, reclaiming.exec (atRest ⟨[some abandoned]⟩ fun _ => []) comeback = some c
        ∧ c.shared.sessions.get? 0 = some row ∧ row.pausedAt = some (minutes 41)
        ∧ row.lastSeenAt = minutes 41 ∧ c.procs.map (·.pc) = [.returned true])
      ∧ ¬ reclaiming.Throughout (fun c => SparesUse c.shared)
        (atRest ⟨[some abandoned]⟩ fun _ => [])
          comeback := by
  have hrun : (reclaiming.exec (atRest ⟨[some abandoned]⟩ fun _ => []) comeback).map (fun c =>
        ((c.shared.sessions.get? 0).map fun row => (row.pausedAt, row.lastSeenAt),
          c.procs.map (·.pc), c.shared.resumed 0))
      = some (some (some (minutes 41), minutes 41), [.returned true], true) := by decide +kernel
  obtain ⟨c, hexec, hc⟩ := Option.map_eq_some_iff.mp hrun
  rw [Prod.mk.injEq, Prod.mk.injEq, Option.map_eq_some_iff] at hc
  obtain ⟨⟨row, hrow, hstamps⟩, hprocs, hresumed⟩ := hc
  obtain ⟨hpaused, hseen⟩ := Prod.mk.inj hstamps
  refine ⟨⟨c, row, hexec, hrow, hpaused, hseen, hprocs⟩, fun hall => ?_⟩
  have hspares : SparesUse c.shared := hall.exec _ hexec
  have hnone : row.pausedAt = none := hspares.resumed 0 row hrow hresumed
  rw [hpaused] at hnone
  cases hnone

end OnlinetLabs.Sessions
