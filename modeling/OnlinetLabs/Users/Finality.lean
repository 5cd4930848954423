import OnlinetLabs.Users.Background

/-!
# When an erasure is final

A foreign key rejects what is written about a user or a session that is gone. Three tables of the
registry have a column about the subject that is none: the audit, the activity of the agents and the
consents. What still holds the ids of an erased subject can write to these.
-/

namespace OnlinetLabs.Users

open Sessions (UserId SessionId)
open Interleaving

/-! ### The law -/

def Row.About (row : Row) (subject : Subject) : Prop :=
  row.userId = some subject.userId ∨ ∃ sessionId ∈ subject.sessions, row.sessionId = some sessionId

/-- No row was written about a subject whose erasure had been committed. -/
def ErasureFinal (p : Platform) :
    Prop := ∀ made ∈ p.made, ∀ subject ∈ made.2, ¬ made.1.About subject

/-! ### The condition -/

def Platform.Spares (p : Platform) (row : Row) : Prop := ∀ subject ∈ p.erased, ¬ row.About subject

/-- The row that a move is to write where no foreign key sees to it. -/
def unguarded (c : Conf Platform Task) :
    Label PlatformMove (TaskKind × UserId × Option SessionId) TaskStep → Option Row
  | .env (.persist true) => c.shared.writes.head?.map ActivityEvent.row
  | .run pid (.audit true) => c.procs[pid]?.map Task.auditRow
  | .run pid (.recordConsent true) =>
      c.procs[pid]?.map fun t => RegistryTable.consents.row t.userId none
  | _ => none

/-- No audit, no queued event and no consent of an erased subject is written. -/
def SparesErased (c : Conf Platform Task)
    (l : Label PlatformMove (TaskKind × UserId × Option SessionId) TaskStep) : Prop :=
  ∀ row, unguarded c l = some row → c.shared.Spares row

/-! ### What the keys reject -/

variable {p p' : Platform} {row : Row} {subject : Subject} {t t' : Task} {step : TaskStep}

/-- The users and the sessions of erased subjects are gone, and a session has one row. -/
structure Platform.Sound (p : Platform) : Prop where
  keys : ∀ r ∈ p.rows, ∀ r' ∈ p.rows, r.table = .learningSessions → r'.table = .learningSessions →
    r.ownId = r'.ownId → r = r'
  users : ∀ subject ∈ p.erased, subject.userId ∉ p.users
  sessions : ∀ subject ∈ p.erased, ∀ sessionId ∈ subject.sessions, p.hasSession sessionId = false

theorem Store.hasSession_iff {s : Store} {sessionId : SessionId} : s.hasSession sessionId = true
    ↔ ∃ row ∈ s.rows, row.table = .learningSessions ∧ row.ownId = some sessionId := by
  simp [Store.hasSession]

theorem Store.hasSession_eq_false_iff {s : Store} {sessionId : SessionId} :
    s.hasSession sessionId = false
    ↔ ∀ row ∈ s.rows, row.table = .learningSessions → row.ownId ≠ some sessionId := by
  rw [← Bool.not_eq_true, Store.hasSession_iff]
  push Not
  rfl

/-- **What a foreign key rejects.** A row of a table whose columns are keys is about no erased
subject. -/
theorem Platform.Sound.spares (h : p.Sound) (hadmits : p.admits row = true)
    (huser : row.userId ≠ none → row.table.userKey ≠ none)
    (hsession : row.sessionId ≠ none → row.table.sessionKey ≠ none) : p.Spares row := by
  simp only [Store.admits, Bool.and_eq_true, Bool.or_eq_true, Option.isNone_iff_eq_none] at hadmits
  obtain ⟨husers, hsessions⟩ := hadmits
  rintro subject hsubject (hrow | ⟨sessionId, hmem, hrow⟩)
  · have hkey : row.table.userKey ≠ none := huser (by simp [hrow])
    have hthere := husers.resolve_left hkey
    rw [hrow] at hthere
    exact h.users subject hsubject (by simpa using hthere)
  · have hkey : row.table.sessionKey ≠ none := hsession (by simp [hrow])
    have hthere := hsessions.resolve_left hkey
    rw [hrow, Option.all_some, h.sessions subject hsubject sessionId hmem] at hthere
    cases hthere

theorem RegistryTable.row_keyed {table : RegistryTable} (h : table.unkeyed = false)
    (userId : UserId)
    (sessionId : Option SessionId) :
    ((table.row userId sessionId).userId ≠ none → table.userKey ≠ none)
      ∧ ((table.row userId sessionId).sessionId ≠ none → table.sessionKey ≠ none) := by
  cases table <;> simp_all [RegistryTable.unkeyed, RegistryTable.row, RegistryTable.hasUserId,
    RegistryTable.hasSessionId, RegistryTable.userKey, RegistryTable.sessionKey]

/-! ### One step -/

inductive Task.Effect (p : Platform) (t : Task) : TaskStep → Platform → Prop where
  | nothing {step : TaskStep}
      (hstep : step ≠ .audit true ∧ step ≠ .recordConsent true) : Effect p t step p
  | emit {sessionId : SessionId} {event : ActivityEvent} : Effect p t (.emit sessionId)
      (p.emit event)
  | audit : Effect p t (.audit true) (p.commit t.auditRow)
  | recordConsent :
      Effect p t (.recordConsent true) (p.commit (RegistryTable.consents.row t.userId none))
  | write {table : RegistryTable} {sessionId : Option SessionId} (htable : table ∈ t.kind.tables) :
      Effect p t (.write table sessionId true) (p.commit (table.row t.userId sessionId))
  | launch {sessionId : SessionId} (hfresh : p.FreshSession sessionId) : Effect p t
      (.launch sessionId)
      (p.commit { RegistryTable.learningSessions.row t.userId none with ownId := some sessionId })

theorem Task.interface_effect (h : t.interface p step = some (p', t')) : t.Effect p step p' := by
  cases step with
  | audit ok =>
      simp only [Task.interface] at h
      split at h
      · cases h
        cases ok with
        | true => exact .audit
        | false => exact .nothing (by simp)
      · cases h
  | emit | write | recordConsent | launch | fail | stop => cases h
  | call | own | consent | answer | gates | record =>
      -- the gates and the answer only lead the call on to its audit
      simp only [Task.interface] at h
      refine (?_ : p' = p) ▸ .nothing (by simp)
      grind

theorem Task.step_effect (h : t.step p step = some (p', t')) : t.Effect p step p' := by
  cases step with
  | emit sessionId =>
      simp only [Task.step] at h
      split at h
      · cases h
        exact .emit
      · cases h
  | write table sessionId ok =>
      simp only [Task.step] at h
      split at h
      · rename_i hguard
        cases h
        cases ok with
        | true => exact .write hguard.2.1
        | false => exact .nothing (by simp)
      · cases h
  | recordConsent ok =>
      simp only [Task.step] at h
      split at h
      · cases h
        cases ok with
        | true => exact .recordConsent
        | false => exact .nothing (by simp)
      · cases h
  | launch sessionId =>
      simp only [Task.step] at h
      split at h
      · rename_i hguard
        cases h
        exact .launch hguard.2.2
      · cases h
  | fail =>
      simp only [Task.step] at h
      split at h
      · cases h
        exact .nothing (by simp)
      · cases h
  | stop =>
      cases h
      exact .nothing (by simp)
  | _ => exact Task.interface_effect h

namespace Platform

theorem commit_frame : (p.commit row).users = p.users ∧ (p.commit row).erased = p.erased := by
  unfold commit
  split <;> exact ⟨rfl, rfl⟩

theorem emit_frame {event : ActivityEvent} : (p.emit event).toStore = p.toStore
    ∧ (p.emit event).erased = p.erased ∧ (p.emit event).made = p.made := by
  unfold emit
  split <;> exact ⟨rfl, rfl, rfl⟩

theorem mem_rows_commit {r : Row} (h : r ∈ (p.commit row).rows) : r ∈ p.rows ∨ r = row := by
  unfold commit at h
  split at h
  · rcases List.mem_append.mp h with hold | hnew
    · exact Or.inl hold
    · exact Or.inr (List.mem_singleton.mp hnew)
  · exact Or.inl h

/-- What is written in one table leaves what is known of users and sessions. -/
theorem Sound.of_rows (h : p.Sound)
    (hrows : ∀ r ∈ p'.rows, r.table = .learningSessions → r ∈ p.rows)
    (husers : ∀ u ∈ p'.users, u ∈ p.users) (herased : p'.erased = p.erased) : p'.Sound := by
  refine ⟨fun r hr r' hr' ht ht' => h.keys r (hrows r hr ht) r' (hrows r' hr' ht') ht ht', ?_, ?_⟩
  · exact fun subject hsubject hmem => h.users subject (herased ▸ hsubject) (husers _ hmem)
  · intro subject hsubject sessionId hmem
    have hgone := h.sessions subject (herased ▸ hsubject) sessionId hmem
    rw [Store.hasSession_eq_false_iff] at hgone ⊢
    exact fun r hr ht => hgone r (hrows r hr ht) ht

theorem Sound.commit (h : p.Sound) (row : Row) (htable : row.table ≠ .learningSessions) :
    (p.commit row).Sound := by
  refine h.of_rows (fun r hr ht => ?_) (fun u hu => commit_frame.1 ▸ hu) commit_frame.2
  rcases mem_rows_commit hr with hold | rfl
  · exact hold
  · exact absurd ht htable

theorem Sound.commit_session {sessionId : SessionId} (h : p.Sound)
    (hfresh : p.FreshSession sessionId)
    (hrow : row.ownId = some sessionId) : (p.commit row).Sound := by
  obtain ⟨hfree, hnever⟩ := hfresh
  have hfree : ∀ r ∈ p.rows, r.table = .learningSessions → r.ownId ≠ some sessionId :=
    Store.hasSession_eq_false_iff.mp hfree
  refine ⟨?_, ?_, ?_⟩
  · intro r hr r' hr' ht ht' heq
    rcases mem_rows_commit hr with hold | rfl
    · rcases mem_rows_commit hr' with hold' | rfl
      · exact h.keys r hold r' hold' ht ht' heq
      · exact absurd (heq.trans hrow) (hfree r hold ht)
    · rcases mem_rows_commit hr' with hold' | rfl
      · exact absurd (heq.symm.trans hrow) (hfree r' hold' ht')
      · rfl
  · intro subject hsubject
    rw [commit_frame.2] at hsubject
    rw [commit_frame.1]
    exact h.users subject hsubject
  · intro subject hsubject other hmem
    rw [commit_frame.2] at hsubject
    have hgone := Store.hasSession_eq_false_iff.mp (h.sessions subject hsubject other hmem)
    refine Store.hasSession_eq_false_iff.mpr fun r hr ht heq => ?_
    rcases mem_rows_commit hr with hold | rfl
    · exact hgone r hold ht heq
    · have hsame : other = sessionId := Option.some.inj (heq.symm.trans hrow)
      exact hnever subject hsubject (hsame ▸ hmem)

theorem Sound.erase {userId : UserId} (h : p.Sound) : Sound { p with
    toStore := (p.toStore.eraseSubject userId).1
    erased := p.erased ++ [⟨userId, p.sessionIds userId⟩] } := by
  have hrows : ∀ r ∈ (p.toStore.eraseSubject userId).1.rows, r.table = .learningSessions →
      r ∈ p.rows ∧ r.userId ≠ some userId := fun r hr ht => Store.mem_eraseSubject hr ht
  refine ⟨fun r hr r' hr' ht ht' =>
    h.keys r (hrows r hr ht).1 r' (hrows r' hr' ht').1 ht ht', ?_, ?_⟩
  · intro subject hsubject hmem
    obtain ⟨hthere, hother⟩ := Store.mem_users_eraseSubject.mp hmem
    rcases List.mem_append.mp hsubject with hold | hnew
    · exact h.users subject hold hthere
    · rw [List.mem_singleton.mp hnew] at hother
      exact hother rfl
  · intro subject hsubject sessionId hmem
    refine Store.hasSession_eq_false_iff.mpr fun r hr ht heq => ?_
    obtain ⟨hthere, hother⟩ := hrows r hr ht
    rcases List.mem_append.mp hsubject with hold | hnew
    · exact Store.hasSession_eq_false_iff.mp (h.sessions subject hold sessionId hmem) r
        hthere ht heq
    · -- a session has one row, and this one was not the subject's
      rw [List.mem_singleton.mp hnew] at hmem
      obtain ⟨r', hr', heq'⟩ := List.mem_filterMap.mp hmem
      obtain ⟨hthere', hsubject'⟩ := List.mem_filter.mp hr'
      obtain ⟨ht', huser⟩ : r'.table = .learningSessions ∧ r'.userId = some userId := by
        simpa using hsubject'
      have hsame : r = r' := h.keys r hthere r' hthere' ht ht' (heq.trans heq'.symm)
      exact hother (hsame ▸ huser)

theorem Sound.signUp {userId : UserId} (h : p.Sound) (hfresh : p.FreshUser userId) :
    Sound { p with users := p.users ++ [userId] } := by
  refine ⟨h.keys, fun subject hsubject hmem => ?_, h.sessions⟩
  rcases List.mem_append.mp hmem with hold | hnew
  · exact h.users subject hsubject hold
  · exact hfresh.2 subject hsubject (List.mem_singleton.mp hnew)

/-- Writing a row keeps the law exactly if it is not written or is about no erased subject. -/
theorem erasureFinal_commit_iff (h : ErasureFinal p) (row : Row) :
    ErasureFinal (p.commit row) ↔ (p.admits row = true → p.Spares row) := by
  unfold commit
  split
  · rename_i hadmits
    rw [ErasureFinal, List.forall_mem_append, List.forall_mem_singleton]
    exact ⟨fun hall _ => hall.2, fun hrow => ⟨h, hrow hadmits⟩⟩
  · rename_i hrejected
    exact iff_of_true h fun hadmits => absurd hadmits hrejected

end Platform

/-- What the three tables without keys admit. -/
theorem admits_of_unkeyed {table : RegistryTable}
    (h : table ∈ [.mcpAudit, .agentActivityEvents, .consents])
    (userId : UserId) (sessionId : Option SessionId) :
    p.admits (table.row userId sessionId) = true := by
  simp only [List.mem_cons, List.not_mem_nil, or_false] at h
  rcases h with rfl | rfl | rfl <;> rfl

/-- The tables that are listed for a kind of task have keys. -/
theorem TaskKind.keyed_of_mem_tables {kind : TaskKind} {table : RegistryTable}
    (h : table ∈ kind.tables) :
    table.unkeyed = false ∧ table ≠ .learningSessions := by
  revert table
  cases kind <;> decide

theorem spares_of_keyed {table : RegistryTable} (h : p.Sound) (hkeyed : table.unkeyed = false)
    (userId : UserId) (sessionId : Option SessionId)
    (hadmits : p.admits (table.row userId sessionId) = true) :
    p.Spares (table.row userId sessionId) :=
  have hkeys := RegistryTable.row_keyed hkeyed userId sessionId
  h.spares hadmits hkeys.1 hkeys.2

/-! ### All runs -/

variable {c c' : Conf Platform Task}
  {l : Label PlatformMove (TaskKind × UserId × Option SessionId) TaskStep}

theorem Task.Effect.sound (h : p.Sound) (heffect : t.Effect p step p') : p'.Sound := by
  cases heffect with
  | nothing => exact h
  | @emit _ event =>
      have hstore : (p.emit event).toStore = p.toStore := Platform.emit_frame.1
      refine h.of_rows (fun r hr _ => ?_) (fun u hu => ?_) Platform.emit_frame.2.1
      · exact hstore ▸ hr
      · exact hstore ▸ hu
  | audit => exact h.commit _ (by rintro ⟨⟩)
  | recordConsent => exact h.commit _ (by rintro ⟨⟩)
  | write htable => exact h.commit _ (TaskKind.keyed_of_mem_tables htable).2
  | launch hfresh => exact h.commit_session hfresh rfl

theorem Platform.move_sound {move : PlatformMove} (h : p.Sound) (hmove : p.move move = some p') :
    p'.Sound := by
  cases move with
  | signUp userId =>
      simp only [Platform.move] at hmove
      split at hmove
      · rename_i hfresh
        cases hmove
        have hgrown := h.signUp hfresh
        exact hgrown.commit (RegistryTable.studyParticipants.row userId none) (by rintro ⟨⟩)
      · cases hmove
  | erase userId =>
      cases hmove
      exact h.erase
  | persist ok =>
      simp only [Platform.move] at hmove
      split at hmove
      · cases hmove
      · rename_i event writes hwrites
        cases hmove
        have hrest : Platform.Sound { p with writes } := ⟨h.keys, h.users, h.sessions⟩
        cases ok with
        | true => exact hrest.commit event.row (by rintro ⟨⟩)
        | false => exact hrest
  | prune stale =>
      cases hmove
      exact h.of_rows (fun r hr _ => (List.mem_filter.mp hr).1) (fun u hu => hu) rfl

theorem sound_next (h : c.shared.Sound) (hnext : background.next c l = some c') :
    c'.shared.Sound := by
  rcases background.next_cases hnext with ⟨move, p, rfl, hmove, rfl⟩ | ⟨i, rfl, rfl⟩
    | ⟨pid, step, t, p, t', rfl, hpid, hstep, rfl⟩
  · exact Platform.move_sound h hmove
  · exact h
  · exact (Task.step_effect hstep).sound h

theorem Platform.move_final_iff {move : PlatformMove} (h : p.Sound) (hfinal : ErasureFinal p)
    (hmove : p.move move = some p') (procs : List Task) :
    ErasureFinal p' ↔ SparesErased ⟨p, procs⟩ (.env move) := by
  cases move with
  | signUp userId =>
      simp only [Platform.move] at hmove
      split at hmove
      · rename_i hfresh
        cases hmove
        refine iff_of_true ?_ (by rintro _ ⟨⟩)
        have hgrown := h.signUp hfresh
        have hkeyed : RegistryTable.studyParticipants.unkeyed = false := by decide
        have hspares := spares_of_keyed hgrown hkeyed userId none
        exact (Platform.erasureFinal_commit_iff (p := { p with users := p.users ++ [userId] })
          hfinal _).mpr hspares
      · cases hmove
  | erase userId =>
      cases hmove
      exact iff_of_true hfinal (by rintro _ ⟨⟩)
  | persist ok =>
      simp only [Platform.move] at hmove
      split at hmove
      · cases hmove
      · rename_i event writes hwrites
        cases hmove
        cases ok with
        | true =>
            have hcommit :=
              Platform.erasureFinal_commit_iff (p := { p with writes }) hfinal event.row
            refine hcommit.trans ?_
            have hhead : unguarded ⟨p, procs⟩ (.env (.persist true)) = some event.row := by
              simp [unguarded, hwrites]
            rw [SparesErased, hhead]
            constructor
            · rintro hspares _ ⟨⟩
              exact hspares (admits_of_unkeyed (by simp) event.userId (some event.sessionId))
            · exact fun hspares _ => hspares event.row rfl
        | false => exact iff_of_true hfinal (by rintro _ ⟨⟩)
  | prune stale =>
      cases hmove
      exact iff_of_true hfinal (by rintro _ ⟨⟩)

theorem Task.Effect.final_iff {procs : List Task} {pid : Nat} (h : p.Sound)
    (hfinal : ErasureFinal p)
    (hpid : procs[pid]? = some t) (heffect : t.Effect p step p') :
    ErasureFinal p' ↔ SparesErased ⟨p, procs⟩ (.run pid step) := by
  cases heffect with
  | nothing hstep =>
      refine iff_of_true hfinal fun row hrow => ?_
      unfold unguarded at hrow
      split at hrow
      · rename_i hlabel
        cases hlabel
      · rename_i hlabel
        cases hlabel
        exact absurd rfl hstep.1
      · rename_i hlabel
        cases hlabel
        exact absurd rfl hstep.2
      · cases hrow
  | @emit _ event =>
      have hmade : (p.emit event).made = p.made := Platform.emit_frame.2.2
      refine iff_of_true ?_ (by rintro _ ⟨⟩)
      rw [ErasureFinal, hmade]
      exact hfinal
  | audit =>
      have hrow : unguarded ⟨p, procs⟩ (.run pid (.audit true)) = some t.auditRow := by
        simp [unguarded, hpid]
      rw [Platform.erasureFinal_commit_iff hfinal _, SparesErased, hrow]
      constructor
      · rintro hspares _ ⟨⟩
        exact hspares (admits_of_unkeyed (by simp) t.userId t.sessionId)
      · exact fun hspares _ => hspares t.auditRow rfl
  | recordConsent =>
      have hrow : unguarded ⟨p, procs⟩ (.run pid (.recordConsent true))
          = some (RegistryTable.consents.row t.userId none) := by simp [unguarded, hpid]
      rw [Platform.erasureFinal_commit_iff hfinal _, SparesErased, hrow]
      constructor
      · rintro hspares _ ⟨⟩
        exact hspares (admits_of_unkeyed (by simp) t.userId none)
      · exact fun hspares _ => hspares _ rfl
  | @write table sessionId htable =>
      refine iff_of_true ?_ (by rintro _ ⟨⟩)
      have hkeyed := (TaskKind.keyed_of_mem_tables htable).1
      exact (Platform.erasureFinal_commit_iff hfinal _).mpr
        (spares_of_keyed h hkeyed t.userId sessionId)
  | launch hfresh =>
      refine iff_of_true ((Platform.erasureFinal_commit_iff hfinal _).mpr fun hadmits => ?_)
        (by rintro _ ⟨⟩)
      exact h.spares hadmits (fun _ => by simp [RegistryTable.row, RegistryTable.userKey])
        (by simp [RegistryTable.row, RegistryTable.hasSessionId])

theorem final_next_iff (h : c.shared.Sound) (hfinal : ErasureFinal c.shared)
    (hnext : background.next c l = some c') : ErasureFinal c'.shared ↔ SparesErased c l := by
  rcases background.next_cases hnext with ⟨move, p, rfl, hmove, rfl⟩ | ⟨i, rfl, rfl⟩
    | ⟨pid, step, t, p, t', rfl, hpid, hstep, rfl⟩
  · exact Platform.move_final_iff h hfinal hmove c.procs
  · exact iff_of_true hfinal (by rintro _ ⟨⟩)
  · exact (Task.step_effect hstep).final_iff h hfinal hpid

/-- **When an erasure is final**: exactly in the runs in which no audit, no queued event and no
consent of an erased subject is written. -/
theorem erasure_final_iff (queueSize : Nat)
    (ls : List (Label PlatformMove (TaskKind × UserId × Option SessionId) TaskStep)) :
    background.Throughout (fun c => ErasureFinal c.shared) ⟨{ queueSize }, []⟩ ls
      ↔ background.Along SparesErased ⟨{ queueSize }, []⟩ ls := by
  apply background.throughout_iff_along (I := fun c => c.shared.Sound)
  · exact fun c l c' h hnext => sound_next h hnext
  · exact fun c l c' h hfinal hnext => final_next_iff h hfinal hnext
  · exact ⟨fun r hr => absurd hr List.not_mem_nil, List.forall_mem_nil _, List.forall_mem_nil _⟩
  · exact List.forall_mem_nil _

/-- A collector polls on after its learner has been erased. -/
def pollAfterErasure : List (Label PlatformMove (TaskKind × UserId × Option SessionId) TaskStep) :=
  [.env (.signUp "ada"), .spawn (.request, "ada", none), .run 0 (.launch 7), .run 0 .stop,
    .spawn (.collector, "ada", some 7), .env (.erase "ada"), .run 1 (.call "list_user_actions"),
      .run 1 .own,
    .run 1 (.audit true)]

/-- **An erasure that is not final.** The denial is audited with the ids of the erased learner. -/
theorem audit_after_erasure :
    ¬ background.Throughout (fun c => ErasureFinal c.shared) ⟨{}, []⟩ pollAfterErasure := by
  intro hall
  have hrun : (background.exec ⟨{}, []⟩ pollAfterErasure).map (fun c => c.shared.made.getLast?)
      = some (some (RegistryTable.mcpAudit.row "ada" (some 7), [⟨"ada", [7]⟩])) := by decide +kernel
  obtain ⟨c, hexec, hlast⟩ := Option.map_eq_some_iff.mp hrun
  have hfinal : ErasureFinal c.shared := hall.exec _ hexec
  exact hfinal _ (List.mem_of_getLast? hlast) _ (List.mem_singleton_self _) (Or.inl rfl)

end OnlinetLabs.Users
