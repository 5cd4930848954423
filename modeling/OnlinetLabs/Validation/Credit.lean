import OnlinetLabs.Validation.Service

/-!
# Credit for a lab

`prepare_validation` asks whose the session is and nothing else about it. So the checks of one lab
can be run in the environment of another, or in one whose session has ended, and the outcome still
counts.
-/

namespace OnlinetLabs.Validation

open Interleaving
open Sessions (SessionId UserId Slug Gns3Id LearningSession SessionTable getOwnedSession)
open Progress (LabProgress)

variable {S : Type}

/-! ### The law -/

/-- The environment is that of a session launched for the lab and not ended. -/
def LaunchedFor (labSlug : Slug) (gns3Sid : Gns3Id) (sessions : SessionTable) : Prop :=
  ∃ row ∈ sessions.rows, row.gns3Sid = some gns3Sid ∧ row.labSlug = labSlug ∧ row.endedAt = none

/-- Progress is what the recorded runs made of it, and each ran all its checks in an environment of
its own lab. -/
structure OwnLabOnly (first : UserId → Slug → Option (LabProgress S)) (s : Platform S) : Prop where
  accounted : ∀ userId labSlug, s.progress userId labSlug
    = ((s.updates.find? fun u => u.userId == userId && u.labSlug == labSlug).map (·.version)).or
        (first userId labSlug)
  own : ∀ update ∈ s.updates, ∀ sessions ∈ update.ran,
    LaunchedFor update.labSlug update.gns3Sid sessions

/-- When its last check was executed, the session the request names was one of the lab and not
ended. -/
def Request.InOwnLab (p : Request S) : Prop :=
  ∀ sessions, p.ran.getLast? = some sessions →
    ∃ row, sessions.get? p.sessionId = some row ∧ row.labSlug = p.labSlug ∧ row.endedAt = none

section Steps

variable [LinearOrder S] [Zero S] (catalogs : Catalogs) (labs : Slug → Option Spec)
  (share : Nat → Nat → S)

def Request.commits (s : Platform S) (p : Request S) : Answer → Option (LabProgress S)
  | .commit now =>
      match p.pc with
      | .selected steps row =>
          p.gns3Sid.bind fun _ => committed share steps now row (s.progress p.userId p.labSlug)
      | _ => none
  | _ => none

/-- A move that records a run records one of its own lab. -/
def RecordsOwnLab (c : Conf (Platform S) (Request S)) :
    Label SessionMove (UserId × Slug × SessionId) Answer → Prop
  | .run pid a => ∀ p, c.procs[pid]? = some p → (p.commits share c.shared a).isSome → p.InOwnLab
  | _ => True

end Steps

/-! ### The history of a session -/

def Owned (environments : List SessionId) (sessions : SessionTable) : Prop :=
  ∀ id row gns3Sid, sessions.get? id = some row → row.gns3Sid = some gns3Sid →
    environments[gns3Sid]? = some id

/-- What the later table says of a session that was there before. -/
def Continues (id : SessionId) (earlier later : SessionTable) : Prop :=
  ∀ row', later.get? id = some row' → ∃ row, earlier.get? id = some row
    ∧ row.labSlug = row'.labSlug ∧ (row'.endedAt = none → row.endedAt = none)
    ∧ (row.gns3Sid.isSome → row'.gns3Sid = row.gns3Sid)

theorem Continues.refl (id : SessionId) (sessions : SessionTable) :
    Continues id sessions sessions :=
  fun row' h => ⟨row', h, rfl, fun hended => hended, fun _ => rfl⟩

theorem Continues.trans {id : SessionId} {first second third : SessionTable}
    (h : Continues id first second) (h' : Continues id second third) :
    Continues id first third := by
  intro row'' hrow''
  obtain ⟨row', hrow', hslug', hended', hgns3'⟩ := h' row'' hrow''
  obtain ⟨row, hrow, hslug, hended, hgns3⟩ := h row' hrow'
  refine ⟨row, hrow, hslug.trans hslug', fun h => hended (hended' h), fun hsome => ?_⟩
  rw [hgns3' (by rw [hgns3 hsome]; exact hsome), hgns3 hsome]

section Sessions

variable {environments : List SessionId} {sessions : SessionTable} {id : SessionId}
  {row row' : LearningSession}

theorem getElem?_append_of_some {added : List SessionId} {g : Nat}
    (h : environments[g]? = some id) :
    (environments ++ added)[g]? = some id := by
  rw [List.getElem?_append_left (List.getElem?_eq_some_iff.mp h).1, h]

theorem Owned.append (h : Owned environments sessions) (added : List SessionId) :
    Owned (environments ++ added) sessions :=
  fun id row gns3Sid hrow hsid => getElem?_append_of_some (h id row gns3Sid hrow hsid)

theorem Owned.set (h : Owned environments sessions) (hrow : sessions.get? id = some row)
    (hnew : ∀ gns3Sid, row'.gns3Sid = some gns3Sid → environments[gns3Sid]? = some id) :
    Owned environments (sessions.set id row') := by
  intro id' r gns3Sid hr hsid
  rw [Table.get?_set hrow] at hr
  split at hr
  · rename_i heq
    rw [Option.some.injEq] at hr
    subst hr heq
    exact hnew gns3Sid hsid
  · exact h id' r gns3Sid hr hsid

theorem continues_set (hrow : sessions.get? id = some row) (hslug : row.labSlug = row'.labSlug)
    (hended : row'.endedAt = none → row.endedAt = none)
    (hgns3 : row.gns3Sid.isSome → row'.gns3Sid = row.gns3Sid) (other : SessionId) :
    Continues other sessions (sessions.set id row') := by
  intro r hr
  rw [Table.get?_set hrow] at hr
  split at hr
  · rename_i heq
    rw [Option.some.injEq] at hr
    subst hr heq
    exact ⟨row, hrow, hslug, hended, hgns3⟩
  · exact Continues.refl other sessions r hr

end Sessions

variable {s s' : Platform S} {move : SessionMove}

/-- **A move of the platform.** It keeps what there is of every session, and hands out new
environments only. -/
structure Follows (s s' : Platform S) : Prop where
  environments : ∃ added, s'.environments = s.environments ++ added
  owned : Owned s'.environments s'.sessions
  size : s.sessions.size ≤ s'.sessions.size
  continues : ∀ id < s.sessions.size, Continues id s.sessions s'.sessions

theorem follows_set {id : SessionId} {row row' : LearningSession}
    (howned : Owned s.environments s.sessions)
    (hrow : s.sessions.get? id = some row) (hslug : row.labSlug = row'.labSlug)
    (hended : row'.endedAt = none → row.endedAt = none) (hgns3 : row'.gns3Sid = row.gns3Sid) :
    Follows s { s with sessions := s.sessions.set id row' } where
  environments := ⟨[], (List.append_nil _).symm⟩
  owned := howned.set hrow fun gns3Sid hsid => howned id row gns3Sid hrow (hgns3 ▸ hsid)
  size := Table.size_set.ge
  continues := fun other _ => continues_set hrow hslug hended (fun _ => hgns3) other

theorem follows_of_move (howned : Owned s.environments s.sessions) (h : s.move move = some s') :
    Follows s s' := by
  cases move with
  | launched userId labSlug now expiresAt =>
      cases h
      refine ⟨⟨[], (List.append_nil _).symm⟩, ?_, ?_, ?_⟩
      · intro id row gns3Sid hrow hsid
        rw [Table.get?_insert] at hrow
        split at hrow
        · cases hrow
          cases hsid
        · exact howned id row gns3Sid hrow hsid
      · rw [Table.size_insert]
        exact Nat.le_succ _
      · intro id hid row hrow
        rw [Table.get?_insert, if_neg (Nat.ne_of_lt hid)] at hrow
        exact Continues.refl id s.sessions row hrow
  | provisioned id =>
      simp only [Platform.move] at h
      split at h
      · cases h
      · rename_i row hrow
        split at h
        · cases h
        · rename_i hmeta
          cases h
          have hnone : row.gns3Sid = none := by
            rw [LearningSession.gns3Sid, Option.map_eq_none_iff]
            simpa using hmeta
          refine ⟨⟨[id], rfl⟩, ?_, Table.size_set.ge, fun other _ => ?_⟩
          · refine (howned.append [id]).set hrow fun gns3Sid hsid => ?_
            have hlast : s.environments.length = gns3Sid := Option.some.inj hsid
            rw [← hlast, List.getElem?_concat_length]
          · refine continues_set hrow ?_ ?_ ?_ other
            · rfl
            · exact fun hended => hended
            · intro hsome
              rw [hnone] at hsome
              cases hsome
  | marked id status =>
      simp only [Platform.move, Option.map_eq_some_iff] at h
      obtain ⟨row, hrow, rfl⟩ := h
      exact follows_set howned hrow rfl (fun hended => hended) rfl
  | ended id status now =>
      simp only [Platform.move, Option.map_eq_some_iff] at h
      obtain ⟨row, hrow, rfl⟩ := h
      exact follows_set howned hrow rfl (fun hended => nomatch hended) rfl
  | erased userId =>
      cases h
      refine ⟨⟨[], (List.append_nil _).symm⟩, ?_, Table.size_deleteWhere.ge, fun id _ => ?_⟩
      · exact fun id row gns3Sid hrow hsid =>
          howned id row gns3Sid (Table.get?_of_get?_deleteWhere hrow) hsid
      · exact fun row hrow => Continues.refl id s.sessions row (Table.get?_of_get?_deleteWhere hrow)

theorem progress_of_move (h : s.move move = some s') :
    s'.progress = s.progress ∧ s'.updates = s.updates := by
  cases move with
  | launched | erased =>
      cases h
      exact ⟨rfl, rfl⟩
  | provisioned id =>
      simp only [Platform.move] at h
      split at h
      · cases h
      · split at h
        · cases h
        · cases h
          exact ⟨rfl, rfl⟩
  | marked | ended =>
      simp only [Platform.move, Option.map_eq_some_iff] at h
      obtain ⟨row, -, rfl⟩ := h
      exact ⟨rfl, rfl⟩

/-! ### What a request goes by -/

/-- What holds of a request that has its environment. -/
structure Traced (s : Platform S) (p : Request S) (gns3Sid : Gns3Id) : Prop where
  known : p.sessionId < s.sessions.size
  environment : s.environments[gns3Sid]? = some p.sessionId
  owned : ∀ sessions ∈ p.ran, Owned s.environments sessions
  continued : (p.ran ++ [s.sessions]).Pairwise (Continues p.sessionId)
  gns3 : ∀ sessions ∈ p.ran ++ [s.sessions], ∀ row, sessions.get? p.sessionId = some row →
    row.gns3Sid = some gns3Sid

variable {p p' : Request S} {gns3Sid : Gns3Id} {a : Answer}

namespace Traced

theorem follows (h : Traced s p gns3Sid) (hs : Follows s s') : Traced s' p gns3Sid := by
  obtain ⟨added, hadded⟩ := hs.environments
  obtain ⟨hran, -, hlast⟩ := List.pairwise_append.mp h.continued
  have hcontinues : Continues p.sessionId s.sessions s'.sessions := hs.continues _ h.known
  refine ⟨Nat.lt_of_lt_of_le h.known hs.size, ?_, ?_, ?_, ?_⟩
  · rw [hadded]
    exact getElem?_append_of_some h.environment
  · intro sessions hmem
    rw [hadded]
    exact (h.owned sessions hmem).append added
  · refine List.pairwise_append.mpr ⟨hran, List.pairwise_singleton _ _, ?_⟩
    intro sessions hmem later hlater
    rw [List.mem_singleton.mp hlater]
    exact (hlast sessions hmem s.sessions List.mem_cons_self).trans hcontinues
  · intro sessions hmem row' hrow'
    rcases List.mem_append.mp hmem with hmem | hmem
    · exact h.gns3 sessions (List.mem_append_left _ hmem) row' hrow'
    · rw [List.mem_singleton.mp hmem] at hrow'
      obtain ⟨row, hrow, -, -, hkept⟩ := hcontinues row' hrow'
      have hsid : row.gns3Sid = some gns3Sid :=
        h.gns3 s.sessions (List.mem_append_right _ List.mem_cons_self) row hrow
      rw [hkept (by rw [hsid]; rfl), hsid]

theorem check (h : Traced s p gns3Sid) (howned : Owned s.environments s.sessions)
    (pc : RequestPc S) :
    Traced s { p with ran := p.ran ++ [s.sessions], pc } gns3Sid := by
  refine ⟨h.known, h.environment, ?_, ?_, ?_⟩
  · exact List.forall_mem_append.mpr ⟨h.owned, List.forall_mem_singleton.mpr howned⟩
  · refine List.pairwise_append.mpr ⟨h.continued, List.pairwise_singleton _ _, ?_⟩
    intro sessions hmem later hlater
    rw [List.mem_singleton.mp hlater]
    rcases List.mem_append.mp hmem with hmem | hmem
    · exact (List.pairwise_append.mp h.continued).2.2 sessions hmem s.sessions List.mem_cons_self
    · rw [List.mem_singleton.mp hmem]
      exact Continues.refl _ _
  · intro sessions hmem
    rcases List.mem_append.mp hmem with hmem | hmem
    · exact h.gns3 sessions hmem
    · exact h.gns3 sessions (List.mem_append_right _ hmem)

/-- **The last check tells about all.** -/
theorem launchedFor_iff (h : Traced s p gns3Sid) :
    (∀ sessions ∈ p.ran, LaunchedFor p.labSlug gns3Sid sessions) ↔ p.InOwnLab := by
  constructor
  · intro hown last hlast
    have hmem : last ∈ p.ran := List.mem_of_getLast? hlast
    obtain ⟨row, hrow, hsid, hslug, hended⟩ := hown last hmem
    obtain ⟨id, hid⟩ := Table.mem_rows.mp hrow
    have hsame : id = p.sessionId := by
      have := h.owned last hmem id row gns3Sid hid hsid
      rw [h.environment, Option.some.injEq] at this
      exact this.symm
    exact ⟨row, hsame ▸ hid, hslug, hended⟩
  · intro hlab sessions hmem
    obtain ⟨before, last, hran⟩ : ∃ before last, p.ran = before ++ [last] :=
      (List.eq_nil_or_concat p.ran).resolve_left (List.ne_nil_of_mem hmem) |>.imp
        fun before hlast =>
        hlast.imp fun last heq => by rw [heq, List.concat_eq_append]
    obtain ⟨row', hrow', hslug', hended'⟩ := hlab last (by rw [hran, List.getLast?_concat])
    have hcontinues : Continues p.sessionId sessions last := by
      have hpairs : p.ran.Pairwise (Continues p.sessionId) :=
        (List.pairwise_append.mp h.continued).1
      rw [hran] at hmem hpairs
      rcases List.mem_append.mp hmem with hmem | hmem
      · exact (List.pairwise_append.mp hpairs).2.2 sessions hmem last List.mem_cons_self
      · rw [List.mem_singleton.mp hmem]
        exact Continues.refl _ _
    obtain ⟨row, hrow, hslug, hended, -⟩ := hcontinues row' hrow'
    refine ⟨row, Table.mem_rows.mpr ⟨_, hrow⟩, ?_, hslug.trans hslug', hended hended'⟩
    exact h.gns3 sessions (List.mem_append_left _ hmem) row hrow

end Traced

/-- A request without an environment has not gone far. -/
def RequestPc.isUnprepared : RequestPc S → Bool
  | .requested | .rejected _ | .raised => true
  | .prepared _ | .running .. | .finished _ | .selected .. | .returned => false

structure Request.Sound (s : Platform S) (p : Request S) : Prop where
  fresh : p.pc = .requested → p.gns3Sid = none
  unprepared : p.gns3Sid = none → p.ran = [] ∧ p.pc.isUnprepared
  traced : ∀ gns3Sid, p.gns3Sid = some gns3Sid → Traced s p gns3Sid

namespace Request.Sound

theorem follows (h : p.Sound s) (hs : Follows s s') : p.Sound s' :=
  ⟨h.fresh, h.unprepared, fun gns3Sid hsid => (h.traced gns3Sid hsid).follows hs⟩

theorem gns3Sid_of_prepared (h : p.Sound s) (hpc : p.pc.isUnprepared = false) :
    ∃ gns3Sid, p.gns3Sid = some gns3Sid := by
  apply Option.ne_none_iff_exists'.mp
  intro hnone
  rw [(h.unprepared hnone).2] at hpc
  cases hpc

theorem withPc (h : p.Sound s) {pc : RequestPc S}
    (hpc : p.pc.isUnprepared = false ∨ pc.isUnprepared)
    (hne : pc ≠ .requested) : Request.Sound s { p with pc } := by
  refine ⟨fun heq => absurd heq hne, fun hnone => ⟨(h.unprepared hnone).1, ?_⟩,
    fun gns3Sid hsid => ?_⟩
  · rcases hpc with hpc | hpc
    · rw [(h.unprepared hnone).2] at hpc
      cases hpc
    · exact hpc
  · obtain ⟨hknown, henvironment, howned, hcontinued, hgns3⟩ := h.traced gns3Sid hsid
    exact ⟨hknown, henvironment, howned, hcontinued, hgns3⟩

theorem check (h : p.Sound s) (howned : Owned s.environments s.sessions)
    (hpc : p.pc.isUnprepared = false) {pc : RequestPc S} (hne : pc ≠ .requested) :
    Request.Sound s { p with ran := p.ran ++ [s.sessions], pc } := by
  obtain ⟨gns3Sid, hsid⟩ := h.gns3Sid_of_prepared hpc
  refine ⟨fun heq => absurd heq hne, fun hnone => ?_, fun gns3Sid' hsid' =>
    (h.traced gns3Sid' hsid').check howned pc⟩
  rw [hsid] at hnone
  cases hnone

theorem prepared {labs : Slug → Option Spec} {spec : Spec} (h : p.Sound s)
    (howned : Owned s.environments s.sessions) (hpc : p.pc = .requested)
    (hprepared : prepareValidation labs s.sessions p.sessionId p.labSlug p.userId
      = .ok (spec, gns3Sid))
    {pc : RequestPc S} (hne : pc ≠ .requested) :
    Request.Sound s { p with gns3Sid := some gns3Sid, pc } := by
  have hran : p.ran = [] := (h.unprepared (h.fresh hpc)).1
  unfold prepareValidation at hprepared
  split at hprepared
  · cases hprepared
  · rename_i session hsession
    split at hprepared
    · cases hprepared
    · split at hprepared
      · cases hprepared
      · rename_i sid hsid
        cases hprepared
        obtain ⟨hrow, -⟩ := Sessions.getOwnedSession_eq_some hsession
        refine ⟨fun heq => absurd heq hne, fun hnone => (nomatch hnone), fun gns3Sid' hsid' => ?_⟩
        cases hsid'
        refine ⟨Table.lt_size_of_get? hrow, howned _ session gns3Sid hrow hsid, ?_, ?_, ?_⟩
        · simp [hran]
        · simp [hran]
        · intro sessions hmem row hrow'
          rw [hran, List.nil_append, List.mem_singleton] at hmem
          rw [hmem, hrow, Option.some.injEq] at hrow'
          exact hrow' ▸ hsid

end Request.Sound

/-! ### A step -/

section Steps

variable [LinearOrder S] [Zero S] {catalogs : Catalogs} {labs : Slug → Option Spec}
  {share : Nat → Nat → S}

/-- **A step of a request.** It records its run, or leaves the platform as it is. -/
theorem Request.step_cases (howned : Owned s.environments s.sessions) (hsound : p.Sound s)
    (hstep : p.step catalogs labs share s a = some (s', p')) :
    (p.commits share s a = none ∧ s' = s ∧ p'.Sound s)
      ∨ ∃ gns3Sid version, p.gns3Sid = some gns3Sid ∧ p.commits share s a = some version
          ∧ s' = s.record
            { userId := p.userId, labSlug := p.labSlug, version, gns3Sid, ran := p.ran }
          ∧ p'.Sound s := by
  obtain ⟨userId, labSlug, sessionId, gns3Sid, ran, pc⟩ := p
  cases pc with
  | rejected | returned | raised => cases hstep
  | requested =>
      left
      cases a with
      | failed =>
          cases hstep
          exact ⟨rfl, rfl, hsound.withPc (Or.inr rfl) nofun⟩
      | prepare =>
          simp only [step] at hstep
          split at hstep
          · cases hstep
            exact ⟨rfl, rfl, hsound.withPc (Or.inr rfl) nofun⟩
          · rename_i spec gns3Sid hprepared
            cases hstep
            exact ⟨rfl, rfl, hsound.prepared howned rfl hprepared nofun⟩
      | opened | check | finish | select | commit => cases hstep
  | prepared spec =>
      left
      cases a with
      | failed | opened =>
          cases hstep
          exact ⟨rfl, rfl, hsound.withPc (Or.inl rfl) nofun⟩
      | prepare | check | finish | select | commit => cases hstep
  | running spec locale taken =>
      left
      cases a with
      | failed =>
          cases hstep
          exact ⟨rfl, rfl, hsound.withPc (Or.inl rfl) nofun⟩
      | check outcome =>
          simp only [step] at hstep
          split at hstep
          · cases hstep
          · split at hstep
            · cases hstep
              exact ⟨rfl, rfl, hsound.check howned rfl nofun⟩
            · cases hstep
              exact ⟨rfl, rfl, hsound.check howned rfl nofun⟩
      | finish =>
          simp only [step] at hstep
          split at hstep
          · cases hstep
          · split at hstep
            · cases hstep
              exact ⟨rfl, rfl, hsound.withPc (Or.inl rfl) nofun⟩
            · cases hstep
              refine ⟨rfl, rfl, hsound.withPc (Or.inl rfl) ?_⟩
              split
              · nofun
              · nofun
      | prepare | opened | select | commit => cases hstep
  | finished steps =>
      left
      cases a with
      | failed | select =>
          cases hstep
          exact ⟨rfl, rfl, hsound.withPc (Or.inl rfl) nofun⟩
      | prepare | opened | check | finish | commit => cases hstep
  | selected steps row =>
      cases a with
      | failed =>
          cases hstep
          exact Or.inl ⟨rfl, rfl, hsound.withPc (Or.inl rfl) nofun⟩
      | commit now =>
          obtain ⟨sid, hsid⟩ := hsound.gns3Sid_of_prepared rfl
          cases hversion : committed share steps now row (s.progress userId labSlug) with
          | none =>
              simp only [step, hversion] at hstep
              cases hstep
              exact Or.inl ⟨by simp [commits, hversion], rfl, hsound.withPc (Or.inl rfl) nofun⟩
          | some version =>
              cases hsid
              simp only [step, hversion] at hstep
              cases hstep
              exact Or.inr ⟨sid, version, rfl, hversion, rfl, hsound.withPc (Or.inl rfl) nofun⟩
      | prepare | opened | check | finish | select => cases hstep

/-! ### All runs -/

variable {first : UserId → Slug → Option (LabProgress S)} {c c' : Conf (Platform S) (Request S)}
  {l : Label SessionMove (UserId × Slug × SessionId) Answer}

structure AllSound (c : Conf (Platform S) (Request S)) : Prop where
  owned : Owned c.shared.environments c.shared.sessions
  requests : ∀ p ∈ c.procs, p.Sound c.shared

theorem AllSound.next (h : AllSound c)
    (hnext : (validating catalogs labs share).next c l = some c') :
    AllSound c' := by
  rcases (validating catalogs labs share).next_cases hnext with ⟨move, s, rfl, hmove, rfl⟩
    | ⟨request, rfl, rfl⟩ | ⟨pid, a, p, s, p', rfl, hpid, hstep, rfl⟩
  · have hs : Follows c.shared s := follows_of_move h.owned hmove
    exact ⟨hs.owned, fun p hp => (h.requests p hp).follows hs⟩
  · refine ⟨h.owned, forall_mem_append h.requests ⟨fun _ => rfl, fun _ => ⟨rfl, rfl⟩, ?_⟩⟩
    intro gns3Sid hsid
    cases hsid
  · have hstep' : p.step catalogs labs share c.shared a = some (s, p') := hstep
    rcases Request.step_cases h.owned (h.requests p (mem_of_getElem? hpid)) hstep' with
      ⟨-, rfl, hp'⟩ | ⟨gns3Sid, version, -, -, rfl, hp'⟩
    · exact ⟨h.owned, forall_mem_set h.requests hp'⟩
    · have hs : Follows c.shared (c.shared.record
          { userId := p.userId, labSlug := p.labSlug, version, gns3Sid, ran := p.ran }) :=
        ⟨⟨[], (List.append_nil _).symm⟩, h.owned, Nat.le_refl _, fun id _ => Continues.refl id _⟩
      exact ⟨h.owned, fun q hq => (forall_mem_set h.requests hp' q hq).follows hs⟩

omit [LinearOrder S] [Zero S] in
/-- What recording a run takes. -/
theorem ownLabOnly_record_iff (h : OwnLabOnly first s) {update : Update S} :
    OwnLabOnly first (s.record update)
      ↔ ∀ sessions ∈ update.ran, LaunchedFor update.labSlug update.gns3Sid sessions := by
  refine ⟨fun h' => h'.own update List.mem_cons_self, fun hown => ⟨?_, ?_⟩⟩
  · intro userId labSlug
    have hbefore := h.accounted userId labSlug
    simp only [Platform.record, List.find?_cons]
    by_cases hsame : userId = update.userId ∧ labSlug = update.labSlug
    · obtain ⟨rfl, rfl⟩ := hsame
      simp
    · have hmiss : (update.userId == userId && update.labSlug == labSlug) = false := by
        rw [Bool.and_eq_false_iff, beq_eq_false_iff_ne, beq_eq_false_iff_ne]
        by_cases huser : update.userId = userId
        · exact Or.inr fun hslug => hsame ⟨huser.symm, hslug.symm⟩
        · exact Or.inl huser
      rw [if_neg hsame, hmiss]
      exact hbefore
  · exact List.forall_mem_cons.mpr ⟨hown, h.own⟩

theorem ownLabOnly_next_iff (hsound : AllSound c) (h : OwnLabOnly first c.shared)
    (hnext : (validating catalogs labs share).next c l = some c') :
    OwnLabOnly first c'.shared ↔ RecordsOwnLab share c l := by
  rcases (validating catalogs labs share).next_cases hnext with ⟨move, s, rfl, hmove, rfl⟩
    | ⟨request, rfl, rfl⟩ | ⟨pid, a, p, s, p', rfl, hpid, hstep, rfl⟩
  · obtain ⟨hprogress, hupdates⟩ := progress_of_move hmove
    refine iff_of_true ⟨?_, ?_⟩ trivial
    · intro userId labSlug
      rw [hprogress, hupdates]
      exact h.accounted userId labSlug
    · rw [hupdates]
      exact h.own
  · exact iff_of_true h trivial
  · have hp : p.Sound c.shared := hsound.requests p (mem_of_getElem? hpid)
    have hstep' : p.step catalogs labs share c.shared a = some (s, p') := hstep
    have hmove : RecordsOwnLab share c (.run pid a)
        ↔ ((p.commits share c.shared a).isSome → p.InOwnLab) := by
      simp only [RecordsOwnLab, hpid, Option.some.injEq, forall_eq']
    rw [hmove]
    rcases Request.step_cases hsound.owned hp hstep' with ⟨hnone, rfl, -⟩
      | ⟨gns3Sid, version, hsid, hversion, rfl, -⟩
    · rw [hnone]
      exact iff_of_true h fun hsome => nomatch hsome
    · rw [ownLabOnly_record_iff h, hversion, (hp.traced gns3Sid hsid).launchedFor_iff]
      simp

end Steps

section Runs

variable [LinearOrder S] [Zero S]

def atFirst (first : UserId → Slug → Option (LabProgress S)) : Conf (Platform S) (Request S) :=
  ⟨{ progress := first }, []⟩

/-- **When a lab is passed only in its own environment**: exactly in the runs that record only
requests whose session was one of the lab, and not ended, when their last check was executed. -/
theorem own_lab_only_iff (catalogs : Catalogs) (labs : Slug → Option Spec) (share : Nat → Nat → S)
    (first : UserId → Slug → Option (LabProgress S))
    (ls : List (Label SessionMove (UserId × Slug × SessionId) Answer)) :
    (validating catalogs labs share).Throughout (fun c => OwnLabOnly first c.shared)
    (atFirst first) ls
      ↔ (validating catalogs labs share).Along (RecordsOwnLab share) (atFirst first) ls := by
  apply (validating catalogs labs share).throughout_iff_along (I := AllSound)
  · exact fun c l c' h hnext => h.next hnext
  · exact fun c l c' hsound h hnext => ownLabOnly_next_iff hsound h hnext
  · refine ⟨?_, ?_⟩
    · intro id row gns3Sid hrow
      cases hrow
    · intro p hp
      cases hp
  · refine ⟨fun userId labSlug => rfl, ?_⟩
    intro update hmem
    cases hmem

end Runs

def routingLabs : Slug → Option Spec := fun labSlug =>
  if labSlug = "routing" then
    some { steps := [{
      id := "ping"
      checks := [{ kind := "vpcs.ping", params := [("from", .str "PC1")] }] }] }
  else none

/-- A learner with a session of the lab on static addresses validates the lab on routing in it. -/
def validateElsewhere : List (Label SessionMove (UserId × Slug × SessionId) Answer) :=
  [.env (.launched "ada" "lan-static-ip" 0 none), .env (.provisioned 0),
    .spawn ("ada", "routing", 0), .run 0 .prepare, .run 0 (.opened .en),
    .run 0 (.check (.returns { ok := true })), .run 0 .finish,
    .run 0 .select, .run 0 (.commit 1)]

/-- **One lab's environment passes another.** The lab on routing is completed, and nobody ever had a
session of it. -/
theorem lab_passed_elsewhere :
    (∃ c, (validating plainCatalogs routingLabs Progress.tenths).exec (atFirst fun _ _ => none)
          validateElsewhere = some c
        ∧ (c.shared.progress "ada" "routing").map (·.status) = some .completed
        ∧ ∀ row ∈ c.shared.sessions.rows, row.labSlug ≠ "routing")
      ∧ ¬ (validating plainCatalogs routingLabs Progress.tenths).Throughout
          (fun c => OwnLabOnly (fun _ _ => none) c.shared)
            (atFirst fun _ _ => none) validateElsewhere := by
  have hrun : ((validating plainCatalogs routingLabs Progress.tenths).exec (atFirst fun _ _ => none)
        validateElsewhere).map (fun c => ((c.shared.progress "ada" "routing").map (·.status),
          c.shared.sessions.rows.map (·.labSlug),
          c.shared.updates.map fun u => (u.labSlug, u.ran.map fun t => t.rows.map (·.labSlug))))
      = some (some .completed, ["lan-static-ip"], [("routing", [["lan-static-ip"]])]) := by
    decide +kernel
  obtain ⟨c, hexec, hc⟩ := Option.map_eq_some_iff.mp hrun
  rw [Prod.mk.injEq, Prod.mk.injEq] at hc
  obtain ⟨hstatus, hslugs, hupdates⟩ := hc
  refine ⟨⟨c, hexec, hstatus, fun row hrow hslug => ?_⟩, fun hall => ?_⟩
  · have hmem : row.labSlug ∈ c.shared.sessions.rows.map (·.labSlug) := List.mem_map_of_mem hrow
    rw [hslugs, List.mem_singleton, hslug] at hmem
    revert hmem
    decide
  · have hlaw : OwnLabOnly (fun _ _ => none) c.shared := hall.exec _ hexec
    obtain ⟨update, hmem, hupdate⟩ : ∃ update ∈ c.shared.updates,
        (update.labSlug, update.ran.map fun t => t.rows.map (·.labSlug)) = ("routing",
          [["lan-static-ip"]]) :=
      List.mem_map.mp (hupdates ▸ List.mem_singleton_self _)
    rw [Prod.mk.injEq] at hupdate
    obtain ⟨hslug, hran⟩ := hupdate
    obtain ⟨sessions, hsessions, hrows⟩ : ∃ sessions ∈ update.ran,
        sessions.rows.map (·.labSlug) = ["lan-static-ip"] :=
      List.mem_map.mp (hran ▸ List.mem_singleton_self _)
    obtain ⟨row, hrow, -, hlab, -⟩ := hlaw.own update hmem sessions hsessions
    have hmem : row.labSlug ∈ sessions.rows.map (·.labSlug) := List.mem_map_of_mem hrow
    rw [hrows, List.mem_singleton, hlab, hslug] at hmem
    revert hmem
    decide

end OnlinetLabs.Validation
