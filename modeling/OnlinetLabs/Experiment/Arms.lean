import OnlinetLabs.Experiment.Finalizer
import OnlinetLabs.Lib.Dict
import OnlinetLabs.Lib.Interleaving

/-!
# The arm a session runs under

The control arm of a session is not stored with it. `effective_arm` is evaluated when the monitor is
constructed and again for the metrics, on a progress table the learner changes in between and on a
column that a first call draws and commits. Any number of starts and ends of one learner's sessions
run at once, each interleaved with the others and with validation runs at its awaits.
-/

namespace OnlinetLabs.Experiment

open Sessions (LearningSession SessionId Slug)
open Analytics (ControlArm)
open Progress (LabProgress StepRecord recordLabValidation startLab)
open Interleaving

/-- `ControlArm(value)`, which raises on any other text. -/
def controlArm? (value : String) : Option ControlArm :=
  [ControlArm.open_, ControlArm.closed].find? (·.value = value)

@[simp] theorem controlArm?_value (arm : ControlArm) : controlArm? arm.value = some arm := by
  cases arm <;> decide

structure LabMeta where
  skill : Option String
deriving Repr, DecidableEq

structure Lab where
  slug : Slug
  metaJson : Option LabMeta
deriving Repr, DecidableEq

def skillTag (lab : Lab) : Option String := lab.metaJson.bind (·.skill)

variable {S : Type}

def isCompleted (progress : Dict Slug (LabProgress S)) (slug : Slug) : Bool :=
  (progress.get? slug).any (·.status = .completed)

def isL2Session (labs : List Lab) (progress : Dict Slug (LabProgress S)) (labSlug : Slug) : Bool :=
  match (labs.find? (·.slug = labSlug)).bind skillTag with
  | none => false
  | some skill =>
      if skill = "" then false
      else
        let completedSlugs :=
          (labs.filter fun lab => isCompleted progress lab.slug && lab.slug ≠ labSlug).map (·.slug)
        completedSlugs.any fun priorSlug =>
          (labs.find? (·.slug = priorSlug)).any fun prior => skillTag prior = some skill

/-- What is completed on the way makes a session a holdout and never ends one. -/
theorem isL2Session_mono {labs : List Lab} {progress progress' : Dict Slug (LabProgress S)}
    {labSlug : Slug}
    (hmono : ∀ slug, isCompleted progress slug = true → isCompleted progress' slug = true)
    (h : isL2Session labs progress labSlug = true) : isL2Session labs progress' labSlug = true := by
  unfold isL2Session at h ⊢
  split at h
  · cases h
  · split at h
    · cases h
    · rename_i hskill
      rw [if_neg hskill]
      obtain ⟨priorSlug, hprior, hsame⟩ := List.any_eq_true.mp h
      apply List.any_eq_true.mpr
      refine ⟨priorSlug, ?_, hsame⟩
      obtain ⟨lab, hlab, rfl⟩ := List.mem_map.mp hprior
      obtain ⟨hmem, hcond⟩ := List.mem_filter.mp hlab
      rw [Bool.and_eq_true] at hcond
      apply List.mem_map.mpr
      refine ⟨lab, List.mem_filter.mpr ⟨hmem, ?_⟩, rfl⟩
      rw [Bool.and_eq_true]
      exact ⟨hmono lab.slug hcond.1, hcond.2⟩

def User.arm (user : User) : Option ControlArm := user.controlArm.bind controlArm?

/-- What does not change while the learner's sessions come and go. -/
structure Study (S : Type) where
  labs : List Lab
  /-- The row of each session, as its end finds it. -/
  session : SessionId → LearningSession
  session_id : ∀ sid, (session sid).id = sid
  share : Nat → Nat → S

def Study.labSlug (study : Study S) (sid : SessionId) : Slug := (study.session sid).labSlug

structure Learner (S : Type) where
  user : Option User
  progress : Dict Slug (LabProgress S) := {}
  metrics : List (ExperimentMetrics S) := []
  /-- The arm each `SessionMonitor` was constructed with. -/
  monitors : List (SessionId × ControlArm) := []
  /-- What `is_l2_session` answered whenever an arm depended on it. -/
  looks : List (SessionId × Bool) := []

namespace Learner

variable (s : Learner S)

def isL2 (study : Study S) (sid : SessionId) : Bool :=
  isL2Session study.labs s.progress (study.labSlug sid)

def arm : Option ControlArm := s.user.bind User.arm

def look (study : Study S) (sid : SessionId) : Learner S :=
  { s with looks := (sid, s.isL2 study sid) :: s.looks }

def assign (drawn : ControlArm) : Learner S :=
  { s with user := s.user.map fun user => { user with controlArm := some drawn.value } }

def construct (sid : SessionId) (arm : ControlArm) : Learner S :=
  { s with monitors := (sid, arm) :: s.monitors }

def record [Zero S] (study : Study S) (sid : SessionId) (reads : FinalizerReads) (arm : ControlArm)
    (l2 : Bool) : Learner S :=
  let row := s.progress.get? (study.labSlug sid)
  { s with
    metrics := experimentMetrics study.share (study.session sid) reads row arm l2 :: s.metrics }

end Learner

/-! ### Decided arms -/

/-- The arm was decided for the session: as a holdout, or by the column of the learner. -/
def Decided (s : Learner S) (sid : SessionId) (arm : ControlArm) : Prop :=
  ((sid, true) ∈ s.looks ∧ arm = .open_) ∨ ((sid, false) ∈ s.looks ∧ s.arm = some arm)

/-- Where two looks for a session differ, the column holds the arm of a holdout. -/
def Agreeing (s : Learner S) : Prop :=
  ∀ sid, (sid, true) ∈ s.looks → (sid, false) ∈ s.looks → s.arm = some .open_

/-- Of one learner's rows nothing is lost that an arm was decided on. -/
structure Learner.Keeps (s s' : Learner S) : Prop where
  looks : ∀ look ∈ s.looks, look ∈ s'.looks
  arm : ∀ arm, s.arm = some arm → s'.arm = some arm

variable {study : Study S} {s s' : Learner S} {sid : SessionId} {arm arm' : ControlArm}

theorem Learner.Keeps.refl (s : Learner S) : s.Keeps s := ⟨fun _ h => h, fun _ h => h⟩

theorem Learner.keeps_look : s.Keeps (s.look study sid) :=
  ⟨fun _ hlook => List.mem_cons_of_mem _ hlook, fun _ harm => harm⟩

theorem Learner.arm_assign {drawn : ControlArm} (huser : s.user.isSome) :
    (s.assign drawn).arm = some drawn := by
  obtain ⟨user, huser⟩ := Option.isSome_iff_exists.mp huser
  simp [arm, assign, huser, User.arm]

theorem Learner.keeps_assign {drawn : ControlArm} (huser : s.user.isSome)
    (hkept : ∀ arm, s.arm = some arm → arm = drawn) : s.Keeps (s.assign drawn) := by
  refine ⟨fun _ hlook => hlook, ?_⟩
  intro arm harm
  rw [hkept arm harm, arm_assign huser]

theorem Decided.mono (h : Decided s sid arm) (hkeeps : s.Keeps s') : Decided s' sid arm := by
  rcases h with ⟨hlook, harm⟩ | ⟨hlook, harm⟩
  · exact Or.inl ⟨hkeeps.looks _ hlook, harm⟩
  · exact Or.inr ⟨hkeeps.looks _ hlook, hkeeps.arm arm harm⟩

theorem Decided.unique (hagree : Agreeing s) (h : Decided s sid arm) (h' : Decided s sid arm') :
    arm = arm' := by
  rcases h with ⟨hlook, rfl⟩ | ⟨hlook, harm⟩
  · rcases h' with ⟨-, rfl⟩ | ⟨hlook', harm'⟩
    · rfl
    · exact Option.some.inj ((hagree sid hlook hlook').symm.trans harm')
  · rcases h' with ⟨hlook', rfl⟩ | ⟨-, harm'⟩
    · exact Option.some.inj (harm.symm.trans (hagree sid hlook' hlook))
    · exact Option.some.inj (harm.symm.trans harm')

/-- A user loaded earlier has no arm the column lost. -/
def Fresh (s : Learner S) (loaded : Option User) : Prop :=
  ∀ arm, loaded.bind User.arm = some arm → s.arm = some arm

/-! ### Starts and ends -/

/-- What the learner does on the way. Neither takes a completion back, so when the rows of one lab
are written at once by several runs the table of completions still changes by such moves. -/
inductive LearnerMove where
  | started (slug : Slug) (now : Nat)
  | validated (slug : Slug) (steps : List StepRecord) (now : Nat)
deriving Repr, DecidableEq

def LearnerMove.apply [LinearOrder S] [Zero S] (share : Nat → Nat → S) (s : Learner S) :
    LearnerMove → Learner S
  | .started slug now =>
      { s with progress := s.progress.set slug (startLab now (s.progress.get? slug)) }
  | .validated slug steps now =>
      { s with progress :=
          s.progress.set slug (recordLabValidation share steps now (s.progress.get? slug)) }

/-- `SessionMonitorRegistry.start`, or the finalization at the session's end. -/
inductive Purpose where
  | start
  | finish
deriving Repr, DecidableEq

/-- Where a call stands. The user that its database session loaded earlier stays as it was
loaded. -/
inductive ArmPc where
  | called (loaded : Option User)
  | resolving (loaded : Option User)
  | assigning (drawn : ControlArm)
  | resolved (arm : ControlArm)
  | measured (arm : ControlArm) (l2 : Bool)
  | done
  | raised
deriving Repr, DecidableEq

structure ArmCall where
  sessionId : SessionId
  purpose : Purpose
  pc : ArmPc := .called none
deriving Repr, DecidableEq

/-- What an await gives. `loads` is an earlier select of the user in the same database session, and
`drew` what `random.choice` gives if it is asked. -/
inductive ArmAnswer where
  | failed
  | ok
  | loads
  | drew (arm : ControlArm)
  | read (reads : FinalizerReads)

/-- `resolve_control_arm` on the user it finds. -/
def resolve (drawn : ControlArm) : Option User → ArmPc
  | none => .raised
  | some user =>
      let stored := user.controlArm.getD ""
      if stored = "" then .assigning drawn
      else
        match controlArm? stored with
        | none => .raised
        | some arm => .resolved arm

def ArmCall.step [Zero S] (study : Study S) (s : Learner S) (p : ArmCall) (a : ArmAnswer) :
    Option (Learner S × ArmCall) :=
  match p.pc, a with
  | .done, _ => none
  | .raised, _ => none
  | _, .failed => some (s, { p with pc := .raised })
  | .called none, .loads => some (s, { p with pc := .called s.user })
  | .called loaded, .ok =>
      some (s.look study p.sessionId,
        { p with pc := if s.isL2 study p.sessionId then .resolved .open_ else .resolving loaded })
  | .resolving loaded, .drew drawn => some (s, { p with pc := resolve drawn (loaded.or s.user) })
  | .assigning drawn, .ok =>
      if s.user.isSome then some (s.assign drawn, { p with pc := .resolved drawn })
      else some (s, { p with pc := .raised })
  | .resolved arm, .ok =>
      match p.purpose with
      | .start => some (s.construct p.sessionId arm, { p with pc := .done })
      | .finish => some (s, { p with pc := .measured arm (s.isL2 study p.sessionId) })
  | .measured arm l2, .read reads =>
      some (s.record study p.sessionId reads arm l2, { p with pc := .done })
  | _, _ => none

def learning [LinearOrder S] [Zero S] (study : Study S) :
    System (Learner S) ArmCall LearnerMove (SessionId × Purpose) ArmAnswer where
  env s move := some (move.apply study.share s)
  spawn call := { sessionId := call.1, purpose := call.2 }
  step := fun s p a => p.step study s a

/-- Every recorded arm is the arm the session's monitors were constructed with. -/
def ArmsAgree (c : Conf (Learner S) ArmCall) : Prop :=
  ∀ sid arm, (sid, arm) ∈ c.shared.monitors →
    ∀ row ∈ c.shared.metrics, row.sessionId = sid → row.controlArm = some arm.value

/-- The next step of the call parts a session from the arm it runs under: it finds that a lab of the
same skill is completed where an earlier look for the session found none, and the stored arm is not
open, or it commits a drawn arm over another one. -/
def ArmCall.losesArm (study : Study S) (s : Learner S) (p : ArmCall) (a : ArmAnswer) : Bool :=
  match p.pc, a with
  | .called _, .ok =>
      s.isL2 study p.sessionId && s.looks.contains (p.sessionId, false) && s.arm ≠ some .open_
  | .assigning drawn, .ok => s.arm.any (· ≠ drawn)
  | _, _ => false

def losesArm (study : Study S) (c : Conf (Learner S) ArmCall) :
    Label LearnerMove (SessionId × Purpose) ArmAnswer → Bool
  | .run pid a => (c.procs[pid]?).any fun p => p.losesArm study c.shared a
  | _ => false

variable {p p' : ArmCall} {a : ArmAnswer}

def ArmCall.Justified (s : Learner S) (p : ArmCall) : Prop :=
  match p.pc with
  | .called loaded => Fresh s loaded
  | .resolving loaded => (p.sessionId, false) ∈ s.looks ∧ Fresh s loaded
  | .assigning _ => (p.sessionId, false) ∈ s.looks
  | .resolved arm => Decided s p.sessionId arm
  | .measured arm _ => Decided s p.sessionId arm
  | .done => True
  | .raised => True

theorem ArmCall.Justified.mono (h : p.Justified s) (hkeeps : s.Keeps s') : p.Justified s' := by
  obtain ⟨sid, purpose, pc⟩ := p
  cases pc with
  | called loaded => exact fun arm harm => hkeeps.arm arm (h arm harm)
  | resolving loaded => exact ⟨hkeeps.looks _ h.1, fun arm harm => hkeeps.arm arm (h.2 arm harm)⟩
  | assigning drawn => exact hkeeps.looks _ h
  | resolved arm => exact Decided.mono h hkeeps
  | measured arm l2 => exact Decided.mono h hkeeps
  | done => trivial
  | raised => trivial

/-- `resolve_control_arm` raises, has drawn an arm, or returns the arm of the user it found. -/
theorem resolve_cases (drawn : ControlArm) (found : Option User) :
    resolve drawn found = .raised ∨ resolve drawn found = .assigning drawn
      ∨ ∃ arm, resolve drawn found = .resolved arm ∧ found.bind User.arm = some arm := by
  cases found with
  | none => exact Or.inl rfl
  | some user =>
      by_cases hempty : user.controlArm.getD "" = ""
      · exact Or.inr (Or.inl (if_pos hempty))
      · have hresolve : resolve drawn (some user) =
            (match controlArm? (user.controlArm.getD "") with
              | none => ArmPc.raised
              | some arm => .resolved arm) := if_neg hempty
        cases harm : controlArm? (user.controlArm.getD "") with
        | none =>
            rw [harm] at hresolve
            exact Or.inl hresolve
        | some arm =>
            rw [harm] at hresolve
            refine Or.inr (Or.inr ⟨arm, hresolve, ?_⟩)
            cases hcolumn : user.controlArm with
            | none =>
                rw [hcolumn] at hempty
                exact absurd rfl hempty
            | some value =>
                rw [hcolumn] at harm
                simpa [User.arm, hcolumn] using harm

/-- Everything that was constructed or recorded was decided. -/
structure Sound (study : Study S) (s : Learner S) : Prop where
  holdouts : ∀ sid, (sid, true) ∈ s.looks → s.isL2 study sid = true
  agreeing : Agreeing s
  monitors : ∀ sid arm, (sid, arm) ∈ s.monitors → Decided s sid arm
  metrics : ∀ row ∈ s.metrics, ∃ arm, row.controlArm = some arm.value ∧ Decided s row.sessionId arm

namespace Sound

/-- A change that neither looks nor takes anything back. -/
theorem carry (h : Sound study s) (hkeeps : s.Keeps s') (hlooks : s'.looks = s.looks)
    (hmono : ∀ sid, s.isL2 study sid = true → s'.isL2 study sid = true)
    (hmonitors : ∀ sid arm, (sid, arm) ∈ s'.monitors → (sid, arm) ∈ s.monitors ∨ Decided s' sid arm)
    (hmetrics : ∀ row ∈ s'.metrics,
      row ∈ s.metrics ∨ ∃ arm, row.controlArm = some arm.value ∧ Decided s' row.sessionId arm) :
    Sound study s' where
  holdouts sid hlook := hmono sid (h.holdouts sid (hlooks ▸ hlook))
  agreeing sid htrue hfalse := by
    rw [hlooks] at htrue hfalse
    exact hkeeps.arm _ (h.agreeing sid htrue hfalse)
  monitors sid arm hmem := by
    rcases hmonitors sid arm hmem with hold | hdecided
    · exact (h.monitors sid arm hold).mono hkeeps
    · exact hdecided
  metrics row hrow := by
    rcases hmetrics row hrow with hold | hdecided
    · obtain ⟨arm, harm, hdecided⟩ := h.metrics row hold
      exact ⟨arm, harm, hdecided.mono hkeeps⟩
    · exact hdecided

/-- A look that finds a holdout where earlier ones found none has to meet an open column. -/
theorem look (h : Sound study s)
    (hkept : s.isL2 study sid = true → (sid, false) ∈ s.looks → s.arm = some .open_) :
    Sound study (s.look study sid) where
  holdouts sid' hlook := by
    rcases List.mem_cons.mp hlook with heq | hold
    · rw [Prod.mk.injEq] at heq
      obtain ⟨rfl, hl2⟩ := heq
      exact hl2.symm
    · exact h.holdouts sid' hold
  agreeing sid' htrue hfalse := by
    change s.arm = some .open_
    rcases List.mem_cons.mp htrue with heq | holdout
    · rw [Prod.mk.injEq] at heq
      obtain ⟨rfl, hl2⟩ := heq
      rcases List.mem_cons.mp hfalse with heq | hbase
      · rw [Prod.mk.injEq, ← hl2] at heq
        cases heq.2
      · exact hkept hl2.symm hbase
    · rcases List.mem_cons.mp hfalse with heq | hbase
      · rw [Prod.mk.injEq] at heq
        obtain ⟨rfl, hl2⟩ := heq
        rw [h.holdouts _ holdout] at hl2
        cases hl2
      · exact h.agreeing sid' holdout hbase
  monitors sid' arm hmem := (h.monitors sid' arm hmem).mono Learner.keeps_look
  metrics row hrow := by
    obtain ⟨arm, harm, hdecided⟩ := h.metrics row hrow
    exact ⟨arm, harm, hdecided.mono Learner.keeps_look⟩

theorem keeps_apply [LinearOrder S] [Zero S] {move : LearnerMove} :
    s.Keeps (move.apply study.share s) := by
  cases move <;> exact ⟨fun _ hlook => hlook, fun _ harm => harm⟩

theorem isCompleted_apply [LinearOrder S] [Zero S] {move : LearnerMove} {slug : Slug}
    (h : isCompleted s.progress slug = true) :
    isCompleted (move.apply study.share s).progress slug = true := by
  obtain ⟨row, hrow, hcompleted⟩ := (Option.any_eq_true _ _).mp h
  rw [decide_eq_true_eq] at hcompleted
  cases move with
  | started slug' now =>
      simp only [LearnerMove.apply, isCompleted, Dict.get?_set]
      split
      · rename_i heq
        subst heq
        simp [startLab, hrow, hcompleted]
      · simp [hrow, hcompleted]
  | validated slug' steps now =>
      simp only [LearnerMove.apply, isCompleted, Dict.get?_set]
      split
      · rename_i heq
        subst heq
        simp [recordLabValidation, hrow, LabProgress.status_withRun, hcompleted]
      · simp [hrow, hcompleted]

theorem apply [LinearOrder S] [Zero S] (h : Sound study s) (move : LearnerMove) :
    Sound study (move.apply study.share s) := by
  apply h.carry keeps_apply
  · cases move <;> rfl
  · exact fun sid hl2 => isL2Session_mono (fun _ hslug => isCompleted_apply hslug) hl2
  · intro sid arm hmem
    left
    cases move <;> exact hmem
  · intro row hrow
    left
    cases move <;> exact hrow

theorem assign {drawn : ControlArm} (h : Sound study s) (hkeeps : s.Keeps (s.assign drawn)) :
    Sound study (s.assign drawn) :=
  h.carry hkeeps rfl (fun _ hl2 => hl2) (fun _ _ hmem => Or.inl hmem) fun _ hrow => Or.inl hrow

theorem construct (h : Sound study s) (hdecided : Decided s sid arm) :
    Sound study (s.construct sid arm) ∧ s.Keeps (s.construct sid arm) := by
  have hkeeps : s.Keeps (s.construct sid arm) := ⟨fun _ hlook => hlook, fun _ harm => harm⟩
  refine ⟨?_, hkeeps⟩
  apply h.carry hkeeps rfl (fun _ hl2 => hl2)
  · intro sid' arm' hmem
    rcases List.mem_cons.mp hmem with heq | hold
    · cases heq
      exact Or.inr (hdecided.mono hkeeps)
    · exact Or.inl hold
  · exact fun _ hrow => Or.inl hrow

theorem record [Zero S] {reads : FinalizerReads} {l2 : Bool} (h : Sound study s)
    (hdecided : Decided s sid arm) :
    Sound study (s.record study sid reads arm l2) ∧ s.Keeps (s.record study sid reads arm l2) := by
  have hkeeps : s.Keeps (s.record study sid reads arm l2) :=
    ⟨fun _ hlook => hlook, fun _ harm => harm⟩
  refine ⟨?_, hkeeps⟩
  apply h.carry hkeeps rfl (fun _ hl2 => hl2)
  · exact fun _ _ hmem => Or.inl hmem
  · intro row hrow
    rcases List.mem_cons.mp hrow with rfl | hold
    · right
      refine ⟨arm, rfl, ?_⟩
      change Decided _ (study.session sid).id arm
      rw [study.session_id]
      exact hdecided.mono hkeeps
    · exact Or.inl hold

end Sound

/-- What `resolve_control_arm` goes on with was decided by the column. -/
theorem justified_resolve {loaded : Option User} {drawn : ControlArm} {purpose : Purpose}
    (hlook : (sid, false) ∈ s.looks) (hfresh : Fresh s loaded) :
    (ArmCall.mk sid purpose (resolve drawn (loaded.or s.user))).Justified s := by
  rcases resolve_cases drawn (loaded.or s.user) with hpc | hpc | ⟨arm, hpc, hfound⟩
  · rw [hpc]
    trivial
  · rw [hpc]
    exact hlook
  · rw [hpc]
    refine Or.inr ⟨hlook, ?_⟩
    cases loaded with
    | none => exact hfound
    | some user => exact hfresh arm hfound

/-- One step of a call that parts no session from its arm. -/
theorem ArmCall.step_sound [Zero S] (h : Sound study s) (hp : p.Justified s)
    (hkept : p.losesArm study s a = false) (hstep : p.step study s a = some (s', p')) :
    Sound study s' ∧ s.Keeps s' ∧ p'.Justified s' := by
  obtain ⟨sid, purpose, pc⟩ := p
  have hstay : ∀ {pc' : ArmPc}, (ArmCall.mk sid purpose pc').Justified s →
      some (s, ArmCall.mk sid purpose pc') = some (s', p') →
        Sound study s' ∧ s.Keeps s' ∧ p'.Justified s' := by
    intro pc' hp' heq
    cases heq
    exact ⟨h, Learner.Keeps.refl s, hp'⟩
  have hraise : some (s, ArmCall.mk sid purpose .raised) = some (s', p') → _ := hstay trivial
  cases pc with
  | done | raised => cases hstep
  | called loaded =>
      cases a with
      | failed => exact hraise hstep
      | loads =>
          cases loaded with
          | none =>
              cases hstep
              exact ⟨h, Learner.Keeps.refl s, fun _ harm => harm⟩
          | some user => cases hstep
      | ok =>
          simp only [step, Option.some.injEq, Prod.mk.injEq] at hstep
          obtain ⟨rfl, rfl⟩ := hstep
          have hsound : Sound study (s.look study sid) := by
            apply h.look
            intro hl2 hbase
            simpa [losesArm, hl2, hbase] using hkept
          refine ⟨hsound, Learner.keeps_look, ?_⟩
          cases hl2 : s.isL2 study sid with
          | true => exact Or.inl ⟨by simp [Learner.look, hl2], rfl⟩
          | false => exact ⟨by simp [Learner.look, hl2], hp⟩
      | drew | read => cases hstep
  | resolving loaded =>
      cases a with
      | failed => exact hraise hstep
      | drew drawn => exact hstay (justified_resolve hp.1 hp.2) hstep
      | ok | loads | read => cases hstep
  | assigning drawn =>
      cases a with
      | failed => exact hraise hstep
      | ok =>
          simp only [step] at hstep
          split at hstep
          · rename_i huser
            cases hstep
            have hkeeps : s.Keeps (s.assign drawn) := by
              apply Learner.keeps_assign huser
              intro arm harm
              simpa [losesArm, harm] using hkept
            exact ⟨h.assign hkeeps, hkeeps, Or.inr ⟨hp, Learner.arm_assign huser⟩⟩
          · exact hraise hstep
      | loads | drew | read => cases hstep
  | resolved arm =>
      cases a with
      | failed => exact hraise hstep
      | ok =>
          cases purpose with
          | start =>
              cases hstep
              obtain ⟨hsound, hkeeps⟩ := h.construct hp
              exact ⟨hsound, hkeeps, trivial⟩
          | finish =>
              cases hstep
              exact ⟨h, Learner.Keeps.refl s, hp⟩
      | loads | drew | read => cases hstep
  | measured arm l2 =>
      cases a with
      | failed => exact hraise hstep
      | read reads =>
          cases hstep
          obtain ⟨hsound, hkeeps⟩ := h.record hp
          exact ⟨hsound, hkeeps, trivial⟩
      | ok | loads | drew => cases hstep

/-! ### Runs -/

/-- What was written was decided, and what is under way goes by what was decided. -/
structure ArmInv (study : Study S) (c : Conf (Learner S) ArmCall) : Prop where
  sound : Sound study c.shared
  calls : ∀ p ∈ c.procs, p.Justified c.shared

theorem ArmInv.next [LinearOrder S] [Zero S] {c c' : Conf (Learner S) ArmCall}
    {l : Label LearnerMove (SessionId × Purpose) ArmAnswer} (h : ArmInv study c)
    (hkept : losesArm study c l = false) (hnext : (learning study).next c l = some c') :
    ArmInv study c' := by
  rcases (learning study).next_cases hnext with ⟨move, s, rfl, hs, rfl⟩ | ⟨call, rfl, rfl⟩
    | ⟨pid, a, p, s, p', rfl, hpid, hstep, rfl⟩
  · cases hs
    exact ⟨h.sound.apply move, fun p hp => (h.calls p hp).mono Sound.keeps_apply⟩
  · refine ⟨h.sound, forall_mem_append h.calls ?_⟩
    intro arm harm
    cases harm
  · have hmem := mem_of_getElem? hpid
    have hkept' : p.losesArm study c.shared a = false := by
      simpa [Experiment.losesArm, hpid] using hkept
    obtain ⟨hsound, hkeeps, hp'⟩ := ArmCall.step_sound h.sound (h.calls p hmem) hkept' hstep
    exact ⟨hsound, forall_mem_set (fun q hq => (h.calls q hq).mono hkeeps) hp'⟩

theorem ArmInv.armsAgree {c : Conf (Learner S) ArmCall} (h : ArmInv study c) : ArmsAgree c := by
  rintro sid arm hmonitor row hrow rfl
  obtain ⟨arm', harm', hrecorded⟩ := h.sound.metrics row hrow
  have hsame := Decided.unique h.sound.agreeing hrecorded (h.sound.monitors _ _ hmonitor)
  rw [harm', hsame]

def enrolled (user : Option User) (progress : Dict Slug (LabProgress S)) :
    Conf (Learner S) ArmCall :=
  ⟨{ user := user, progress := progress }, []⟩

/-- **The recorded arm is the enforced arm**, in every history in which no call parts a session from
its arm. -/
theorem recorded_arm_enforced [LinearOrder S] [Zero S] (study : Study S) (user : Option User)
    (progress : Dict Slug (LabProgress S))
    (ls : List (Label LearnerMove (SessionId × Purpose) ArmAnswer))
    (hkept : (learning study).Along (fun c l => losesArm study c l = false)
      (enrolled user progress) ls) :
    (learning study).Throughout ArmsAgree (enrolled user progress) ls := by
  have hinit : ArmInv study (enrolled user progress) := by
    refine ⟨⟨?_, ?_, ?_, ?_⟩, ?_⟩
    · intro sid hlook
      cases hlook
    · intro sid htrue
      cases htrue
    · intro sid arm hmem
      cases hmem
    · intro row hrow
      cases hrow
    · intro p hp
      cases hp
  have hinv : (learning study).Throughout (ArmInv study) (enrolled user progress) ls :=
    (learning study).throughout_of_along (fun _ _ _ h hkept hnext => h.next hkept hnext) hinit hkept
  exact System.Throughout.mono _ (fun _ h => h.armsAgree) hinv

/-- Two labs of one skill and one of another, and a session on each. Scores are tenths of a
percent. -/
def trial : Study Nat where
  labs := [⟨"ospf-1", some ⟨some "ospf"⟩⟩, ⟨"ospf-2", some ⟨some "ospf"⟩⟩,
    ⟨"acl", some ⟨some "acl"⟩⟩]
  session sid := {
    id := sid
    userId := "ann"
    labSlug := if sid = 0 then "ospf-1" else if sid = 1 then "ospf-2" else "acl"
    status := .ended
    startedAt := 0
    endedAt := some 60
    expiresAt := none
    metaJson := none }
  session_id _ := rfl
  share part whole := 1000 * part / whole

def noEvents : FinalizerReads where
  events := []
  user := none
  spec := none
  labSteps := []
  l2InterventionCap := 0
  now := 60

abbrev TrialMove := Label LearnerMove (SessionId × Purpose) ArmAnswer

/-- The learner starts the first session, completes its lab and ends it, then does the second lab of
the skill as a holdout. -/
def oneAfterTheOther : List TrialMove :=
  [.spawn (0, .start), .run 0 .ok, .run 0 (.drew .closed), .run 0 .ok, .run 0 .ok,
    .env (.validated "ospf-1" [⟨true, [true]⟩] 10),
    .spawn (0, .finish), .run 1 .ok, .run 1 (.drew .open_), .run 1 .ok, .run 1 (.read noEvents),
    .spawn (1, .start), .run 2 .ok, .run 2 .ok,
    .spawn (1, .finish), .run 3 .ok, .run 3 .ok, .run 3 (.read noEvents)]

theorem recorded_arm_enforced_oneAfterTheOther :
    (learning trial).Throughout ArmsAgree (enrolled (some {}) {}) oneAfterTheOther
      ∧ ((learning trial).exec (enrolled (some {}) {}) oneAfterTheOther).map
          (fun c => (c.shared.monitors, c.shared.metrics.map fun row =>
            (row.sessionId, row.controlArm)))
        = some ([(1, .open_), (0, .closed)], [(1, some "open"), (0, some "closed")]) :=
  ⟨recorded_arm_enforced trial (some {}) {} oneAfterTheOther (by decide +kernel), by decide +kernel⟩

/-- Both labs of the skill are open. The first is completed while the session of the second runs. -/
def completedMeanwhile : List TrialMove :=
  [.spawn (1, .start), .run 0 .ok, .run 0 (.drew .closed), .run 0 .ok, .run 0 .ok,
    .env (.validated "ospf-1" [⟨true, [true]⟩] 10),
    .spawn (1, .finish), .run 1 .ok, .run 1 .ok, .run 1 (.read noEvents)]

/-- Two first sessions start at once, and each draws an arm for the learner. -/
def drawnTwice : List TrialMove :=
  [.spawn (0, .start), .spawn (2, .start), .run 0 .ok, .run 1 .ok,
    .run 0 (.drew .closed), .run 1 (.drew .open_), .run 0 .ok, .run 1 .ok, .run 0 .ok, .run 1 .ok,
    .spawn (0, .finish), .run 2 .ok, .run 2 (.drew .closed), .run 2 .ok, .run 2 (.read noEvents)]

/-- The run ends with every call done and a session recorded under an arm it did not run under. -/
def RecordsAnotherArm (ls : List TrialMove) : Prop :=
  ∃ c, (learning trial).exec (enrolled (some {}) {}) ls = some c
    ∧ (∀ p ∈ c.procs, p.pc = .done) ∧ ¬ ArmsAgree c

theorem recordsAnotherArm_of_exec {ls : List TrialMove}
    (hrun : ((learning trial).exec (enrolled (some {}) {}) ls).any (fun c =>
      (c.procs.all fun p => decide (p.pc = .done)) && c.shared.monitors.any fun monitor =>
        c.shared.metrics.any fun row =>
          row.sessionId = monitor.1 && row.controlArm ≠ some monitor.2.value) = true) :
    RecordsAnotherArm ls := by
  obtain ⟨c, hexec, hlast⟩ := (Option.any_eq_true _ _).mp hrun
  rw [Bool.and_eq_true, List.all_eq_true] at hlast
  obtain ⟨hdone, hparted⟩ := hlast
  refine ⟨c, hexec, fun p hp => of_decide_eq_true (hdone p hp), ?_⟩
  intro hagree
  obtain ⟨⟨sid, arm⟩, hmonitor, hrow⟩ := List.any_eq_true.mp hparted
  obtain ⟨row, hmem, hboth⟩ := List.any_eq_true.mp hrow
  rw [Bool.and_eq_true, decide_eq_true_eq, decide_eq_true_eq] at hboth
  exact hboth.2 (hagree sid arm hmonitor row hmem hboth.1)

/-- **The recorded arm drifts**, in each of the two ways. -/
theorem recorded_arm_drifts : RecordsAnotherArm completedMeanwhile ∧ RecordsAnotherArm drawnTwice :=
  ⟨recordsAnotherArm_of_exec (by decide +kernel), recordsAnotherArm_of_exec (by decide +kernel)⟩

end OnlinetLabs.Experiment
