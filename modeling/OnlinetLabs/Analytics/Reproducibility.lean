import OnlinetLabs.Lib.GroupBy
import OnlinetLabs.Lib.Interleaving
import OnlinetLabs.Lib.Naming
import OnlinetLabs.Lib.Runs
import Mathlib.Data.List.Dedup
import Mathlib.Data.List.Forall2
import Mathlib.Data.Rat.Defs

/-!
# The reproducibility bundle

`build_reproducibility_bundle` reads the decisions and the annotations of those who are not
simulated and writes pseudonyms for the learners, of whom it enrols those who have none yet, and
research ids for the sessions. Each of its queries sees the tables as they are then: learners sign
up and are erased in between, and other bundles are built.

A UUID is a number that was never drawn before.
-/

namespace OnlinetLabs.Analytics.Reproducibility

open GroupBy (ofPairs mem_of_get?_ofPairs)
open Interleaving (mem_of_getElem? forall_mem_set forall_mem_append)

/-! ### The tables -/

structure User where
  id : Nat
  isSimulated : Bool
deriving Repr, DecidableEq

structure StudyParticipant where
  userId : Nat
  pseudonym : Nat
deriving Repr, DecidableEq

structure LearningSession where
  id : Nat
  userId : Nat
  researchId : Nat
deriving Repr, DecidableEq

/-- What is exported of a decision as it stands. -/
structure Decision where
  spellId : String
  ts : Int
  regime : String
  dwellSeconds : ℚ
  tKApplied : ℚ
  assignment : String
  subsequentExitTs : Option Int
  censored : Bool
deriving Repr, DecidableEq

structure InterventionDecision where
  sessionId : Nat
  userId : Nat
  decision : Decision
deriving Repr, DecidableEq

/-- What is exported of an annotation as it stands. -/
structure RegimeLabel where
  coderId : String
  windowIndex : Int
  regimeLabel : String
  isGold : Bool
deriving Repr, DecidableEq

structure RegimeAnnotation where
  sessionId : Nat
  label : RegimeLabel
deriving Repr, DecidableEq

/-- The tables, and every row there ever was of those that are named. -/
structure Study where
  drawn : Nat := 0
  users : List User := []
  participants : List StudyParticipant := []
  sessions : List LearningSession := []
  interventionDecisions : List InterventionDecision := []
  regimeAnnotations : List RegimeAnnotation := []
  everyUser : List User := []
  everyParticipant : List StudyParticipant := []
  everySession : List LearningSession := []

namespace Study

def hasUser (s : Study) (userId : Nat) : Bool := s.users.any fun user => user.id = userId

def signUp (s : Study) (isSimulated : Bool) : Study :=
  { s with
    drawn := s.drawn + 1
    users := s.users ++ [⟨s.drawn, isSimulated⟩]
    everyUser := s.everyUser ++ [⟨s.drawn, isSimulated⟩] }

/-- A row of `study_participants` is inserted, unless the user is unknown or has one. -/
def enrol (s : Study) (userId : Nat) : Option Study :=
  if s.hasUser userId ∧ s.participants.all (fun row => row.userId ≠ userId) then
    some { s with
      drawn := s.drawn + 1
      participants := s.participants ++ [⟨userId, s.drawn⟩]
      everyParticipant := s.everyParticipant ++ [⟨userId, s.drawn⟩] }
  else none

def openSession (s : Study) (userId : Nat) : Option Study :=
  if s.hasUser userId then
    some { s with
      drawn := s.drawn + 2
      sessions := s.sessions ++ [⟨s.drawn, userId, s.drawn + 1⟩]
      everySession := s.everySession ++ [⟨s.drawn, userId, s.drawn + 1⟩] }
  else none

def decide (s : Study) (row : InterventionDecision) : Option Study :=
  if s.hasUser row.userId ∧ s.sessions.any (fun session => session.id = row.sessionId) then
    some { s with interventionDecisions := s.interventionDecisions ++ [row] }
  else none

def annotate (s : Study) (row : RegimeAnnotation) : Option Study :=
  if s.sessions.any (fun session => session.id = row.sessionId) then
    some { s with regimeAnnotations := s.regimeAnnotations ++ [row] }
  else none

/-- A user is deleted, and by `ON DELETE CASCADE` all that refers to the user. -/
def eraseUser (s : Study) (userId : Nat) : Study :=
  { s with
    users := s.users.filter (·.id ≠ userId)
    participants := s.participants.filter (·.userId ≠ userId)
    sessions := s.sessions.filter (·.userId ≠ userId)
    interventionDecisions := s.interventionDecisions.filter fun row =>
      row.userId ≠ userId ∧ s.sessions.any fun session => session.id = row.sessionId
        ∧ session.userId ≠ userId
    regimeAnnotations := s.regimeAnnotations.filter fun row =>
      s.sessions.any fun session => session.id = row.sessionId ∧ session.userId ≠ userId }

/-! ### What the bundle reads -/

def simUsers (s : Study) : List Nat := (s.users.filter (·.isSimulated)).map (·.id)

def simSessions (s : Study) :
    List Nat := (s.sessions.filter fun row => row.userId ∈ s.simUsers).map (·.id)

def realDecisions (s : Study) : List InterventionDecision :=
  s.interventionDecisions.filter fun row => row.userId ∉ s.simUsers

def realAnnotations (s : Study) : List RegimeAnnotation :=
  s.regimeAnnotations.filter fun row => row.sessionId ∉ s.simSessions

def gold (s : Study) : Nat := s.realAnnotations.countP (·.label.isGold)

/-- `pseudonym_map`, what it finds. -/
def pseudonyms (s : Study) (wanted : List Nat) : Dict Nat Nat :=
  ofPairs ((s.participants.filter (·.userId ∈ wanted)).map fun row => (row.userId, row.pseudonym))

/-- `research_id_map` -/
def researchIds (s : Study) (wanted : List Nat) : Dict Nat Nat :=
  ofPairs ((s.sessions.filter (·.id ∈ wanted)).map fun row => (row.id, row.researchId))

end Study

/-! ### A bundle -/

structure DecisionRow where
  session : Option Nat
  user : Option Nat
  decision : Decision
deriving Repr, DecidableEq

structure AnnotationRow where
  session : Option Nat
  label : RegimeLabel
deriving Repr, DecidableEq

structure Bundle where
  interventionDecisions : List DecisionRow
  regimeAnnotations : List AnnotationRow
  goldLabelCount : Nat
deriving Repr, DecidableEq

inductive ExportPc where
  | decisions
  | annotations
  | gold
  | mapping
  /-- Who had no pseudonym yet is looked up once more, one after the other and in any order. -/
  | missing (users : List Nat)
  | inserting (user : Nat) (users : List Nat)
  | built (bundle : Bundle)
  | raised
deriving Repr, DecidableEq

structure Export where
  pc : ExportPc := .decisions
  decisions : List InterventionDecision := []
  annotations : List RegimeAnnotation := []
  goldLabelCount : Nat := 0
  pseudonyms : Dict Nat Nat := {}
deriving Repr, DecidableEq

namespace Export

def wantedUsers (e : Export) : List Nat := (e.decisions.map (·.userId)).dedup

def wantedSessions (e : Export) :
    List Nat := e.decisions.map (·.sessionId) ++ e.annotations.map (·.sessionId)

def bundle (e : Export) (researchIds : Dict Nat Nat) : Bundle where
  interventionDecisions := e.decisions.map fun row =>
    ⟨researchIds.get? row.sessionId, e.pseudonyms.get? row.userId, row.decision⟩
  regimeAnnotations := e.annotations.map fun row => ⟨researchIds.get? row.sessionId, row.label⟩
  goldLabelCount := e.goldLabelCount

/-- One query of `build_reproducibility_bundle`. `next` is who is looked up next. -/
def step (s : Study) (e : Export) (next : Nat) : Option (Study × Export) :=
  match e.pc with
  | .decisions => some (s, { e with pc := .annotations, decisions := s.realDecisions })
  | .annotations => some (s, { e with pc := .gold, annotations := s.realAnnotations })
  | .gold => some (s, { e with pc := .mapping, goldLabelCount := s.gold })
  | .mapping =>
      some (s, { e with
        pc := .missing (e.wantedUsers.filter fun user =>
          (s.pseudonyms e.wantedUsers).get? user = none)
        pseudonyms := s.pseudonyms e.wantedUsers })
  | .missing users =>
      if users = []
        then some (s, { e with pc := .built (e.bundle (s.researchIds e.wantedSessions)) })
      else if next ∈ users then
        match s.participants.find? (·.userId = next) with
        | some row =>
            some (s, { e with
              pc := .missing (users.erase next)
              pseudonyms := e.pseudonyms.set next row.pseudonym })
        | none => some (s, { e with pc := .inserting next (users.erase next) })
      else none
  | .inserting user users =>
      match s.enrol user with
      | some s' =>
          some (s', { e with pc := .missing users, pseudonyms := e.pseudonyms.set user s.drawn })
      | none => some (s, { e with pc := .raised })
  | .built _ | .raised => none

end Export

/-! ### The runs -/

structure World where
  study : Study := {}
  exports : List Export := []

inductive Move where
  | signUp (isSimulated : Bool)
  | enrol (userId : Nat)
  | openSession (userId : Nat)
  | decide (row : InterventionDecision)
  | annotate (row : RegimeAnnotation)
  | eraseUser (userId : Nat)
  | build
  | query (e next : Nat)
deriving Repr, DecidableEq

def World.step (w : World) : Move → Option World
  | .signUp isSimulated => some { w with study := w.study.signUp isSimulated }
  | .enrol userId => (w.study.enrol userId).map fun study => { w with study }
  | .openSession userId => (w.study.openSession userId).map fun study => { w with study }
  | .decide row => (w.study.decide row).map fun study => { w with study }
  | .annotate row => (w.study.annotate row).map fun study => { w with study }
  | .eraseUser userId => some { w with study := w.study.eraseUser userId }
  | .build => some { w with exports := w.exports ++ [{}] }
  | .query i next =>
      match w.exports[i]? with
      | none => none
      | some e =>
          (e.step w.study next).map fun r => { study := r.1, exports := w.exports.set i r.2 }

/-! ### What is kept of the tables -/

def Study.Real (s : Study) (userId : Nat) :
    Prop := ∃ user ∈ s.everyUser, user.id = userId ∧ user.isSimulated = false

structure StudyKept (s : Study) : Prop where
  users : ∀ user ∈ s.users, user ∈ s.everyUser
  known : ∀ user ∈ s.everyUser, user.id < s.drawn
  distinct : (s.everyUser.map (·.id)).Nodup
  participants : ∀ row ∈ s.participants, row ∈ s.everyParticipant
  named : Naming (s.everyParticipant.map fun row => (row.userId, row.pseudonym))
  namedBefore : ∀ row ∈ s.everyParticipant, row.userId < s.drawn ∧ row.pseudonym < s.drawn
  standing : ∀ row ∈ s.everyParticipant, s.hasUser row.userId = true → row ∈ s.participants
  sessions : ∀ row ∈ s.sessions, row ∈ s.everySession ∧ s.hasUser row.userId = true
  opened : Naming (s.everySession.map fun row => (row.id, row.researchId))
  openedBefore : ∀ row ∈ s.everySession, row.id < s.drawn ∧ row.researchId < s.drawn
  decisions : ∀ row ∈ s.interventionDecisions, s.hasUser row.userId = true
  annotations : ∀ row ∈ s.regimeAnnotations, ∃ session ∈ s.sessions, session.id = row.sessionId

structure Grown (s s' : Study) : Prop where
  users : ∀ user ∈ s.everyUser, user ∈ s'.everyUser
  participants : ∀ row ∈ s.everyParticipant, row ∈ s'.everyParticipant
  sessions : ∀ row ∈ s.everySession, row ∈ s'.everySession

section Tables

variable {s s' : Study} {userId : Nat} {isSimulated : Bool}

theorem hasUser_iff : s.hasUser userId = true ↔ ∃ user ∈ s.users, user.id = userId := by
  simp [Study.hasUser]

theorem Study.Real.grown (h : s.Real userId) (hgrown : Grown s s') : s'.Real userId := by
  obtain ⟨user, hmem, hid, hreal⟩ := h
  exact ⟨user, hgrown.users user hmem, hid, hreal⟩

theorem StudyKept.signUp (h : StudyKept s) :
    StudyKept (s.signUp isSimulated) ∧ Grown s (s.signUp isSimulated) := by
  have hsame : ∀ userId, userId ≠ s.drawn →
      (s.signUp isSimulated).hasUser userId = s.hasUser userId := by
    intro userId hne
    simp [Study.signUp, Study.hasUser, Ne.symm hne]
  have hmore : ∀ userId, s.hasUser userId = true →
      (s.signUp isSimulated).hasUser userId = true := by
    intro userId hhas
    obtain ⟨user, hmem, hid⟩ := hasUser_iff.mp hhas
    exact hasUser_iff.mpr ⟨user, List.mem_append_left _ hmem, hid⟩
  refine ⟨⟨?_, ?_, ?_, h.participants, h.named, ?_, ?_, ?_, h.opened, ?_, ?_, h.annotations⟩,
    ⟨fun _ hmem => List.mem_append_left _ hmem, fun _ => id, fun _ => id⟩⟩
  · intro user hmem
    exact (List.mem_append.mp hmem).elim (fun hold => List.mem_append_left _ (h.users user hold))
      fun hnew => List.mem_append_right _ hnew
  · exact forall_mem_append (fun user hmem => Nat.lt_succ_of_lt (h.known user hmem))
      (Nat.lt_succ_self _)
  · dsimp only [Study.signUp]
    rw [List.map_append, List.map_singleton]
    refine h.distinct.append (List.nodup_singleton _) (List.disjoint_singleton.mpr fun hmem => ?_)
    obtain ⟨user, huser, hid⟩ := List.mem_map.mp hmem
    exact absurd (h.known user huser) (hid ▸ Nat.lt_irrefl _)
  · intro row hrow
    exact ⟨Nat.lt_succ_of_lt (h.namedBefore row hrow).1,
      Nat.lt_succ_of_lt (h.namedBefore row hrow).2⟩
  · intro row hrow hhas
    rw [hsame row.userId (Nat.ne_of_lt (h.namedBefore row hrow).1)] at hhas
    exact h.standing row hrow hhas
  · exact fun row hrow => ⟨(h.sessions row hrow).1, hmore _ (h.sessions row hrow).2⟩
  · intro row hrow
    exact ⟨Nat.lt_succ_of_lt (h.openedBefore row hrow).1,
      Nat.lt_succ_of_lt (h.openedBefore row hrow).2⟩
  · exact fun row hrow => hmore _ (h.decisions row hrow)

theorem StudyKept.enrol (h : StudyKept s) (henrol : s.enrol userId = some s') :
    StudyKept s' ∧ Grown s s' ∧ ⟨userId, s.drawn⟩ ∈ s'.everyParticipant := by
  unfold Study.enrol at henrol
  split at henrol
  · rename_i hnew
    cases henrol
    -- a row of before would stand still
    have hunnamed : ∀ row ∈ s.everyParticipant, row.userId ≠ userId := by
      rintro row hrow rfl
      have hstands := List.all_eq_true.mp hnew.2 row (h.standing row hrow hnew.1)
      simp at hstands
    refine ⟨⟨h.users, fun user hmem => Nat.lt_succ_of_lt (h.known user hmem), h.distinct, ?_, ?_,
      ?_, ?_, h.sessions, h.opened, ?_, h.decisions, h.annotations⟩,
        ⟨fun _ => id, fun _ hmem => List.mem_append_left _ hmem, fun _ => id⟩,
        List.mem_append_right _ List.mem_cons_self⟩
    · intro row hrow
      exact (List.mem_append.mp hrow).elim
        (fun hold => List.mem_append_left _ (h.participants row hold))
        fun hrow => List.mem_append_right _ hrow
    · rw [List.map_append, List.map_singleton]
      refine h.named.concat ?_ ?_
      · intro x hx
        obtain ⟨row, hrow, rfl⟩ := List.mem_map.mp hx
        exact hunnamed row hrow
      · intro x hx
        obtain ⟨row, hrow, rfl⟩ := List.mem_map.mp hx
        exact Nat.ne_of_lt (h.namedBefore row hrow).2
    · obtain ⟨user, hmem, hid⟩ := hasUser_iff.mp hnew.1
      refine forall_mem_append (fun row hrow => ?_) ⟨?_, Nat.lt_succ_self _⟩
      · exact ⟨Nat.lt_succ_of_lt (h.namedBefore row hrow).1,
          Nat.lt_succ_of_lt (h.namedBefore row hrow).2⟩
      · exact Nat.lt_succ_of_lt (hid ▸ h.known user (h.users user hmem))
    · refine forall_mem_append (fun row hrow hhas => ?_) fun _ =>
        List.mem_append_right _ List.mem_cons_self
      exact List.mem_append_left _ (h.standing row hrow hhas)
    · intro row hrow
      exact ⟨Nat.lt_succ_of_lt (h.openedBefore row hrow).1,
        Nat.lt_succ_of_lt (h.openedBefore row hrow).2⟩
  · cases henrol

theorem StudyKept.openSession (h : StudyKept s) (hopen : s.openSession userId = some s') :
    StudyKept s' ∧ Grown s s' := by
  unfold Study.openSession at hopen
  split at hopen
  · rename_i hhas
    cases hopen
    have hlater : ∀ n, n < s.drawn → n < s.drawn + 2 := fun n hn => Nat.lt_add_right 2 hn
    refine ⟨⟨h.users, fun user hmem => hlater _ (h.known user hmem), h.distinct, h.participants,
      h.named, ?_, h.standing, ?_, ?_, ?_, h.decisions, ?_⟩,
        ⟨fun _ => id, fun _ => id, fun _ hmem => List.mem_append_left _ hmem⟩⟩
    · exact fun row hrow =>
        ⟨hlater _ (h.namedBefore row hrow).1, hlater _ (h.namedBefore row hrow).2⟩
    · refine forall_mem_append (fun row hrow => ?_)
        ⟨List.mem_append_right _ List.mem_cons_self, hhas⟩
      exact ⟨List.mem_append_left _ (h.sessions row hrow).1, (h.sessions row hrow).2⟩
    · rw [List.map_append, List.map_singleton]
      refine h.opened.concat ?_ ?_
      · intro x hx
        obtain ⟨row, hrow, rfl⟩ := List.mem_map.mp hx
        exact Nat.ne_of_lt (h.openedBefore row hrow).1
      · intro x hx
        obtain ⟨row, hrow, rfl⟩ := List.mem_map.mp hx
        exact Nat.ne_of_lt (Nat.lt_succ_of_lt (h.openedBefore row hrow).2)
    · refine forall_mem_append (fun row hrow => ?_)
        ⟨Nat.lt_add_of_pos_right (by decide), Nat.lt_succ_self _⟩
      exact ⟨hlater _ (h.openedBefore row hrow).1, hlater _ (h.openedBefore row hrow).2⟩
    · intro row hrow
      obtain ⟨session, hmem, hid⟩ := h.annotations row hrow
      exact ⟨session, List.mem_append_left _ hmem, hid⟩
  · cases hopen

theorem StudyKept.decide {row : InterventionDecision} (h : StudyKept s)
    (hdecide : s.decide row = some s') :
    StudyKept s' ∧ Grown s s' := by
  unfold Study.decide at hdecide
  split at hdecide
  · rename_i hknown
    cases hdecide
    exact ⟨{ h with decisions := forall_mem_append h.decisions hknown.1 },
      ⟨fun _ => id, fun _ => id, fun _ => id⟩⟩
  · cases hdecide

theorem StudyKept.annotate {row : RegimeAnnotation} (h : StudyKept s)
    (hannotate : s.annotate row = some s') :
    StudyKept s' ∧ Grown s s' := by
  unfold Study.annotate at hannotate
  split at hannotate
  · rename_i hknown
    cases hannotate
    refine ⟨{ h with annotations := forall_mem_append h.annotations ?_ },
      ⟨fun _ => id, fun _ => id, fun _ => id⟩⟩
    simpa using hknown
  · cases hannotate

theorem StudyKept.eraseUser (h : StudyKept s) (userId : Nat) :
    StudyKept (s.eraseUser userId) ∧ Grown s (s.eraseUser userId) := by
  have hhas : ∀ other, (s.eraseUser userId).hasUser other = true ↔ s.hasUser other = true
      ∧ other ≠ userId := by
    intro other
    rw [hasUser_iff, hasUser_iff]
    constructor
    · rintro ⟨user, hmem, rfl⟩
      obtain ⟨hmem, hne⟩ := List.mem_filter.mp hmem
      exact ⟨⟨user, hmem, rfl⟩, of_decide_eq_true hne⟩
    · rintro ⟨⟨user, hmem, rfl⟩, hne⟩
      exact ⟨user, List.mem_filter.mpr ⟨hmem, decide_eq_true hne⟩, rfl⟩
  refine ⟨⟨fun user hmem => h.users user (List.mem_filter.mp hmem).1, h.known, h.distinct,
    fun row hrow => h.participants row (List.mem_filter.mp hrow).1, h.named, h.namedBefore, ?_,
      ?_, h.opened,
    h.openedBefore, ?_, ?_⟩, ⟨fun _ => id, fun _ => id, fun _ => id⟩⟩
  · intro row hrow hstays
    obtain ⟨hbefore, hne⟩ := (hhas row.userId).mp hstays
    exact List.mem_filter.mpr ⟨h.standing row hrow hbefore, decide_eq_true hne⟩
  · intro row hrow
    obtain ⟨hmem, hne⟩ := List.mem_filter.mp hrow
    exact ⟨(h.sessions row hmem).1,
      (hhas row.userId).mpr ⟨(h.sessions row hmem).2, of_decide_eq_true hne⟩⟩
  · intro row hrow
    obtain ⟨hmem, hstays⟩ := List.mem_filter.mp hrow
    exact (hhas row.userId).mpr ⟨h.decisions row hmem, (of_decide_eq_true hstays).1⟩
  · intro row hrow
    obtain ⟨-, hstays⟩ := List.mem_filter.mp hrow
    obtain ⟨session, hmem, hboth⟩ := List.any_eq_true.mp hstays
    obtain ⟨hid, hne⟩ := of_decide_eq_true hboth
    exact ⟨session, List.mem_filter.mpr ⟨hmem, decide_eq_true hne⟩, hid⟩

/-- Who is not among the simulated is real. -/
theorem StudyKept.real (h : StudyKept s) (hhas : s.hasUser userId = true)
    (hsim : userId ∉ s.simUsers) :
    s.Real userId := by
  obtain ⟨user, hmem, hid⟩ := hasUser_iff.mp hhas
  refine ⟨user, h.users user hmem, hid, ?_⟩
  cases hsimulated : user.isSimulated
  · rfl
  · exact absurd (List.mem_map.mpr ⟨user, List.mem_filter.mpr ⟨hmem, hsimulated⟩, hid⟩) hsim

end Tables

/-! ### What is kept of a bundle -/

def Study.Named (s : Study) (userId : Nat) (label : Option Nat) : Prop :=
  ∃ pseudonym, label = some pseudonym ∧ ⟨userId, pseudonym⟩ ∈ s.everyParticipant

/-- The label that is written for a session. It is missing where the session was erased
meanwhile. -/
def Study.Opened (s : Study) (sessionId : Nat) (label : Option Nat) : Prop :=
  ∀ researchId ∈ label, ∃ session ∈ s.everySession, session.id = sessionId
    ∧ session.researchId = researchId

def Bundle.sessions (b : Bundle) : List (Option Nat) :=
  b.interventionDecisions.map (·.session) ++ b.regimeAnnotations.map (·.session)

structure Labelled (s : Study) (e : Export) (b : Bundle) : Prop where
  decisions : b.interventionDecisions.map (·.decision) = e.decisions.map (·.decision)
  annotations : b.regimeAnnotations.map (·.label) = e.annotations.map (·.label)
  users : List.Forall₂ s.Named (e.decisions.map (·.userId)) (b.interventionDecisions.map (·.user))
  sessions : List.Forall₂ s.Opened e.wantedSessions b.sessions

structure ExportKept (s : Study) (e : Export) : Prop where
  decisions : ∀ row ∈ e.decisions, s.Real row.userId
  annotations : ∀ row ∈ e.annotations, ∃ session ∈ s.everySession, session.id = row.sessionId
    ∧ s.Real session.userId
  pseudonyms : ∀ userId pseudonym, e.pseudonyms.get? userId = some pseudonym →
    ⟨userId, pseudonym⟩ ∈ s.everyParticipant
  here : match e.pc with
    | .missing users =>
        ∀ row ∈ e.decisions, row.userId ∈ users ∨ e.pseudonyms.get? row.userId ≠ none
    | .inserting user users =>
        ∀ row ∈ e.decisions, row.userId = user ∨ row.userId ∈ users
          ∨ e.pseudonyms.get? row.userId ≠ none
    | .built b => Labelled s e b
    | _ => True

section Exports

variable {s s' : Study} {e e' : Export} {next : Nat}

theorem Labelled.grown {b : Bundle} (h : Labelled s e b) (hgrown : Grown s s') :
    Labelled s' e b where
  decisions := h.decisions
  annotations := h.annotations
  users := h.users.imp fun _ _ ⟨pseudonym, hlabel, hmem⟩ =>
    ⟨pseudonym, hlabel, hgrown.participants _ hmem⟩
  sessions := by
    refine h.sessions.imp fun sessionId label hopened researchId hlabel => ?_
    obtain ⟨session, hmem, hboth⟩ := hopened researchId hlabel
    exact ⟨session, hgrown.sessions session hmem, hboth⟩

theorem ExportKept.grown (h : ExportKept s e) (hgrown : Grown s s') : ExportKept s' e where
  decisions row hrow := (h.decisions row hrow).grown hgrown
  annotations row hrow := by
    obtain ⟨session, hmem, hid, hreal⟩ := h.annotations row hrow
    exact ⟨session, hgrown.sessions session hmem, hid, hreal.grown hgrown⟩
  pseudonyms userId pseudonym hget := hgrown.participants _ (h.pseudonyms userId pseudonym hget)
  here := by
    have hhere := h.here
    revert hhere
    cases e.pc with
    | built b => exact fun hlabelled => hlabelled.grown hgrown
    | decisions | annotations | gold | mapping | missing | inserting | raised => exact id

theorem exportKept_init : ExportKept s {} where
  decisions _ h := absurd h List.not_mem_nil
  annotations _ h := absurd h List.not_mem_nil
  pseudonyms _ _ h := by cases h
  here := trivial

/-- The labels are those of the dictionaries. -/
theorem labelled_bundle (h : StudyKept s) (hkept : ExportKept s e)
    (hall : ∀ row ∈ e.decisions, e.pseudonyms.get? row.userId ≠ none) :
    Labelled s e (e.bundle (s.researchIds e.wantedSessions)) where
  decisions := by rw [Export.bundle, List.map_map]; rfl
  annotations := by rw [Export.bundle, List.map_map]; rfl
  users := by
    rw [Export.bundle, List.map_map, List.forall₂_map_left_iff, List.forall₂_map_right_iff,
      List.forall₂_same]
    intro row hrow
    obtain ⟨pseudonym, hget⟩ := Option.ne_none_iff_exists'.mp (hall row hrow)
    exact ⟨pseudonym, hget, hkept.pseudonyms row.userId pseudonym hget⟩
  sessions := by
    have hsessions : (e.bundle (s.researchIds e.wantedSessions)).sessions
        = e.wantedSessions.map (s.researchIds e.wantedSessions).get? := by
      rw [Bundle.sessions, Export.bundle, Export.wantedSessions, List.map_append, List.map_map,
        List.map_map, List.map_map, List.map_map]
      rfl
    rw [hsessions, List.forall₂_map_right_iff, List.forall₂_same]
    intro sessionId _ researchId hget
    obtain ⟨session, hmem, heq⟩ := List.mem_map.mp (mem_of_get?_ofPairs hget)
    cases heq
    exact ⟨session, (h.sessions session (List.mem_filter.mp hmem).1).1, rfl, rfl⟩

theorem ExportKept.step (h : StudyKept s) (hkept : ExportKept s e)
    (hstep : e.step s next = some (s', e')) :
    StudyKept s' ∧ Grown s s' ∧ ExportKept s' e' := by
  have hsame : Grown s s := ⟨fun _ => id, fun _ => id, fun _ => id⟩
  have hhere := hkept.here
  cases hpc : e.pc with
  | decisions =>
      simp only [Export.step, hpc] at hstep
      cases hstep
      refine ⟨h, hsame, { hkept with decisions := fun row hrow => ?_, here := trivial }⟩
      obtain ⟨hmem, hreal⟩ := List.mem_filter.mp hrow
      exact h.real (h.decisions row hmem) (of_decide_eq_true hreal)
  | annotations =>
      simp only [Export.step, hpc] at hstep
      cases hstep
      refine ⟨h, hsame, { hkept with annotations := fun row hrow => ?_, here := trivial }⟩
      obtain ⟨hmem, hreal⟩ := List.mem_filter.mp hrow
      obtain ⟨session, hsession, hid⟩ := h.annotations row hmem
      refine ⟨session, (h.sessions session hsession).1, hid,
        h.real (h.sessions session hsession).2 fun hsim => ?_⟩
      have hsimulated : row.sessionId ∈ s.simSessions :=
        List.mem_map.mpr ⟨session, List.mem_filter.mpr ⟨hsession, decide_eq_true hsim⟩, hid⟩
      exact of_decide_eq_true hreal hsimulated
  | gold =>
      simp only [Export.step, hpc] at hstep
      cases hstep
      exact ⟨h, hsame, { hkept with here := trivial }⟩
  | mapping =>
      simp only [Export.step, hpc] at hstep
      cases hstep
      refine ⟨h, hsame,
        { hkept with pseudonyms := fun userId pseudonym hget => ?_, here := fun row hrow => ?_ }⟩
      · obtain ⟨row, hmem, heq⟩ := List.mem_map.mp (mem_of_get?_ofPairs hget)
        cases heq
        exact h.participants row (List.mem_filter.mp hmem).1
      · by_cases hnone : (s.pseudonyms e.wantedUsers).get? row.userId = none
        · refine Or.inl (List.mem_filter.mpr ⟨List.mem_dedup.mpr (List.mem_map_of_mem hrow), ?_⟩)
          exact decide_eq_true hnone
        · exact Or.inr hnone
  | missing users =>
      rw [hpc] at hhere
      simp only [Export.step, hpc] at hstep
      split at hstep
      · rename_i hnobody
        subst hnobody
        cases hstep
        have hlabelled := labelled_bundle h hkept fun row hrow =>
            (hhere row hrow).resolve_left List.not_mem_nil
        exact ⟨h, hsame, { hkept with
          here := ⟨hlabelled.decisions, hlabelled.annotations, hlabelled.users,
            hlabelled.sessions⟩ }⟩
      · split at hstep
        · split at hstep
          · rename_i row hfound
            cases hstep
            obtain rfl : row.userId = next := by simpa using List.find?_some hfound
            refine ⟨h, hsame,
              { hkept with pseudonyms := fun userId pseudonym hget => ?_, here := fun d hd => ?_ }⟩
            · rw [Dict.get?_set] at hget
              split at hget
              · rename_i heq
                cases hget
                exact heq ▸ h.participants row (List.mem_of_find?_eq_some hfound)
              · exact hkept.pseudonyms userId pseudonym hget
            · rw [Dict.get?_set]
              by_cases heq : d.userId = row.userId
              · rw [if_pos heq]
                exact Or.inr (Option.some_ne_none _)
              · rw [if_neg heq]
                exact (hhere d hd).imp_left fun hmem => (List.mem_erase_of_ne heq).mpr hmem
          · cases hstep
            refine ⟨h, hsame, { hkept with here := fun d hd => ?_ }⟩
            by_cases heq : d.userId = next
            · exact Or.inl heq
            · exact Or.inr ((hhere d hd).imp_left fun hmem => (List.mem_erase_of_ne heq).mpr hmem)
        · cases hstep
  | inserting user users =>
      rw [hpc] at hhere
      simp only [Export.step, hpc] at hstep
      split at hstep
      · rename_i s'' henrol
        cases hstep
        obtain ⟨hstudy, hgrown, hnamed⟩ := h.enrol henrol
        have hlater := hkept.grown hgrown
        refine ⟨hstudy, hgrown,
          { hlater with pseudonyms := fun userId pseudonym hget => ?_, here := fun d hd => ?_ }⟩
        · rw [Dict.get?_set] at hget
          split at hget
          · rename_i heq
            cases hget
            exact heq ▸ hnamed
          · exact hlater.pseudonyms userId pseudonym hget
        · rw [Dict.get?_set]
          by_cases heq : d.userId = user
          · rw [if_pos heq]
            exact Or.inr (Option.some_ne_none _)
          · rw [if_neg heq]
            exact (hhere d hd).resolve_left heq
      · cases hstep
        exact ⟨h, hsame, { hkept with here := trivial }⟩
  | built | raised => simp [Export.step, hpc] at hstep

end Exports

/-! ### Every run -/

structure Kept (w : World) : Prop where
  study : StudyKept w.study
  exports : ∀ e ∈ w.exports, ExportKept w.study e

variable {w w' : World}

theorem Kept.grown (h : Kept w) {study : Study} (hstudy : StudyKept study ∧ Grown w.study study) :
    Kept { w with study } :=
  ⟨hstudy.1, fun e he => (h.exports e he).grown hstudy.2⟩

theorem Kept.step {move : Move} (h : Kept w) (hstep : w.step move = some w') : Kept w' := by
  cases move with
  | signUp isSimulated =>
      cases hstep
      exact h.grown h.study.signUp
  | enrol userId =>
      obtain ⟨study, henrol, rfl⟩ := Option.map_eq_some_iff.mp hstep
      exact h.grown ⟨(h.study.enrol henrol).1, (h.study.enrol henrol).2.1⟩
  | openSession userId =>
      obtain ⟨study, hopen, rfl⟩ := Option.map_eq_some_iff.mp hstep
      exact h.grown (h.study.openSession hopen)
  | decide row =>
      obtain ⟨study, hdecide, rfl⟩ := Option.map_eq_some_iff.mp hstep
      exact h.grown (h.study.decide hdecide)
  | annotate row =>
      obtain ⟨study, hannotate, rfl⟩ := Option.map_eq_some_iff.mp hstep
      exact h.grown (h.study.annotate hannotate)
  | eraseUser userId =>
      cases hstep
      exact h.grown (h.study.eraseUser userId)
  | build =>
      cases hstep
      exact ⟨h.study, forall_mem_append h.exports exportKept_init⟩
  | query i next =>
      dsimp only [World.step] at hstep
      split at hstep
      · cases hstep
      · rename_i e hget
        obtain ⟨⟨study, e'⟩, hquery, rfl⟩ := Option.map_eq_some_iff.mp hstep
        obtain ⟨hstudy, hgrown, hkept⟩ := (h.exports e (mem_of_getElem? hget)).step h.study hquery
        exact ⟨hstudy,
          forall_mem_set (fun other hother => (h.exports other hother).grown hgrown) hkept⟩

end OnlinetLabs.Analytics.Reproducibility
