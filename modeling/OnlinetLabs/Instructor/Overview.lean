import Mathlib.Algebra.Ring.Nat
import Mathlib.Data.Rat.Floor
import Mathlib.Data.String.Basic
import OnlinetLabs.Lib.GroupBy
import OnlinetLabs.Lib.Paging
import OnlinetLabs.Lib.Rounding
import OnlinetLabs.Sessions.Models

/-!
# The instructor's dashboard

The overview of all students is computed by a few grouped queries over all of them, and the card of
one student by queries for that student. What both show of a student is the same, but for an average
of scores that do not add up: it is a sum of doubles in the order of the rows, and the database is
free in the order of groups and of rows it was not asked to sort.
-/

namespace OnlinetLabs.Instructor

open Sessions (UserId SessionId Slug)
open GroupBy (Order answer ofPairs members)
open Rounding (AddsUp binary64 floatSum roundHalfEven)

variable {K : Type} [Field K] [LinearOrder K] [FloorRing K] {ι : Type} [LinearOrder ι]

structure User where
  id : UserId
  name : String
  email : String
  role : String
deriving Repr, DecidableEq

structure LabProgress (K : Type) where
  userId : UserId
  labSlug : Slug
  status : String
  score : Option K
  currentStep : Option Nat
  startedAt : Option Nat
  completedAt : Option Nat
  updatedAt : Nat

structure BehavioralEvent where
  userId : UserId
  sessionId : SessionId
  labSlug : Slug
  eventType : String
deriving Repr, DecidableEq

structure LearningSession where
  id : SessionId
  userId : UserId
  labSlug : Slug
  status : String
  startedAt : Nat
  endedAt : Option Nat
deriving Repr, DecidableEq

structure StepAttempt where
  userId : UserId
  labSlug : Slug
deriving Repr, DecidableEq

structure Lab where
  slug : Slug
  title : String
deriving Repr, DecidableEq

/-- The ids are primary keys, and of a message only its session is read. -/
structure Database (K : Type) where
  users : List User
  progress : List (LabProgress K)
  events : List BehavioralEvent
  sessions : List LearningSession
  attempts : List StepAttempt
  messages : List SessionId
  labs : List Lab
  userIds : (users.map (·.id)).Nodup
  sessionIds : (sessions.map (·.id)).Nodup

def hintEventType : String := "intervention"

/-- What a query leaves to the database. -/
structure Engine (K : Type) (name : User → ι) where
  users : Paging.OrderBy name
  progress : Paging.OrderBy fun row : LabProgress K => OrderDual.toDual row.updatedAt
  sessions : Paging.OrderBy fun row : LearningSession => OrderDual.toDual row.startedAt
  unsorted : List (LabProgress K) → List (LabProgress K)
  perm : ∀ rows, (unsorted rows).Perm rows
  events : Order BehavioralEvent UserId
  eventLabs : Order BehavioralEvent Slug
  grouped : Order LearningSession UserId
  groupedLabs : Order LearningSession Slug
  attemptLabs : Order StepAttempt Slug
  messageSessions : Order SessionId SessionId
  eventSessions : Order BehavioralEvent SessionId

/-- Every query answered in the order of the tables. -/
def Engine.inserted (name : User → ι) : Engine K name where
  users := .inserted name
  progress := .inserted _
  sessions := .inserted _
  unsorted rows := rows
  perm rows := List.Perm.refl rows
  events := .distinct
  eventLabs := .distinct
  grouped := .distinct
  groupedLabs := .distinct
  attemptLabs := .distinct
  messageSessions := .distinct
  eventSessions := .distinct

/-- What is free in an order answered the other way round. -/
def Engine.backwards {name : User → ι} (e : Engine K name) : Engine K name where
  users := e.users.backwards
  progress := e.progress.backwards
  sessions := e.sessions.backwards
  unsorted rows := (e.unsorted rows).reverse
  perm rows := (List.reverse_perm _).trans (e.perm rows)
  events := e.events.backwards
  eventLabs := e.eventLabs.backwards
  grouped := e.grouped.backwards
  groupedLabs := e.groupedLabs.backwards
  attemptLabs := e.attemptLabs.backwards
  messageSessions := e.messageSessions.backwards
  eventSessions := e.eventSessions.backwards

/-- `round(x, 2)` -/
def round2 (x : K) : K := binary64 ((roundHalfEven (x * 100) : K) / 100)

def avg (scores : List K) : Option K :=
  if scores = [] then none else some (round2 (binary64 (floatSum scores / scores.length)))

/-- The same scores in two orders. -/
example : avg [binary64 (81.8 : ℚ), 70, binary64 58.3, binary64 28.6] = some (binary64 59.68)
    ∧ avg [binary64 (28.6 : ℚ), binary64 81.8, binary64 58.3, 70] = some (binary64 59.67) := by
      decide +kernel

/-! ### The overview -/

structure Totals (K : Type) where
  completed : Dict UserId Nat := {}
  inProgress : Dict UserId Nat := {}
  totalLabs : Dict UserId Nat := {}
  scores : Dict UserId (List K) := {}

def Totals.add (totals : Totals K) (row : LabProgress K) : Totals K where
  totalLabs := GroupBy.count LabProgress.userId totals.totalLabs row
  completed :=
    if row.status = "completed" then GroupBy.count LabProgress.userId totals.completed row
    else totals.completed
  inProgress :=
    if row.status = "completed" then totals.inProgress
    else if row.status = "in_progress" then GroupBy.count LabProgress.userId totals.inProgress row
    else totals.inProgress
  scores :=
    match row.score with
    | none => totals.scores
    | some score =>
        totals.scores.set row.userId ((totals.scores.get? row.userId).getD [] ++ [score])

structure StudentRow (K : Type) where
  userId : UserId
  name : String
  email : String
  labsTotal : Nat
  labsCompleted : Nat
  labsInProgress : Nat
  avgScore : Option K
  totalHints : Nat
  totalSessions : Nat
  lastActiveAt : Option Nat

structure StudentsOverview (K : Type) where
  students : List (StudentRow K)
  totalStudents : Nat
  totalHints : Nat

variable {name : User → ι} (e : Engine K name) (db : Database K)

/-- The row of a student, read off the dictionaries. -/
def studentRow (totals : Totals K) (hints sessions : Dict UserId Nat)
    (lastActive : Dict UserId (Option Nat))
    (s : User) : StudentRow K where
  userId := s.id
  name := s.name
  email := s.email
  labsTotal := (totals.totalLabs.get? s.id).getD 0
  labsCompleted := (totals.completed.get? s.id).getD 0
  labsInProgress := (totals.inProgress.get? s.id).getD 0
  avgScore := avg ((totals.scores.get? s.id).getD [])
  totalHints := (hints.get? s.id).getD 0
  totalSessions := (sessions.get? s.id).getD 0
  lastActiveAt := (lastActive.get? s.id).join

def getStudentsOverview : StudentsOverview K :=
  let students := e.users.arrange (db.users.filter fun user => decide (user.role = "student"))
  if students = [] then ⟨[], 0, 0⟩
  else
    let userIds := students.map (·.id)
    let totals :=
      (e.unsorted (db.progress.filter fun row => decide (row.userId ∈ userIds))).foldl Totals.add {}
    let hints := ofPairs (answer e.events BehavioralEvent.userId List.length
      (db.events.filter fun event => decide (event.userId ∈ userIds)
        && decide (event.eventType = hintEventType)))
    let sessionsResult := answer e.grouped LearningSession.userId
      (fun rows => (rows.length, (rows.map (·.startedAt)).max?))
      (db.sessions.filter fun session => decide (session.userId ∈ userIds))
    let sessions := ofPairs (sessionsResult.map fun entry => (entry.1, entry.2.1))
    let lastActive := ofPairs (sessionsResult.map fun entry => (entry.1, entry.2.2))
    { students := students.map (studentRow totals hints sessions lastActive)
      totalStudents := students.length
      totalHints := (hints.entries.map Prod.snd).sum }

/-! ### The card of a student -/

structure LabCard (K : Type) where
  labSlug : Slug
  labTitle : String
  status : String
  score : Option K
  currentStep : Option Nat
  hints : Nat
  sessions : Nat
  attempts : Nat
  startedAt : Option Nat
  completedAt : Option Nat
  lastActiveAt : Option Nat

structure SessionCard where
  sessionId : SessionId
  labSlug : Slug
  labTitle : String
  status : String
  startedAt : Nat
  endedAt : Option Nat
  messageCount : Nat
  hintCount : Nat
deriving Repr, DecidableEq

structure StudentDetail (K : Type) where
  userId : UserId
  name : String
  email : String
  role : String
  labsCompleted : Nat
  labsInProgress : Nat
  avgScore : Option K
  totalHints : Nat
  totalSessions : Nat
  labs : List (LabCard K)
  sessions : List SessionCard

def getStudentDetail (userId : UserId) : Option (StudentDetail K) :=
  match db.users.find? fun user => decide (user.id = userId) with
  | none => none
  | some user =>
      let progressRows :=
        e.progress.arrange (db.progress.filter fun row => decide (row.userId = userId))
      let ownHints := db.events.filter fun event =>
        decide (event.userId = userId) && decide (event.eventType = hintEventType)
      let hintsByLab := ofPairs (answer e.eventLabs BehavioralEvent.labSlug List.length ownHints)
      let ownSessions := db.sessions.filter fun session => decide (session.userId = userId)
      let sessionsResult := answer e.groupedLabs LearningSession.labSlug
        (fun rows => (rows.length, (rows.map (·.startedAt)).max?)) ownSessions
      let sessionsByLab := ofPairs (sessionsResult.map fun entry => (entry.1, entry.2.1))
      let lastActiveByLab := ofPairs (sessionsResult.map fun entry => (entry.1, entry.2.2))
      let attemptsByLab := ofPairs (answer e.attemptLabs StepAttempt.labSlug List.length
        (db.attempts.filter fun attempt => decide (attempt.userId = userId)))
      let msgCounts := ofPairs (answer e.messageSessions id List.length
        (db.messages.filter fun message => decide (message ∈ ownSessions.map (·.id))))
      let hintCounts :=
        ofPairs (answer e.eventSessions BehavioralEvent.sessionId List.length ownHints)
      let sessionRows := e.sessions.arrange ownSessions
      let title := fun slug =>
          ((db.labs.find? fun lab => decide (lab.slug = slug)).map (·.title)).getD slug
      let scores := progressRows.filterMap (·.score)
      some
        { userId := user.id
          name := user.name
          email := user.email
          role := user.role
          labsCompleted := progressRows.countP fun p => decide (p.status = "completed")
          labsInProgress := progressRows.countP fun p => decide (p.status = "in_progress")
          avgScore := avg scores
          totalHints := (hintsByLab.entries.map Prod.snd).sum
          totalSessions := (sessionsByLab.entries.map Prod.snd).sum
          labs := progressRows.map fun p =>
            { labSlug := p.labSlug
              labTitle := title p.labSlug
              status := p.status
              score := p.score
              currentStep := p.currentStep
              hints := (hintsByLab.get? p.labSlug).getD 0
              sessions := (sessionsByLab.get? p.labSlug).getD 0
              attempts := (attemptsByLab.get? p.labSlug).getD 0
              startedAt := p.startedAt
              completedAt := p.completedAt
              lastActiveAt := (lastActiveByLab.get? p.labSlug).join }
          sessions := sessionRows.map fun s =>
            { sessionId := s.id
              labSlug := s.labSlug
              labTitle := title s.labSlug
              status := s.status
              startedAt := s.startedAt
              endedAt := s.endedAt
              messageCount := (msgCounts.get? s.id).getD 0
              hintCount := (hintCounts.get? s.id).getD 0 } }

/-! ### What the queries find -/

variable {e db} {e' : Engine K name} {userId : UserId} {rows : List (LabProgress K)}
  {userIds : List UserId}

omit [Field K] [LinearOrder K] [FloorRing K] in
theorem totals_eq (rows : List (LabProgress K)) (userId : UserId) :
    ((rows.foldl Totals.add {}).totalLabs.get? userId).getD 0
      = (members LabProgress.userId rows userId).length
      ∧ ((rows.foldl Totals.add {}).completed.get? userId).getD 0
        = (members LabProgress.userId rows userId).countP (fun p => decide (p.status = "completed"))
      ∧ ((rows.foldl Totals.add {}).inProgress.get? userId).getD 0
        = (members LabProgress.userId rows userId).countP
          (fun p => decide (p.status = "in_progress"))
      ∧ ((rows.foldl Totals.add {}).scores.get? userId).getD []
        = (members LabProgress.userId rows userId).filterMap (·.score) := by
  induction rows using List.reverseRecOn with
  | nil => exact ⟨rfl, rfl, rfl, rfl⟩
  | append_singleton rows row ih =>
      obtain ⟨htotal, hcompleted, hprogress, hscores⟩ := ih
      rw [List.foldl_append, List.foldl_cons, List.foldl_nil]
      by_cases howner : row.userId = userId
      · have hmembers : members LabProgress.userId (rows ++ [row]) userId
            = members LabProgress.userId rows userId ++ [row] := by simp [members, howner]
        rw [hmembers]
        refine ⟨?_, ?_, ?_, ?_⟩
        · simp [Totals.add, GroupBy.count, Dict.get?_set, howner, htotal]
        · by_cases hdone : row.status = "completed"
          · simp [Totals.add, GroupBy.count, Dict.get?_set, howner, hdone, hcompleted]
          · simp [Totals.add, hdone, hcompleted]
        · by_cases hdone : row.status = "completed"
          · simp [Totals.add, hdone, hprogress]
          · by_cases hopen : row.status = "in_progress"
            · simp [Totals.add, GroupBy.count, Dict.get?_set, howner, hopen, hprogress]
            · simp [Totals.add, hdone, hopen, hprogress]
        · cases hscore : row.score with
          | none => simp [Totals.add, hscore, hscores]
          | some score => simp [Totals.add, hscore, Dict.get?_set, howner, hscores]
      · have hmembers :
            members LabProgress.userId (rows ++ [row]) userId
            = members LabProgress.userId rows userId := by
          simp [members, howner]
        have hother : userId ≠ row.userId := Ne.symm howner
        rw [hmembers]
        refine ⟨?_, ?_, ?_, ?_⟩
        · simp [Totals.add, GroupBy.count, Dict.get?_set, hother, htotal]
        · by_cases hdone : row.status = "completed" <;>
            simp [Totals.add, GroupBy.count, Dict.get?_set, hother, hdone, hcompleted]
        · by_cases hdone : row.status = "completed" <;> by_cases hopen : row.status
            = "in_progress" <;>
            simp [Totals.add, GroupBy.count, Dict.get?_set, hother, hdone, hopen, hprogress]
        · cases hscore : row.score with
          | none => simp [Totals.add, hscore, hscores]
          | some score => simp [Totals.add, hscore, Dict.get?_set, hother, hscores]

/-- A query for many users finds the rows of each. -/
theorem members_filter_mem {α : Type} {key : α → UserId} (h : userId ∈ userIds) (rows : List α) :
    members key (rows.filter fun row => decide (key row ∈ userIds)) userId
      = members key rows userId := by
  rw [GroupBy.members_filter, List.filter_eq_self]
  intro row hrow
  rw [(GroupBy.mem_members.mp hrow).2]
  exact decide_eq_true h

theorem max?_perm {times times' : List Nat} (h : times.Perm times') : times.max? = times'.max? := by
  cases hmax : times.max? with
  | none =>
      rw [List.max?_eq_none_iff] at hmax
      subst hmax
      rw [h.nil_eq.symm]
      rfl
  | some t =>
      symm
      rw [List.max?_eq_some_iff] at hmax ⊢
      exact ⟨h.mem_iff.mp hmax.1, fun b hb => hmax.2 b (h.mem_iff.mpr hb)⟩

omit [Field K] [LinearOrder K] [FloorRing K] in
theorem find?_user {user : User} (h : user ∈ db.users) :
    (db.users.find? fun other => decide (other.id = user.id)) = some user := by
  cases hfind : db.users.find? fun other => decide (other.id = user.id) with
  | none => exact absurd (List.find?_eq_none.mp hfind user h) (by simp)
  | some other =>
      have hid : other.id = user.id := by simpa using List.find?_some hfind
      rw [List.inj_on_of_nodup_map db.userIds (List.mem_of_find?_eq_some hfind) h hid]

/-- Of a pair of aggregates each is an answer of its own. -/
theorem answer_map {α κ β γ : Type} [DecidableEq κ] (order : Order α κ) (key : α → κ)
    (agg : List α → β) (f : β → γ)
    (rows : List α) :
    (answer order key agg rows).map (fun entry => (entry.1, f entry.2))
      = answer order key (fun rows => f (agg rows)) rows := by
  simp [answer]

/-! ### The two agree -/

structure Summary where
  labsTotal : Nat
  labsCompleted : Nat
  labsInProgress : Nat
  totalHints : Nat
  totalSessions : Nat
  lastActiveAt : Option Nat
deriving Repr, DecidableEq

def StudentRow.summary (row : StudentRow K) : Summary :=
  ⟨row.labsTotal, row.labsCompleted, row.labsInProgress, row.totalHints, row.totalSessions,
    row.lastActiveAt⟩

def StudentDetail.summary (detail : StudentDetail K) : Summary :=
  ⟨detail.labs.length, detail.labsCompleted, detail.labsInProgress, detail.totalHints,
    detail.totalSessions, (detail.sessions.map (·.startedAt)).max?⟩

def ownHints (db : Database K) (userId : UserId) : List BehavioralEvent :=
  members BehavioralEvent.userId
    (db.events.filter fun event => decide (event.eventType = hintEventType)) userId

def Database.summary (db : Database K) (userId : UserId) : Summary :=
  let progress := members LabProgress.userId db.progress userId
  let sessions := members LearningSession.userId db.sessions userId
  { labsTotal := progress.length
    labsCompleted := progress.countP fun p => decide (p.status = "completed")
    labsInProgress := progress.countP fun p => decide (p.status = "in_progress")
    totalHints := (ownHints db userId).length
    totalSessions := sessions.length
    lastActiveAt := (sessions.map (·.startedAt)).max? }

def ownScores (db : Database K) (userId : UserId) : List K :=
  (members LabProgress.userId db.progress userId).filterMap (·.score)

/-- The average of a student's scores, taken in some order. -/
def IsAverage (db : Database K) (userId : UserId) (average : Option K) : Prop :=
  ∃ scores, scores.Perm (ownScores db userId) ∧ average = avg scores

theorem IsAverage.unique {average average' : Option K} (h : IsAverage db userId average)
    (h' : IsAverage db userId average') (hadds : AddsUp (ownScores db userId)) :
    average = average' := by
  obtain ⟨scores, hperm, rfl⟩ := h
  obtain ⟨scores', hperm', rfl⟩ := h'
  have hsame : scores.Perm scores' := hperm.trans hperm'.symm
  have hnil : scores = [] ↔ scores' = [] :=
    ⟨fun hnone => (hnone ▸ hsame).nil_eq.symm, fun hnone => (hnone ▸ hsame).eq_nil⟩
  unfold avg
  rw [hadds scores hperm, hadds scores' hperm', hsame.length_eq]
  simp only [hnil]

theorem summary_detail (e : Engine K name) {user : User} (h : user ∈ db.users) :
    ∃ detail, getStudentDetail e db user.id = some detail ∧ detail.name = user.name
      ∧ detail.email = user.email
      ∧ detail.sessions.length = detail.totalSessions ∧ detail.summary = db.summary user.id
      ∧ IsAverage db user.id detail.avgScore := by
  have hprogress :=
    (e.progress.listing (db.progress.filter fun row => decide (row.userId = user.id))).perm
  have hsessions :=
    (e.sessions.listing (db.sessions.filter fun session => decide (session.userId = user.id))).perm
  have hhints : ownHints db user.id = db.events.filter fun event =>
      decide (event.userId = user.id) && decide (event.eventType = hintEventType) := by
    rw [ownHints, members, List.filter_filter]
  have htotal : ∀ rows : List LearningSession,
      ((ofPairs ((answer e.groupedLabs LearningSession.labSlug
        (fun rows => (rows.length, (rows.map (·.startedAt)).max?)) rows).map
        fun entry => (entry.1, entry.2.1))).entries.map Prod.snd).sum = rows.length := by
    intro rows
    rw [answer_map e.groupedLabs LearningSession.labSlug _ Prod.fst]
    exact GroupBy.sum_counts e.groupedLabs
  unfold getStudentDetail
  rw [find?_user h]
  refine ⟨_, rfl, rfl, rfl, ?_, ?_, _, hprogress.filterMap _, rfl⟩
  · simp only [List.length_map, htotal]
    exact hsessions.length_eq
  · simp only [StudentDetail.summary, Database.summary, List.length_map, List.map_map,
      htotal, hhints, GroupBy.sum_counts, hprogress.length_eq, hprogress.countP_eq]
    rw [Summary.mk.injEq]
    exact ⟨rfl, rfl, rfl, rfl, rfl, max?_perm (hsessions.map _)⟩

omit [Field K] [LinearOrder K] [FloorRing K] in
theorem perm_members_unsorted (e : Engine K name) (db : Database K) (huser : userId ∈ userIds) :
    (members LabProgress.userId
      (e.unsorted (db.progress.filter fun row => decide (row.userId ∈ userIds))) userId).Perm
        (members LabProgress.userId db.progress userId) := by
  rw [← members_filter_mem huser db.progress]
  exact GroupBy.members_perm (e.perm _)

theorem isAverage_row (e : Engine K name) (db : Database K) {user : User}
    (huser : user.id ∈ userIds)
    (hints sessions : Dict UserId Nat) (lastActive : Dict UserId (Option Nat)) :
    IsAverage db user.id (studentRow
      ((e.unsorted (db.progress.filter fun row => decide (row.userId ∈ userIds))).foldl
        Totals.add {})
      hints sessions lastActive user).avgScore := by
  obtain ⟨-, -, -, hscores⟩ :=
    totals_eq (e.unsorted (db.progress.filter fun row => decide (row.userId ∈ userIds))) user.id
  exact ⟨_, (perm_members_unsorted e db huser).filterMap _, congrArg avg hscores⟩

theorem summary_row (e : Engine K name) (db : Database K) {user : User}
    (huser : user.id ∈ userIds) :
    (studentRow
      ((e.unsorted (db.progress.filter fun row => decide (row.userId ∈ userIds))).foldl
        Totals.add {})
      (ofPairs (answer e.events BehavioralEvent.userId List.length
        (db.events.filter fun event => decide (event.userId ∈ userIds)
          && decide (event.eventType = hintEventType))))
      (ofPairs ((answer e.grouped LearningSession.userId
        (fun rows => (rows.length, (rows.map (·.startedAt)).max?))
        (db.sessions.filter fun session => decide (session.userId ∈ userIds))).map fun entry =>
          (entry.1, entry.2.1)))
      (ofPairs ((answer e.grouped LearningSession.userId
        (fun rows => (rows.length, (rows.map (·.startedAt)).max?))
        (db.sessions.filter fun session => decide (session.userId ∈ userIds))).map fun entry =>
          (entry.1, entry.2.2)))
      user).summary = db.summary user.id := by
  obtain ⟨htotal, hcompleted, hprogress, -⟩ :=
    totals_eq (e.unsorted (db.progress.filter fun row => decide (row.userId ∈ userIds))) user.id
  have hperm := perm_members_unsorted e db huser
  have hhints : members BehavioralEvent.userId (db.events.filter fun event =>
      decide (event.userId ∈ userIds) && decide (event.eventType = hintEventType)) user.id
        = ownHints db user.id := by
    rw [← List.filter_filter, members_filter_mem huser]
    rfl
  have hsessions : members LearningSession.userId (db.sessions.filter fun session =>
      decide (session.userId ∈ userIds)) user.id
        = members LearningSession.userId db.sessions user.id :=
    members_filter_mem huser db.sessions
  simp only [StudentRow.summary, studentRow, Database.summary, htotal, hcompleted, hprogress]
  rw [answer_map e.grouped LearningSession.userId _ Prod.fst,
    answer_map e.grouped LearningSession.userId _ Prod.snd]
  rw [Summary.mk.injEq]
  refine ⟨hperm.length_eq, hperm.countP_eq _, hperm.countP_eq _, ?_, ?_, ?_⟩
  · exact (GroupBy.getD_answer e.events List.length).trans (congrArg List.length hhints)
  · exact (GroupBy.getD_answer e.grouped List.length).trans (congrArg List.length hsessions)
  · rw [GroupBy.get?_answer, hsessions]
    by_cases hnone : members LearningSession.userId db.sessions user.id = []
    · rw [if_pos hnone, hnone]
      rfl
    · rw [if_neg hnone]
      rfl

/-- What a row of the overview and a card have in common. -/
structure Agree (db : Database K) (row : StudentRow K) (detail : StudentDetail K) : Prop where
  name : row.name = detail.name
  email : row.email = detail.email
  summary : row.summary = detail.summary
  sessions : row.totalSessions = detail.sessions.length
  averages : IsAverage db row.userId row.avgScore ∧ IsAverage db row.userId detail.avgScore
  avgScore : AddsUp (ownScores db row.userId) → row.avgScore = detail.avgScore

/-- **The overview is the cards.** It has one row for each student; what it says of a student is
what the student's card says, and its totals are those of its rows, in whatever order the database
answers either of them. -/
theorem overview_agrees {name : User → ι} (e e' : Engine K name) (db : Database K) :
    ((getStudentsOverview e db).students.map (·.userId)).Perm
        ((db.users.filter fun user => decide (user.role = "student")).map (·.id))
      ∧ (getStudentsOverview e db).totalStudents = (getStudentsOverview e db).students.length
      ∧ (getStudentsOverview e db).totalHints
        = ((getStudentsOverview e db).students.map (·.totalHints)).sum
      ∧ ∀ row ∈ (getStudentsOverview e db).students, ∃ detail,
          getStudentDetail e' db row.userId = some detail ∧ Agree db row detail := by
  have hlisting :=
    (e.users.listing (db.users.filter fun user => decide (user.role = "student"))).perm
  unfold getStudentsOverview
  dsimp only
  split
  · rename_i hnone
    rw [hnone] at hlisting
    rw [hlisting.nil_eq.symm]
    exact ⟨List.Perm.nil, rfl, rfl, nofun⟩
  · refine ⟨?_, ?_, ?_, ?_⟩
    · rw [List.map_map]
      exact hlisting.map _
    · exact (List.length_map _).symm
    · have hnodup :
          ((e.users.arrange (db.users.filter fun user => decide (user.role = "student"))).map
            (·.id)).Nodup :=
        (hlisting.map _).nodup_iff.mpr (db.userIds.sublist (List.filter_sublist.map _))
      rw [GroupBy.sum_counts_eq e.events hnodup fun event hevent => ?_, List.map_map, List.map_map]
      · rfl
      · exact of_decide_eq_true (Bool.and_eq_true_iff.mp (List.mem_filter.mp hevent).2).1
    · intro row hrow
      obtain ⟨user, huser, rfl⟩ := List.mem_map.mp hrow
      have hstored : user ∈ db.users := (List.mem_filter.mp (hlisting.mem_iff.mp huser)).1
      obtain ⟨detail, hdetail, hname, hemail, hsessions, hsummary, haverage⟩ :=
        summary_detail e' hstored
      have hlisted := List.mem_map_of_mem (f := (·.id)) huser
      have hsame := (summary_row e db hlisted).trans hsummary.symm
      have haverage' := isAverage_row e db hlisted
      exact ⟨detail, hdetail, hname.symm, hemail.symm, hsame,
        (congrArg Summary.totalSessions hsame).trans hsessions.symm, ⟨haverage' _ _ _, haverage⟩,
        (haverage' _ _ _).unique haverage⟩

/-- Two students of one name, the first with four scores that do not add up. -/
def twoStudents : Database ℚ where
  users := [⟨"u1", "Ann", "ann@lab", "student"⟩, ⟨"u2", "Ann", "other@lab", "student"⟩,
    ⟨"u3", "Eve", "eve@lab", "instructor"⟩]
  progress := [⟨"u1", "vlan", "completed", some (binary64 81.8), none, some 1, some 9, 20⟩,
    ⟨"u2", "vlan", "in_progress", none, some 2, some 5, none, 21⟩,
    ⟨"u1", "dhcp", "completed", some 70, none, some 10, some 12, 22⟩,
    ⟨"u1", "nat", "in_progress", some (binary64 58.3), some 3, some 13, none, 23⟩,
    ⟨"u1", "acl", "in_progress", some (binary64 28.6), some 1, some 14, none, 24⟩]
  events := [⟨"u1", 1, "vlan", "intervention"⟩, ⟨"u1", 3, "nat", "intervention"⟩,
    ⟨"u2", 2, "vlan", "step"⟩]
  sessions := [⟨1, "u1", "vlan", "ended", 1, some 9⟩, ⟨2, "u2", "vlan", "active", 5, none⟩,
    ⟨3, "u1", "nat", "active", 13, none⟩]
  attempts := [⟨"u1", "vlan"⟩, ⟨"u1", "vlan"⟩]
  messages := [1, 3, 3]
  labs := [⟨"vlan", "VLANs"⟩, ⟨"nat", "NAT"⟩]
  userIds := by decide
  sessionIds := by decide

def listed : Engine ℚ User.name := .inserted User.name

theorem overview_agrees_twoStudents :
    (getStudentsOverview listed twoStudents).students.map (·.summary)
        = [⟨4, 2, 2, 2, 2, some 13⟩, ⟨1, 0, 1, 0, 1, some 5⟩]
      ∧ ∀ row ∈ (getStudentsOverview listed twoStudents).students, ∃ detail,
          getStudentDetail listed.backwards twoStudents row.userId = some detail
            ∧ Agree twoStudents row detail :=
  ⟨by decide +kernel, (overview_agrees _ _ twoStudents).2.2.2⟩

/-- Of the first of them the overview and the card show different averages. -/
example :
    (getStudentsOverview listed twoStudents).students.map (·.avgScore)
      = [some (binary64 (59.68 : ℚ)), none]
      ∧ (getStudentDetail listed.backwards twoStudents "u1").bind StudentDetail.avgScore
        = some (binary64 (59.67 : ℚ)) := by decide +kernel

end OnlinetLabs.Instructor
