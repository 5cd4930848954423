import OnlinetLabs.Experiment.Finalizer
import OnlinetLabs.Lib.Distinct
import OnlinetLabs.Lib.Streaks

/-!
# The order of the rows

The finalization selects the events of a session without an `ORDER BY`. What it counts of them does
not depend on the order in which they come. The longest run of one error does, and it is meant in
the order of time.
-/

namespace OnlinetLabs.Experiment

open Sessions (LearningSession)
open Analytics (BehavioralEvent ControlArm)
open Progress (LabProgress)

variable {S : Type} [Zero S]

/-- The messages of the errors of a session, as the rows come. -/
def errorMessages (session : LearningSession) (events : List BehavioralEvent) :
    List (Option String) :=
  ((events.filter (·.sessionId = session.id)).filter (·.eventType = "error")).map (·.message)

/-- Whichever way the rows come, the metrics are the same and count the longest run of one error in
the order of time. -/
structure RowOrderIrrelevant (share : Nat → Nat → S) (session : LearningSession)
    (reads : FinalizerReads)
    (row : Option (LabProgress S)) (arm : ControlArm) (l2 : Bool) : Prop where
  same : ∀ events : List BehavioralEvent, events.Perm reads.events →
    experimentMetrics share session { reads with events := events } row arm l2
      = experimentMetrics share session reads row arm l2
  longest : ∀ events inOrder : List BehavioralEvent, events.Perm reads.events →
    inOrder.Perm reads.events →
    inOrder.Pairwise (fun e later => e.timestamp ≤ later.timestamp) →
    Streaks.IsLongest (errorMessages session inOrder)
      (experimentMetrics share session { reads with events := events } row arm l2).repeatedErrors

/-- No two errors have one message, or all have. -/
def OneRunAtMost (messages : List (Option String)) : Prop :=
  (∀ message, messages.count (some message) ≤ 1) ∨ ∃ message, ∀ m ∈ messages, m = some message

variable {share : Nat → Nat → S} {session : LearningSession} {reads : FinalizerReads}
  {row : Option (LabProgress S)}
  {arm : ControlArm} {l2 : Bool} {events events' : List BehavioralEvent}

theorem maxConsecutiveErrors_eq (errorEvents : List BehavioralEvent) :
    maxConsecutiveErrors errorEvents = Streaks.longest (errorEvents.map (·.message)) := by
  rw [Streaks.longest, List.foldl_map]
  rfl

theorem repeatedErrors_eq : (experimentMetrics share session reads row arm l2).repeatedErrors
    = Streaks.longest (errorMessages session reads.events) :=
  maxConsecutiveErrors_eq _

theorem errorMessages_perm (h : events.Perm events') :
    (errorMessages session events).Perm (errorMessages session events') :=
  ((h.filter _).filter _).map _

/-- Every order of the messages is one of some order of the rows. -/
theorem exists_perm_errorMessages {messages : List (Option String)}
    (h : messages.Perm (errorMessages session events)) :
    ∃ events', events'.Perm events ∧ errorMessages session events' = messages := by
  let isError : BehavioralEvent → Bool := fun e => decide (e.eventType = "error")
      && decide (e.sessionId = session.id)
  have hmessages : ∀ events,
      errorMessages session events = (events.filter isError).map (·.message) := by
    intro events
    rw [errorMessages, List.filter_filter]
  rw [hmessages] at h
  obtain ⟨errors, rfl, herrors⟩ :=
    (congrFun (congrFun (List.eq_map_comp_perm (·.message)) messages) (events.filter isError)).mpr h
  refine ⟨errors ++ events.filter fun e => !isError e, ?_, ?_⟩
  · exact (herrors.append_right _).trans (List.filter_append_perm _ _)
  · have hall : errors.filter isError = errors :=
      List.filter_eq_self.mpr fun e he => (List.mem_filter.mp (herrors.subset he)).2
    have hnone : (events.filter fun e => !isError e).filter isError = [] := by
      simp [List.filter_filter]
    rw [hmessages, List.filter_append, hall, hnone, List.append_nil]

/-- What is counted is the same in every order. -/
theorem experimentMetrics_perm (h : events.Perm reads.events)
    (hruns : Streaks.longest (errorMessages session events)
      = Streaks.longest (errorMessages session reads.events)) :
    experimentMetrics share session { reads with events := events } row arm l2
      = experimentMetrics share session reads row arm l2 := by
  have hsession :
      (events.filter (·.sessionId = session.id)).Perm
        (reads.events.filter (·.sessionId = session.id)) :=
    h.filter _
  have hcount : ∀ p : BehavioralEvent → Bool,
      ((events.filter (·.sessionId = session.id)).filter p).length
        = ((reads.events.filter (·.sessionId = session.id)).filter p).length :=
    fun p => (hsession.filter p).length_eq
  have hsucceeded :=
    (((hsession.filter (·.eventType = "intervention")).filter (·.success))).length_eq
  have htypes := (Distinct.eraseDups_perm
    (((hsession.filter (·.eventType = "error")).filterMap (·.message)).filter (· ≠ ""))).length_eq
  have hruns' :
      maxConsecutiveErrors
      ((events.filter (·.sessionId = session.id)).filter (·.eventType = "error"))
      = maxConsecutiveErrors ((reads.events.filter (·.sessionId = session.id)).filter
        (·.eventType = "error")) := by
    rw [maxConsecutiveErrors_eq, maxConsecutiveErrors_eq]
    exact hruns
  simp only [experimentMetrics, computeSessionMetrics, hcount, hsucceeded, htypes, hruns']

/-- **When the order of the rows does not matter.** -/
theorem rowOrderIrrelevant_iff (share : Nat → Nat → S) (session : LearningSession)
    (reads : FinalizerReads)
    (row : Option (LabProgress S)) (arm : ControlArm) (l2 : Bool) :
    RowOrderIrrelevant share session reads row arm l2
      ↔ OneRunAtMost (errorMessages session reads.events) := by
  rw [OneRunAtMost, ← Streaks.forall_perm_longest_iff]
  constructor
  · intro h messages hperm
    obtain ⟨events, hevents, rfl⟩ := exists_perm_errorMessages hperm
    have hsame := congrArg (fun metrics => metrics.repeatedErrors) (h.same events hevents)
    simpa only [repeatedErrors_eq] using hsame
  · intro h
    have hruns : ∀ events : List BehavioralEvent, events.Perm reads.events →
        Streaks.longest (errorMessages session events)
          = Streaks.longest (errorMessages session reads.events) :=
      fun events hevents => h _ (errorMessages_perm hevents)
    refine ⟨fun events hevents => experimentMetrics_perm hevents (hruns events hevents), ?_⟩
    intro events inOrder hevents hinOrder _
    rw [repeatedErrors_eq]
    dsimp only
    rw [hruns events hevents, ← hruns inOrder hinOrder]
    exact Streaks.isLongest_longest _

/-! ### An error between two of another kind -/

def studiedSession : LearningSession where
  id := 0
  userId := "ann"
  labSlug := "ospf-1"
  status := .ended
  startedAt := 0
  endedAt := some 60
  expiresAt := none
  metaJson := none

def errorRow (timestamp : Nat) (message : String) : BehavioralEvent where
  sessionId := 0
  userId := "ann"
  labSlug := "ospf-1"
  timestamp := timestamp
  eventType := "error"
  componentId := none
  action := "log"
  success := false
  severity := some "error"
  message := some message
  extraData := none

def threeErrors : FinalizerReads where
  events := [errorRow 1 "duplex mismatch", errorRow 2 "no route", errorRow 3 "duplex mismatch"]
  user := none
  spec := none
  labSteps := []
  l2InterventionCap := 0
  now := 60

/-- **One error is repeated or not, as the rows come.** -/
theorem not_rowOrderIrrelevant_threeErrors :
    ¬RowOrderIrrelevant (fun part whole => 1000 * part / whole) studiedSession threeErrors none
      .closed false := by
  intro h
  have hperm :
      [errorRow 1 "duplex mismatch", errorRow 3 "duplex mismatch", errorRow 2 "no route"].Perm
      threeErrors.events :=
    (List.Perm.swap _ _ _).cons _
  have hrepeated := congrArg (fun metrics => metrics.repeatedErrors) (h.same _ hperm)
  revert hrepeated
  decide +kernel

end OnlinetLabs.Experiment
