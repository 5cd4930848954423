import Mathlib.Data.Rat.Floor
import OnlinetLabs.Analytics.ProcessState

/-!
# The loop in its own window

Three kinds of rows in `behavioral_events` are written by the platform and not by the student. The
query that loads the window leaves out one of them. The other two count as events, as one more
action name, as one more component, and they break a run of failing checks.

The sort is stable, so filtering a history and sorting it commute. If the newest five hundred rows
contain no row of the two kinds, they are the newest five hundred rows of the student, and
everything computed from them is the same. If there are fewer than five hundred rows of the student,
one row of the two kinds is already seen in the total.
-/


namespace OnlinetLabs.Analytics

open Sessions (SessionId)

variable {K : Type} [Field K] [LinearOrder K] [FloorRing K] {rows rows' : List BehavioralEvent}
  {sessionId : SessionId} {lastEventAt : Option Nat}

/-- The rows that `_log_would_intervene` and `record_escalation` write. -/
def BehavioralEvent.selfObserved (e : BehavioralEvent) : Bool :=
  e.eventType == "would_intervene" || e.eventType == "escalation"

def BehavioralEvent.platformWritten (e : BehavioralEvent) : Bool :=
  e.eventType == "intervention" || e.selfObserved

/-- A history without the rows the platform writes about itself. -/
def studentRows (rows : List BehavioralEvent) : List BehavioralEvent :=
  rows.filter fun e => !e.platformWritten

/-- No row of the newest five hundred the query returns was written by the platform. -/
def unobserved (rows : List BehavioralEvent) (sessionId : SessionId) : Prop :=
  ∀ e ∈ analysisWindow rows sessionId, e.selfObserved = false

/-- What one analysis derives from the rows of a session: the features and the regime. -/
def analyse (log2 : K → K) (cfg : LearningAnalyticsConfig K) (sessionId : SessionId)
    (lastEventAt : Option Nat) (now : Nat) (rows : List BehavioralEvent) :
    Option (SessionFeatures K × ProcessRegime) :=
  (compute log2 cfg sessionId now (loadNewEvents rows sessionId lastEventAt)).bind fun features =>
    (identifyRegime features cfg).map fun analysis => (features, analysisToRegime analysis)

theorem analysed_studentRows : analysed (studentRows rows) sessionId
    = (analysed rows sessionId).filter fun e => !e.selfObserved := by
  unfold analysed studentRows
  rw [List.filter_filter, List.filter_filter]
  refine List.filter_congr fun e _ => ?_
  cases hself : e.selfObserved <;> cases hinter : e.eventType == "intervention" <;>
    simp [BehavioralEvent.platformWritten, hself, hinter, bne]

/-- Where the window holds rows of the student only, it is the window of the student's rows. -/
theorem analysisWindow_studentRows (h : unobserved rows sessionId) :
    analysisWindow (studentRows rows) sessionId = analysisWindow rows sessionId := by
  unfold analysisWindow
  rw [analysed_studentRows, ← Newest.filter_newestFirst, Newest.take_filter]
  intro e he
  have := h e (by unfold analysisWindow; exact List.mem_reverse.mpr he)
  simpa using this

/-- The load sees no row the platform wrote. -/
theorem loadNewEvents_studentRows (h : unobserved rows sessionId) :
    loadNewEvents (studentRows rows) sessionId lastEventAt
      = loadNewEvents rows sessionId lastEventAt := by
  unfold loadNewEvents
  rw [max?_analysed, max?_analysed, analysisWindow_studentRows h]

theorem length_analysisWindow : (analysisWindow rows sessionId).length
    = min 500 (analysed rows sessionId).length := by
  simp [analysisWindow, newestFirst]

theorem loadNewEvents_none : loadNewEvents rows sessionId none = analysisWindow rows sessionId := by
  unfold loadNewEvents
  split
  · rename_i hmax
    rw [max?_analysed, Option.map_eq_none_iff, List.getLast?_eq_none_iff] at hmax
    exact hmax.symm
  · rfl

/-- With room in the window, every row the platform wrote is in it. -/
theorem unobserved_iff_length (hroom : (analysed (studentRows rows) sessionId).length < 500) :
    unobserved rows sessionId ↔ (analysisWindow (studentRows rows) sessionId).length
      = (analysisWindow rows sessionId).length := by
  constructor
  · intro h
    rw [analysisWindow_studentRows h]
  · intro h e he
    rw [length_analysisWindow, length_analysisWindow] at h
    have hlen : ((analysed rows sessionId).filter fun e => !e.selfObserved).length
        = (analysed rows sessionId).length := by
      rw [analysed_studentRows] at h hroom
      omega
    have hall := List.length_filter_eq_length_iff.mp hlen
    unfold analysisWindow at he
    have hmem : e ∈ analysed rows sessionId :=
      (List.perm_insertionSort _ _).mem_iff.mp (List.mem_of_mem_take (List.mem_reverse.mp he))
    simpa using hall e hmem

/-- **The loop observes itself unless its rows are out of the window.** Two histories with the same
rows of the student lead to the same features and the same regime when the newest five hundred rows
of neither contain a `would_intervene` or an `escalation`, whatever the cursor. With fewer than five
hundred rows of the student this is exact: wherever the analysis of a history returns, it returns
the features of the student's rows alone if and only if the window contains no such row. -/
theorem analysis_of_student_rows (log2 : K → K) (cfg : LearningAnalyticsConfig K)
    (sessionId : SessionId) (now : Nat) :
    (∀ (lastEventAt : Option Nat) (rows rows' : List BehavioralEvent),
      studentRows rows = studentRows rows' → unobserved rows sessionId →
        unobserved rows' sessionId →
          analyse log2 cfg sessionId lastEventAt now rows
            = analyse log2 cfg sessionId lastEventAt now rows')
      ∧ ∀ (rows : List BehavioralEvent) (f : SessionFeatures K),
        (analysed (studentRows rows) sessionId).length < 500 →
          compute log2 cfg sessionId now (loadNewEvents rows sessionId none) = some f →
            (compute log2 cfg sessionId now (loadNewEvents (studentRows rows) sessionId none)
              = some f ↔ unobserved rows sessionId) := by
  refine ⟨fun lastEventAt rows rows' hsame hrows hrows' => ?_, fun rows f hroom hf => ?_⟩
  · unfold analyse
    rw [← loadNewEvents_studentRows hrows, ← loadNewEvents_studentRows hrows', hsame]
  · constructor
    · intro hf'
      rw [unobserved_iff_length hroom]
      have htotal := eventsTotal_of_compute hf
      rw [eventsTotal_of_compute hf', loadNewEvents_none, loadNewEvents_none] at htotal
      exact htotal
    · intro h
      rwa [loadNewEvents_studentRows h]

/-! ### A stuck student, and a row about not helping -/

/-- What the observer writes on a poll that finds the check still failing. -/
def checkFailing (timestamp : Nat) (check : String) : BehavioralEvent where
  sessionId := 0
  userId := "ann"
  labSlug := "vlan"
  timestamp := timestamp
  eventType := "error"
  componentId := some "R1"
  action := "check_failing"
  success := false
  severity := none
  message := some check
  extraData := none

/-- What the loop writes instead of an intervention. -/
def wouldIntervene (timestamp : Nat) : BehavioralEvent where
  sessionId := 0
  userId := "ann"
  labSlug := "vlan"
  timestamp := timestamp
  eventType := "would_intervene"
  componentId := none
  action := "hint"
  success := false
  severity := none
  message := none
  extraData := none

def log2AtHalfAndTwo (x : ℚ) : ℚ := if x = 1 / 2 then -1 else if x = 2 then 1 else 0

def stuckRows : List BehavioralEvent :=
  [checkFailing 0 "ospf", checkFailing 25000000 "bgp", checkFailing 50000000 "route"]

/-- The same history after three cycles in which the loop decided not to help. -/
def stuckRowsObserved : List BehavioralEvent :=
  stuckRows ++ [wouldIntervene 51000000, wouldIntervene 66000000, wouldIntervene 81000000]

/-- What the loop writes after an intervention, and does not read. -/
def intervention (timestamp : Nat) : BehavioralEvent :=
  { wouldIntervene timestamp with eventType := "intervention", action := "intervene_hint" }

/-- The row of an intervention is not read, and the rows of the student alone decide while no other
row of the loop is in the window. -/
theorem analysis_of_stuckRows :
    analyse log2AtHalfAndTwo .default 0 none 90000000 stuckRows
        = analyse log2AtHalfAndTwo .default 0 none 90000000 (stuckRows ++ [intervention 51000000])
      ∧ ∀ f,
        compute log2AtHalfAndTwo .default 0 90000000 (loadNewEvents stuckRows 0 none) = some f →
        (compute log2AtHalfAndTwo .default 0 90000000 (loadNewEvents (studentRows stuckRows) 0 none)
          = some f ↔ unobserved stuckRows 0) :=
  ⟨(analysis_of_student_rows log2AtHalfAndTwo .default 0 90000000).1 none stuckRows
      (stuckRows ++ [intervention 51000000]) (by decide) (by unfold unobserved; decide)
      (by unfold unobserved; decide),
    fun f => (analysis_of_student_rows log2AtHalfAndTwo .default 0 90000000).2 stuckRows f
      (by decide)⟩

/-- The student's rows are the same, and the student is stuck in one history and trying at random in
the other. -/
theorem would_intervene_changes_regime :
    ¬ ∀ (cfg : LearningAnalyticsConfig ℚ) (sessionId : SessionId) (lastEventAt : Option Nat)
        (now : Nat) (rows rows' : List BehavioralEvent), studentRows rows = studentRows rows' →
      analyse log2AtHalfAndTwo cfg sessionId lastEventAt now rows
        = analyse log2AtHalfAndTwo cfg sessionId lastEventAt now rows' := by
  intro h
  have hsame := congrArg (Option.map Prod.snd)
    (h .default 0 none 90000000 stuckRows stuckRowsObserved (by decide))
  have hstuck : (analyse log2AtHalfAndTwo .default 0 none 90000000 stuckRows).map Prod.snd
      = some .stuckOnStep := by
    decide +kernel
  have hrandom : (analyse log2AtHalfAndTwo .default 0 none 90000000 stuckRowsObserved).map Prod.snd
      = some .trialAndError := by
    decide +kernel
  rw [hstuck, hrandom] at hsame
  exact nomatch hsame

end OnlinetLabs.Analytics
