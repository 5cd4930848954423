import Mathlib.Data.Rat.Floor
import OnlinetLabs.Analytics.SelfObservation
import OnlinetLabs.Analytics.Totality
import OnlinetLabs.Lib.Ties

/-!
# Events of one instant

The query orders by the timestamp alone, and a poll of the observer stamps all its events alike, so
the database is free in the order of the rows that the extractor reads. What it computes from the
times, the counts and the sets of the events does not depend on it. What it computes from their
sequence does, unless the events of one instant agree in what is read there.
-/

namespace OnlinetLabs.Analytics

open Sessions (SessionId)
open Ties (Rearranged AgreeAtOnce)

variable {K : Type} [Field K] [LinearOrder K] [FloorRing K] {cfg : LearningAnalyticsConfig K}
  {start now : Nat}
  {window : K} {events events' errorEvents errorEvents' : List BehavioralEvent}

/-! ### What is read of an event -/

/-- What is computed from a reading of the events that count is the same of two lists with the same
readings. -/
theorem eq_of_map_eq {β γ : Type} {f : List BehavioralEvent → γ} {p : BehavioralEvent → Bool}
    {read : BehavioralEvent → β} (build : β → BehavioralEvent)
    (hf : ∀ events, (∀ e ∈ events, p e = true) → f (events.map fun e => build (read e)) = f events)
    (h : (events.filter p).map read = (events'.filter p).map read) :
    f (events.filter p) = f (events'.filter p) := by
  have hbuilt : ((events.filter p).map fun e => build (read e)) = (events'.filter p).map fun e =>
      build (read e) := by
    have hmap := congrArg (List.map build) h
    rwa [List.map_map, List.map_map] at hmap
  have hcounts : ∀ events : List BehavioralEvent, ∀ e ∈ events.filter p, p e = true :=
    fun events e he => (List.mem_filter.mp he).2
  rw [← hf _ (hcounts events), hbuilt, hf _ (hcounts events')]

section Times

variable {g : BehavioralEvent → BehavioralEvent} (hg : ∀ e, (g e).timestamp = e.timestamp)

include hg

omit [FloorRing K] in
theorem adjacentGaps_map (events : List BehavioralEvent) :
    (adjacentGaps (events.map g) : List K) = adjacentGaps events := by
  induction events with
  | nil => rfl
  | cons e events ih =>
    cases events with
    | nil => rfl
    | cons e' events =>
      rw [List.map_cons, List.map_cons, adjacentGaps, adjacentGaps, hg, hg, ← ih, List.map_cons]

omit [FloorRing K] in
theorem interActionLatencies_map (events : List BehavioralEvent) :
    (interActionLatencies (events.map g) now : List K) = interActionLatencies events now := by
  unfold interActionLatencies
  rw [adjacentGaps_map hg, List.getLast?_map]
  cases events.getLast? with
  | none => rfl
  | some last => simp only [Option.map_some, hg]

theorem rateBuckets_map (events : List BehavioralEvent) (buckets : List Nat) :
    rateBuckets start window (events.map g) buckets = rateBuckets start window events buckets := by
  induction events generalizing buckets with
  | nil => rfl
  | cons e events ih => simp only [List.map_cons, rateBuckets, hg, ih]

theorem actionRateSlope_map (events : List BehavioralEvent) :
    actionRateSlope cfg (events.map g) = actionRateSlope cfg events := by
  unfold actionRateSlope
  match events with
  | [] => rfl
  | [_] => rfl
  | first :: second :: rest =>
    rw [List.getLast?_map]
    cases (first :: second :: rest).getLast? with
    | none => rfl
    | some last =>
      have hbuckets : rateBuckets first.timestamp cfg.rateWindowSeconds
          ((first :: second :: rest).map g) []
          = rateBuckets first.timestamp cfg.rateWindowSeconds (first :: second :: rest) [] :=
            rateBuckets_map hg _ []
      simp only [List.map_cons, Option.map_some, hg] at hbuckets ⊢
      rw [hbuckets]

omit [FloorRing K] in
theorem spanSeconds_map (events : List BehavioralEvent) :
    (spanSeconds (events.map g) : K) = spanSeconds events := by
  unfold spanSeconds
  rw [List.head?_map, List.getLast?_map]
  cases events.head? with
  | none => rfl
  | some first =>
    cases events.getLast? with
    | none => rfl
    | some last => simp only [Option.map_some, hg]

omit [FloorRing K] in
theorem errorFrequencySlope_map (events : List BehavioralEvent) :
    (errorFrequencySlope (events.map g) : K) = errorFrequencySlope events := by
  unfold errorFrequencySlope
  simp only [List.length_map, ← List.map_take, ← List.map_drop, spanSeconds_map hg]

omit [FloorRing K] in
theorem errorFrequency_map (errorEvents allEvents : List BehavioralEvent) :
    errorFrequency cfg (errorEvents.map g)
      (allEvents.map g) = errorFrequency cfg errorEvents allEvents := by
  unfold errorFrequency
  rw [List.head?_map, List.getLast?_map]
  cases errorEvents with
  | nil => rfl
  | cons e rest =>
    cases allEvents.head? with
    | none => rfl
    | some first =>
      cases allEvents.getLast? with
      | none => rfl
      | some last =>
        have hcount : ∀ cutoff : K,
            ((e :: rest).map g).countP (fun e => decide (cutoff ≤ (e.timestamp : K) / 1000000))
            = (e :: rest).countP fun e => decide (cutoff ≤ (e.timestamp : K) / 1000000) := by
          intro cutoff
          rw [List.countP_map]
          simp only [Function.comp_def, hg]
        simp only [List.map_cons] at hcount
        simp only [List.map_cons, Option.map_some, hg, hcount]

end Times

/-! ### The sequence -/

section Sequence

variable {g : BehavioralEvent → BehavioralEvent}

omit [LinearOrder K] [FloorRing K] in
theorem timeOnCurrentStep_map (hg : ∀ e, (g e).timestamp = e.timestamp)
    (hcomponent : ∀ e, (g e).componentId = e.componentId) (events : List BehavioralEvent) :
    (timeOnCurrentStep (events.map g) now : K) = timeOnCurrentStep events now := by
  unfold timeOnCurrentStep
  rw [List.getLast?_map]
  cases events.getLast? with
  | none => rfl
  | some last =>
    simp only [Option.map_some, hcomponent, ← List.map_reverse, List.takeWhile_map,
      Function.comp_def, List.getLast?_map]
    cases (events.reverse.takeWhile fun e => e.componentId == last.componentId).getLast? with
    | none => rfl
    | some first => simp only [Option.map_some, hg]

omit [FloorRing K] in
theorem actionEntropy_map (log2 : K → K) (haction : ∀ e, (g e).action = e.action)
    (events : List BehavioralEvent) :
    actionEntropy log2 (events.map g) = actionEntropy log2 events := by
  have hnames : (events.map g).map (·.action) = events.map (·.action) := by
    rw [List.map_map]
    exact List.map_congr_left fun e _ => haction e
  unfold actionEntropy
  rw [hnames]

theorem undoRedoCycles_map (hcomponent : ∀ e, (g e).componentId = e.componentId)
    (haction : ∀ e, (g e).action = e.action) (events : List BehavioralEvent) :
    undoRedoCycles (events.map g) = undoRedoCycles events := by
  induction events with
  | nil => rfl
  | cons a events ih =>
    match events, ih with
    | [], _ => rfl
    | [_], _ => rfl
    | b :: c :: rest, ih =>
      simp only [List.map_cons] at ih
      simp only [List.map_cons, undoRedoCycles, hcomponent, haction, ih]

/-- The events that the run of errors is made of or ends at. -/
def endsOrErrs (e : BehavioralEvent) : Bool := e.action == "check_passed" || e.eventType == "error"

/-- What the loop of the run reads: that it ends, or the message of an error. -/
def readError (e : BehavioralEvent) : Option (Option String) :=
  if e.action = "check_passed" then none else some e.message

theorem errorRun_filter (events : List BehavioralEvent) (run : Nat) (lastMessage : Option String) :
    errorRun (events.filter endsOrErrs) run lastMessage = errorRun events run lastMessage := by
  induction events generalizing run lastMessage with
  | nil => rfl
  | cons e events ih =>
    by_cases he : endsOrErrs e = true
    · rw [List.filter_cons_of_pos he, errorRun.eq_def, errorRun.eq_def (e :: events)]
      simp only [ih]
    · obtain ⟨hpassed, herror⟩ : e.action ≠ "check_passed" ∧ e.eventType ≠ "error" := by
        simpa [endsOrErrs, not_or] using he
      rw [List.filter_cons_of_neg he, ih, errorRun.eq_def (e :: events)]
      simp only [if_neg hpassed, if_pos herror]

theorem errorRun_map (hpassed : ∀ e, (g e).action = "check_passed" ↔ e.action = "check_passed")
    (herror : ∀ e, endsOrErrs e = true → e.action ≠ "check_passed" →
      (g e).eventType = "error" ∧ (g e).message = e.message)
    (events : List BehavioralEvent) (hcount : ∀ e ∈ events, endsOrErrs e = true) (run : Nat)
    (lastMessage : Option String) :
    errorRun (events.map g) run lastMessage = errorRun events run lastMessage := by
  induction events generalizing run lastMessage with
  | nil => rfl
  | cons e events ih =>
    obtain ⟨he, hevents⟩ := List.forall_mem_cons.mp hcount
    rw [List.map_cons, errorRun.eq_def, errorRun.eq_def (e :: events)]
    by_cases hends : e.action = "check_passed"
    · simp only [hpassed, if_pos hends]
    · have herr : e.eventType = "error" := by simpa [endsOrErrs, hends] using he
      obtain ⟨htype, hmessage⟩ := herror e he hends
      simp only [hpassed, if_neg hends, htype, herr, ne_eq, not_true_eq_false, if_false, hmessage,
        ih hevents]

def readFailing (e : BehavioralEvent) : Option (Option String) :=
  if e.action = "check_failing" then some e.componentId else none

theorem failingRun_map (hfailing : ∀ e, (g e).action = "check_failing" ↔ e.action = "check_failing")
    (hcomponent : ∀ e, e.action = "check_failing" → (g e).componentId = e.componentId)
    (events : List BehavioralEvent)
    (run : Nat) (refCid : Option String) :
    failingRun (events.map g) run refCid = failingRun events run refCid := by
  induction events generalizing run refCid with
  | nil => rfl
  | cons e events ih =>
    rw [List.map_cons, failingRun.eq_def, failingRun.eq_def (e :: events)]
    by_cases hfails : e.action = "check_failing"
    · simp only [ne_eq, hfailing, hfails, not_true_eq_false, if_false, hcomponent e hfails, ih]
    · simp only [ne_eq, hfailing, hfails, not_false_eq_true, if_true]

end Sequence

/-! ### The counts -/

section Counts

variable {items items' : List String} {sorted sorted' : List BehavioralEvent}

/-- No two items are the most frequent. -/
def OneLeads (items : List String) : Prop :=
  ∀ a ∈ items, ∀ b ∈ items, (∀ c ∈ items, items.count c ≤ items.count a) →
    (∀ c ∈ items, items.count c ≤ items.count b) → a = b

/-- Where one item leads, the order of the items does not decide which is the most common. -/
theorem mostCommon_perm (h : items.Perm items') (hone : OneLeads items) :
    mostCommon items = mostCommon items' := by
  unfold mostCommon
  cases hmax : items.argmax (items.count ·) with
  | none =>
    obtain rfl := List.argmax_eq_none.mp hmax
    obtain rfl := h.nil_eq
    rfl
  | some a =>
    cases hmax' : items'.argmax (items'.count ·) with
    | none =>
      obtain rfl := List.argmax_eq_none.mp hmax'
      rw [h.eq_nil] at hmax
      cases hmax
    | some b =>
      obtain ⟨ha, hleads, -⟩ := List.argmax_eq_some_iff.mp hmax
      obtain ⟨hb, hleads', -⟩ := List.argmax_eq_some_iff.mp hmax'
      have hb' : ∀ c ∈ items, items.count c ≤ items.count b := by
        intro c hc
        rw [h.count_eq, h.count_eq]
        exact hleads' c (h.mem_iff.mp hc)
      exact congrArg some (hone a ha b (h.mem_iff.mpr hb) hleads hb')

theorem OneLeads.of_perm (h : OneLeads items) (hperm : items.Perm items') : OneLeads items' := by
  intro a ha b hb hleads hleads'
  have hcounts : ∀ {a}, (∀ c ∈ items', items'.count c ≤ items'.count a) →
      ∀ c ∈ items, items.count c ≤ items.count a := by
    intro a hleads c hc
    rw [hperm.count_eq, hperm.count_eq]
    exact hleads c (hperm.mem_iff.mp hc)
  exact h a (hperm.mem_iff.mpr ha) b (hperm.mem_iff.mpr hb) (hcounts hleads) (hcounts hleads')

theorem length_eraseDups_perm {β : Type} [DecidableEq β] (read : BehavioralEvent → β)
    (h : sorted.Perm sorted') :
    (sorted.map read).eraseDups.length = (sorted'.map read).eraseDups.length :=
  (Distinct.eraseDups_perm (h.map read)).length_eq

theorem length_eraseDups_filterMap_perm (read : BehavioralEvent → Option String)
    (h : sorted.Perm sorted') :
    (sorted.filterMap read).eraseDups.length = (sorted'.filterMap read).eraseDups.length :=
  (Distinct.eraseDups_perm (h.filterMap read)).length_eq

def isFailing (e : BehavioralEvent) : Bool := ["check_failing", "check_retry"].contains e.action

def failingComponents (events : List BehavioralEvent) : List String :=
  (events.filter isFailing).filterMap fun e => truthy e.componentId

def errorMessages (events : List BehavioralEvent) : List String :=
  (events.filter (·.eventType == "error")).filterMap fun e => truthy e.message

/-- The component that leads decides, and the set of what is seen on it has no order. -/
theorem distinctFailingActuals_perm (h : sorted.Perm sorted')
    (hleads : mostCommon (failingComponents sorted) = mostCommon (failingComponents sorted')) :
    distinctFailingActuals sorted = distinctFailingActuals sorted' := by
  unfold failingComponents isFailing at hleads
  unfold distinctFailingActuals
  simp only [hleads]
  cases mostCommon _ with
  | none => rfl
  | some cid => exact length_eraseDups_perm _ ((h.filter _).filter _)

end Counts

/-! ### The law -/

/-- What two vectors of features agree in whatever the order of simultaneous events, and what else
they agree in where those events agree in what is read. -/
structure AgreesUpToTies (events : List BehavioralEvent) (f f' : SessionFeatures K) : Prop where
  avgInterActionLatency : f.avgInterActionLatency = f'.avgInterActionLatency
  actionRateSlope : f.actionRateSlope = f'.actionRateSlope
  idlePeriods : f.idlePeriods = f'.idlePeriods
  totalActiveTime : f.totalActiveTime = f'.totalActiveTime
  errorFrequency : f.errorFrequency = f'.errorFrequency
  errorFrequencySlope : f.errorFrequencySlope = f'.errorFrequencySlope
  uniqueErrorTypes : f.uniqueErrorTypes = f'.uniqueErrorTypes
  componentsTouched : f.componentsTouched = f'.componentsTouched
  actionDiversity : f.actionDiversity = f'.actionDiversity
  eventsTotal : f.eventsTotal = f'.eventsTotal
  sessionId : f.sessionId = f'.sessionId
  computedAt : f.computedAt = f'.computedAt
  timeOnCurrentStep : AgreeAtOnce (·.timestamp) (fun _ => true) (·.componentId) events →
    f.timeOnCurrentStep = f'.timeOnCurrentStep
  -- The code adds floats, in the order in which the actions first appear.
  actionSequenceEntropy : AgreeAtOnce (·.timestamp) (fun _ => true) (·.action) events →
    f.actionSequenceEntropy = f'.actionSequenceEntropy
  errorRepeats : AgreeAtOnce (·.timestamp) endsOrErrs readError events →
    f.errorRepeatCount = f'.errorRepeatCount ∧ f.errorRepeatRate = f'.errorRepeatRate
  undoRedoRatio : AgreeAtOnce (·.timestamp) (·.eventType == "action")
    (fun e => (e.componentId, e.action)) events →
    f.undoRedoRatio = f'.undoRedoRatio
  dominantError : AgreeAtOnce (·.timestamp) (·.eventType == "error") (·.message) events
    ∨ OneLeads (errorMessages events) → f.dominantError = f'.dominantError
  distinctFailingActuals : AgreeAtOnce (·.timestamp) isFailing (·.componentId) events
    ∨ OneLeads (failingComponents events) → f.distinctFailingActuals = f'.distinctFailingActuals
  cyclesFailingUnchanged : AgreeAtOnce (·.timestamp) (fun _ => true) readFailing events →
    f.cyclesFailingUnchanged = f'.cyclesFailingUnchanged

def eventOf (timestamp : Nat) (eventType action : String) (componentId message : Option String) :
    BehavioralEvent where
  sessionId := 0
  userId := ""
  labSlug := ""
  timestamp
  eventType
  componentId
  action
  success := false
  severity := none
  message
  extraData := none

/-- An event that is read so by the loop of the error run. -/
def builtError : Option (Option String) → BehavioralEvent
  | none => eventOf 0 "" "check_passed" none none
  | some message => eventOf 0 "error" "" none message

theorem builtError_readError (e : BehavioralEvent) :
    (builtError (readError e)).action = "check_passed" ↔ e.action = "check_passed" := by
  unfold readError
  split
  · rename_i hpassed
    exact iff_of_true rfl hpassed
  · rename_i hpassed
    exact iff_of_false (by decide : "" ≠ "check_passed") hpassed

theorem builtError_of_error (e : BehavioralEvent) (_ : endsOrErrs e = true)
    (hpassed : e.action ≠ "check_passed") :
    (builtError (readError e)).eventType = "error"
      ∧ (builtError (readError e)).message = e.message := by
  rw [readError, if_neg hpassed]
  exact ⟨rfl, rfl⟩

/-- An event that is read so by the loop of the failing run. -/
def builtFailing : Option (Option String) → BehavioralEvent
  | none => eventOf 0 "" "" none none
  | some componentId => eventOf 0 "" "check_failing" componentId none

theorem builtFailing_readFailing (e : BehavioralEvent) :
    (builtFailing (readFailing e)).action = "check_failing" ↔ e.action = "check_failing" := by
  unfold readFailing
  split
  · rename_i hfailing
    exact iff_of_true rfl hfailing
  · rename_i hfailing
    exact iff_of_false (by decide : "" ≠ "check_failing") hfailing

theorem builtFailing_of_failing (e : BehavioralEvent) (hfailing : e.action = "check_failing") :
    (builtFailing (readFailing e)).componentId = e.componentId := by
  rw [readFailing, if_pos hfailing]
  rfl

section Law

variable {sorted sorted' : List BehavioralEvent} {slope frequency : K} {log2 : K → K}
  {sessionId : SessionId}

theorem times_eq {γ : Type} {f : List BehavioralEvent → γ} {p : BehavioralEvent → Bool}
    (hperm : sorted.Perm sorted')
    (hsorted : sorted.Pairwise fun e e' => e.timestamp ≤ e'.timestamp)
    (hsorted' : sorted'.Pairwise fun e e' => e.timestamp ≤ e'.timestamp)
    (hf : ∀ (g : BehavioralEvent → BehavioralEvent), (∀ e, (g e).timestamp = e.timestamp) →
      ∀ events, f (events.map g) = f events) : f (sorted.filter p) = f (sorted'.filter p) :=
  eq_of_map_eq (fun timestamp : Nat => eventOf timestamp "" "" none none)
    (fun events _ => hf (fun e => eventOf e.timestamp "" "" none none) (fun _ => rfl) events)
    (Ties.map_key_filter_eq hperm hsorted hsorted' p)

/-- What is computed from a reading of the events that count, where those of one instant agree in
it. -/
theorem read_eq {β γ : Type} {f : List BehavioralEvent → γ} {p : BehavioralEvent → Bool}
    {read : BehavioralEvent → β}
    (build : β → BehavioralEvent) (hperm : sorted.Perm sorted')
    (hsorted : sorted.Pairwise fun e e' => e.timestamp ≤ e'.timestamp)
    (hsorted' : sorted'.Pairwise fun e e' => e.timestamp ≤ e'.timestamp)
    (hagree : AgreeAtOnce (·.timestamp) p read sorted)
    (hf : ∀ events, (∀ e ∈ events, p e = true) →
      f (events.map fun e => build (read e)) = f events) :
    f (sorted.filter p) = f (sorted'.filter p) :=
  eq_of_map_eq build hf (Ties.map_filter_eq hperm hsorted hsorted' hagree)

theorem vector_agreesUpToTies (hevents : events.Perm sorted) (hperm : sorted.Perm sorted')
    (hsorted : sorted.Pairwise fun e e' => e.timestamp ≤ e'.timestamp)
    (hsorted' : sorted'.Pairwise fun e e' => e.timestamp ≤ e'.timestamp) :
    AgreesUpToTies events (vector log2 cfg sessionId now sorted slope frequency)
      (vector log2 cfg sessionId now sorted' slope frequency) := by
  have hlatencies : (interActionLatencies (studentEvents sorted) now : List K)
      = interActionLatencies (studentEvents sorted') now :=
    times_eq (f := fun events => interActionLatencies events now) hperm hsorted hsorted' fun g
      hg events =>
      interActionLatencies_map hg events
  have herrors :
      ((sorted.filter (·.eventType == "error")).length)
      = (sorted'.filter (·.eventType == "error")).length :=
    (hperm.filter _).length_eq
  have hnil : sorted.filter (·.eventType == "error") = []
      ↔ sorted'.filter (·.eventType == "error") = [] := by
    rw [← List.length_eq_zero_iff, herrors, List.length_eq_zero_iff]
  have hslope : (errorFrequencySlope (sorted.filter (·.eventType == "error")) : K)
      = errorFrequencySlope (sorted'.filter (·.eventType == "error")) :=
    times_eq hperm hsorted hsorted' fun g hg events => errorFrequencySlope_map hg events
  have hactions := length_eraseDups_perm (·.action) hperm
  refine {
    avgInterActionLatency := ?_, actionRateSlope := rfl, idlePeriods := ?_, totalActiveTime := ?_
    errorFrequency := rfl, errorFrequencySlope := ?_, uniqueErrorTypes := ?_
    componentsTouched := ?_, actionDiversity := ?_, eventsTotal := hperm.length_eq
    sessionId := rfl, computedAt := rfl
    timeOnCurrentStep := fun hagree => ?_, actionSequenceEntropy := fun hagree => ?_
    errorRepeats := fun hagree => ?_, undoRedoRatio := fun hagree => ?_
    dominantError := fun hagree => ?_, distinctFailingActuals := fun hagree => ?_
    cyclesFailingUnchanged := fun hagree => ?_ }
  · simp only [vector, hlatencies]
  · simp only [vector, hlatencies]
  · simp only [vector, hlatencies]
  · simp only [vector, hslope]
  · exact length_eraseDups_filterMap_perm _ (hperm.filter _)
  · exact length_eraseDups_filterMap_perm _ hperm
  · simp only [vector, hactions, hperm.length_eq]
  · have hpairs : AgreeAtOnce (·.timestamp) (fun _ => true)
        (fun e => (e.timestamp, e.componentId)) sorted :=
      fun e he e' he' h h' heq => Prod.ext heq (hagree.of_perm hevents e he e' he' h h' heq)
    have hstep := read_eq (f := fun events => (timeOnCurrentStep events now : K))
      (fun pair : Nat × Option String => eventOf pair.1 "" "" pair.2 none) hperm hsorted
        hsorted' hpairs
      fun events _ =>
        timeOnCurrentStep_map (g := fun e => eventOf e.timestamp "" "" e.componentId none)
        (fun _ => rfl)
        (fun _ => rfl) events
    simp only [List.filter_true] at hstep
    simp only [vector, hstep]
  · have hentropy := read_eq (f := actionEntropy log2)
        (fun action : String => eventOf 0 "" action none none) hperm
      hsorted hsorted' (hagree.of_perm hevents) fun events _ =>
        actionEntropy_map (g := fun e => eventOf 0 "" e.action none none) log2 (fun _ => rfl) events
    simp only [List.filter_true] at hentropy
    simp only [vector, hentropy]
  · have hrun : currentErrorRun sorted = currentErrorRun sorted' := by
      have hreversed :=
        read_eq (f := fun events => errorRun events.reverse 0 none) builtError hperm
        hsorted hsorted'
        (hagree.of_perm hevents) fun events hcount => by
          rw [← List.map_reverse]
          exact errorRun_map builtError_readError builtError_of_error _
            (fun e he => hcount e (List.mem_reverse.mp he)) 0 none
      simp only [← List.filter_reverse, errorRun_filter] at hreversed
      simp only [currentErrorRun, hreversed]
    simp only [vector, hrun, herrors, hnil, and_self]
  · have hundo := read_eq (f := undoRedoCycles)
        (fun pair : Option String × String => eventOf 0 "" pair.2 pair.1 none)
      hperm hsorted hsorted' (hagree.of_perm hevents) fun events _ =>
        undoRedoCycles_map (g := fun e => eventOf 0 "" e.action e.componentId none) (fun _ => rfl)
          (fun _ => rfl) events
    have hlength :
        (sorted.filter (·.eventType == "action")).length
          = (sorted'.filter (·.eventType == "action")).length :=
      (hperm.filter _).length_eq
    simp only [vector, OnlinetLabs.Analytics.undoRedoRatio, hundo, hlength]
  · have hmessages : mostCommon (errorMessages sorted) = mostCommon (errorMessages sorted') := by
      rcases hagree with hagree | hleads
      · have hread := read_eq (f := fun events => events.filterMap fun e => truthy e.message)
          (fun message : Option String => eventOf 0 "" "" none message) hperm hsorted hsorted'
            (hagree.of_perm hevents)
          fun events _ => List.filterMap_map
        exact congrArg mostCommon hread
      · exact mostCommon_perm ((hperm.filter _).filterMap _)
          (hleads.of_perm ((hevents.filter _).filterMap _))
    exact hmessages
  · apply distinctFailingActuals_perm hperm
    rcases hagree with hagree | hleads
    · have hread := read_eq (f := fun events => events.filterMap fun e => truthy e.componentId)
        (fun component : Option String => eventOf 0 "" "" component none) hperm hsorted hsorted'
        (hagree.of_perm hevents) fun events _ => List.filterMap_map
      exact congrArg mostCommon hread
    · exact mostCommon_perm ((hperm.filter _).filterMap _)
        (hleads.of_perm ((hevents.filter _).filterMap _))
  · have hread :=
      read_eq (f := cyclesFailingUnchanged) builtFailing hperm hsorted hsorted'
      (hagree.of_perm hevents)
      fun events _ => by
        rw [cyclesFailingUnchanged, ← List.map_reverse]
        exact failingRun_map builtFailing_readFailing builtFailing_of_failing _ 0 none
    simp only [List.filter_true] at hread
    exact hread

/-- What the extractor reads of an event but its time, and what was seen. -/
def reading (e : BehavioralEvent) : String × String × Option String × Option String :=
  (e.eventType, e.action, e.componentId, e.message)

theorem perm_inOrder (h : events.Perm events') : (inOrder events).Perm (inOrder events') :=
  (inOrder_perm events).trans (h.trans (inOrder_perm events').symm)

theorem inOrder_rate (h : events.Perm events') :
    actionRateSlope cfg (inOrder events) = actionRateSlope cfg (inOrder events') := by
  have hrate := times_eq (f := actionRateSlope cfg) (p := fun _ => true) (perm_inOrder h)
      (inOrder_pairwise events)
    (inOrder_pairwise events') fun g hg events => actionRateSlope_map hg events
  rwa [List.filter_true, List.filter_true] at hrate

omit [FloorRing K] in
theorem inOrder_frequency (h : events.Perm events') :
    errorFrequency cfg ((inOrder events).filter (·.eventType == "error")) (inOrder events)
      = errorFrequency cfg ((inOrder events').filter (·.eventType == "error"))
        (inOrder events') := by
  let stamped : BehavioralEvent → BehavioralEvent := fun e => eventOf e.timestamp "" "" none none
  have hsame : ∀ e, (stamped e).timestamp = e.timestamp := fun _ => rfl
  have hstamped : ∀ p : BehavioralEvent → Bool, ((inOrder events).filter p).map stamped
      = ((inOrder events').filter p).map stamped := by
    intro p
    have hkeys := congrArg (List.map fun timestamp => eventOf timestamp "" "" none none)
      (Ties.map_key_filter_eq (perm_inOrder h) (inOrder_pairwise events)
        (inOrder_pairwise events') p)
    rwa [List.map_map, List.map_map] at hkeys
  have hall := hstamped fun _ => true
  rw [List.filter_true, List.filter_true] at hall
  calc errorFrequency cfg ((inOrder events).filter (·.eventType == "error")) (inOrder events)
      = errorFrequency cfg (((inOrder events).filter (·.eventType == "error")).map stamped)
          ((inOrder events).map stamped) :=
        (errorFrequency_map hsame _ _).symm
    _ = errorFrequency cfg (((inOrder events').filter (·.eventType == "error")).map stamped)
          ((inOrder events').map stamped) := by rw [hstamped, hall]
    _ = _ := errorFrequency_map hsame _ _

variable {f f' : SessionFeatures K}

omit [Field K] [LinearOrder K] [FloorRing K] in
theorem AgreesUpToTies.eq (h : AgreesUpToTies events f f')
    (hagree : AgreeAtOnce (·.timestamp) (fun _ => true) reading events) : f = f' := by
  have hstep := h.timeOnCurrentStep (hagree.of_reading (fun read => read.2.2.1) fun _ => rfl)
  have hentropy := h.actionSequenceEntropy (hagree.of_reading (fun read => read.2.1) fun _ => rfl)
  have herrors := h.errorRepeats (hagree.of_reading
    (fun read => if read.2.1 = "check_passed" then none else some read.2.2.2) fun _ => rfl)
  have hundo :=
    h.undoRedoRatio (hagree.of_reading (fun read => (read.2.2.1, read.2.1)) fun _ => rfl)
  have hdominant :=
    h.dominantError (Or.inl (hagree.of_reading (fun read => read.2.2.2) fun _ => rfl))
  have hdistinct :=
    h.distinctFailingActuals (Or.inl (hagree.of_reading (fun read => read.2.2.1) fun _ => rfl))
  have hcycles := h.cyclesFailingUnchanged (hagree.of_reading
    (fun read => if read.2.1 = "check_failing" then some read.2.2.1 else none) fun _ => rfl)
  cases f
  cases f'
  simp only [SessionFeatures.mk.injEq]
  exact ⟨h.avgInterActionLatency, h.actionRateSlope, h.idlePeriods, h.totalActiveTime, hstep,
    herrors.1, herrors.2, hentropy, hundo, h.errorFrequency, h.errorFrequencySlope,
    h.uniqueErrorTypes, hdominant,
    h.componentsTouched, h.actionDiversity, h.eventsTotal, hdistinct, hcycles, h.sessionId,
      h.computedAt⟩

/-- What the order of simultaneous events leaves alone. -/
structure TieFree (log2 : K → K) (cfg : LearningAnalyticsConfig K) (sessionId : SessionId)
    (now : Nat)
    (events events' : List BehavioralEvent) : Prop where
  raises : compute log2 cfg sessionId now events = none
    ↔ compute log2 cfg sessionId now events' = none
  features : ∀ f f', compute log2 cfg sessionId now events = some f →
    compute log2 cfg sessionId now events' = some f' →
    AgreesUpToTies events f f'
  regime : AgreeAtOnce (·.timestamp) (fun _ => true) reading events →
    compute log2 cfg sessionId now events = compute log2 cfg sessionId now events'
      ∧ (compute log2 cfg sessionId now events).bind (identifyRegime · cfg)
        = (compute log2 cfg sessionId now events').bind (identifyRegime · cfg)

/-- **The order of simultaneous events.** -/
theorem tieFree (log2 : K → K) (cfg : LearningAnalyticsConfig K) (sessionId : SessionId) (now : Nat)
    (h : Rearranged (·.timestamp) events events') :
    TieFree log2 cfg sessionId now events events' := by
  have hfeatures : ∀ f f', compute log2 cfg sessionId now events = some f →
      compute log2 cfg sessionId now events' = some f' → AgreesUpToTies events f f' := by
    intro f f' hf hf'
    by_cases hnil : events = []
    · subst hnil
      obtain rfl := h.perm.nil_eq
      obtain rfl := Option.some.inj (hf.symm.trans hf')
      exact ⟨rfl, rfl, rfl, rfl, rfl, rfl, rfl, rfl, rfl, rfl, rfl, rfl, fun _ => rfl, fun _ => rfl,
        fun _ => ⟨rfl, rfl⟩, fun _ => rfl, fun _ => rfl, fun _ => rfl, fun _ => rfl⟩
    · have hnil' : events' ≠ [] := fun hnil' => hnil (hnil' ▸ h.perm).eq_nil
      rw [compute_eq_vector log2 cfg sessionId now hnil] at hf
      rw [compute_eq_vector log2 cfg sessionId now hnil', ← inOrder_rate h.perm,
        ← inOrder_frequency h.perm] at hf'
      simp only [Option.bind_eq_bind, Option.bind_eq_some_iff, Option.pure_def,
        Option.some.injEq] at hf hf'
      obtain ⟨slope, hslope, frequency, hfrequency, rfl⟩ := hf
      obtain ⟨slope', hslope', frequency', hfrequency', rfl⟩ := hf'
      obtain rfl := Option.some.inj (hslope.symm.trans hslope')
      obtain rfl := Option.some.inj (hfrequency.symm.trans hfrequency')
      exact vector_agreesUpToTies (inOrder_perm events).symm (perm_inOrder h.perm)
        (inOrder_pairwise events)
        (inOrder_pairwise events')
  have hraises : compute log2 cfg sessionId now events = none
      ↔ compute log2 cfg sessionId now events' = none := by
    by_cases hnil : events = []
    · subst hnil
      obtain rfl := h.perm.nil_eq
      exact Iff.rfl
    · have hnil' : events' ≠ [] := fun hnil' => hnil (hnil' ▸ h.perm).eq_nil
      rw [compute_eq_vector log2 cfg sessionId now hnil,
        compute_eq_vector log2 cfg sessionId now hnil', ← inOrder_rate h.perm,
        ← inOrder_frequency h.perm]
      cases actionRateSlope cfg (inOrder events) with
      | none => exact Iff.rfl
      | some slope =>
        cases errorFrequency cfg ((inOrder events).filter (·.eventType == "error"))
          (inOrder events) with
        | none => exact Iff.rfl
        | some frequency => simp
  refine ⟨hraises, hfeatures, fun hagree => ?_⟩
  have hsame : compute log2 cfg sessionId now events = compute log2 cfg sessionId now events' := by
    cases hf : compute log2 cfg sessionId now events with
    | none => exact (hraises.mp hf).symm
    | some f =>
      cases hf' : compute log2 cfg sessionId now events' with
      | none =>
        rw [hraises.mpr hf'] at hf
        cases hf
      | some f' => rw [(hfeatures f f' hf hf').eq hagree]
  exact ⟨hsame, by rw [hsame]⟩

end Law

/-! ### Two orders of one burst -/

def acted (timestamp : Nat) (action : String) :
    BehavioralEvent := eventOf timestamp "action" action (some "R1") none

def failed (timestamp : Nat) (node message seen : String) : BehavioralEvent where
  sessionId := 0
  userId := ""
  labSlug := ""
  timestamp
  eventType := "error"
  componentId := some node
  action := "check_failing"
  success := false
  severity := none
  message := some message
  extraData := some [("actual", seen)]

/-- A router restarted, and what two checks say of it and of a host. -/
def burst : List BehavioralEvent :=
  [acted 0 "start_node", acted 60000000 "stop_node", acted 60000000 "start_node",
    failed 60000000 "PC1" "ip" "1", failed 60000000 "PC1" "ip" "2", failed 60000000 "PC1" "ip" "2",
    failed 60000000 "R1" "ospf" "1",
    failed 60000000 "R1" "ospf" "1", failed 120000000 "R1" "ospf" "1"]

def burst' : List BehavioralEvent :=
  [acted 0 "start_node", acted 60000000 "start_node", acted 60000000 "stop_node",
    failed 60000000 "R1" "ospf" "1", failed 60000000 "PC1" "ip" "1",
    failed 60000000 "R1" "ospf" "1", failed 60000000 "PC1" "ip" "2",
    failed 60000000 "PC1" "ip" "2", failed 120000000 "R1" "ospf" "1"]

theorem rearranged_burst : Rearranged (·.timestamp) burst burst' := by
  refine ⟨?_, rfl⟩
  rw [← List.isPerm_iff]
  decide +kernel

theorem inOrder_burst : inOrder burst = burst ∧ inOrder burst' = burst' := by decide +kernel

theorem positiveConfig_rat :
    PositiveConfig (LearningAnalyticsConfig.default : LearningAnalyticsConfig ℚ) := by
  refine ⟨?_, ?_, ?_⟩
  · exact (by norm_num : (0 : ℚ) < 120)
  · exact (by norm_num : (0 : ℚ) < 5)
  · exact (by decide : (0 : Int) < 3)

/-- What the sequence decides is different, all of it. -/
structure Differs (f f' : SessionFeatures ℚ) : Prop where
  timeOnCurrentStep : f.timeOnCurrentStep ≠ f'.timeOnCurrentStep
  errorRepeatCount : f.errorRepeatCount ≠ f'.errorRepeatCount
  errorRepeatRate : f.errorRepeatRate ≠ f'.errorRepeatRate
  undoRedoRatio : f.undoRedoRatio ≠ f'.undoRedoRatio
  dominantError : f.dominantError ≠ f'.dominantError
  distinctFailingActuals : f.distinctFailingActuals ≠ f'.distinctFailingActuals
  cyclesFailingUnchanged : f.cyclesFailingUnchanged ≠ f'.cyclesFailingUnchanged
  regime : (identifyRegime f .default).map (·.struggleType)
    ≠ (identifyRegime f' .default).map (·.struggleType)

theorem struggleType_of_repeats {f : SessionFeatures ℚ} (hcount : f.errorRepeatCount = 3)
    (hrate : f.errorRepeatRate = 1 / 2) :
    (identifyRegime f .default).map (·.struggleType) = some (some .repeatingErrors) := by
  simp [identifyRegime, detectStruggle, struggleRules, hcount, hrate, inUnitInterval, divide,
    LearningAnalyticsConfig.default]
  norm_num

/-- Only the rule about repeated errors finds them. -/
theorem repeats_of_struggleType {f : SessionFeatures ℚ}
    (h : (identifyRegime f .default).map (·.struggleType) = some (some .repeatingErrors)) :
    3 ≤ f.errorRepeatCount := by
  obtain ⟨analysis, hanalysis, htype⟩ := Option.map_eq_some_iff.mp h
  have hrule : ∀ rule ∈ (struggleRules : List (StruggleRule ℚ)),
      rule.struggleType = .repeatingErrors →
      rule.applies f .default = true → 3 ≤ f.errorRepeatCount := by
    intro rule hrule htype happlies
    simp only [struggleRules, List.mem_cons, List.not_mem_nil, or_false] at hrule
    rcases hrule with rfl | rfl | rfl | rfl | rfl | rfl
    · exact Int.ofNat_le.mp (of_decide_eq_true happlies)
    all_goals cases htype
  simp only [identifyRegime, detectStruggle] at hanalysis
  split at hanalysis
  · cases hfound : struggleRules.find? (·.applies f (.default : LearningAnalyticsConfig ℚ)) with
    | none =>
      simp only [hfound] at hanalysis
      split at hanalysis
      · obtain rfl := Option.some.inj hanalysis
        cases htype
      · cases hanalysis
    | some rule =>
      have happlies : rule.applies f .default = true := by simpa using List.find?_some hfound
      simp only [hfound] at hanalysis
      cases hconfidence : rule.confidence f (.default : LearningAnalyticsConfig ℚ) with
      | none => simp [hconfidence] at hanalysis
      | some confidence =>
        simp only [hconfidence, Option.map_some] at hanalysis
        split at hanalysis
        · obtain rfl := Option.some.inj hanalysis
          exact hrule rule (List.mem_of_find?_eq_some hfound) (Option.some.inj htype) happlies
        · cases hanalysis
  · cases hanalysis

theorem differs_burst (log2 : ℚ → ℚ) (slope frequency slope' frequency' : ℚ) :
    Differs (vector log2 .default 0 120000000 burst slope frequency)
      (vector log2 .default 0 120000000 burst' slope' frequency') := by
  have hrate : round 4 (if burst.filter (·.eventType == "error") = [] then 0 else
      (currentErrorRun burst : ℚ) / (burst.filter (·.eventType == "error")).length) = 1 / 2 := by
        decide +kernel
  have hrate' : round 4 (if burst'.filter (·.eventType == "error") = [] then 0 else
      (currentErrorRun burst' : ℚ) / (burst'.filter (·.eventType == "error")).length) = 0 := by
        decide +kernel
  have hcount : currentErrorRun burst = 3 := by decide +kernel
  have hcount' : currentErrorRun burst' = 0 := by decide +kernel
  refine ⟨?_, ?_, ?_, ?_, ?_, ?_, ?_, ?_⟩
  · exact (by decide +kernel :
      round 2 (timeOnCurrentStep burst 120000000 : ℚ)
        ≠ round 2 (timeOnCurrentStep burst' 120000000))
  · exact (by rw [hcount, hcount']; decide : currentErrorRun burst ≠ currentErrorRun burst')
  · exact ne_of_eq_of_ne hrate (ne_of_ne_of_eq (by norm_num) hrate'.symm)
  · exact (by decide +kernel : round 4 (undoRedoRatio (burst.filter (·.eventType == "action")) : ℚ)
      ≠ round 4 (undoRedoRatio (burst'.filter (·.eventType == "action"))))
  · exact (by decide +kernel : dominantError (burst.filter (·.eventType == "error"))
      ≠ dominantError (burst'.filter (·.eventType == "error")))
  · exact (by decide +kernel : distinctFailingActuals burst ≠ distinctFailingActuals burst')
  · exact (by decide +kernel : cyclesFailingUnchanged burst ≠ cyclesFailingUnchanged burst')
  · intro hsame
    have hrepeats :=
      repeats_of_struggleType (hsame.symm.trans (struggleType_of_repeats hcount hrate))
    have hnone : (vector log2 .default 0 120000000 burst' slope' frequency').errorRepeatCount = 0 :=
      hcount'
    omega

/-- **The order decides.** -/
theorem order_decides : Rearranged (·.timestamp) burst burst' ∧ ∀ log2 : ℚ → ℚ, ∃ f f',
    compute log2 .default 0 120000000 burst = some f
      ∧ compute log2 .default 0 120000000 burst' = some f'
      ∧ Differs f f' := by
  refine ⟨rearranged_burst, fun log2 => ?_⟩
  have hsome : burst ≠ [] := List.cons_ne_nil _ _
  have hsome' : burst' ≠ [] := List.cons_ne_nil _ _
  obtain ⟨slope, frequency, hf, -⟩ := exists_compute positiveConfig_rat log2 0 120000000 hsome
  obtain ⟨slope', frequency', hf', -⟩ := exists_compute positiveConfig_rat log2 0 120000000 hsome'
  rw [inOrder_burst.1] at hf
  rw [inOrder_burst.2] at hf'
  exact ⟨_, _, hf, hf', differs_burst log2 slope frequency slope' frequency'⟩

theorem tieFree_burst : TieFree (Real.logb 2) .default 0 120000000 burst burst' :=
  tieFree (Real.logb 2) .default 0 120000000 rearranged_burst

end OnlinetLabs.Analytics
