import OnlinetLabs.Analytics.Events
import OnlinetLabs.Console.Text
import OnlinetLabs.Lib.Journal
import OnlinetLabs.Sessions.Activity
import OnlinetLabs.Validation.Agreement

/-!
# The observer of a lab

It runs the spec of the lab again and again, takes the difference of two snapshots for events, and
stamps the session as seen whenever there is one. A check that keeps failing is an event of every
poll, so the stamp does not tell that anything has changed.
-/

namespace OnlinetLabs.Analytics

open Sessions (SessionId UserId Slug Time SeenSession)
open Validation (Catalogs Spec Outcomes CheckRecord StepRecord evaluateSpec results)

/-! ### Snapshots -/

structure ProgressState where
  currentStepId : Option String
  currentStepTitle : String
  failingChecks : List CheckRecord := []

def deriveCurrentStep (snapshot : List StepRecord) : ProgressState :=
  match snapshot.find? fun step => !step.ok with
  | some step => {
      currentStepId := some step.id
      currentStepTitle := step.title
      failingChecks := step.checks.filter fun c => !c.ok }
  | none => { currentStepId := none, currentStepTitle := "" }

def checkKey (c : CheckRecord) : String := c.kind ++ "@" ++ (Json.obj c.params).dumpsSorted

/-- The node of the check where it names one, or its kind. -/
def checkComponent (c : CheckRecord) : Json :=
  match (Json.obj c.params).field? "node" with
  | some node => if node.truthy then node else .str c.kind
  | none => .str c.kind

/-- Python's `==` on two observed values, in which equal numbers are written alike. -/
def sameActual (p c : CheckRecord) : Bool :=
  (Json.obj p.actual).dumpsSorted == (Json.obj c.actual).dumpsSorted

structure ProgressEvent where
  eventType : String
  action : String
  componentId : Json
  message : String
  success : Bool
  extraData : Option Json.Fields

/-- The checks of a snapshot by key. Of two with one key the later stays. -/
def checkIndex (snapshot : List StepRecord) : Dict String CheckRecord :=
  (snapshot.flatMap (·.checks)).foldl (fun index c => index.set (checkKey c) c) {}

def diffCheck (prevIndex : Dict String CheckRecord) (c : CheckRecord) : Option ProgressEvent :=
  (prevIndex.get? (checkKey c)).bind fun pc =>
    let event (eventType action : String) (success : Bool) (extraData : Option Json.Fields) :
        ProgressEvent :=
      { eventType
        action
        componentId := checkComponent c
        message := checkKey c
        success
        extraData }
    if !pc.ok && c.ok then some (event "action" "check_passed" true none)
    else if pc.ok && !c.ok then
      some (event "error" "check_regressed" false (some [("actual", .obj c.actual)]))
    else if !pc.ok && !c.ok then
      if sameActual pc c
        then some (event "error" "check_failing" false (some [("actual", .obj c.actual)]))
      else
        some (event "error" "check_retry" false
          (some [("prev_actual", .obj pc.actual), ("actual", .obj c.actual)]))
    else none

def diffSnapshots (prev : Option (List StepRecord)) (curr : List StepRecord) : List ProgressEvent :=
  match prev with
  | none => []
  | some prev => (curr.flatMap (·.checks)).filterMap (diffCheck (checkIndex prev))

/-! ### The observer -/

def negotiate (raw : String) : Validation.Locale :=
  let tag := (Console.strip raw.toList).takeWhile fun c => c != ',' && c != ';' && c != '-'
  if tag.map Char.toLower = Validation.Locale.ru.tag.toList then .ru else Validation.defaultLocale

structure LabProgressObserver where
  catalogs : Catalogs
  sessionId : SessionId
  userId : UserId
  labSlug : Slug

/-- The state of the observer, the row of its session and the events it has saved. -/
structure Watched where
  row : Option SeenSession
  state : Option ProgressState := none
  prevSnapshot : Option (List StepRecord) := none
  events : List BehavioralEvent := []

structure Poll where
  /-- `load_lab_spec`. -/
  spec : Option Spec
  /-- What others did to the row until the poll reads it, and from then until the poll has its
  snapshot. -/
  before : Option SeenSession → Option SeenSession := id
  meanwhile : Option SeenSession → Option SeenSession := id
  /-- Whether the database answers when the row is read. -/
  found : Bool := true
  /-- Whether GNS3 tells the state that the checks need. -/
  reachable : Bool := true
  outcomes : Outcomes
  /-- What `touch_observed_session` reads from the clock, and whether its UPDATE takes effect. -/
  seenAt : Time
  touched : Bool := true
  timestamp : Time
  /-- `_may_collect`. -/
  mayCollect : Bool := true
  /-- Whether the events are committed. -/
  saved : Bool := true

/-- An event as a row, or `none` where its component is not a text and the column does not take
it. -/
def ProgressEvent.toRow (o : LabProgressObserver) (timestamp : Time) (event : ProgressEvent) :
    Option BehavioralEvent :=
  match event.componentId with
  | .str componentId => some {
      sessionId := o.sessionId
      userId := o.userId
      labSlug := o.labSlug
      timestamp
      eventType := event.eventType
      componentId := some componentId
      action := event.action
      success := event.success
      severity := none
      message := some event.message
      extraData := event.extraData.map fun fields => fields.map fun f => (f.1, f.2.dumpsSorted) }
  | _ => none

def touchObservedSession (poll : Poll) (w : Watched) : Watched :=
  if poll.touched then { w with row := w.row.map (·.touch poll.seenAt) } else w

namespace LabProgressObserver

variable (o : LabProgressObserver)

def ownedRow (row : Option SeenSession) :
    Option SeenSession := row.filter fun s => s.userId == o.userId

/-- The snapshot of a poll, or `none` where there is no spec or something raises. -/
def snapshot? (row : Option SeenSession) (poll : Poll) : Option (List StepRecord) := do
  let spec ← poll.spec
  guard poll.found
  let locale := match o.ownedRow row with
    | some s => negotiate s.locale
    | none => Validation.defaultLocale
  guard poll.reachable
  evaluateSpec o.catalogs locale poll.outcomes spec

def persist (poll : Poll) (events : List ProgressEvent) (w : Watched) : Watched :=
  if poll.mayCollect && poll.saved then
    match events.mapM (·.toRow o poll.timestamp) with
    | some rows => { w with events := w.events ++ rows }
    | none => w
  else w

/-- `_poll_cycle`, with what others did to the row until it has its snapshot. -/
def pollCycle (w : Watched) (poll : Poll) : Watched :=
  let row := poll.before w.row
  let w := { w with row := poll.meanwhile row }
  match o.snapshot? row poll with
  | none => w
  | some snapshot =>
      let w := { w with state := some (deriveCurrentStep snapshot) }
      let events := diffSnapshots w.prevSnapshot snapshot
      let w := if events.isEmpty then w else o.persist poll events (touchObservedSession poll w)
      { w with prevSnapshot := some snapshot }

end LabProgressObserver

/-! ### What stamps the session -/

section Diff

variable {index : Dict String CheckRecord} {prev snapshot : List StepRecord} {c pc : CheckRecord}

/-- No event: the check was not there before, or it was ok and still is. -/
theorem diffCheck_eq_none :
    diffCheck index c = none ↔ ∀ pc, index.get? (checkKey c) = some pc → pc.ok = true
      ∧ c.ok = true := by
  unfold diffCheck
  cases index.get? (checkKey c) with
  | none => simp
  | some pc =>
      cases hp : pc.ok with
      | true =>
          cases hc : c.ok with
          | true => simp [hp]
          | false => simp [hp]
      | false =>
          cases hc : c.ok with
          | true => simp [hp]
          | false =>
              by_cases hsame : sameActual pc c = true
              · simp [hp, hsame]
              · simp [hp, hsame]

theorem get?_foldl_set {checks : List CheckRecord} {key : String} :
    (checks.foldl (fun index c => index.set (checkKey c) c) index).get? key
      = ((checks.reverse.find? fun c => checkKey c == key).or (index.get? key)) := by
  induction checks generalizing index with
  | nil => rfl
  | cons c checks ih =>
      rw [List.foldl_cons, ih, Dict.get?_set, List.reverse_cons, List.find?_append]
      cases checks.reverse.find? fun c => checkKey c == key with
      | some found => rfl
      | none =>
          by_cases hkey : key = checkKey c
          · simp [hkey]
          · simp [hkey, Ne.symm hkey]

theorem get?_checkIndex (snapshot : List StepRecord) (key : String) : (checkIndex snapshot).get? key
    = (snapshot.flatMap (·.checks)).reverse.find? fun c => checkKey c == key := by
  have hempty : (({} : Dict String CheckRecord)).get? key = none := rfl
  rw [checkIndex, get?_foldl_set, hempty, Option.or_none]

/-- **A snapshot against itself.** Every check that fails is an event. -/
theorem diffSnapshots_self :
    diffSnapshots (some snapshot) snapshot = [] ↔ ∀ c ∈ snapshot.flatMap (·.checks),
      c.ok = true := by
  have hall : diffSnapshots (some snapshot) snapshot = []
      ↔ ∀ c ∈ snapshot.flatMap (·.checks), diffCheck (checkIndex snapshot) c = none := by
    rw [diffSnapshots, List.filterMap_eq_nil_iff]
  rw [hall]
  constructor
  · intro h c hc
    have hfound : (checkIndex snapshot).get? (checkKey c) ≠ none := by
      rw [get?_checkIndex]
      intro hnone
      have hmiss := List.find?_eq_none.mp hnone c (List.mem_reverse.mpr hc)
      simp at hmiss
    obtain ⟨pc, hpc⟩ := Option.ne_none_iff_exists'.mp hfound
    exact (diffCheck_eq_none.mp (h c hc) pc hpc).2
  · intro h c hc
    refine diffCheck_eq_none.mpr fun pc hpc => ⟨?_, h c hc⟩
    rw [get?_checkIndex] at hpc
    exact h pc (List.mem_reverse.mp (List.mem_of_find?_eq_some hpc))

end Diff

namespace LabProgressObserver

variable {o : LabProgressObserver} {w : Watched} {poll : Poll} {events : List ProgressEvent}

theorem row_persist : (o.persist poll events w).row = w.row := by
  unfold persist
  split
  · split
    · rfl
    · rfl
  · rfl

end LabProgressObserver

/-! ### The law -/

/-- What others made of the row when the poll has its snapshot. -/
def Poll.elsewhere (poll : Poll) (row : Option SeenSession) : Option SeenSession :=
  poll.meanwhile (poll.before row)

/-- The UPDATE of the poll, if it comes to one, finds a stale row and takes effect. -/
def Poll.Stamps (poll : Poll) (row : Option SeenSession) : Prop :=
  poll.touched = true ∧ ∃ s, poll.elsewhere row = some s ∧ s.isStale poll.seenAt = true

def Watched.lastSeenAt (w : Watched) : Option Time := w.row.map (·.lastSeenAt)

namespace LabProgressObserver

variable (o : LabProgressObserver)

def Unchanged (w : Watched) (poll : Poll) : Prop :=
  ∃ snapshot, o.snapshot? (poll.before w.row) poll = some snapshot ∧ w.prevSnapshot = some snapshot

/-- The poll does not write `last_seen_at`. -/
def Silent (w : Watched) (poll : Poll) : Prop :=
  (o.pollCycle w poll).lastSeenAt = (poll.elsewhere w.row).map (·.lastSeenAt)

/-- No request came, and the poll sees no change of the devices. -/
structure Quiet (w : Watched) (poll : Poll) : Prop where
  noRequest : poll.before w.row = w.row ∧ poll.meanwhile w.row = w.row
  noChange : ∀ snapshot prev, o.snapshot? (poll.before w.row) poll = some snapshot →
    w.prevSnapshot = some prev → snapshot = prev

/-- No poll that finds nothing new stamps the session, so none keeps an idle session from the
reclaimer. -/
structure HeartbeatIsNotActivity (w : Watched) (polls : List Poll) : Prop where
  silent : Everywhere o.pollCycle (fun w poll => o.Unchanged w poll → o.Silent w poll) w polls
  reclaimed : ∀ before stretch after, polls = before ++ (stretch ++ after) →
    Everywhere o.pollCycle o.Quiet (before.foldl o.pollCycle w) stretch →
      ∀ cutoff, (stretch.foldl o.pollCycle (before.foldl o.pollCycle w)).row.any (·.isIdle cutoff)
        = (before.foldl o.pollCycle w).row.any (·.isIdle cutoff)

/-- Nothing is new, but a check still fails, and the stamp is stale. -/
def KeepsAwake (w : Watched) (poll : Poll) : Prop :=
  o.Unchanged w poll ∧ poll.Stamps w.row
    ∧ ∃ spec, poll.spec = some spec ∧ ∃ result ∈ results poll.outcomes spec, result.ok = false

variable {o} {w : Watched} {poll : Poll} {snapshot : List StepRecord} {polls : List Poll}

theorem row_pollCycle_of_none (h : o.snapshot? (poll.before w.row) poll = none) :
    (o.pollCycle w poll).row = poll.elsewhere w.row := by
  simp only [pollCycle, h]
  rfl

theorem row_pollCycle_of_no_event (h : o.snapshot? (poll.before w.row) poll = some snapshot)
    (hevents : diffSnapshots w.prevSnapshot snapshot = []) :
    (o.pollCycle w poll).row = poll.elsewhere w.row := by
  simp only [pollCycle, h, hevents, List.isEmpty_nil, if_true]
  rfl

theorem row_pollCycle_of_event (h : o.snapshot? (poll.before w.row) poll = some snapshot)
    (hevents : diffSnapshots w.prevSnapshot snapshot ≠ []) : (o.pollCycle w poll).row
      = if poll.touched then (poll.elsewhere w.row).map (·.touch poll.seenAt)
        else poll.elsewhere w.row := by
  simp only [pollCycle, h, List.isEmpty_iff, hevents, if_false, row_persist, touchObservedSession]
  split
  · rfl
  · rfl

theorem prevSnapshot_pollCycle (h : o.snapshot? (poll.before w.row) poll = some snapshot) :
    (o.pollCycle w poll).prevSnapshot = some snapshot := by
  simp only [pollCycle, h]

theorem evaluateSpec_of_snapshot? {row : Option SeenSession}
    (h : o.snapshot? row poll = some snapshot) :
    ∃ spec locale, poll.spec = some spec
      ∧ evaluateSpec o.catalogs locale poll.outcomes spec = some snapshot := by
  simp only [snapshot?, Option.bind_eq_bind, Option.bind_eq_some_iff, Option.guard_eq_some'] at h
  obtain ⟨spec, hspec, -, -, -, -, hsnapshot⟩ := h
  exact ⟨spec, _, hspec, hsnapshot⟩

/-- A poll changes no column of the row but the stamp. -/
theorem silent_iff : o.Silent w poll ↔ (o.pollCycle w poll).row = poll.elsewhere w.row := by
  unfold Silent Watched.lastSeenAt
  refine ⟨fun h => ?_, fun h => by rw [h]⟩
  cases hsnapshot : o.snapshot? (poll.before w.row) poll with
  | none => exact row_pollCycle_of_none hsnapshot
  | some snapshot =>
      by_cases hevents : diffSnapshots w.prevSnapshot snapshot = []
      · exact row_pollCycle_of_no_event hsnapshot hevents
      · rw [row_pollCycle_of_event hsnapshot hevents] at h ⊢
        split
        · rename_i htouched
          rw [if_pos htouched] at h
          cases hrow : poll.elsewhere w.row with
          | none => rfl
          | some s =>
              rw [hrow, Option.map_some, Option.map_some, Option.map_some, Option.some.injEq] at h
              rw [Option.map_some, SeenSession.touch,
                if_neg (SeenSession.lastSeenAt_touch_eq_iff.mp h)]
        · rfl

/-- **One poll.** Of those that see nothing new, it stamps exactly those where a check fails. -/
theorem silent_of_unchanged_iff (hunchanged : o.Unchanged w poll) :
    o.Silent w poll ↔ ¬ o.KeepsAwake w poll := by
  obtain ⟨snapshot, hsnapshot, hprev⟩ := hunchanged
  obtain ⟨spec, locale, hspec, heval⟩ := evaluateSpec_of_snapshot? hsnapshot
  have hself : diffSnapshots w.prevSnapshot snapshot = []
      ↔ ∀ result ∈ results poll.outcomes spec, result.ok = true := by
    rw [hprev, diffSnapshots_self, Validation.evaluateSpec_ok heval]
  have hawake : o.KeepsAwake w poll
      ↔ poll.Stamps w.row ∧ ∃ result ∈ results poll.outcomes spec, result.ok = false := by
    constructor
    · rintro ⟨-, hstamps, spec', hspec', hfails⟩
      rw [hspec, Option.some.injEq] at hspec'
      exact ⟨hstamps, hspec' ▸ hfails⟩
    · rintro ⟨hstamps, hfails⟩
      exact ⟨⟨snapshot, hsnapshot, hprev⟩, hstamps, spec, hspec, hfails⟩
  rw [hawake, silent_iff]
  by_cases hok : ∀ result ∈ results poll.outcomes spec, result.ok = true
  · refine iff_of_true (row_pollCycle_of_no_event hsnapshot (hself.mpr hok)) ?_
    rintro ⟨-, result, hmem, hfails⟩
    rw [hok result hmem] at hfails
    cases hfails
  · have hfails : ∃ result ∈ results poll.outcomes spec, result.ok = false := by
      push Not at hok
      obtain ⟨result, hmem, hne⟩ := hok
      exact ⟨result, hmem, Bool.eq_false_iff.mpr hne⟩
    rw [row_pollCycle_of_event hsnapshot (mt hself.mp hok), and_iff_left hfails,
      Poll.Stamps, not_and]
    by_cases htouched : poll.touched = true
    · cases hrow : poll.elsewhere w.row with
      | none => simp
      | some s =>
          have hsame : s.touch poll.seenAt = s ↔ ¬ s.isStale poll.seenAt = true := by
            rw [← SeenSession.lastSeenAt_touch_eq_iff]
            refine ⟨fun h => by rw [h], fun h => ?_⟩
            rw [SeenSession.touch, if_neg (SeenSession.lastSeenAt_touch_eq_iff.mp h)]
          simp [htouched, hsame]
    · simp [htouched]

theorem row_of_quiet (hquiet : o.Quiet w poll) (hsilent : o.Unchanged w poll → o.Silent w poll) :
    (o.pollCycle w poll).row = w.row := by
  have helsewhere : poll.elsewhere w.row = w.row := by
    rw [Poll.elsewhere, hquiet.noRequest.1, hquiet.noRequest.2]
  rw [← helsewhere]
  cases hsnapshot : o.snapshot? (poll.before w.row) poll with
  | none => rw [row_pollCycle_of_none hsnapshot, helsewhere]
  | some snapshot =>
      cases hprev : w.prevSnapshot with
      | none => rw [row_pollCycle_of_no_event hsnapshot (by rw [hprev]; rfl), helsewhere]
      | some prev =>
          have heq : snapshot = prev := hquiet.noChange snapshot prev hsnapshot hprev
          have hunchanged : o.Unchanged w poll := ⟨snapshot, hsnapshot, heq ▸ hprev⟩
          rw [silent_iff.mp (hsilent hunchanged), helsewhere]

/-- **When the heartbeat is not activity**: exactly where no poll keeps the session awake. -/
theorem heartbeat_iff (o : LabProgressObserver) (w : Watched) (polls : List Poll) :
    o.HeartbeatIsNotActivity w polls
      ↔ Everywhere o.pollCycle (fun w poll => ¬ o.KeepsAwake w poll) w polls := by
  constructor
  · intro h
    refine h.silent.mono fun w poll hsilent hawake => ?_
    exact (silent_of_unchanged_iff hawake.1).mp (hsilent hawake.1) hawake
  · intro h
    have hsilent : Everywhere o.pollCycle (fun w poll => o.Unchanged w poll →
        o.Silent w poll) w polls :=
      h.mono fun w poll hawake hunchanged => (silent_of_unchanged_iff hunchanged).mpr hawake
    refine ⟨hsilent, fun before stretch after heq hquiet cutoff => ?_⟩
    have hboth : Everywhere o.pollCycle
        (fun w poll => o.Quiet w poll ∧ (o.Unchanged w poll → o.Silent w poll))
        (before.foldl o.pollCycle w) stretch := by
      intro first poll rest hstretch
      refine ⟨hquiet first poll rest hstretch, ?_⟩
      have hpolls : polls = (before ++ first) ++ poll :: (rest ++ after) := by simp [heq, hstretch]
      have := hsilent (before ++ first) poll (rest ++ after) hpolls
      rwa [List.foldl_append] at this
    have hrow : (stretch.foldl o.pollCycle (before.foldl o.pollCycle w)).row
        = (before.foldl o.pollCycle w).row := by
      apply hboth.foldl (fun w' => w'.row = (before.foldl o.pollCycle w).row) rfl
      intro w' poll hinv hstep
      rw [row_of_quiet hstep.1 hstep.2, hinv]
    rw [hrow]

end LabProgressObserver

/-- A ping that is not answered, looked at twice with a minute between. -/
def unansweredPoll (seenAt : Time) : Poll where
  spec := some { steps := [{
    id := "ping"
    checks := [{ kind := "vpcs.ping", params := [("from", .str "PC1")] }] }] }
  outcomes _ _ := .returns { ok := false, actual := [("received", .ofNat 0)] }
  seenAt
  timestamp := seenAt

def pingObserver : LabProgressObserver where
  catalogs := Validation.plainCatalogs
  sessionId := 0
  userId := "ada"
  labSlug := "lan-static-ip"

def idleSince (lastSeenAt : Time) : SeenSession where
  id := 0
  userId := "ada"
  labSlug := "lan-static-ip"
  status := .active
  startedAt := 0
  endedAt := none
  expiresAt := none
  metaJson := none
  lastSeenAt

/-- **A failing check is a heartbeat.** Nothing changes, and the second poll stamps the session. -/
theorem failing_check_stamps : ¬ pingObserver.HeartbeatIsNotActivity
    { row := some (idleSince 0) }
    [unansweredPoll (Sessions.minutes 40), unansweredPoll (Sessions.minutes 41)] := by
  intro h
  have hsecond := h.silent [unansweredPoll (Sessions.minutes 40)]
      (unansweredPoll (Sessions.minutes 41)) [] rfl
  have hunchanged : pingObserver.Unchanged
      (pingObserver.pollCycle { row := some (idleSince 0) } (unansweredPoll (Sessions.minutes 40)))
      (unansweredPoll (Sessions.minutes 41)) :=
    ⟨_, rfl, LabProgressObserver.prevSnapshot_pollCycle rfl⟩
  refine (LabProgressObserver.silent_of_unchanged_iff hunchanged).mp (hsecond hunchanged)
    ⟨hunchanged, ?_, ?_⟩
  · have hfirst : (pingObserver.pollCycle { row := some (idleSince 0) }
        (unansweredPoll (Sessions.minutes 40))).row = some (idleSince 0) :=
      LabProgressObserver.row_pollCycle_of_no_event rfl rfl
    exact ⟨rfl, idleSince 0, hfirst, by decide⟩
  · exact ⟨_, rfl, _, List.mem_singleton_self _, rfl⟩

end OnlinetLabs.Analytics
