import Mathlib.Algebra.Group.Nat.Defs
import OnlinetLabs.Gns3.Realtime
import OnlinetLabs.Lib.Journal
import OnlinetLabs.Lib.Runs

/-!
# The supervised forwarder

`_supervised_forward` keeps a connection to the notifications of a GNS3 project. When an attempt
fails or the connection is lost it waits and tries again, and before every attempt but the first it
tells the session's channel that the stream is degraded.

A run is a list of what the awaits of the loop come to. A connection is lost when it closes or
breaks; a forwarder that is cancelled leaves it.
-/

namespace OnlinetLabs.Gns3.Supervision

def backoffDelay (attempt : Nat) : Nat :=
  if attempt = 0 then 1 else min 30 (2 ^ attempt)

/-- The event of `_publish_envelope`. -/
def envelope (timestamp eventType : String) (payload : Json) : Json :=
  .obj [("type", .str eventType), ("timestamp", .str timestamp), ("payload", payload)]

/-- What `_forward_loop` publishes for a message, or nothing where it raises: what is no object has
no `get`. -/
def forwarded (timestamp : String) (raw : Text) : Option (List Json) :=
  match Json.parse raw with
  | none => some []
  | some (.obj _) => some (forwardMessage timestamp raw).toList
  | some _ => none

/-- What is seen of a forwarder from outside. -/
inductive Event where
  | published (event : Json)
  | attempted
  | established
  | lost
  | slept (seconds : Nat)

/-- Whether it is an event of the type, published. -/
def Event.IsA (eventType : String) : Event → Prop
  | .published event => event.field? "type" = some (.str eventType)
  | _ => False

inductive Pc where
  | publishing
  | connecting
  | forwarding
  | sleeping
  | returned
deriving Repr, DecidableEq

structure Supervisor where
  attempt : Nat := 0
  pc : Pc := .sleeping
  events : List Event := []

namespace Supervisor

variable (s : Supervisor)

def record (event : Event) : Supervisor := { s with events := s.events ++ [event] }

def await (pc : Pc) : Supervisor := { s with pc := pc }

def setAttempt (attempt : Nat) : Supervisor := { s with attempt := attempt }

/-- `_forward_loop` is called. -/
def connect : Supervisor := (s.record .attempted).await .connecting

def enter : Supervisor := if s.attempt > 0 then s.await .publishing else s.connect

def publishAll (events : List Json) :
    Supervisor := { s with events := s.events ++ events.map .published }

def backOff : Supervisor :=
  ((s.setAttempt (s.attempt + 1)).record (.slept (backoffDelay (s.attempt + 1)))).await .sleeping

def init : Supervisor := enter {}

variable {s} {event : Event} {pc : Pc} {attempt : Nat} {events : List Json}

@[simp] theorem record_events : (s.record event).events = s.events ++ [event] := rfl

@[simp] theorem await_events : (s.await pc).events = s.events := rfl

@[simp] theorem setAttempt_events : (s.setAttempt attempt).events = s.events := rfl

@[simp] theorem connect_events : s.connect.events = s.events ++ [.attempted] := rfl

@[simp] theorem publishAll_events :
    (s.publishAll events).events = s.events ++ events.map .published := rfl

@[simp] theorem backOff_events :
    s.backOff.events = s.events ++ [.slept (backoffDelay (s.attempt + 1))] := rfl

@[simp] theorem init_events : init.events = [.attempted] := rfl

end Supervisor

/-- What an await comes to. -/
inductive Move where
  | published (timestamp : String)
  | refused
  | established
  | message (timestamp : String) (raw : Text)
  | closed
  | broke
  | slept
  | cancelled

/-- `_supervised_forward`, from one await to the next. -/
def step (s : Supervisor) (move : Move) : Option Supervisor :=
  match s.pc, move with
  | .publishing, .published timestamp =>
      some (s.record (.published (envelope timestamp "stream.degraded"
        (.obj [("reason", .str ("reconnect attempt " ++ toString s.attempt))])))).connect
  | .connecting, .refused => some s.backOff
  | .connecting, .established => some ((s.record .established).await .forwarding)
  | .forwarding, .message timestamp raw =>
      match forwarded timestamp raw with
      | some events => some (s.publishAll events)
      | none => some (s.record .lost).backOff
  -- Only a graceful end resets the counter.
  | .forwarding, .closed => some ((s.record .lost).setAttempt 0).backOff
  | .forwarding, .broke => some (s.record .lost).backOff
  | .sleeping, .slept => some s.enter
  | .returned, .cancelled => none
  | _, .cancelled => some (s.await .returned)
  | _, _ => none

def Move.LosesConnection : Move → Prop
  | .closed | .broke => True
  | .message timestamp raw => forwarded timestamp raw = none
  | _ => False

variable {s t : Supervisor} {move : Move} {moves : List Move} {events : List Event} {e : Event}
  {timestamp : String} {raw : Text} {json : Json}

/-! ### The protocol -/

/-- An established connection was lost and no `answers` came since. -/
def LostSince (answers : Event → Prop) (events : List Event) : Prop :=
  Unanswered (fun _ e => e = .lost) answers events

/-- A connection was established after the stream was degraded, and no `stream.restored` came
since. -/
def RestoreOwed (events : List Event) : Prop :=
  Unanswered (fun before e => e = .established ∧ ∃ d ∈ before, d.IsA "stream.degraded")
    (·.IsA "stream.restored")
    events

/-- Every event is justified by those before it. -/
structure Alternates (events : List Event) : Prop where
  degraded_first :
    Justified (fun before e => e = .attempted → ¬ LostSince (·.IsA "stream.degraded") before) events
  restored_first : Justified (fun before e => e.IsA "stream.degraded" → ¬ RestoreOwed before) events
  first_delay : Justified (fun before e => ∀ seconds, e = .slept seconds →
    LostSince (fun e => ∃ seconds, e = .slept seconds) before → seconds = backoffDelay 0) events

/-! ### What a step does -/

def degraded (s : Supervisor) (timestamp : String) : Json :=
  envelope timestamp "stream.degraded"
    (.obj [("reason", .str ("reconnect attempt " ++ toString s.attempt))])

inductive Moves (s : Supervisor) : Move → Supervisor → Prop where
  | published {timestamp : String} (hpc : s.pc = .publishing) :
      Moves s (.published timestamp) (s.record (.published (degraded s timestamp))).connect
  | refused (hpc : s.pc = .connecting) : Moves s .refused s.backOff
  | established (hpc : s.pc = .connecting) : Moves s .established
      ((s.record .established).await .forwarding)
  | message {timestamp : String} {raw : Text} {jsons : List Json} (hpc : s.pc = .forwarding)
      (hraw : forwarded timestamp raw = some jsons) : Moves s (.message timestamp raw)
        (s.publishAll jsons)
  | lost {move : Move} (attempt : Nat) (hpc : s.pc = .forwarding) (hmove : move.LosesConnection) :
      Moves s move ((s.record .lost).setAttempt attempt).backOff
  | slept (hpc : s.pc = .sleeping) : Moves s .slept s.enter
  | cancelled : Moves s .cancelled (s.await .returned)

theorem moves_of_step (h : step s move = some t) : Moves s move t := by
  obtain ⟨attempt, pc, events⟩ := s
  cases pc <;> cases move <;> simp only [step, reduceCtorEq, Option.some.injEq] at h
  case publishing.published timestamp => exact h ▸ .published rfl
  case connecting.refused => exact h ▸ .refused rfl
  case connecting.established => exact h ▸ .established rfl
  case sleeping.slept => exact h ▸ .slept rfl
  case forwarding.closed => exact h ▸ .lost 0 rfl trivial
  case forwarding.broke => exact h ▸ .lost attempt rfl trivial
  case forwarding.message timestamp raw =>
    cases hraw : forwarded timestamp raw with
    | some jsons =>
      rw [hraw] at h
      cases h
      exact .message rfl hraw
    | none =>
      rw [hraw] at h
      cases h
      exact .lost attempt rfl hraw
  all_goals exact h ▸ .cancelled

theorem isA_degraded : (Event.published (degraded s timestamp)).IsA "stream.degraded" := rfl

theorem type_of_translate {action gnsEvent : Json}
    (h : translate timestamp action gnsEvent = some json) :
    json.field? "type" = some (.str "node.status_changed") := by
  unfold translate at h
  split at h
  · cases h
    rfl
  · cases h

/-- No message makes the forwarder publish a control event. -/
theorem type_of_forwarded {jsons : List Json} (h : forwarded timestamp raw = some jsons)
    (hmem : json ∈ jsons) :
    json.field? "type" = some (.str "node.status_changed") := by
  unfold forwarded at h
  split at h
  · cases h
    cases hmem
  · cases h
    have hjson : forwardMessage timestamp raw = some json := by simpa using hmem
    unfold forwardMessage at hjson
    split at hjson
    · cases hjson
    · exact type_of_translate hjson
  · cases h

/-- What a forwarder publishes is of one of two types. -/
def Announced (events : List Event) : Prop :=
  ∀ json, .published json ∈ events →
    json.field? "type" = some (.str "node.status_changed")
      ∨ json.field? "type" = some (.str "stream.degraded")

theorem announced_moves (hs : Announced s.events) (h : Moves s move t) : Announced t.events := by
  intro json hmem
  cases h with
  | published hpc =>
    simp only [Supervisor.connect_events, Supervisor.record_events, List.mem_append,
      List.mem_singleton, Event.published.injEq, reduceCtorEq, or_false] at hmem
    rcases hmem with hmem | rfl
    · exact hs json hmem
    · exact Or.inr rfl
  | message hpc hraw =>
    simp only [Supervisor.publishAll_events, List.mem_append, List.mem_map, Event.published.injEq,
      exists_eq_right] at hmem
    rcases hmem with hmem | hmem
    · exact hs json hmem
    · exact Or.inl (type_of_forwarded hraw hmem)
  | slept hpc =>
    unfold Supervisor.enter at hmem
    split at hmem
    · exact hs json hmem
    · exact hs json (by simpa using hmem)
  | refused hpc => exact hs json (by simpa using hmem)
  | established hpc => exact hs json (by simpa using hmem)
  | lost _ hpc hmove => exact hs json (by simpa using hmem)
  | cancelled => exact hs json hmem

theorem announced_run (h : Runs.run step .init moves = some t) : Announced t.events :=
  Runs.invariant (P := fun s => Announced s.events)
    (fun _ _ _ hs hstep => announced_moves hs (moves_of_step hstep)) h
    (by simp [Announced])

/-- **No run publishes that the stream is restored.** -/
theorem not_isA_restored (h : Runs.run step .init moves = some t) (hmem : e ∈ t.events) :
    ¬ e.IsA "stream.restored" := by
  cases e with
  | published json =>
    intro hrestored
    have htype : json.field? "type" = some (.str "stream.restored") := hrestored
    rcases announced_run h json hmem with hjson | hjson
    · simp [hjson] at htype
    · simp [hjson] at htype
  | attempted => exact id
  | established => exact id
  | lost => exact id
  | slept seconds => exact id

/-! ### The page -/

def Event.json? : Event → Option Json
  | .published json => some json
  | _ => none

theorem property_of_field {name : String} {value : Json} (h : json.field? name = some value) :
    property name (some json) = some (some value) := by
  cases json with
  | null => cases h
  | _ => exact congrArg some h

theorem streamStatus_patch {view view' : RealtimeView}
    {f : FullSessionState → Option FullSessionState}
    (h : view.patch f = some view') : view'.streamStatus = view.streamStatus := by
  unfold RealtimeView.patch at h
  split at h
  · cases h
    rfl
  · obtain ⟨state, -, rfl⟩ := Option.map_eq_some_iff.mp h
    rfl

theorem streamStatus_applyEvent {view : RealtimeView} (hview : view.streamStatus = .degraded)
    (hjson : json.field? "type" = some (.str "node.status_changed")
      ∨ json.field? "type" = some (.str "stream.degraded")) :
    ((view.applyEvent json).getD view).streamStatus = .degraded := by
  cases happly : view.applyEvent json with
  | none => exact hview
  | some view' =>
    rcases hjson with htype | htype
    · simp only [RealtimeView.applyEvent, property_of_field htype] at happly
      exact (streamStatus_patch happly).trans hview
    · simp only [RealtimeView.applyEvent, property_of_field htype] at happly
      cases happly
      rfl

/-- **A page that shows the stream degraded goes on showing it**, whatever the forwarder
publishes. -/
theorem stays_degraded {view : RealtimeView} (h : Runs.run step .init moves = some t)
    (hview : view.streamStatus = .degraded) :
    ((t.events.filterMap Event.json?).foldl (fun view json => (view.applyEvent json).getD view)
      view).streamStatus
      = .degraded := by
  apply List.foldlRecOn (motive := fun view : RealtimeView =>
    view.streamStatus = .degraded) _ _ hview
  intro view hview json hjson
  obtain ⟨e, hmem, he⟩ := List.mem_filterMap.mp hjson
  cases e with
  | published json' =>
    cases he
    exact streamStatus_applyEvent hview (announced_run h json hmem)
  | _ => cases he

/-! ### Before an attempt -/

/-- A loss that nobody was told of is about to be told. -/
structure Notified (s : Supervisor) : Prop where
  counted : s.pc = .sleeping → 0 < s.attempt
  owed : LostSince (·.IsA "stream.degraded") s.events → s.pc = .publishing ∨ s.pc = .sleeping
    ∨ s.pc = .returned
  told : Justified (fun before e => e = .attempted → ¬ LostSince (·.IsA "stream.degraded") before)
    s.events

theorem lostSince_concat {answers : Event → Prop} :
    LostSince answers (events ++ [e]) ↔ e = .lost ∨ (¬ answers e ∧ LostSince answers events) :=
  unanswered_concat

theorem notified_enter (hs : Notified s) (hpc : s.pc = .sleeping) : Notified s.enter := by
  have hcounted : s.attempt > 0 := hs.counted hpc
  unfold Supervisor.enter
  rw [if_pos hcounted]
  exact ⟨(fun h => by cases h), fun _ => Or.inl rfl, hs.told⟩

theorem notified_moves (hs : Notified s) (h : Moves s move t) : Notified t := by
  cases h with
  | published hpc =>
    refine ⟨(fun h => by cases h), fun h => ?_, ?_⟩
    · obtain hlost | ⟨-, hlost⟩ := lostSince_concat.mp h
      · cases hlost
      · obtain hlost | ⟨hsilent, -⟩ := lostSince_concat.mp hlost
        · cases hlost
        · exact absurd isA_degraded hsilent
    · apply (hs.told.concat fun h => by cases h).concat
      intro _ hlost
      obtain hlost | ⟨hsilent, -⟩ := lostSince_concat.mp hlost
      · cases hlost
      · exact hsilent isA_degraded
  | refused hpc =>
    refine ⟨fun _ => Nat.succ_pos _, fun _ => Or.inr (Or.inl rfl), ?_⟩
    exact hs.told.concat fun h => by cases h
  | established hpc =>
    refine ⟨(fun h => by cases h), fun h => ?_, hs.told.concat fun h => by cases h⟩
    obtain hlost | ⟨-, hlost⟩ := lostSince_concat.mp h
    · cases hlost
    · have howed := hs.owed hlost
      simp [hpc] at howed
  | message hpc hraw =>
    have hquiet : ∀ jsons : List Json, ∀ e ∈ jsons.map Event.published, e ≠ .attempted
        ∧ e ≠ .lost := by
      intro jsons e hmem
      obtain ⟨json, -, rfl⟩ := List.mem_map.mp hmem
      exact ⟨by simp, by simp⟩
    refine ⟨fun h => absurd (hpc.symm.trans h) (by decide), fun h => ?_, ?_⟩
    · have howed := hs.owed (h.of_append fun e hmem _ => (hquiet _ e hmem).2)
      simp [hpc] at howed
    · exact hs.told.append fun e hmem _ he => absurd he (hquiet _ e hmem).1
  | lost _ hpc hmove =>
    refine ⟨fun _ => Nat.succ_pos _, fun _ => Or.inr (Or.inl rfl), ?_⟩
    exact (hs.told.concat fun h => by cases h).concat fun h => by cases h
  | slept hpc => exact notified_enter hs hpc
  | cancelled => exact ⟨(fun h => by cases h), fun _ => Or.inr (Or.inr rfl), hs.told⟩

/-- **Every loss is told before the next attempt**, in every run. -/
theorem degraded_first (h : Runs.run step .init moves = some t) :
    Justified (fun before e => e = .attempted →
      ¬ LostSince (·.IsA "stream.degraded") before) t.events := by
  have hinit : Notified .init := by
    refine ⟨(fun h => by cases h), fun h => ?_, justified_nil.concat fun _ => not_unanswered_nil⟩
    obtain hlost | ⟨-, hlost⟩ := lostSince_concat.mp h
    · cases hlost
    · exact absurd hlost not_unanswered_nil
  exact (Runs.invariant (fun _ _ _ hs hstep => notified_moves hs (moves_of_step hstep)) h
    hinit).told

/-! ### Where nothing is lost -/

/-- Until a connection is lost there is one at most, and it is the last thing that is heard of. -/
structure Unbroken (s : Supervisor) : Prop where
  kept : .lost ∉ s.events
  last : .established ∈ s.events → s.pc = .forwarding ∨ s.pc = .returned
  alternates : Alternates s.events

theorem alternates_concat :
    Alternates (events ++ [e]) ↔ Alternates events
      ∧ (e = .attempted → ¬ LostSince (·.IsA "stream.degraded") events)
      ∧ (e.IsA "stream.degraded" → ¬ RestoreOwed events)
      ∧ (∀ seconds, e = .slept seconds → LostSince (fun e => ∃ seconds, e = .slept seconds) events →
          seconds = backoffDelay 0) := by
  constructor
  · rintro ⟨htold, hrestored, hdelay⟩
    rw [justified_concat] at htold hrestored hdelay
    exact ⟨⟨htold.1, hrestored.1, hdelay.1⟩, htold.2, hrestored.2, hdelay.2⟩
  · rintro ⟨⟨htold, hrestored, hdelay⟩, h₁, h₂, h₃⟩
    exact ⟨htold.concat h₁, hrestored.concat h₂, hdelay.concat h₃⟩

theorem not_lostSince {answers : Event → Prop} (h : .lost ∉ events) : ¬ LostSince answers events :=
  not_unanswered_of_forall fun _ he _ hlost => h (hlost ▸ he)

theorem not_restoreOwed (h : .established ∉ events) : ¬ RestoreOwed events :=
  not_unanswered_of_forall fun _ he _ hest => h (hest.1 ▸ he)

/-- What is recorded while nothing was lost, and, if it is a control event, no connection was
established. -/
theorem alternates_record (hevents : Alternates events) (hkept : .lost ∉ events)
    (hnew : e.IsA "stream.degraded" → .established ∉ events) : Alternates (events ++ [e]) :=
  alternates_concat.mpr ⟨hevents, fun _ => not_lostSince hkept, fun h => not_restoreOwed (hnew h),
    fun _ _ h => absurd h (not_lostSince hkept)⟩

theorem unbroken_moves (hs : Unbroken s) (h : Moves s move t) (hmove : ¬ move.LosesConnection) :
    Unbroken t := by
  have hnone : s.pc ≠ .forwarding → s.pc ≠ .returned → .established ∉ s.events := by
    intro hforwarding hreturned hmem
    exact (hs.last hmem).elim hforwarding hreturned
  cases h with
  | @published timestamp hpc =>
    have hquiet : .established ∉ s.events := hnone (by simp [hpc]) (by simp [hpc])
    have hkept : .lost ∉ s.events ++ [.published (degraded s timestamp)] := by simp [hs.kept]
    refine ⟨by simpa using hs.kept, ?_, ?_⟩
    · intro hmem
      simp [hquiet] at hmem
    · apply alternates_record (alternates_record hs.alternates hs.kept fun _ => hquiet) hkept
      exact False.elim
  | refused hpc =>
    have hquiet : .established ∉ s.events := hnone (by simp [hpc]) (by simp [hpc])
    refine ⟨by simpa using hs.kept,
      ?_, alternates_record hs.alternates hs.kept False.elim⟩
    intro hmem
    simp [hquiet] at hmem
  | established hpc =>
    exact ⟨by simpa using hs.kept, fun _ => Or.inl rfl,
      alternates_record hs.alternates hs.kept False.elim⟩
  | message hpc hraw =>
    have hadded : ∀ jsons : List Json,
        (∀ json ∈ jsons, json.field? "type" = some (.str "node.status_changed")) →
          Alternates (s.events ++ jsons.map .published)
            ∧ .lost ∉ s.events ++ jsons.map .published := by
      intro jsons
      induction jsons using List.reverseRecOn with
      | nil => exact fun _ => ⟨by simpa using hs.alternates, by simpa using hs.kept⟩
      | append_singleton jsons json ih =>
        intro htype
        obtain ⟨halternates, hkept⟩ := ih fun json' hmem => htype json' (by simp [hmem])
        rw [List.map_append, ← List.append_assoc]
        refine ⟨alternates_record halternates hkept fun hdegraded => ?_, by simpa using hkept⟩
        have hfield : json.field? "type" = some (.str "stream.degraded") := hdegraded
        simp [htype json (by simp)] at hfield
    obtain ⟨halternates, hkept⟩ := hadded _ fun json hmem => type_of_forwarded hraw hmem
    exact ⟨hkept, fun _ => Or.inl hpc, halternates⟩
  | lost _ hpc hlost => exact absurd hlost hmove
  | slept hpc =>
    have hquiet : .established ∉ s.events := hnone (by simp [hpc]) (by simp [hpc])
    unfold Supervisor.enter
    split
    · exact ⟨hs.kept, fun hmem => absurd hmem hquiet, hs.alternates⟩
    · refine ⟨by simpa using hs.kept, ?_,
        alternates_record hs.alternates hs.kept False.elim⟩
      intro hmem
      simp [hquiet] at hmem
  | cancelled => exact ⟨hs.kept, fun _ => Or.inr rfl, hs.alternates⟩

theorem backoffDelay_ne (attempt : Nat) : backoffDelay (attempt + 1) ≠ backoffDelay 0 := by
  have hpow : 2 ≤ 2 ^ (attempt + 1) := by
    rw [Nat.pow_succ]
    have hpos : 0 < 2 ^ attempt := Nat.two_pow_pos attempt
    omega
  have hleft : backoffDelay (attempt + 1) = min 30 (2 ^ (attempt + 1)) :=
    if_neg (Nat.succ_ne_zero attempt)
  have hright : backoffDelay 0 = 1 := rfl
  omega

/-- The retry after a loss is never made after the first delay. -/
theorem not_alternates_of_lost (h : Moves s move t) (hmove : move.LosesConnection) :
    ¬ Alternates t.events := by
  intro halternates
  cases h with
  | lost _ hpc hlost =>
    obtain ⟨-, -, -, hdelay⟩ := alternates_concat.mp halternates
    exact backoffDelay_ne _ (hdelay _ rfl (lostSince_concat.mpr (Or.inl rfl)))
  | message hpc hraw => simp [Move.LosesConnection, hraw] at hmove
  | published hpc => exact hmove
  | refused hpc => exact hmove
  | established hpc => exact hmove
  | slept hpc => exact hmove
  | cancelled => exact hmove

theorem events_moves (h : Moves s move t) : ∃ added, t.events = s.events ++ added := by
  cases h with
  | published hpc => exact ⟨_, List.append_assoc _ _ _⟩
  | refused hpc => exact ⟨_, rfl⟩
  | established hpc => exact ⟨_, rfl⟩
  | message hpc hraw => exact ⟨_, rfl⟩
  | lost _ hpc hmove => exact ⟨_, List.append_assoc _ _ _⟩
  | slept hpc =>
    unfold Supervisor.enter
    split
    · exact ⟨[], (List.append_nil _).symm⟩
    · exact ⟨_, rfl⟩
  | cancelled => exact ⟨[], (List.append_nil _).symm⟩

theorem Alternates.of_moves (halternates : Alternates t.events) (h : Moves s move t) :
    Alternates s.events := by
  obtain ⟨added, hadded⟩ := events_moves h
  rw [hadded] at halternates
  exact ⟨halternates.degraded_first.of_append, halternates.restored_first.of_append,
    halternates.first_delay.of_append⟩

theorem Alternates.of_run (halternates : Alternates t.events) (h : Runs.run step s moves = some t) :
    Alternates s.events := by
  induction moves generalizing s with
  | nil =>
    rw [Runs.run_nil, Option.some.injEq] at h
    exact h ▸ halternates
  | cons move moves ih =>
    obtain ⟨s', hstep, hrest⟩ := Runs.run_cons.mp h
    exact (ih hrest).of_moves (moves_of_step hstep)

theorem not_losesConnection (h : Runs.run step s moves = some t)
    (halternates : Alternates t.events) :
    ∀ move ∈ moves, ¬ move.LosesConnection := by
  induction moves generalizing s with
  | nil => simp
  | cons move moves ih =>
    obtain ⟨s', hstep, hrest⟩ := Runs.run_cons.mp h
    rw [List.forall_mem_cons]
    refine ⟨fun hmove => ?_, ih hrest⟩
    exact not_alternates_of_lost (moves_of_step hstep) hmove (halternates.of_run hrest)

theorem unbroken_init : Unbroken .init := by
  refine ⟨?_, ?_,
    alternates_record ⟨justified_nil, justified_nil, justified_nil⟩ (by simp) False.elim⟩
  · simp
  · simp

/-- **The events of a run alternate exactly where no established connection is lost.** -/
theorem alternates_iff (h : Runs.run step .init moves = some t) :
    Alternates t.events ↔ ∀ move ∈ moves, ¬ move.LosesConnection := by
  constructor
  · exact not_losesConnection h
  · intro hmoves
    have hunbroken : Unbroken t :=
      Runs.invariant_of_labels (Q := fun move : Move => ¬ move.LosesConnection)
        (fun _ _ _ hs hmove hstep => unbroken_moves hs (moves_of_step hstep) hmove) hmoves h
          unbroken_init
    exact hunbroken.alternates

theorem alternates_once_established :
    ∃ t, Runs.run step .init
        [.refused, .slept, .published "2026-09-01T10:00:02+00:00", .established,
          .cancelled] = some t
      ∧ Alternates t.events := by
  have hrun : Runs.run step .init
      [.refused, .slept, .published "2026-09-01T10:00:02+00:00", .established, .cancelled]
        = some _ := rfl
  exact ⟨_, hrun, (alternates_iff hrun).mpr (by simp [Move.LosesConnection])⟩

/-- The connection closes, is established again and closes again: the page is told of the two losses
only. -/
theorem not_alternates_closed_twice :
    ∃ t, Runs.run step .init [.established, .closed, .slept, .published "2026-09-01T10:00:02+00:00",
      .established,
        .closed, .slept, .published "2026-09-01T10:00:04+00:00"] = some t
          ∧ ¬ Alternates t.events := by
  refine ⟨_, rfl, fun halternates => ?_⟩
  have hretry (timestamp : String) : (Event.published (envelope timestamp "stream.degraded"
      (.obj [("reason", .str "reconnect attempt 1")]))).IsA "stream.degraded" := rfl
  change Alternates [.attempted, .established, .lost, .slept 2,
    .published (envelope "2026-09-01T10:00:02+00:00" "stream.degraded"
      (.obj [("reason", .str "reconnect attempt 1")])), .attempted, .established, .lost, .slept 2,
    .published (envelope "2026-09-01T10:00:04+00:00" "stream.degraded"
      (.obj [("reason", .str "reconnect attempt 1")])), .attempted] at halternates
  have hnone := halternates.restored_first [_, _, _, _, _, _, _, _, _] _ [.attempted] rfl (hretry _)
  apply hnone
  refine ⟨[_, _, _, _, _, _], .established, [.lost, .slept 2], rfl, ⟨rfl, _, ?_,
    hretry "2026-09-01T10:00:02+00:00"⟩, by simp [Event.IsA]⟩
  simp

end OnlinetLabs.Gns3.Supervision
