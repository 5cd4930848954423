import OnlinetLabs.Console.Capture
import OnlinetLabs.Lib.Runs
import Mathlib.Data.List.Nodup

/-!
# The capture queue

What the taps submit waits in a queue until the flusher writes it, a batch at a time, the frames of
a batch in one transaction and its commands in another. `stop` cancels the flusher, wherever it
waits, and writes what is left itself. A batch is kept in flight until it is written, so that what a
cancellation interrupted is taken up again.

An item is told from an equal one by the place at which it was accepted. `accepted` and `committed`
are the histories of the queue and of the database.
-/

namespace OnlinetLabs.Console

def frameBytes : Item → Nat
  | .frame frame => frame.payload.length
  | .record record => record.command.length + record.response.length

def Item.isFrame : Item → Bool
  | .frame _ => true
  | .record _ => false

structure Entry where
  key : Nat
  item : Item
deriving DecidableEq

/-- The arguments of `ConsoleCapture`. -/
structure Settings where
  hasDb : Bool := true
  queueSize : Nat := 10000
  maxQueueBytes : Nat := 64 * 1024 * 1024
  batchSize : Nat := 200

structure ConsoleCapture where
  queue : List Entry := []
  queuedBytes : Nat := 0
  dropped : Nat := 0
  inFlight : List Entry := []
  accepted : List Entry := []
  committed : List Entry := []
deriving DecidableEq

inductive Failure where
  | raised
  | cancelled
deriving DecidableEq

inductive Outcome where
  | returned
  | failed (failure : Failure)
deriving DecidableEq

/-- Where `_drain_once` waits, and what is still to be written of the batch. Leaving a transaction
waits too, with the exception that is on its way out. -/
inductive Phase where
  | enterChunks (chunks records : List Entry)
  | commitChunks (chunks records : List Entry)
  | exitChunks (records : List Entry) (pending : Option Failure)
  | enterCommands (records : List Entry)
  | commitCommands (records : List Entry)
  | exitCommands (pending : Option Failure)
  | pause
deriving DecidableEq

/-- What `_drain_once` comes to: it waits, it returns, or it is cancelled. -/
inductive Progress where
  | waits (phase : Phase)
  | done
  | cancelled
deriving DecidableEq

namespace ConsoleCapture

variable (settings : Settings)

def drop (capture : ConsoleCapture) :
    ConsoleCapture := { capture with dropped := capture.dropped + 1 }

def submit (capture : ConsoleCapture) (item : Item) : ConsoleCapture :=
  let size := frameBytes item
  if settings.maxQueueBytes < capture.queuedBytes + size then capture.drop
  else if 0 < settings.queueSize && settings.queueSize ≤ capture.queue.length then capture.drop
  else
    let entry : Entry := ⟨capture.accepted.length, item⟩
    { capture with
      queue := capture.queue ++ [entry]
      queuedBytes := capture.queuedBytes + size
      accepted := capture.accepted ++ [entry] }

/-- The loop that fills a batch from the queue: what stays queued, its size, and the batch. -/
def fill : List Entry → Nat → List Entry → List Entry × Nat × List Entry
  | [], bytes, batch => ([], bytes, batch)
  | entry :: queue, bytes, batch =>
    if batch.length < settings.batchSize then
      fill queue (bytes - frameBytes entry.item) (batch ++ [entry])
    else (entry :: queue, bytes, batch)

/-- The end of `_write`, and of a turn of `_drain_once`. -/
def endWrite (capture : ConsoleCapture) : ConsoleCapture × Progress :=
  ({ capture with inFlight := [] }, .waits .pause)

/-- The second half of `_write`. -/
def writeCommands (capture : ConsoleCapture) (records : List Entry) : ConsoleCapture × Progress :=
  if records.isEmpty then capture.endWrite else (capture, .waits (.enterCommands records))

def write (capture : ConsoleCapture) (batch : List Entry) : ConsoleCapture × Progress :=
  let chunks := batch.filter (·.item.isFrame)
  let records := batch.filter (!·.item.isFrame)
  if chunks.isEmpty then capture.writeCommands records
  else (capture, .waits (.enterChunks chunks records))

/-- A turn of `_drain_once`, up to its first await. -/
def drainOnce (capture : ConsoleCapture) : ConsoleCapture × Progress :=
  if !settings.hasDb then (capture, .done)
  else
    let (queue, queuedBytes, batch) :=
      fill settings capture.queue capture.queuedBytes capture.inFlight
    let capture := { capture with queue, queuedBytes, inFlight := batch }
    if batch.isEmpty then (capture, .done) else capture.write batch

/-- From one await of `_drain_once` to the next. -/
def resume (capture : ConsoleCapture) : Phase → Outcome → ConsoleCapture × Progress
  | .enterChunks chunks records, .returned => (capture, .waits (.commitChunks chunks records))
  | .enterChunks _ records, .failed .raised => capture.writeCommands records
  | .enterChunks _ _, .failed .cancelled => (capture, .cancelled)
  | .commitChunks chunks records, .returned =>
    ({ capture with committed := capture.committed ++ chunks, inFlight := records },
      .waits (.exitChunks records none))
  | .commitChunks _ records, .failed failure =>
      (capture, .waits (.exitChunks records (some failure)))
  | .exitChunks _ (some .cancelled), .returned => (capture, .cancelled)
  | .exitChunks records _, .returned => capture.writeCommands records
  | .exitChunks records _, .failed .raised => capture.writeCommands records
  | .exitChunks _ _, .failed .cancelled => (capture, .cancelled)
  | .enterCommands records, .returned => (capture, .waits (.commitCommands records))
  | .enterCommands _, .failed .raised => capture.endWrite
  | .enterCommands _, .failed .cancelled => (capture, .cancelled)
  | .commitCommands records, .returned =>
    ({ capture with committed := capture.committed ++ records, inFlight := [] },
      .waits (.exitCommands none))
  | .commitCommands _, .failed failure => (capture, .waits (.exitCommands (some failure)))
  | .exitCommands (some .cancelled), .returned => (capture, .cancelled)
  | .exitCommands _, .returned => capture.endWrite
  | .exitCommands _, .failed .raised => capture.endWrite
  | .exitCommands _, .failed .cancelled => (capture, .cancelled)
  | .pause, .returned => capture.drainOnce settings
  | .pause, .failed _ => (capture, .cancelled)

end ConsoleCapture

/-! ### The flusher and `stop` -/

/-- Where the task of `_flush_loop` is. -/
inductive Flusher where
  | scheduled
  | sleeping
  | draining (phase : Phase)
  | ended
deriving DecidableEq

/-- Where `stop` is. -/
inductive Stopper where
  | idle
  | joining
  | draining (phase : Phase)
  | returned
  | cancelled
deriving DecidableEq

structure CaptureState where
  capture : ConsoleCapture := {}
  flusher : Flusher := .scheduled
  stopper : Stopper := .idle
  cancelRequested : Bool := false
deriving DecidableEq

inductive CaptureLabel where
  | submit (item : Item)
  | flush (outcome : Outcome)
  | stop
  | drain (outcome : Outcome)
deriving DecidableEq

def CaptureLabel.Raises (label : CaptureLabel) : Prop :=
  label = .flush (.failed .raised) ∨ label = .drain (.failed .raised)

namespace CaptureState

variable (settings : Settings)

/-- The flusher after `_drain_once` came to something. -/
def flushed (state : CaptureState) : ConsoleCapture × Progress → CaptureState
  | (capture, .waits phase) => { state with capture, flusher := .draining phase }
  | (capture, .done) => { state with capture, flusher := .sleeping }
  | (capture, .cancelled) => { state with capture, flusher := .ended }

/-- `_flush_loop` from one await to the next. A cancellation is delivered once; sleeping does not
raise. -/
def flush (state : CaptureState) (outcome : Outcome) : Option CaptureState :=
  if outcome = .failed .cancelled ∧ state.cancelRequested = false then none
  else
    let state :=
      if outcome = .failed .cancelled then { state with cancelRequested := false } else state
    match state.flusher, outcome with
    | .scheduled, .returned => some { state with flusher := .sleeping }
    | .scheduled, .failed .cancelled => some { state with flusher := .ended }
    | .sleeping, .returned => some (state.flushed (state.capture.drainOnce settings))
    | .sleeping, .failed .cancelled => some { state with flusher := .ended }
    | .draining .pause, .failed .raised => none
    | .draining phase, outcome => some (state.flushed (state.capture.resume settings phase outcome))
    | _, _ => none

/-- `stop`, after its `_drain_once` came to something. -/
def drained (state : CaptureState) : ConsoleCapture × Progress → CaptureState
  | (capture, .waits phase) => { state with capture, stopper := .draining phase }
  | (capture, .done) => { state with capture, stopper := .returned }
  | (capture, .cancelled) => { state with capture, stopper := .cancelled }

/-- `stop` from one await to the next: once the flusher has ended, it writes what is left. Nobody
cancels it. -/
def drain (state : CaptureState) (outcome : Outcome) : Option CaptureState :=
  if outcome = .failed .cancelled then none
  else
    match state.stopper, outcome with
    | .joining, .returned =>
      if state.flusher = .ended
        then some (state.drained (state.capture.drainOnce settings)) else none
    | .draining .pause, .failed .raised => none
    | .draining phase, outcome => some (state.drained (state.capture.resume settings phase outcome))
    | _, _ => none

def step (state : CaptureState) : CaptureLabel → Option CaptureState
  | .submit item => some { state with capture := state.capture.submit settings item }
  | .flush outcome => state.flush settings outcome
  | .stop =>
    if state.stopper = .idle then some { state with stopper := .joining, cancelRequested := true }
    else none
  | .drain outcome => state.drain settings outcome

end CaptureState

/-! ### What a batch is worth

`quiet` says that no write has raised. Whatever is in flight is not committed; when quiet, nothing
else is missing. -/

namespace ConsoleCapture

section Accounting

variable {settings : Settings} {capture capture' : ConsoleCapture} {quiet : Prop} {phase : Phase}
  {outcome : Outcome} {progress : Progress} {queue batch chunks records : List Entry} {bytes : Nat}

/-- Every accepted entry is at one place at most; when quiet, at one. -/
structure Balanced (quiet : Prop) (capture : ConsoleCapture) : Prop where
  once : ∀ e, capture.committed.count e + capture.inFlight.count e + capture.queue.count e
    ≤ capture.accepted.count e
  all : quiet → ∀ e, capture.accepted.count e
    ≤ capture.committed.count e + capture.inFlight.count e + capture.queue.count e

def Phased (quiet : Prop) (inFlight : List Entry) : Phase → Prop
  | .enterChunks chunks records | .commitChunks chunks records =>
    chunks = inFlight.filter (·.item.isFrame) ∧ records = inFlight.filter (!·.item.isFrame)
  | .exitChunks records pending =>
    records = inFlight.filter (!·.item.isFrame)
      ∧ (quiet → pending ≠ some .raised ∧ (pending = none → inFlight = records))
  | .enterCommands records | .commitCommands records =>
    records = inFlight.filter (!·.item.isFrame) ∧ (quiet → inFlight = records)
  | .exitCommands pending => quiet → pending ≠ some .raised ∧ (pending = none → inFlight = [])
  | .pause => True

/-- Where `_drain_once` has come to. -/
def Sound (settings : Settings) (quiet : Prop) (capture : ConsoleCapture) : Progress → Prop
  | .waits phase => Balanced quiet capture ∧ Phased quiet capture.inFlight phase
  | .done => Balanced quiet capture
      ∧ (settings.hasDb = true → 0 < settings.batchSize → capture.inFlight = []
        ∧ capture.queue = [])
  | .cancelled => Balanced quiet capture

theorem count_filter_add (e : Entry) (batch : List Entry) :
    (batch.filter (·.item.isFrame)).count e + (batch.filter (!·.item.isFrame)).count e
      = batch.count e := by
  induction batch with
  | nil => rfl
  | cons entry batch ih =>
      rw [List.count_cons, ← ih]
      cases hframe : entry.item.isFrame with
      | true =>
          rw [List.filter_cons_of_pos (by exact hframe), List.filter_cons_of_neg (by simp [hframe]),
            List.count_cons]
          omega
      | false =>
          rw [List.filter_cons_of_neg (by simp [hframe]),
            List.filter_cons_of_pos (by simp [hframe]), List.count_cons]
          omega

/-- Some of what is in flight is committed, and some stays in flight. -/
theorem Balanced.commit {written rest : List Entry} (h : Balanced quiet capture)
    (honce : ∀ e, written.count e + rest.count e ≤ capture.inFlight.count e)
    (hall : quiet → ∀ e, capture.inFlight.count e ≤ written.count e + rest.count e) :
    Balanced quiet
      { capture with committed := capture.committed ++ written, inFlight := rest } := by
  refine ⟨fun e => ?_, fun hquiet e => ?_⟩
  · have hbefore := h.once e
    have hmoved := honce e
    simp only [List.count_append]
    omega
  · have hbefore := h.all hquiet e
    have hmoved := hall hquiet e
    simp only [List.count_append]
    omega

theorem sound_endWrite (h : Balanced quiet capture) (hlast : quiet → capture.inFlight = []) :
    Sound settings quiet capture.endWrite.1 capture.endWrite.2 := by
  refine ⟨⟨fun e => ?_, fun hquiet e => ?_⟩, trivial⟩
  · have honce := h.once e
    change capture.committed.count e + 0 + capture.queue.count e ≤ capture.accepted.count e
    omega
  · have hall := h.all hquiet e
    rw [hlast hquiet] at hall
    exact hall

theorem sound_writeCommands (h : Balanced quiet capture)
    (hrecords : records = capture.inFlight.filter (!·.item.isFrame))
    (hlast : quiet → capture.inFlight = records) :
    Sound settings quiet (capture.writeCommands records).1 (capture.writeCommands records).2 := by
  unfold writeCommands
  split
  · rename_i hempty
    apply sound_endWrite h
    intro hquiet
    rw [hlast hquiet]
    exact List.isEmpty_iff.mp hempty
  · exact ⟨h, hrecords, hlast⟩

theorem sound_write (h : Balanced quiet capture) :
    Sound settings quiet (capture.write capture.inFlight).1 (capture.write capture.inFlight).2 := by
  unfold write
  simp only
  split
  · rename_i hempty
    apply sound_writeCommands h rfl
    intro _
    symm
    rw [List.filter_eq_self]
    intro entry hentry
    have hnone := List.filter_eq_nil_iff.mp (List.isEmpty_iff.mp hempty) entry hentry
    rw [Bool.not_eq_true] at hnone
    rw [hnone]
    rfl
  · exact ⟨h, rfl, rfl⟩

/-- What `fill` takes, it takes from the front of the queue; it stops when the batch is full. -/
theorem fill_spec (settings : Settings) (queue : List Entry) (bytes : Nat) (batch : List Entry) :
    ∃ taken, queue = taken ++ (fill settings queue bytes batch).1
      ∧ (fill settings queue bytes batch).2.1 = bytes - (taken.map (frameBytes ·.item)).sum
      ∧ (fill settings queue bytes batch).2.2 = batch ++ taken
      ∧ ((fill settings queue bytes batch).2.2.length < settings.batchSize →
          (fill settings queue bytes batch).1 = []) := by
  induction queue generalizing bytes batch with
  | nil => exact ⟨[], rfl, rfl, (List.append_nil batch).symm, fun _ => rfl⟩
  | cons entry queue ih =>
      rw [fill]
      split
      · obtain ⟨taken, hqueue, hbytes, hbatch, hfull⟩ :=
          ih (bytes - frameBytes entry.item) (batch ++ [entry])
        refine ⟨entry :: taken, congrArg (entry :: ·) hqueue, ?_, ?_, hfull⟩
        · rw [hbytes, List.map_cons, List.sum_cons, Nat.sub_sub]
        · rw [hbatch, List.append_assoc, List.singleton_append]
      · rename_i hroom
        exact ⟨[], rfl, rfl, (List.append_nil batch).symm, fun h => absurd h hroom⟩

theorem drainOnce_spec (settings : Settings) (capture : ConsoleCapture) :
    (settings.hasDb = false ∧ capture.drainOnce settings = (capture, .done))
      ∨ ∃ taken queue, capture.queue = taken ++ queue
        ∧ ((capture.inFlight ++ taken).length < settings.batchSize → queue = [])
        ∧ ((capture.inFlight ++ taken = [] ∧ capture.drainOnce settings
              = ({ capture with
                    queue
                    queuedBytes := capture.queuedBytes - (taken.map (frameBytes ·.item)).sum
                    inFlight := [] }, .done))
          ∨ (capture.inFlight ++ taken ≠ [] ∧ capture.drainOnce settings
              = ConsoleCapture.write { capture with
                  queue
                  queuedBytes := capture.queuedBytes - (taken.map (frameBytes ·.item)).sum
                  inFlight := capture.inFlight ++ taken } (capture.inFlight ++ taken))) := by
  cases hdb : settings.hasDb with
  | false => exact Or.inl ⟨rfl, by rw [drainOnce, hdb]; rfl⟩
  | true =>
      obtain ⟨taken, hqueue, hbytes, hbatch, hfull⟩ :=
        fill_spec settings capture.queue capture.queuedBytes capture.inFlight
      refine Or.inr ⟨taken, _, hqueue, fun h => hfull (hbatch ▸ h), ?_⟩
      unfold drainOnce
      simp only [hdb, Bool.not_true, Bool.false_eq_true, if_false, hbytes, hbatch]
      by_cases hempty : capture.inFlight ++ taken = []
      · refine Or.inl ⟨hempty, ?_⟩
        rw [hempty]
        rfl
      · refine Or.inr ⟨hempty, ?_⟩
        rw [if_neg (by rw [List.isEmpty_iff]; exact hempty)]

theorem sound_drainOnce (h : Balanced quiet capture) :
    Sound settings quiet (capture.drainOnce settings).1 (capture.drainOnce settings).2 := by
  obtain ⟨hdb, hnone⟩ | ⟨taken, queue, hqueue, hfull, hturn⟩ := drainOnce_spec settings capture
  · rw [hnone]
    refine ⟨h, fun hsome => ?_⟩
    rw [hdb] at hsome
    cases hsome
  · have hmoved : ∀ (queuedBytes : Nat), Balanced quiet
        { capture with queue, queuedBytes, inFlight := capture.inFlight ++ taken } := by
      intro queuedBytes
      refine ⟨fun e => ?_, fun hquiet e => ?_⟩
      · have honce := h.once e
        rw [hqueue, List.count_append] at honce
        simp only [List.count_append]
        omega
      · have hall := h.all hquiet e
        rw [hqueue, List.count_append] at hall
        simp only [List.count_append]
        omega
    obtain ⟨hempty, hdone⟩ | ⟨-, hwrite⟩ := hturn
    · rw [hdone]
      have hbalanced := hmoved (capture.queuedBytes - (taken.map (frameBytes ·.item)).sum)
      rw [hempty] at hbalanced
      refine ⟨hbalanced, fun _ hpos => ⟨rfl, hfull ?_⟩⟩
      rw [hempty]
      exact hpos
    · rw [hwrite]
      exact sound_write (hmoved _)

/-- **From one await to the next**, nothing is written twice, and nothing is lost unless a write
raises. -/
theorem sound_resume (h : Balanced quiet capture) (hphase : Phased quiet capture.inFlight phase)
    (hquiet : quiet → outcome ≠ .failed .raised) :
    Sound settings quiet (capture.resume settings phase outcome).1
      (capture.resume settings phase outcome).2 := by
  cases phase with
  | enterChunks chunks records =>
      obtain ⟨hchunks, hrecords⟩ := hphase
      rcases outcome with _ | _ | _
      · exact ⟨h, hchunks, hrecords⟩
      · exact sound_writeCommands h hrecords fun hq => absurd rfl (hquiet hq)
      · exact h
  | commitChunks chunks records =>
      obtain ⟨hchunks, hrecords⟩ := hphase
      rcases outcome with _ | _ | _
      · have hbatch : ∀ e, chunks.count e + records.count e = capture.inFlight.count e := by
          intro e
          rw [hchunks, hrecords]
          exact count_filter_add e capture.inFlight
        have hrest : records = records.filter (!·.item.isFrame) := by
          rw [hrecords, List.filter_filter]
          simp only [Bool.and_self]
        exact ⟨h.commit (fun e => (hbatch e).le) fun _ e => (hbatch e).ge, hrest,
          fun _ => ⟨nofun, fun _ => rfl⟩⟩
      · exact ⟨h, hrecords, fun hq => absurd rfl (hquiet hq)⟩
      · exact ⟨h, hrecords, fun _ => ⟨nofun, nofun⟩⟩
  | exitChunks records pending =>
      obtain ⟨hrecords, hpending⟩ := hphase
      rcases outcome with _ | _ | _
      · rcases pending with _ | _ | _
        · exact sound_writeCommands h hrecords fun hq => (hpending hq).2 rfl
        · exact sound_writeCommands h hrecords fun hq => absurd rfl (hpending hq).1
        · exact h
      · rcases pending with _ | _ | _ <;>
          exact sound_writeCommands h hrecords fun hq => absurd rfl (hquiet hq)
      · rcases pending with _ | _ | _ <;> exact h
  | enterCommands records =>
      rcases outcome with _ | _ | _
      · exact ⟨h, hphase⟩
      · exact sound_endWrite h fun hq => absurd rfl (hquiet hq)
      · exact h
  | commitCommands records =>
      obtain ⟨hrecords, hlast⟩ := hphase
      rcases outcome with _ | _ | _
      · refine ⟨h.commit (fun e => ?_) fun hq e => ?_, fun _ => ⟨nofun, fun _ => rfl⟩⟩
        · rw [hrecords]
          exact List.filter_sublist.count_le e
        · rw [hlast hq]
          exact Nat.le_refl _
      · exact ⟨h, fun hq => absurd rfl (hquiet hq)⟩
      · exact ⟨h, fun _ => ⟨nofun, nofun⟩⟩
  | exitCommands pending =>
      rcases outcome with _ | _ | _
      · rcases pending with _ | _ | _
        · exact sound_endWrite h fun hq => (hphase hq).2 rfl
        · exact sound_endWrite h fun hq => absurd rfl (hphase hq).1
        · exact h
      · rcases pending with _ | _ | _ <;> exact sound_endWrite h fun hq => absurd rfl (hquiet hq)
      · rcases pending with _ | _ | _ <;> exact h
  | pause =>
      rcases outcome with _ | _ | _
      · exact sound_drainOnce h
      · exact h
      · exact h

/-! What moves from the queue to the database. -/

theorem write_moves (capture : ConsoleCapture) (batch : List Entry) :
    ∃ inFlight, (capture.write batch).1 = { capture with inFlight } := by
  unfold write writeCommands
  simp only
  split
  · split
    · exact ⟨[], rfl⟩
    · exact ⟨capture.inFlight, rfl⟩
  · exact ⟨capture.inFlight, rfl⟩

theorem writeCommands_moves (capture : ConsoleCapture) (records : List Entry) :
    ∃ inFlight, (capture.writeCommands records).1 = { capture with inFlight } := by
  unfold writeCommands
  split
  · exact ⟨[], rfl⟩
  · exact ⟨capture.inFlight, rfl⟩

/-- Entries leave the queue at its front, with their sizes, and the database only grows. -/
structure Moves (capture capture' : ConsoleCapture) : Prop where
  queue : ∃ taken, capture.queue = taken ++ capture'.queue
    ∧ capture'.queuedBytes = capture.queuedBytes - (taken.map (frameBytes ·.item)).sum
  accepted : capture'.accepted = capture.accepted
  committed : ∃ written, capture'.committed = capture.committed ++ written

theorem moves_of_eq (hqueue : capture'.queue = capture.queue)
    (hbytes : capture'.queuedBytes = capture.queuedBytes)
    (haccepted : capture'.accepted = capture.accepted)
    (hcommitted : ∃ written, capture'.committed = capture.committed ++ written) :
    Moves capture capture' :=
  ⟨⟨[], hqueue.symm, hbytes⟩, haccepted, hcommitted⟩

theorem Moves.refl : Moves capture capture := moves_of_eq rfl rfl rfl ⟨[], (List.append_nil _).symm⟩

theorem moves_drainOnce (settings : Settings) (capture : ConsoleCapture) :
    Moves capture (capture.drainOnce settings).1 := by
  obtain ⟨-, hnone⟩ | ⟨taken, queue, hqueue, -, hturn⟩ := drainOnce_spec settings capture
  · rw [hnone]
    exact Moves.refl
  · obtain ⟨-, hdone⟩ | ⟨-, hwrite⟩ := hturn
    · rw [hdone]
      exact ⟨⟨taken, hqueue, rfl⟩, rfl, ⟨[], (List.append_nil _).symm⟩⟩
    · rw [hwrite]
      obtain ⟨inFlight, hmoves⟩ := write_moves
        { capture with
          queue
          queuedBytes := capture.queuedBytes - (taken.map (frameBytes ·.item)).sum
          inFlight := capture.inFlight ++ taken } (capture.inFlight ++ taken)
      rw [hmoves]
      exact ⟨⟨taken, hqueue, rfl⟩, rfl, ⟨[], (List.append_nil _).symm⟩⟩

theorem moves_resume (settings : Settings) (capture : ConsoleCapture) (phase : Phase)
    (outcome : Outcome) : Moves capture (capture.resume settings phase outcome).1 := by
  have hstays : ∀ inFlight, Moves capture { capture with inFlight } := fun _ =>
    moves_of_eq rfl rfl rfl ⟨[], (List.append_nil _).symm⟩
  have hcommands : ∀ records, Moves capture (capture.writeCommands records).1 := by
    intro records
    obtain ⟨inFlight, hmoves⟩ := capture.writeCommands_moves records
    rw [hmoves]
    exact hstays inFlight
  cases phase with
  | enterChunks chunks records =>
      rcases outcome with _ | _ | _
      · exact Moves.refl
      · exact hcommands records
      · exact Moves.refl
  | commitChunks chunks records =>
      rcases outcome with _ | _
      · exact moves_of_eq rfl rfl rfl ⟨chunks, rfl⟩
      · exact Moves.refl
  | exitChunks records pending =>
      rcases outcome with _ | _ | _ <;> rcases pending with _ | _ | _ <;>
        first | exact hcommands records | exact Moves.refl
  | enterCommands records =>
      rcases outcome with _ | _ | _
      · exact Moves.refl
      · exact hstays []
      · exact Moves.refl
  | commitCommands records =>
      rcases outcome with _ | _
      · exact moves_of_eq rfl rfl rfl ⟨records, rfl⟩
      · exact Moves.refl
  | exitCommands pending =>
      rcases outcome with _ | _ | _ <;> rcases pending with _ | _ | _ <;>
        first | exact hstays [] | exact Moves.refl
  | pause =>
      rcases outcome with _ | _
      · exact moves_drainOnce settings capture
      · exact Moves.refl

/-! The size of the queue. -/

/-- The queue is accounted for in bytes, within the bound. -/
structure Metered (settings : Settings) (capture : ConsoleCapture) : Prop where
  bytes : capture.queuedBytes = (capture.queue.map (frameBytes ·.item)).sum
  bound : capture.queuedBytes ≤ settings.maxQueueBytes

theorem Metered.of_moves (h : Metered settings capture) (hmoves : Moves capture capture') :
    Metered settings capture' := by
  obtain ⟨taken, hqueue, hbytes⟩ := hmoves.queue
  have htotal := h.bytes
  rw [hqueue, List.map_append, List.sum_append] at htotal
  refine ⟨by omega, ?_⟩
  have hbound := h.bound
  omega

theorem submit_cases (settings : Settings) (capture : ConsoleCapture) (item : Item) :
    capture.submit settings item = capture.drop
      ∨ (capture.queuedBytes + frameBytes item ≤ settings.maxQueueBytes
        ∧ capture.submit settings item
          = { capture with
              queue := capture.queue ++ [⟨capture.accepted.length, item⟩]
              queuedBytes := capture.queuedBytes + frameBytes item
              accepted := capture.accepted ++ [⟨capture.accepted.length, item⟩] }) := by
  unfold submit
  simp only
  split
  · exact Or.inl rfl
  · rename_i hroom
    split
    · exact Or.inl rfl
    · exact Or.inr ⟨Nat.le_of_not_lt hroom, rfl⟩

@[simp] theorem inFlight_submit (capture : ConsoleCapture) (item : Item) :
    (capture.submit settings item).inFlight = capture.inFlight := by
  obtain hdrop | ⟨-, hqueued⟩ := submit_cases settings capture item
  · rw [hdrop]
    rfl
  · rw [hqueued]

theorem Metered.submit (h : Metered settings capture) (item : Item) :
    Metered settings (capture.submit settings item) := by
  obtain hdrop | ⟨hroom, hqueued⟩ := submit_cases settings capture item
  · rw [hdrop]
    exact ⟨h.bytes, h.bound⟩
  · rw [hqueued]
    refine ⟨?_, hroom⟩
    simp only [List.map_append, List.map_singleton, List.sum_append, List.sum_singleton, h.bytes]

theorem Balanced.submit (h : Balanced quiet capture) (item : Item) :
    Balanced quiet (capture.submit settings item) := by
  obtain hdrop | ⟨-, hqueued⟩ := submit_cases settings capture item
  · rw [hdrop]
    exact ⟨h.once, h.all⟩
  · rw [hqueued]
    refine ⟨fun e => ?_, fun hquiet e => ?_⟩
    · have honce := h.once e
      simp only [List.count_append]
      omega
    · have hall := h.all hquiet e
      simp only [List.count_append]
      omega

def Keyed (capture : ConsoleCapture) : Prop :=
  capture.accepted.map (·.key) = List.range capture.accepted.length

theorem Keyed.submit (h : Keyed capture) (item : Item) : Keyed (capture.submit settings item) := by
  obtain hdrop | ⟨-, hqueued⟩ := submit_cases settings capture item
  · rw [hdrop]
    exact h
  · rw [hqueued]
    unfold Keyed at h ⊢
    simp only [List.map_append, h, List.map_singleton, List.length_append, List.length_singleton,
      List.range_succ]

theorem Keyed.nodup (h : Keyed capture) : capture.accepted.Nodup := by
  have hkeys : (capture.accepted.map (·.key)).Nodup := by
    rw [h]
    exact List.nodup_range
  exact List.Nodup.of_map _ hkeys

end Accounting

end ConsoleCapture

/-! ### Runs -/

namespace CaptureState

open ConsoleCapture (Sound Phased Balanced Moves Metered Keyed moves_drainOnce moves_resume
  sound_drainOnce sound_resume)

section Invariant

variable {settings : Settings} {state state' : CaptureState} {quiet : Prop} {label : CaptureLabel}
  {outcome : Outcome} {result : ConsoleCapture × Progress}

/-- The flusher and `stop` do not drain at the same time, and what the one that drains has still to
write is in flight. -/
structure Inv (settings : Settings) (quiet : Prop) (state : CaptureState) : Prop where
  metered : Metered settings state.capture
  keyed : Keyed state.capture
  balanced : Balanced quiet state.capture
  flushing : ∀ phase, state.flusher = .draining phase → Phased quiet state.capture.inFlight phase
  draining : ∀ phase, state.stopper = .draining phase → Phased quiet state.capture.inFlight phase
  joined : state.stopper = .idle ∨ state.stopper = .joining ∨ state.flusher = .ended

theorem inv_initial : Inv settings quiet {} where
  metered := ⟨rfl, Nat.zero_le _⟩
  keyed := rfl
  balanced := ⟨fun _ => Nat.le_refl _, fun _ _ => Nat.le_refl _⟩
  flushing := nofun
  draining := nofun
  joined := Or.inl rfl

theorem Inv.submit (h : Inv settings quiet state) (item : Item) :
    Inv settings quiet { state with capture := state.capture.submit settings item } where
  metered := h.metered.submit item
  keyed := h.keyed.submit item
  balanced := h.balanced.submit item
  flushing := by
    intro phase hphase
    rw [ConsoleCapture.inFlight_submit]
    exact h.flushing phase hphase
  draining := by
    intro phase hphase
    rw [ConsoleCapture.inFlight_submit]
    exact h.draining phase hphase
  joined := h.joined

theorem Keyed.of_moves {capture capture' : ConsoleCapture} (h : Keyed capture)
    (hmoves : Moves capture capture') : Keyed capture' := by
  unfold ConsoleCapture.Keyed at h ⊢
  rw [hmoves.accepted]
  exact h

/-- The flusher moves while `stop` does not drain. -/
theorem Inv.flushed (h : Inv settings quiet state)
    (hfree : state.stopper = .idle ∨ state.stopper = .joining)
    (hmoves : Moves state.capture result.1) (hsound : Sound settings quiet result.1 result.2) :
    Inv settings quiet (state.flushed result) := by
  obtain ⟨capture, progress⟩ := result
  have hidle : ∀ phase, state.stopper ≠ .draining phase := by
    rintro phase hphase
    rw [hphase] at hfree
    rcases hfree with hidle | hjoining
    · cases hidle
    · cases hjoining
  cases progress with
  | waits phase =>
      refine ⟨h.metered.of_moves hmoves, Keyed.of_moves h.keyed hmoves, hsound.1, ?_, ?_, ?_⟩
      · rintro phase' hphase
        cases hphase
        exact hsound.2
      · exact fun phase' hphase => absurd hphase (hidle phase')
      · exact hfree.imp_right Or.inl
  | done =>
      refine ⟨h.metered.of_moves hmoves, Keyed.of_moves h.keyed hmoves, hsound.1, nofun, ?_, ?_⟩
      · exact fun phase' hphase => absurd hphase (hidle phase')
      · exact hfree.imp_right Or.inl
  | cancelled =>
      refine ⟨h.metered.of_moves hmoves, Keyed.of_moves h.keyed hmoves, hsound, nofun, ?_, ?_⟩
      · exact fun phase' hphase => absurd hphase (hidle phase')
      · exact hfree.imp_right Or.inl

/-- `stop` drains after the flusher has ended. -/
theorem Inv.drained (h : Inv settings quiet state) (hended : state.flusher = .ended)
    (hmoves : Moves state.capture result.1) (hsound : Sound settings quiet result.1 result.2) :
    Inv settings quiet (state.drained result) := by
  obtain ⟨capture, progress⟩ := result
  have hidle : ∀ phase, state.flusher ≠ .draining phase := by
    rintro phase hphase
    rw [hended] at hphase
    cases hphase
  have hmetered := h.metered.of_moves hmoves
  have hkeyed := Keyed.of_moves h.keyed hmoves
  cases progress with
  | waits phase =>
      refine ⟨hmetered, hkeyed, hsound.1, fun phase' hphase => absurd hphase (hidle phase'), ?_,
        Or.inr (Or.inr hended)⟩
      rintro phase' hphase
      cases hphase
      exact hsound.2
  | done =>
      exact ⟨hmetered, hkeyed, hsound.1, fun phase' hphase => absurd hphase (hidle phase'), nofun,
        Or.inr (Or.inr hended)⟩
  | cancelled =>
      exact ⟨hmetered, hkeyed, hsound, fun phase' hphase => absurd hphase (hidle phase'), nofun,
        Or.inr (Or.inr hended)⟩

/-- What the flusher can do: it goes on without touching the queue, or it drains. -/
theorem flush_cases (h : state.flush settings outcome = some state') :
    ∃ requested,
      (∃ flusher, (∀ phase, flusher ≠ .draining phase) ∧ state.flusher ≠ .ended
        ∧ state' = { state with flusher, cancelRequested := requested })
      ∨ (state.flusher = .sleeping
        ∧ state' = ({ state with cancelRequested := requested }).flushed
            (state.capture.drainOnce settings))
      ∨ ∃ phase, state.flusher = .draining phase
        ∧ state' = ({ state with cancelRequested := requested }).flushed
            (state.capture.resume settings phase outcome) := by
  unfold flush at h
  by_cases hundelivered : outcome = .failed .cancelled ∧ state.cancelRequested = false
  · rw [if_pos hundelivered] at h
    cases h
  · rw [if_neg hundelivered] at h
    clear hundelivered
    obtain ⟨requested, hrequested⟩ : ∃ requested,
        (if outcome = .failed .cancelled then { state with cancelRequested := false } else state)
          = { state with cancelRequested := requested } := by
      split
      · exact ⟨false, rfl⟩
      · exact ⟨state.cancelRequested, rfl⟩
    simp only [hrequested] at h
    refine ⟨requested, ?_⟩
    split at h <;> rename_i hflusher
    · cases h
      exact Or.inl ⟨.sleeping, nofun, by rw [hflusher]; nofun, rfl⟩
    · cases h
      exact Or.inl ⟨.ended, nofun, by rw [hflusher]; nofun, rfl⟩
    · cases h
      exact Or.inr (Or.inl ⟨hflusher, rfl⟩)
    · cases h
      exact Or.inl ⟨.ended, nofun, by rw [hflusher]; nofun, rfl⟩
    · cases h
    · rename_i hphase
      cases h
      exact Or.inr (Or.inr ⟨_, hphase, rfl⟩)
    · cases h

theorem drain_cases (h : state.drain settings outcome = some state') :
    (state.stopper = .joining ∧ state.flusher = .ended
        ∧ state' = state.drained (state.capture.drainOnce settings))
      ∨ ∃ phase, state.stopper = .draining phase
        ∧ state' = state.drained (state.capture.resume settings phase outcome) := by
  unfold drain at h
  by_cases hcancelled : outcome = .failed .cancelled
  · rw [if_pos hcancelled] at h
    cases h
  · rw [if_neg hcancelled] at h
    clear hcancelled
    split at h <;> rename_i hstopper
    · split at h
      · rename_i hended
        cases h
        exact Or.inl ⟨hstopper, hended, rfl⟩
      · cases h
    · cases h
    · rename_i hphase
      cases h
      exact Or.inr ⟨_, hphase, rfl⟩
    · cases h

/-- **Every step keeps the invariant**; it stays quiet as long as no write raises. -/
theorem Inv.step (h : Inv settings quiet state) (hquiet : quiet → ¬ label.Raises)
    (hstep : state.step settings label = some state') : Inv settings quiet state' := by
  cases label with
  | submit item =>
      cases hstep
      exact h.submit item
  | stop =>
      simp only [CaptureState.step] at hstep
      split at hstep
      · cases hstep
        exact ⟨h.metered, h.keyed, h.balanced, h.flushing, nofun, Or.inr (Or.inl rfl)⟩
      · cases hstep
  | flush outcome =>
      have hraises : quiet → outcome ≠ .failed .raised := by
        rintro hq rfl
        exact hquiet hq (Or.inl rfl)
      obtain ⟨requested, hcases⟩ := flush_cases hstep
      have hrequested : Inv settings quiet { state with cancelRequested := requested } :=
        ⟨h.metered, h.keyed, h.balanced, h.flushing, h.draining, h.joined⟩
      have hfree : state.flusher ≠ .ended → state.stopper = .idle ∨ state.stopper = .joining := by
        intro hrunning
        rcases h.joined with hidle | hjoining | hended
        · exact Or.inl hidle
        · exact Or.inr hjoining
        · exact absurd hended hrunning
      rcases hcases with ⟨flusher, hphase, hrunning, rfl⟩ | ⟨hsleeping, rfl⟩ | ⟨phase, hphase, rfl⟩
      · refine ⟨h.metered, h.keyed, h.balanced, ?_, h.draining, (hfree hrunning).imp_right Or.inl⟩
        exact fun phase hdraining => absurd hdraining (hphase phase)
      · have hrunning : state.flusher ≠ .ended := by
          rw [hsleeping]
          nofun
        exact hrequested.flushed (hfree hrunning) (moves_drainOnce settings state.capture)
          (sound_drainOnce h.balanced)
      · have hrunning : state.flusher ≠ .ended := by
          rw [hphase]
          nofun
        exact hrequested.flushed (hfree hrunning)
          (moves_resume settings state.capture phase outcome)
          (sound_resume h.balanced (h.flushing phase hphase) hraises)
  | drain outcome =>
      have hraises : quiet → outcome ≠ .failed .raised := by
        rintro hq rfl
        exact hquiet hq (Or.inr rfl)
      rcases drain_cases hstep with ⟨-, hended, rfl⟩ | ⟨phase, hphase, rfl⟩
      · exact h.drained hended (moves_drainOnce settings state.capture) (sound_drainOnce h.balanced)
      · have hended : state.flusher = .ended := by
          rcases h.joined with hidle | hjoining | hended
          · rw [hphase] at hidle
            cases hidle
          · rw [hphase] at hjoining
            cases hjoining
          · exact hended
        exact h.drained hended (moves_resume settings state.capture phase outcome)
          (sound_resume h.balanced (h.draining phase hphase) hraises)

/-! What `stop` leaves. -/

/-- The entries that were accepted before: they are in the database once `stop` has returned. -/
structure Late (earlier : List Entry) (state : CaptureState) : Prop where
  accepted : ∀ e ∈ earlier, e ∈ state.capture.accepted
  written : state.stopper = .returned → ∀ e ∈ earlier, e ∈ state.capture.committed

@[simp] theorem capture_flushed (state : CaptureState) (result : ConsoleCapture × Progress) :
    (state.flushed result).capture = result.1 := by
  obtain ⟨capture, _ | _ | _⟩ := result <;> rfl

@[simp] theorem stopper_flushed (state : CaptureState) (result : ConsoleCapture × Progress) :
    (state.flushed result).stopper = state.stopper := by
  obtain ⟨capture, _ | _ | _⟩ := result <;> rfl

@[simp] theorem capture_drained (state : CaptureState) (result : ConsoleCapture × Progress) :
    (state.drained result).capture = result.1 := by
  obtain ⟨capture, _ | _ | _⟩ := result <;> rfl

theorem returned_drained (h : (state.drained result).stopper = .returned) : result.2 = .done := by
  obtain ⟨capture, _ | _ | _⟩ := result
  · cases h
  · rfl
  · cases h

/-- What is in the database stays there. -/
theorem Late.of_moves {earlier : List Entry} (h : Late earlier state)
    (hmoves : Moves state.capture state'.capture)
    (hwritten : state'.stopper = .returned → state.stopper = .returned
      ∨ ∀ e ∈ state'.capture.accepted, e ∈ state'.capture.committed) : Late earlier state' where
  accepted := by
    rw [hmoves.accepted]
    exact h.accepted
  written := by
    intro hreturned e he
    rcases hwritten hreturned with hbefore | hall
    · obtain ⟨written, hcommitted⟩ := hmoves.committed
      rw [hcommitted]
      exact List.mem_append_left _ (h.written hbefore e he)
    · apply hall
      rw [hmoves.accepted]
      exact h.accepted e he

theorem committed_of_done {capture : ConsoleCapture}
    (hsound : Sound settings True capture .done) (hdb : settings.hasDb = true)
    (hbatch : 0 < settings.batchSize) : ∀ e ∈ capture.accepted, e ∈ capture.committed := by
  intro e he
  obtain ⟨hbalanced, hlast⟩ := hsound
  obtain ⟨hflight, hqueue⟩ := hlast hdb hbatch
  have hall := hbalanced.all trivial e
  rw [hflight, hqueue, List.count_nil] at hall
  exact List.count_pos_iff.mp (Nat.lt_of_lt_of_le (List.count_pos_iff.mpr he) hall)

theorem Late.step {earlier : List Entry} (h : Late earlier state) (hinv : Inv settings True state)
    (hdb : settings.hasDb = true) (hbatch : 0 < settings.batchSize) (hquiet : ¬ label.Raises)
    (hstep : state.step settings label = some state') : Late earlier state' := by
  cases label with
  | submit item =>
      cases hstep
      obtain hdrop | ⟨-, hqueued⟩ := ConsoleCapture.submit_cases settings state.capture item
      · rw [hdrop]
        exact ⟨h.accepted, h.written⟩
      · rw [hqueued]
        exact ⟨fun e he => List.mem_append_left _ (h.accepted e he), h.written⟩
  | stop =>
      simp only [CaptureState.step] at hstep
      split at hstep
      · cases hstep
        exact ⟨h.accepted, nofun⟩
      · cases hstep
  | flush outcome =>
      obtain ⟨requested, ⟨flusher, -, -, rfl⟩ | ⟨-, rfl⟩ | ⟨phase, -, rfl⟩⟩ := flush_cases hstep
      · exact ⟨h.accepted, h.written⟩
      · refine h.of_moves ?_ fun hreturned => Or.inl ?_
        · rw [capture_flushed]
          exact moves_drainOnce settings state.capture
        · rwa [stopper_flushed] at hreturned
      · refine h.of_moves ?_ fun hreturned => Or.inl ?_
        · rw [capture_flushed]
          exact moves_resume settings state.capture phase outcome
        · rwa [stopper_flushed] at hreturned
  | drain outcome =>
      have hraises : True → outcome ≠ .failed .raised := by
        rintro - rfl
        exact hquiet (Or.inr rfl)
      rcases drain_cases hstep with ⟨-, -, rfl⟩ | ⟨phase, hphase, rfl⟩
      · refine h.of_moves ?_ fun hreturned => Or.inr ?_
        · rw [capture_drained]
          exact moves_drainOnce settings state.capture
        · have hsound := @sound_drainOnce settings state.capture True hinv.balanced
          rw [returned_drained hreturned] at hsound
          rw [capture_drained]
          exact committed_of_done hsound hdb hbatch
      · refine h.of_moves ?_ fun hreturned => Or.inr ?_
        · rw [capture_drained]
          exact moves_resume settings state.capture phase outcome
        · have hsound := @sound_resume settings state.capture True phase outcome hinv.balanced
            (hinv.draining phase hphase) hraises
          rw [returned_drained hreturned] at hsound
          rw [capture_drained]
          exact committed_of_done hsound hdb hbatch

end Invariant

/-! ### At most once, and once -/

section Delivery

variable {settings : Settings}

open Runs (run)

/-- **Delivery.** In every run, however the flusher is cancelled: every accepted entry is committed
at most once and nothing else is; the queue is accounted for, within its bound; and if no write
raises, what was accepted before `stop` was called is committed once when it has returned. -/
theorem capture_delivers (labels : List CaptureLabel) (state : CaptureState)
    (hrun : run (step settings) {} labels = some state) :
    (∀ e, state.capture.committed.count e ≤ 1)
      ∧ (∀ e ∈ state.capture.committed, e ∈ state.capture.accepted)
      ∧ state.capture.queuedBytes = (state.capture.queue.map (frameBytes ·.item)).sum
      ∧ state.capture.queuedBytes ≤ settings.maxQueueBytes
      ∧ (settings.hasDb = true → 0 < settings.batchSize → (∀ label ∈ labels, ¬ label.Raises) →
          ∀ before after stopped, labels = before ++ .stop :: after →
            run (step settings) {} before = some stopped → state.stopper = .returned →
              ∀ e ∈ stopped.capture.accepted, state.capture.committed.count e = 1) := by
  have hinv : Inv settings False state :=
    Runs.invariant (fun _ _ _ h hstep => h.step (fun hfalse => hfalse.elim) hstep) hrun inv_initial
  have honce : ∀ e, state.capture.committed.count e ≤ 1 := by
    intro e
    have hbalanced := hinv.balanced.once e
    have hkeyed := List.nodup_iff_count_le_one.mp hinv.keyed.nodup e
    omega
  refine ⟨honce, ?_, hinv.metered.bytes, hinv.metered.bound, ?_⟩
  · intro e he
    have hbalanced := hinv.balanced.once e
    have hpos := List.count_pos_iff.mpr he
    exact List.count_pos_iff.mp (by omega)
  · rintro hdb hbatch hquiet before after stopped rfl hbefore hreturned e he
    obtain ⟨stopped', hbefore', hafter⟩ := Runs.run_append.mp hrun
    obtain rfl : stopped = stopped' := Option.some.inj (hbefore.symm.trans hbefore')
    obtain ⟨hquietBefore, hquietAfter⟩ := List.forall_mem_append.mp hquiet
    have hstopped : Inv settings True stopped :=
      Runs.invariant_of_labels (fun _ _ _ h hq hstep => h.step (fun _ => hq) hstep) hquietBefore
        hbefore inv_initial
    have hidle : stopped.stopper ≠ .returned := by
      obtain ⟨called, hcall, -⟩ := Runs.run_cons.mp hafter
      intro hbusy
      simp only [step, hbusy] at hcall
      cases hcall
    have hlate : Inv settings True state ∧ Late stopped.capture.accepted state :=
      Runs.invariant_of_labels
        (P := fun state => Inv settings True state ∧ Late stopped.capture.accepted state)
        (fun _ _ _ h hq hstep =>
          ⟨h.1.step (fun _ => hq) hstep, h.2.step h.1 hdb hbatch hq hstep⟩)
        hquietAfter hafter ⟨hstopped, fun _ h => h, fun hreturned => absurd hreturned hidle⟩
    exact Nat.le_antisymm (honce e) (List.count_pos_iff.mpr (hlate.2.written hreturned e he))

def twoItems : List CaptureLabel :=
  [.submit (.frame ⟨1, [], 1, 1, .out, [10], false, false, 0⟩),
    .submit (.record ⟨1, [], 1, 1, none, ['w'], [], 0, none⟩)]

/-- `stop` comes while the frame is being committed, and the cancellation undoes that. -/
def cancelledCommit : List CaptureLabel :=
  twoItems ++ ([.flush .returned, .flush .returned, .flush .returned] : List CaptureLabel)
    ++ (.stop :: [.flush (.failed .cancelled), .flush .returned, .drain .returned, .drain .returned,
      .drain .returned, .drain .returned, .drain .returned, .drain .returned, .drain .returned,
      .drain .returned] : List CaptureLabel)

theorem capture_delivers_cancelledCommit :
    ∃ state, run (step {}) {} cancelledCommit = some state
      ∧ ∀ e ∈ state.capture.accepted, state.capture.committed.count e = 1 := by
  obtain ⟨state, hrun⟩ : ∃ state, run (step {}) {} cancelledCommit = some state :=
    Option.isSome_iff_exists.mp (by decide +kernel)
  obtain ⟨stopped, hstopped⟩ : ∃ stopped,
      run (step {}) {}
        (twoItems ++ List.replicate 3 (CaptureLabel.flush .returned)) = some stopped :=
    Option.isSome_iff_exists.mp (by decide +kernel)
  have hreturned : (run (step {}) {} cancelledCommit).map (·.stopper) = some .returned := by
    decide +kernel
  have haccepted : (run (step {}) {} cancelledCommit).map (·.capture.accepted)
      = (run (step {}) {} (twoItems ++ List.replicate 3 (CaptureLabel.flush .returned))).map
          (·.capture.accepted) := by
    decide +kernel
  rw [hrun] at hreturned haccepted
  rw [hstopped] at haccepted
  have hdelivers := (capture_delivers cancelledCommit state hrun).2.2.2.2 rfl (by decide)
    (by unfold CaptureLabel.Raises; decide +kernel) _ _ stopped rfl hstopped
      (Option.some.inj hreturned)
  have hsame : state.capture.accepted = stopped.capture.accepted := Option.some.inj haccepted
  exact ⟨state, hrun, hsame ▸ hdelivers⟩

end Delivery

end CaptureState

end OnlinetLabs.Console
