import OnlinetLabs.Analytics.Collector
import OnlinetLabs.Lib.Interleaving

/-!
# The poll of errors

A collector asks for the errors since its last poll. The server answers with what it has at that
time, and the collector takes for the time of the poll when it has the answer. Collectors and the
log listener of the server share one clock, which every step that reads it moves.
-/

namespace OnlinetLabs.Analytics

open Interleaving

/-! ### `LogBuffer` -/

def LogEntry.isError (entry : LogEntry) : Bool := entry.level ∈ [LogLevel.error, LogLevel.warning]

def LogEntry.toErrorEntry (entry : LogEntry) : ErrorEntry where
  timestamp := entry.timestamp
  level := entry.level
  message := entry.message

structure LogBuffer where
  maxEntries : Nat := 500
  /-- The ring, each entry with its place among all that were added. -/
  entries : List (Nat × LogEntry) := []
  /-- All that were added. -/
  added : List LogEntry := []

namespace LogBuffer

def addEntry (buffer : LogBuffer) (entry : LogEntry) : LogBuffer :=
  { buffer with
    entries := newestEntries buffer.maxEntries (buffer.entries ++ [(buffer.added.length, entry)])
    added := buffer.added ++ [entry] }

def getErrors (buffer : LogBuffer) (since : Option Nat) : List (Nat × ErrorEntry) :=
  buffer.entries.filterMap fun (place, entry) =>
    if !entry.isError then none
    else if since.any (entry.timestamp < ·) then none
    else some (place, entry.toErrorEntry)

end LogBuffer

/-! ### The parties -/

structure LogServer where
  clock : Nat := 0
  buffer : LogBuffer := {}

/-- `_add_entry`, with its reading of the clock. -/
structure AddEntry where
  level : LogLevel
  message : String
  source : String := "gns3"
  now : Nat
deriving Repr, DecidableEq

def LogServer.addEntry (s : LogServer) (add : AddEntry) : Option LogServer :=
  if s.clock ≤ add.now then
    some { clock := add.now
           buffer := s.buffer.addEntry ⟨add.now, add.level, add.source, add.message⟩ }
  else none

/-- A call of `list_errors`, and how many entries had been added when it was made. -/
structure ErrorCall where
  since : Option Nat
  made : Nat
deriving Repr, DecidableEq

inductive FetchPc where
  | idle
  | sent (call : ErrorCall)
  /-- The answer is on its way. `scanned` entries had been added when the server gave it. -/
  | answered (call : ErrorCall) (scanned : Nat) (errors : List (Nat × ErrorEntry))
deriving Repr, DecidableEq

structure ErrorPoller where
  lastErrorPoll : Option Nat := none
  pc : FetchPc := .idle
  /-- Everything that its calls returned. -/
  returned : List (Nat × ErrorEntry) := []
  /-- How many entries had been added when its last successful call was made, and when it was
  answered. -/
  made : Nat := 0
  scanned : Nat := 0
deriving Repr, DecidableEq

inductive FetchStep where
  | send
  | answer
  | receive (now : Nat)
  | fail
deriving Repr, DecidableEq

/-- `_fetch_errors`. A call that fails leaves the time of the last poll. -/
def ErrorPoller.fetchErrors (s : LogServer) (p : ErrorPoller) :
    FetchStep → Option (LogServer × ErrorPoller)
  | .send =>
      match p.pc with
      | .idle => some (s, { p with pc := .sent ⟨p.lastErrorPoll, s.buffer.added.length⟩ })
      | _ => none
  | .answer =>
      match p.pc with
      | .sent call =>
          some (s, { p with
            pc := .answered call s.buffer.added.length (s.buffer.getErrors call.since) })
      | _ => none
  | .receive now =>
      match p.pc with
      | .answered call scanned errors =>
          if s.clock ≤ now then
            some ({ s with clock := now },
              { lastErrorPoll := some now, pc := .idle, returned := p.returned ++ errors
                made := call.made, scanned })
          else none
      | _ => none
  | .fail =>
      match p.pc with
      | .idle => none
      | _ => some (s, { p with pc := .idle })

def polling : System LogServer ErrorPoller AddEntry Unit FetchStep where
  env := LogServer.addEntry
  spawn _ := {}
  step := ErrorPoller.fetchErrors

/-! ### The law -/

def LogBuffer.ErrorAt (buffer : LogBuffer) (place : Nat) (entry : LogEntry) : Prop :=
  buffer.added[place]? = some entry ∧ entry.isError = true

/-- Every error that was there when a successful call was made has been returned, none has been
twice, and nothing else has been. -/
structure ErrorPoller.Once (p : ErrorPoller) (buffer : LogBuffer) : Prop where
  returned : ∀ place entry, buffer.ErrorAt place entry → place < p.made →
    (place, entry.toErrorEntry) ∈ p.returned
  never_twice : (p.returned.map Prod.fst).Nodup
  errors : ∀ r ∈ p.returned, ∃ entry, buffer.ErrorAt r.1 entry ∧ r.2 = entry.toErrorEntry

def LogBuffer.HasRoom (buffer : LogBuffer) : Prop := buffer.added.length < buffer.maxEntries

/-- As long as the ring has room, every collector has every error once. -/
def PollsOnce (c : Conf LogServer ErrorPoller) : Prop :=
  c.shared.buffer.HasRoom → ∀ p ∈ c.procs, p.Once c.shared.buffer

/-! ### The condition -/

/-- The time of the last poll is between the errors its answer was made of and those that were added
before the next call. -/
def ErrorPoller.Separates (p : ErrorPoller) (buffer : LogBuffer) (made : Nat) : Prop :=
  ∀ since, p.lastErrorPoll = some since → ∀ place entry, buffer.ErrorAt place entry →
    (place < p.scanned → entry.timestamp < since)
      ∧ (p.scanned ≤ place → place < made → since ≤ entry.timestamp)

/-- An answer is received only where the time its call was sent with separates the errors. -/
def ReceivesSeparated (c : Conf LogServer ErrorPoller) : Label AddEntry Unit FetchStep → Prop
  | .run pid (.receive _) => c.shared.buffer.HasRoom → ∀ p call scanned errors,
      c.procs[pid]? = some p → p.pc = .answered call scanned errors →
        p.Separates c.shared.buffer call.made
  | _ => True

/-! ### The ring -/

variable {buffer : LogBuffer} {entry : LogEntry} {place : Nat} {since : Option Nat}
  {r : Nat × ErrorEntry}

def LogBuffer.Whole (buffer : LogBuffer) : Prop :=
  buffer.entries = buffer.added.zipIdx.map fun e => (e.2, e.1)

namespace LogBuffer

theorem HasRoom.of_addEntry (h : (buffer.addEntry entry).HasRoom) : buffer.HasRoom := by
  have hlength : buffer.added.length + 1 < buffer.maxEntries := by
    simpa [HasRoom, addEntry] using h
  exact Nat.lt_of_succ_lt hlength

theorem Whole.addEntry (h : buffer.Whole) (hroom : buffer.HasRoom) (entry : LogEntry) :
    (buffer.addEntry entry).Whole := by
  have hsmall : buffer.entries.length + 1 - buffer.maxEntries = 0 := by
    have hlength : buffer.added.length < buffer.maxEntries := hroom
    rw [h, List.length_map, List.length_zipIdx]
    omega
  rw [Whole, LogBuffer.addEntry, newestEntries, List.length_append, List.length_singleton, hsmall,
    List.drop_zero, h, List.zipIdx_append, List.map_append]
  simp

theorem length_addEntry : (buffer.addEntry entry).added.length = buffer.added.length + 1 := by
  simp [addEntry]

theorem ErrorAt.lt (h : buffer.ErrorAt place entry) : place < buffer.added.length :=
  (List.getElem?_eq_some_iff.mp h.1).1

theorem ErrorAt.addEntry (h : buffer.ErrorAt place entry) (new : LogEntry) :
    (buffer.addEntry new).ErrorAt place entry :=
  ⟨(List.getElem?_append_left h.lt).trans h.1, h.2⟩

theorem errorAt_addEntry_cases {new : LogEntry} (h : (buffer.addEntry new).ErrorAt place entry) :
    buffer.ErrorAt place entry ∨ (place = buffer.added.length ∧ entry = new) := by
  obtain ⟨hat, herror⟩ := h
  rw [LogBuffer.addEntry, List.getElem?_append] at hat
  split at hat
  · exact Or.inl ⟨hat, herror⟩
  · rename_i hge
    rw [List.getElem?_singleton] at hat
    split at hat
    · rename_i hzero
      exact Or.inr ⟨by omega, (Option.some.inj hat).symm⟩
    · cases hat

/-- The entries that `get_errors` keeps. -/
def keeps (since : Option Nat) (e : Nat × LogEntry) : Bool :=
  e.2.isError && !since.any (e.2.timestamp < ·)

theorem keeps_iff {e : Nat × LogEntry} : keeps since e = true
    ↔ e.2.isError = true ∧ ∀ c, since = some c → c ≤ e.2.timestamp := by
  cases since <;> simp [keeps]

theorem getErrors_eq : buffer.getErrors since
    = (buffer.entries.filter (keeps since)).map fun e => (e.1, e.2.toErrorEntry) := by
  rw [getErrors]
  induction buffer.entries with
  | nil => rfl
  | cons e entries ih =>
      obtain ⟨place, entry⟩ := e
      rw [List.filterMap_cons, List.filter_cons, keeps, ih]
      dsimp only
      cases entry.isError <;> cases since.any (entry.timestamp < ·) <;> rfl

/-- **What is returned**: the errors from the given time on. -/
theorem mem_getErrors_iff (h : buffer.Whole) :
    r ∈ buffer.getErrors since ↔ ∃ entry, buffer.ErrorAt r.1 entry
      ∧ (∀ c, since = some c → c ≤ entry.timestamp) ∧ r.2 = entry.toErrorEntry := by
  have hmem : ∀ place entry, (place, entry) ∈ buffer.entries
      ↔ buffer.added[place]? = some entry := by
    intro place entry
    rw [h, List.mem_map]
    constructor
    · rintro ⟨e, he, heq⟩
      obtain ⟨rfl, rfl⟩ := Prod.mk.inj heq
      exact List.mem_zipIdx_iff_getElem?.mp he
    · exact fun hat => ⟨(entry, place), List.mem_zipIdx_iff_getElem?.mpr hat, rfl⟩
  rw [getErrors_eq, List.mem_map]
  constructor
  · rintro ⟨⟨place, entry⟩, hkept, rfl⟩
    obtain ⟨hin, hkeeps⟩ := List.mem_filter.mp hkept
    obtain ⟨herror, hsince⟩ := keeps_iff.mp hkeeps
    exact ⟨entry, ⟨(hmem place entry).mp hin, herror⟩, hsince, rfl⟩
  · rintro ⟨entry, ⟨hat, herror⟩, hsince, heq⟩
    have hin : (r.1, entry) ∈ buffer.entries := (hmem r.1 entry).mpr hat
    exact ⟨(r.1, entry), List.mem_filter.mpr ⟨hin, keeps_iff.mpr ⟨herror, hsince⟩⟩,
      Prod.ext rfl heq.symm⟩

theorem nodup_getErrors (h : buffer.Whole) : ((buffer.getErrors since).map Prod.fst).Nodup := by
  have hplaces : (buffer.getErrors since).map Prod.fst
      = (buffer.entries.filter (keeps since)).map Prod.fst := by
    rw [getErrors_eq, List.map_map]
    rfl
  have hall : (buffer.entries.map Prod.fst).Nodup := by
    rw [h, List.map_map]
    change (buffer.added.zipIdx.map Prod.snd).Nodup
    rw [List.zipIdx_map_snd]
    exact List.nodup_range'
  rw [hplaces]
  exact hall.sublist (List.filter_sublist.map _)

end LogBuffer

/-! ### One step of a collector -/

inductive ErrorPoller.Steps (s : LogServer) (p : ErrorPoller) :
    FetchStep → LogServer → ErrorPoller → Prop where
  | send (hpc : p.pc = .idle) :
      Steps s p .send s { p with pc := .sent ⟨p.lastErrorPoll, s.buffer.added.length⟩ }
  | answer {call : ErrorCall} (hpc : p.pc = .sent call) :
      Steps s p .answer s
        { p with pc := .answered call s.buffer.added.length (s.buffer.getErrors call.since) }
  | receive {now scanned : Nat} {call : ErrorCall} {errors : List (Nat × ErrorEntry)}
      (hpc : p.pc = .answered call scanned errors) (hnow : s.clock ≤ now) :
      Steps s p (.receive now) { s with clock := now }
        { lastErrorPoll := some now
          pc := .idle
          returned := p.returned ++ errors
          made := call.made
          scanned }
  | fail : Steps s p .fail s { p with pc := .idle }

variable {s s' : LogServer} {p p' : ErrorPoller} {step : FetchStep}

namespace ErrorPoller

theorem fetchErrors_steps (h : p.fetchErrors s step = some (s', p')) : p.Steps s step s' p' := by
  cases step with
  | send =>
      simp only [fetchErrors] at h
      split at h
      · rename_i hpc
        cases h
        exact .send hpc
      · cases h
  | answer =>
      simp only [fetchErrors] at h
      split at h
      · rename_i call hpc
        cases h
        exact .answer hpc
      · cases h
  | receive now =>
      simp only [fetchErrors] at h
      split at h
      · rename_i call scanned errors hpc
        split at h
        · rename_i hnow
          cases h
          exact .receive hpc hnow
        · cases h
      · cases h
  | fail =>
      simp only [fetchErrors] at h
      split at h
      · cases h
      · cases h
        exact .fail

theorem Steps.frame (h : p.Steps s step s' p') : s'.buffer = s.buffer ∧ s.clock ≤ s'.clock := by
  cases h with
  | send | answer | fail => exact ⟨rfl, Nat.le_refl _⟩
  | receive hpc hnow => exact ⟨rfl, hnow⟩

end ErrorPoller

/-! ### What a collector knows -/

/-- A call is sent with the time of the last poll, and what is added after it is stamped after
that. -/
structure ErrorCall.Sound (call : ErrorCall) (p : ErrorPoller) (buffer : LogBuffer) : Prop where
  since : call.since = p.lastErrorPoll
  after : p.scanned ≤ call.made
  made_le : call.made ≤ buffer.added.length
  later : ∀ c, p.lastErrorPoll = some c → ∀ place entry, buffer.ErrorAt place entry →
    call.made ≤ place → c ≤ entry.timestamp

/-- An answer is what the server had for the call. -/
structure Answered (call : ErrorCall) (scanned : Nat) (errors : List (Nat × ErrorEntry))
    (p : ErrorPoller)
    (buffer : LogBuffer) : Prop extends call.Sound p buffer where
  made_scanned : call.made ≤ scanned
  scanned_le : scanned ≤ buffer.added.length
  nodup : (errors.map Prod.fst).Nodup
  mem_iff : ∀ r, r ∈ errors ↔ r.1 < scanned ∧ ∃ entry, buffer.ErrorAt r.1 entry
    ∧ (∀ c, p.lastErrorPoll = some c → c ≤ entry.timestamp) ∧ r.2 = entry.toErrorEntry

structure ErrorPoller.Sound (p : ErrorPoller) (s : LogServer) : Prop where
  cursor : ∀ c, p.lastErrorPoll = some c → c ≤ s.clock
  unpolled : p.lastErrorPoll = none → p.returned = [] ∧ p.scanned = 0
  made_scanned : p.made ≤ p.scanned
  scanned_le : p.scanned ≤ s.buffer.added.length
  between : ∀ place entry, s.buffer.ErrorAt place entry → p.made ≤ place → place < p.scanned →
    (place, entry.toErrorEntry) ∈ p.returned
  seen : ∀ r ∈ p.returned, r.1 < p.scanned ∧ ∃ entry, s.buffer.ErrorAt r.1 entry
    ∧ r.2 = entry.toErrorEntry
  sent : ∀ call, p.pc = .sent call → call.Sound p s.buffer
  answered : ∀ call scanned errors, p.pc = .answered call scanned errors →
    Answered call scanned errors p s.buffer

variable {call : ErrorCall} {scanned : Nat} {errors : List (Nat × ErrorEntry)} {new : LogEntry}

/-- What was there below a place is what is there now. -/
theorem LogBuffer.errorAt_of_lt (h : (buffer.addEntry new).ErrorAt place entry)
    (hlt : place < buffer.added.length) : buffer.ErrorAt place entry := by
  rcases LogBuffer.errorAt_addEntry_cases h with hold | ⟨rfl, -⟩
  · exact hold
  · exact absurd hlt (Nat.lt_irrefl _)

theorem ErrorCall.Sound.addEntry (h : call.Sound p buffer)
    (hnew : ∀ c, p.lastErrorPoll = some c → c ≤ new.timestamp) :
    call.Sound p (buffer.addEntry new) := by
  refine ⟨h.since, h.after, ?_, fun c hc place entry hat hplace => ?_⟩
  · rw [LogBuffer.length_addEntry]
    exact Nat.le_succ_of_le h.made_le
  · rcases LogBuffer.errorAt_addEntry_cases hat with hold | ⟨-, rfl⟩
    · exact h.later c hc place entry hold hplace
    · exact hnew c hc

theorem Answered.addEntry (h : Answered call scanned errors p buffer)
    (hnew : ∀ c, p.lastErrorPoll = some c → c ≤ new.timestamp) :
    Answered call scanned errors p (buffer.addEntry new) := by
  refine ⟨h.toSound.addEntry hnew, h.made_scanned, ?_, h.nodup, fun r => ?_⟩
  · rw [LogBuffer.length_addEntry]
    exact Nat.le_succ_of_le h.scanned_le
  · rw [h.mem_iff]
    constructor
    · rintro ⟨hlt, entry, hat, hrest⟩
      exact ⟨hlt, entry, hat.addEntry new, hrest⟩
    · rintro ⟨hlt, entry, hat, hrest⟩
      exact ⟨hlt, entry, LogBuffer.errorAt_of_lt hat (Nat.lt_of_lt_of_le hlt h.scanned_le), hrest⟩

namespace ErrorPoller

theorem Sound.of_frame (h : p.Sound s) (hframe : s'.buffer = s.buffer ∧ s.clock ≤ s'.clock) :
    p.Sound s' := by
  obtain ⟨hbuffer, hclock⟩ := hframe
  refine ⟨fun c hc => Nat.le_trans (h.cursor c hc) hclock, h.unpolled, h.made_scanned, ?_, ?_,
    ?_, ?_, ?_⟩
  all_goals rw [hbuffer]
  · exact h.scanned_le
  · exact h.between
  · exact h.seen
  · exact h.sent
  · exact h.answered

theorem Sound.addEntry {add : AddEntry} (h : p.Sound s) (hadd : s.addEntry add = some s') :
    p.Sound s' := by
  simp only [LogServer.addEntry] at hadd
  split at hadd
  · rename_i hclock
    cases hadd
    have hcursor : ∀ c, p.lastErrorPoll = some c → c ≤ add.now :=
      fun c hc => Nat.le_trans (h.cursor c hc) hclock
    refine ⟨hcursor, h.unpolled, h.made_scanned, ?_, ?_, ?_, ?_, ?_⟩
    · rw [LogBuffer.length_addEntry]
      exact Nat.le_succ_of_le h.scanned_le
    · intro place entry hat hmade hlt
      have hold : place < s.buffer.added.length := Nat.lt_of_lt_of_le hlt h.scanned_le
      exact h.between place entry (LogBuffer.errorAt_of_lt hat hold) hmade hlt
    · intro r hr
      obtain ⟨hlt, entry, hat, heq⟩ := h.seen r hr
      exact ⟨hlt, entry, hat.addEntry _, heq⟩
    · exact fun call hpc => (h.sent call hpc).addEntry hcursor
    · exact fun call scanned errors hpc => (h.answered call scanned errors hpc).addEntry hcursor
  · cases hadd

theorem Sound.steps (h : p.Sound s) (hwhole : s.buffer.Whole) (hstep : p.Steps s step s' p') :
    p'.Sound s' := by
  cases hstep with
  | send hpc =>
      refine ⟨h.cursor, h.unpolled, h.made_scanned, h.scanned_le, h.between, h.seen, ?_, by
        rintro _ _ _ ⟨⟩⟩
      rintro _ ⟨⟩
      refine ⟨rfl, h.scanned_le, Nat.le_refl _, fun c _ place entry hat hplace => ?_⟩
      exact absurd hat.lt (Nat.not_lt.mpr hplace)
  | @answer call hpc =>
      have hcall := h.sent call hpc
      refine ⟨h.cursor, h.unpolled, h.made_scanned, h.scanned_le, h.between, h.seen, by
        rintro _ ⟨⟩, ?_⟩
      rintro _ _ _ ⟨⟩
      refine ⟨⟨hcall.since, hcall.after, hcall.made_le, hcall.later⟩, hcall.made_le, Nat.le_refl _,
        LogBuffer.nodup_getErrors hwhole, fun r => ?_⟩
      rw [LogBuffer.mem_getErrors_iff hwhole, hcall.since]
      constructor
      · rintro ⟨entry, hat, hrest⟩
        exact ⟨hat.lt, entry, hat, hrest⟩
      · exact fun hr => hr.2
  | @receive now scanned call errors hpc hnow =>
      have hanswered := h.answered call scanned errors hpc
      refine ⟨?_, by
        rintro ⟨⟩, hanswered.made_scanned, hanswered.scanned_le, ?_, ?_, by
        rintro _ ⟨⟩, by rintro _ _ _ ⟨⟩⟩
      · rintro _ ⟨⟩
        exact Nat.le_refl _
      · intro place entry hat hmade hlt
        refine List.mem_append_right _
          ((hanswered.mem_iff _).mpr ⟨hlt, entry, hat, fun c hc => ?_, rfl⟩)
        exact hanswered.later c hc place entry hat hmade
      · intro r hr
        rcases List.mem_append.mp hr with hr | hr
        · obtain ⟨hlt, entry, hat, heq⟩ := h.seen r hr
          have hle : p.scanned ≤ scanned := Nat.le_trans hanswered.after hanswered.made_scanned
          exact ⟨Nat.lt_of_lt_of_le hlt hle, entry, hat, heq⟩
        · obtain ⟨hlt, entry, hat, -, heq⟩ := (hanswered.mem_iff r).mp hr
          exact ⟨hlt, entry, hat, heq⟩
  | fail =>
      exact ⟨h.cursor, h.unpolled, h.made_scanned, h.scanned_le, h.between, h.seen, by rintro _ ⟨⟩,
        by rintro _ _ _ ⟨⟩⟩

/-- The errors that the last answer was made of are those that have been returned. -/
theorem Sound.returned_iff (h : p.Sound s) (honce : p.Once s.buffer)
    (hat : s.buffer.ErrorAt place entry) :
    place ∈ p.returned.map Prod.fst ↔ place < p.scanned := by
  constructor
  · intro hmem
    obtain ⟨r, hr, rfl⟩ := List.mem_map.mp hmem
    exact (h.seen r hr).1
  · intro hlt
    apply List.mem_map_of_mem (f := Prod.fst) (a := (place, entry.toErrorEntry))
    by_cases hmade : place < p.made
    · exact honce.returned place entry hat hmade
    · exact h.between place entry hat (Nat.le_of_not_lt hmade) hlt

/-- **What an answer does to the law.** -/
theorem once_receive_iff {now : Nat} (h : p.Sound s) (honce : p.Once s.buffer)
    (hpc : p.pc = .answered call scanned errors) :
    Once { lastErrorPoll := some now, returned := p.returned ++ errors, made := call.made, scanned }
      s.buffer
      ↔ p.Separates s.buffer call.made := by
  have hanswered := h.answered call scanned errors hpc
  constructor
  · rintro ⟨hreturned, htwice, -⟩ since hsince place entry hat
    rw [List.map_append, List.nodup_append'] at htwice
    obtain ⟨-, -, hdisjoint⟩ := htwice
    constructor
    · intro hlt
      by_contra hle
      have hfirst : place ∈ p.returned.map Prod.fst := (h.returned_iff honce hat).mpr hlt
      have hscanned : place < scanned :=
        Nat.lt_of_lt_of_le hlt (Nat.le_trans hanswered.after hanswered.made_scanned)
      have hagain : (place, entry.toErrorEntry) ∈ errors := by
        refine (hanswered.mem_iff _).mpr ⟨hscanned, entry, hat, fun c hc => ?_, rfl⟩
        rw [hsince, Option.some.injEq] at hc
        exact hc ▸ Nat.le_of_not_lt hle
      exact hdisjoint hfirst (List.mem_map_of_mem (f := Prod.fst) hagain)
    · intro hnew hmade
      rcases List.mem_append.mp (hreturned place entry hat hmade) with hold | hin
      · have hlt : place < p.scanned := (h.seen _ hold).1
        exact absurd hlt (Nat.not_lt.mpr hnew)
      · obtain ⟨-, entry', hat', hlater, -⟩ := (hanswered.mem_iff _).mp hin
        have hsame : entry' = entry := Option.some.inj (hat'.1.symm.trans hat.1)
        exact hsame ▸ hlater since hsince
  · intro hseparates
    refine ⟨fun place entry hat hmade => ?_, ?_, ?_⟩
    · by_cases hold : place < p.scanned
      · obtain ⟨r, hr, hplace⟩ := List.mem_map.mp ((h.returned_iff honce hat).mpr hold)
        obtain ⟨entry', hat', heq⟩ := honce.errors r hr
        rw [hplace] at hat'
        have hsame : entry' = entry := Option.some.inj (hat'.1.symm.trans hat.1)
        have hpair : r = (place, entry.toErrorEntry) := Prod.ext hplace (hsame ▸ heq)
        exact List.mem_append_left _ (hpair ▸ hr)
      · have hscanned : place < scanned := Nat.lt_of_lt_of_le hmade hanswered.made_scanned
        refine List.mem_append_right _
          ((hanswered.mem_iff _).mpr ⟨hscanned, entry, hat, fun c hc => ?_, rfl⟩)
        exact (hseparates c hc place entry hat).2 (Nat.le_of_not_lt hold) hmade
    · rw [List.map_append, List.nodup_append']
      refine ⟨honce.never_twice, hanswered.nodup, fun place hfirst hagain => ?_⟩
      obtain ⟨r, hr, rfl⟩ := List.mem_map.mp hagain
      obtain ⟨-, entry, hat, hlater, -⟩ := (hanswered.mem_iff r).mp hr
      cases hpoll : p.lastErrorPoll with
      | none =>
          rw [(h.unpolled hpoll).1] at hfirst
          cases hfirst
      | some since =>
          have hlt : entry.timestamp < since :=
            (hseparates since hpoll r.1 entry hat).1 ((h.returned_iff honce hat).mp hfirst)
          exact absurd (hlater since hpoll) (Nat.not_le.mpr hlt)
    · intro r hr
      rcases List.mem_append.mp hr with hr | hr
      · exact honce.errors r hr
      · obtain ⟨-, entry, hat, -, heq⟩ := (hanswered.mem_iff r).mp hr
        exact ⟨entry, hat, heq⟩

/-- Only an answer that is received adds to what was returned. -/
theorem Once.steps (honce : p.Once s.buffer) (hstep : p.Steps s step s' p')
    (hother : ∀ now, step ≠ .receive now) : p'.Once s.buffer := by
  cases hstep with
  | send | answer | fail => exact ⟨honce.returned, honce.never_twice, honce.errors⟩
  | @receive now => exact absurd rfl (hother now)

/-- A new entry is due to nobody yet. -/
theorem Once.addEntry (honce : p.Once buffer) (hmade : p.made ≤ buffer.added.length)
    (new : LogEntry) :
    p.Once (buffer.addEntry new) := by
  refine ⟨fun place entry hat hlt => ?_, honce.never_twice, fun r hr => ?_⟩
  · have hold : place < buffer.added.length := Nat.lt_of_lt_of_le hlt hmade
    exact honce.returned place entry (LogBuffer.errorAt_of_lt hat hold) hlt
  · obtain ⟨entry, hat, heq⟩ := honce.errors r hr
    exact ⟨entry, hat.addEntry new, heq⟩

end ErrorPoller

/-! ### All runs -/

variable {c c' : Conf LogServer ErrorPoller} {l : Label AddEntry Unit FetchStep}

/-- As long as the ring has room, it holds everything and every collector knows what it must. -/
def PollsSound (c : Conf LogServer ErrorPoller) : Prop :=
  c.shared.buffer.HasRoom → c.shared.buffer.Whole ∧ ∀ p ∈ c.procs, p.Sound c.shared

theorem ErrorPoller.sound_new : ErrorPoller.Sound {} s :=
  ⟨by rintro _ ⟨⟩, fun _ => ⟨rfl, rfl⟩, Nat.le_refl _, Nat.zero_le _, fun _ _ _ _ hlt =>
    absurd hlt (Nat.not_lt_zero _), List.forall_mem_nil _, by rintro _ ⟨⟩, by rintro _ _ _ ⟨⟩⟩

theorem LogServer.addEntry_eq {add : AddEntry} (h : s.addEntry add = some s') :
    ∃ new, s'.buffer = s.buffer.addEntry new := by
  simp only [LogServer.addEntry] at h
  split at h
  · cases h
    exact ⟨_, rfl⟩
  · cases h

theorem pollsSound_next (h : PollsSound c) (hnext : polling.next c l = some c') :
    PollsSound c' := by
  rcases polling.next_cases hnext with ⟨add, s, rfl, hadd, rfl⟩ | ⟨i, rfl, rfl⟩
    | ⟨pid, step, p, s, p', rfl, hpid, hstep, rfl⟩
  · intro hroom
    obtain ⟨new, hbuffer⟩ := LogServer.addEntry_eq hadd
    have hroom' : c.shared.buffer.HasRoom := LogBuffer.HasRoom.of_addEntry (hbuffer ▸ hroom)
    obtain ⟨hwhole, hall⟩ := h hroom'
    exact ⟨hbuffer ▸ hwhole.addEntry hroom' new, fun p hp => (hall p hp).addEntry hadd⟩
  · intro hroom
    obtain ⟨hwhole, hall⟩ := h hroom
    exact ⟨hwhole, forall_mem_append hall ErrorPoller.sound_new⟩
  · have hsteps := ErrorPoller.fetchErrors_steps hstep
    have hframe := hsteps.frame
    intro hroom
    obtain ⟨hwhole, hall⟩ := h (hframe.1 ▸ hroom)
    refine ⟨hframe.1.symm ▸ hwhole, forall_mem_set (fun q hq => (hall q hq).of_frame hframe) ?_⟩
    exact (hall p (mem_of_getElem? hpid)).steps hwhole hsteps

theorem pollsOnce_next_iff (hsound : PollsSound c) (h : PollsOnce c)
    (hnext : polling.next c l = some c') :
    PollsOnce c' ↔ ReceivesSeparated c l := by
  rcases polling.next_cases hnext with ⟨add, s, rfl, hadd, rfl⟩ | ⟨i, rfl, rfl⟩
    | ⟨pid, step, p, s, p', rfl, hpid, hstep, rfl⟩
  · refine iff_of_true (fun hroom p hp => ?_) trivial
    obtain ⟨new, hbuffer⟩ := LogServer.addEntry_eq hadd
    have hroom' : c.shared.buffer.HasRoom := LogBuffer.HasRoom.of_addEntry (hbuffer ▸ hroom)
    have hp' := (hsound hroom').2 p hp
    change p.Once s.buffer
    rw [hbuffer]
    exact (h hroom' p hp).addEntry (Nat.le_trans hp'.made_scanned hp'.scanned_le) new
  · refine iff_of_true (fun hroom => forall_mem_append (h hroom) ?_) trivial
    exact ⟨fun _ _ _ hlt => absurd hlt (Nat.not_lt_zero _), List.nodup_nil, List.forall_mem_nil _⟩
  · have hsteps := ErrorPoller.fetchErrors_steps hstep
    have hbuffer : s.buffer = c.shared.buffer := hsteps.frame.1
    have hmem : p ∈ c.procs := mem_of_getElem? hpid
    have hafter : PollsOnce ⟨s, c.procs.set pid p'⟩
        ↔ (c.shared.buffer.HasRoom → p'.Once c.shared.buffer) := by
      rw [PollsOnce, hbuffer]
      refine imp_congr_right fun hroom => ⟨fun hall => ?_, fun hp' => forall_mem_set (h hroom) hp'⟩
      obtain ⟨hlt, -⟩ := List.getElem?_eq_some_iff.mp hpid
      exact hall p' (List.mem_set hlt p')
    rw [hafter]
    cases step with
    | send | answer | fail =>
        refine iff_of_true (fun hroom => ?_) trivial
        exact (h hroom p hmem).steps hsteps (by rintro _ ⟨⟩)
    | receive now =>
        cases hsteps with
        | @receive _ scanned call errors hpc hnow =>
            refine imp_congr_right fun hroom => ?_
            rw [ErrorPoller.once_receive_iff ((hsound hroom).2 p hmem) (h hroom p hmem) hpc]
            constructor
            · intro hseparates q call' scanned' errors' hq hqpc
              rw [hpid, Option.some.injEq] at hq
              subst hq
              rw [hpc, FetchPc.answered.injEq] at hqpc
              exact hqpc.1 ▸ hseparates
            · exact fun hall => hall p call scanned errors hpid hpc

/-- **When nothing is lost or repeated**: exactly in the runs whose answers are received with the
time of the last poll between the errors already returned and those added since. -/
theorem polls_once_iff (maxEntries : Nat) (ls : List (Label AddEntry Unit FetchStep)) :
    polling.Throughout PollsOnce ⟨{ buffer := { maxEntries } }, []⟩ ls
      ↔ polling.Along ReceivesSeparated ⟨{ buffer := { maxEntries } }, []⟩ ls := by
  apply polling.throughout_iff_along (I := PollsSound)
  · exact fun c l c' h hnext => pollsSound_next h hnext
  · exact fun c l c' hsound h hnext => pollsOnce_next_iff hsound h hnext
  · exact fun _ => ⟨rfl, List.forall_mem_nil _⟩
  · exact fun _ => List.forall_mem_nil _

/-- The error at 1 is added when the server has answered and the collector has not yet read its
clock. -/
def lateReading : List (Label AddEntry Unit FetchStep) :=
  [.spawn (), .run 0 .send, .run 0 .answer,
    .env { level := .error, message := "PC1: no route", now := 1 }, .run 0 (.receive 2),
    .run 0 .send, .run 0 .answer, .run 0 (.receive 3)]

/-- **A lost error.** The second call is made later than the entry, and does not return it. -/
theorem error_lost : ¬ polling.Throughout PollsOnce ⟨{}, []⟩ lateReading := by
  intro hall
  have hrun : (polling.exec ⟨{}, []⟩ lateReading).map
      (fun c => (c.shared.buffer.maxEntries, c.shared.buffer.added, c.procs))
        = some (500, [⟨1, .error, "gns3", "PC1: no route"⟩],
          [{ lastErrorPoll := some 3, made := 1, scanned := 1 }]) := by decide +kernel
  obtain ⟨c, hexec, heq⟩ := Option.map_eq_some_iff.mp hrun
  obtain ⟨hmax, heq⟩ := Prod.mk.inj heq
  obtain ⟨hadded, hprocs⟩ := Prod.mk.inj heq
  have hroom : c.shared.buffer.HasRoom := by
    rw [LogBuffer.HasRoom, hmax, hadded]
    decide
  have honce := (hall.exec _ hexec : PollsOnce c) hroom _ (hprocs ▸ List.mem_cons_self)
  have herror : c.shared.buffer.ErrorAt 0 ⟨1, .error, "gns3", "PC1: no route"⟩ := by
    rw [LogBuffer.ErrorAt, hadded]
    exact ⟨rfl, rfl⟩
  have hmem := honce.returned 0 _ herror Nat.one_pos
  cases hmem

end OnlinetLabs.Analytics
