import OnlinetLabs.Lib.Incremental
import OnlinetLabs.Validation.Agreement
import OnlinetLabs.Validation.Decoder

/-!
# The validation stream in the browser

The server writes each event as a frame of server-sent events, and `useValidationStream` reads them
back from chunks that are cut anywhere, also inside a character. A reducer then rebuilds the steps
of the run one event at a time.
-/

namespace OnlinetLabs.Validation

open Console (Bytes Text encode)
open Json (Fields)

/-! ### The server -/

/-- The JSON object of an event. Its data has no key `type`. -/
def Event.payload (event : Event) : Json := .obj (("type", .str event.type) :: event.data)

def Event.toSse (event : Event) : Text :=
  "data: ".toList ++ (event.payload.dumps Json.escape ++ "\n\n".toList)

/-- What `stream_validation` adds to the first and the last event of a run. -/
def Event.identified (runId : String) (event : Event) : Event :=
  if event.type = "run.start" || event.type = "run.finish" then
    { event with data := Dict.assign "runId" (.str runId) event.data }
  else event

/-! ### The reducer -/

inductive StreamStatus where
  | idle
  | running
  | passed
  | failed
  | error
deriving Repr, DecidableEq

structure ValidationCheck where
  kind : String
  params : Fields
  ok : Bool
  expected : Fields
  actual : Fields
  log : Option String := none

structure ValidationStep where
  id : String
  title : String
  ok : Bool
  checks : List ValidationCheck

structure StreamState where
  status : StreamStatus := .idle
  currentRunId : Option String := none
  steps : List ValidationStep := []

/-! The reducer reads the fields of an event without checking them. One that is not of the type the
event declares reads as empty here. -/

def readText (event : Json) (name : String) : String :=
  match event.field? name with
  | some (.str text) => text
  | _ => ""

def readFlag (event : Json) (name : String) : Bool :=
  match event.field? name with
  | some (.bool b) => b
  | _ => false

def readFields (event : Json) (name : String) : Fields :=
  match event.field? name with
  | some (.obj fields) => fields
  | _ => []

def readNumeral (event : Json) (name : String) : Option Numeral :=
  match event.field? name with
  | some (.num n) => some n
  | _ => none

def StreamState.updateStep (state : StreamState) (stepId : String)
    (f : ValidationStep → ValidationStep) :
    StreamState :=
  { state with steps := state.steps.map fun step => if step.id = stepId then f step else step }

def ValidationStep.addCheck (check : ValidationCheck) (step : ValidationStep) : ValidationStep :=
  { step with checks := step.checks ++ [check] }

def ValidationStep.addLog (line : String) (step : ValidationStep) : ValidationStep :=
  match step.checks.getLast? with
  | none => step
  | some check =>
      { step with
        checks := step.checks.dropLast
          ++ [{ check with log := some (check.log.getD "" ++ line ++ "\n") }] }

/-- A result goes to the check at the index of the event. -/
def ValidationStep.setResult (index : Option Numeral) (ok : Bool) (expected actual : Fields)
    (step : ValidationStep) : ValidationStep :=
  { step with checks := step.checks.mapIdx fun i check =>
      if index = some (Numeral.ofNat i) then { check with ok, expected, actual } else check }

def applyEvent (state : StreamState) (event : Json) : StreamState :=
  match readText event "type" with
  | "run.start" =>
      { status := .running
        currentRunId := match event.field? "runId" with
          | some (.str runId) => some runId
          | _ => none
        steps := [] }
  | "step.start" =>
      { state with steps := state.steps ++ [{
          id := readText event "stepId"
          title := readText event "title"
          ok := false
          checks := [] }] }
  | "check.start" =>
      state.updateStep (readText event "stepId") (·.addCheck {
        kind := readText event "kind"
        params := readFields event "params"
        ok := false
        expected := []
        actual := [] })
  | "check.log" => state.updateStep (readText event "stepId") (·.addLog (readText event "line"))
  | "check.result" =>
      state.updateStep (readText event "stepId") (·.setResult (readNumeral event "checkIndex")
        (readFlag event "ok") (readFields event "expected") (readFields event "actual"))
  | "step.result" =>
      state.updateStep (readText event "stepId") fun step => { step with ok := readFlag event "ok" }
  | "run.finish" => { state with status := if readFlag event "ok" then .passed else .failed }
  | _ => state

/-! ### Frames -/

/-- What `String.prototype.trim` removes. -/
def isTrimmed (c : Char) : Bool :=
  let n := c.toNat
  decide (9 ≤ n ∧ n ≤ 13) || n == 0x20 || n == 0xa0 || n == 0x1680
    || decide (0x2000 ≤ n ∧ n ≤ 0x200a)
    || n == 0x2028 || n == 0x2029 || n == 0x202f || n == 0x205f || n == 0x3000 || n == 0xfeff

def trim (text : Text) : Text := (text.dropWhile isTrimmed).rdropWhile isTrimmed

def lineEvent (line : Text) : Option Json :=
  if "data:".toList.isPrefixOf line then
    let payload := trim (line.drop 5)
    if payload.isEmpty then none else Json.parse payload
  else none

def frameEvents (frame : Text) : List Json := (frame.splitOnP (· == '\n')).filterMap lineEvent

def parseSSEBuffer (buffer : Text) : List Json × Text :=
  ((Incremental.cut '\n' buffer).1.flatMap frameEvents, (Incremental.cut '\n' buffer).2)

/-! ### The reading loop -/

/-- The variables of the loop, and the events it has decoded. -/
structure Reader where
  decoder : TextDecoder := {}
  buffer : Text := []
  decoded : List Json := []
  state : StreamState

/-- What one `reader.read()` brings. -/
def Reader.read (reader : Reader) (value : Bytes) : Reader :=
  let (text, decoder) := reader.decoder.decode value
  let (events, rest) := parseSSEBuffer (reader.buffer ++ text)
  { decoder
    buffer := rest
    decoded := reader.decoded ++ events
    state := events.foldl applyEvent reader.state }

def opened (state : StreamState) : Reader := { state }

/-! ### The events come back -/

variable {event : Event} {events : List Event} {reader : Reader} {chunks : List Bytes}
  {initial : StreamState}

theorem resumable_parseSSEBuffer : Incremental.Resumable parseSSEBuffer :=
  (Incremental.resumable_cut '\n').flatMap frameEvents

/-- The loop is a fold over what comes out of the buffer, whatever the chunks are. -/
theorem foldl_read (chunks : List Bytes) (reader : Reader) :
    ∃ texts : List Text, texts.flatten = (reader.decoder.decode chunks.flatten).1
      ∧ (chunks.foldl Reader.read reader).decoded
          = reader.decoded ++ (Incremental.feed parseSSEBuffer reader.buffer texts).1
      ∧ (chunks.foldl Reader.read reader).buffer
          = (Incremental.feed parseSSEBuffer reader.buffer texts).2
      ∧ (chunks.foldl Reader.read reader).state
          = (Incremental.feed parseSSEBuffer reader.buffer texts).1.foldl applyEvent
            reader.state := by
  induction chunks generalizing reader with
  | nil => exact ⟨[], rfl, (List.append_nil _).symm, rfl, rfl⟩
  | cons chunk chunks ih =>
      obtain ⟨texts, htexts, hdecoded, hbuffer, hstate⟩ := ih (reader.read chunk)
      refine ⟨(reader.decoder.decode chunk).1 :: texts, ?_, ?_, ?_, ?_⟩
      · rw [List.flatten_cons, List.flatten_cons, TextDecoder.decode_append, htexts]
        rfl
      · rw [List.foldl_cons, hdecoded, Incremental.feed, ← List.append_assoc]
        rfl
      · rw [List.foldl_cons, hbuffer, Incremental.feed]
        rfl
      · rw [List.foldl_cons, hstate, Incremental.feed, List.foldl_append]
        rfl

/-- The text of a frame, without the empty line that ends it. -/
def Event.frame (event : Event) : Text := "data: ".toList ++ event.payload.dumps Json.escape

theorem toSse_eq : event.toSse = event.frame ++ ['\n', '\n'] := (List.append_assoc _ _ _).symm

theorem newline_not_mem_frame : '\n' ∉ event.frame := by
  intro hmem
  rcases List.mem_append.mp hmem with hmem | hmem
  · revert hmem
    decide
  · have hprinted := Json.forall_mem_dumps event.payload '\n' hmem
    revert hprinted
    decide

theorem trim_dumps (fields : Fields) :
    trim (' ' :: Json.dumps Json.escape (.obj fields)) = Json.dumps Json.escape (.obj fields) := by
  obtain ⟨body, hbody⟩ := Json.exists_dumps_obj_eq fields
  rw [trim, List.dropWhile_cons_of_pos (by rfl), hbody, List.dropWhile_cons_of_neg (by decide),
    ← List.cons_append, List.rdropWhile_concat_neg _ _ _ (by decide)]

theorem frameEvents_frame : frameEvents event.frame = [event.payload] := by
  have hsplit : event.frame.splitOnP (· == '\n') = [event.frame] :=
    List.splitOnP_eq_singleton fun c hc => by
      rw [beq_eq_false_iff_ne]
      rintro rfl
      exact newline_not_mem_frame hc
  have hdrop : event.frame.drop 5 = ' ' :: event.payload.dumps Json.escape := rfl
  have hprefix : "data:".toList.isPrefixOf event.frame = true := rfl
  have hpayload : trim (event.frame.drop 5) = event.payload.dumps Json.escape := by
    rw [hdrop]
    exact trim_dumps _
  have hne : (event.payload.dumps Json.escape).isEmpty = false := by
    obtain ⟨body, hbody⟩ := Json.exists_dumps_obj_eq (("type", .str event.type) :: event.data)
    rw [Event.payload, hbody]
    rfl
  have hline : lineEvent event.frame = some event.payload := by
    simp only [lineEvent, hprefix, hpayload, hne, if_true, Bool.false_eq_true, if_false,
      Json.parse_dumps]
  rw [frameEvents, hsplit]
  simp [hline]

theorem parseSSEBuffer_toSse :
    parseSSEBuffer (events.flatMap Event.toSse) = (events.map Event.payload, []) := by
  have hcut : Incremental.cut '\n' (events.flatMap Event.toSse) = (events.map Event.frame, []) := by
    induction events with
    | nil => rfl
    | cons event events ih =>
        have hframe : event.toSse ++ events.flatMap Event.toSse
            = event.frame ++ '\n' :: '\n' :: events.flatMap Event.toSse := by
          rw [toSse_eq, List.append_assoc]
          rfl
        rw [List.flatMap_cons, hframe, Incremental.cut_block newline_not_mem_frame, ih]
        rfl
  rw [parseSSEBuffer, hcut, List.flatMap_map]
  simp only [frameEvents_frame]
  rw [List.map_eq_flatMap]

/-- **Chunks do not matter.** However the stream is cut, its events are decoded in order and each
goes to the reducer once. -/
theorem read_toSse (hchunks : chunks.flatten = encode (events.flatMap Event.toSse)) :
    (chunks.foldl Reader.read (opened initial)).decoded = events.map Event.payload
      ∧ (chunks.foldl Reader.read (opened initial)).state
        = (events.map Event.payload).foldl applyEvent initial := by
  obtain ⟨texts, htexts, hdecoded, -, hstate⟩ := foldl_read chunks (opened initial)
  have hhead : (events.flatMap Event.toSse).head? ≠ some byteOrderMark := by
    cases events with
    | nil => simp
    | cons event events =>
        have hdata : ((event :: events).flatMap Event.toSse).head? = some 'd' := rfl
        rw [hdata]
        decide
  have htext : texts.flatten = events.flatMap Event.toSse := by
    rw [htexts, hchunks]
    exact TextDecoder.decode_stream hhead
  have hfeed : (Incremental.feed parseSSEBuffer (opened initial).buffer texts).1
      = events.map Event.payload := by
    rw [resumable_parseSSEBuffer.feed_eq rfl, htext]
    exact congrArg Prod.fst parseSSEBuffer_toSse
  rw [hdecoded, hstate, hfeed]
  exact ⟨rfl, rfl⟩

end OnlinetLabs.Validation
