import OnlinetLabs.Console.Text
import OnlinetLabs.Lib.Blocks
import OnlinetLabs.Lib.Dict
import OnlinetLabs.Lib.Trim

/-!
# One round of the tutor's reply

The model's reply comes as a stream of chunks, with text and parts of tool calls in their deltas.
The text is passed on and stored, the tool calls are put together and carried out when the stream
has ended. The hidden reasoning of the model and the white space at both ends are taken off each
delta on its own.
-/

namespace OnlinetLabs.Chat

open Blocks Trim
open Console (Text strip isSpace)

/-- `_THINKING_RE`. -/
def thinking : Delimiters Char where
  mark := '['
  opening := "[START_THINKING]".toList
  closing := "[END_THINKING]".toList
  opening_head := by decide
  closing_head := by decide
  notMem_opening := by decide
  notMem_closing := by decide
  opening_closing := by decide
  closing_opening := by decide

/-- `_THINKING_RE.sub("", text)`. -/
def removeThinking (text : Text) : Text := thinking.remove text

/-! ### The stream -/

structure FunctionDelta where
  name : Option Text
  arguments : Option Text

structure ToolCallDelta where
  index : Nat
  id : Option Text
  function : Option FunctionDelta

structure Delta where
  content : Option Text
  toolCalls : List ToolCallDelta

/-- A chunk without choices has no delta. -/
structure Chunk (U : Type) where
  usage : Option U
  delta : Option Delta

/-- A chunk, and whether the client is found disconnected when it comes. -/
structure Arrival (U : Type) where
  disconnected : Bool
  chunk : Chunk U

structure ToolCall where
  id : Text
  name : Text
  arguments : Text

/-- What is sent to the client, `J` for the JSON values. -/
inductive StreamEvent (J : Type) where
  | textStart (id : Text)
  | textDelta (id delta : Text)
  | textEnd (id : Text)
  | toolInputStart (id name : Text)
  | toolInputDelta (id delta : Text)
  | toolInputAvailable (id name : Text) (input : J)
  | toolOutputAvailable (id output : Text)

/-- What a round adds to the messages for the model. -/
inductive RoundMessage where
  | assistant (toolCalls : List ToolCall)
  | tool (toolCallId content : Text)

/-- `state`, with the texts of the parts. -/
structure RoundState (U : Type) where
  assistantParts : List Text
  usageInfo : Option U
  hasToolCalls : Bool

structure RoundEnv (J : Type) where
  /-- The `uuid4` of the text part. -/
  partId : Text
  /-- `json.loads`, or `none` where it raises. -/
  loads : Text → Option J
  emptyObject : J
  /-- The result of the n-th call of the round, or `none` where it raises. -/
  executeTool : Nat → Text → J → Option Text
  /-- `language_directive(locale)` -/
  languageDirective : Text

/-! ### Reading the stream -/

def present (text : Option Text) : Option Text := text.filter fun t => !t.isEmpty

def ToolCall.empty : ToolCall := ⟨[], [], []⟩

def ToolCall.read (buf : ToolCall) (tc : ToolCallDelta) : ToolCall where
  id := (present tc.id).getD buf.id
  name := (tc.function.bind fun function => present function.name).getD buf.name
  arguments :=
    buf.arguments ++ (tc.function.bind fun function => present function.arguments).getD []

structure Reading (J U : Type) where
  events : List (StreamEvent J) := []
  textBuffer : List Text := []
  textPartId : Option Text := none
  toolCallsBuffer : Dict Nat ToolCall := {}
  hasToolCalls : Bool := false
  usageInfo : Option U

namespace Reading

variable {J U : Type}

def readContent (partId : Text) (r : Reading J U) (content : Text) : Reading J U :=
  { r with
    events := r.events ++ (if r.textPartId.isNone then [.textStart partId]
      else []) ++ [.textDelta partId content]
    textPartId := some partId
    textBuffer := r.textBuffer ++ [content] }

def readToolCall (buffer : Dict Nat ToolCall) (tc : ToolCallDelta) : Dict Nat ToolCall :=
  buffer.set tc.index (((buffer.get? tc.index).getD .empty).read tc)

def readToolCalls (r : Reading J U) (toolCalls : List ToolCallDelta) : Reading J U :=
  if toolCalls.isEmpty then r
  else { r with
    hasToolCalls := true
    toolCallsBuffer := toolCalls.foldl readToolCall r.toolCallsBuffer }

def readDelta (partId : Text) (r : Reading J U) (delta : Delta) : Reading J U :=
  match present delta.content with
  | none => r.readToolCalls delta.toolCalls
  | some text =>
      let content := strip (removeThinking text)
      -- the loop goes on with the next chunk, and the tool calls of the delta are not read
      if content.isEmpty then r
      else (r.readContent partId content).readToolCalls delta.toolCalls

def readChunk (partId : Text) (r : Reading J U) (chunk : Chunk U) : Reading J U :=
  let r : Reading J U := { r with usageInfo := chunk.usage.or r.usageInfo }
  match chunk.delta with
  | none => r
  | some delta => r.readDelta partId delta

/-- The stream up to its end, or to the chunk at which the client is gone; and whether it ended. -/
def readStream (partId : Text) (r : Reading J U) : List (Arrival U) → Reading J U × Bool
  | [] => (r, true)
  | arrival :: rest =>
      if arrival.disconnected then (r, false)
      else readStream partId (r.readChunk partId arrival.chunk) rest

end Reading

/-! ### The round -/

section Round

variable {J U : Type}

/-- The tool calls from the n-th on, and whether none of them raised. -/
def runTools (env : RoundEnv J) :
    Nat → List ToolCall → List (StreamEvent J) × List RoundMessage × Bool
  | _, [] => ([], [], true)
  | n, tcc :: rest =>
      let raw := tcc.arguments
      let parsed := if raw.isEmpty then env.emptyObject else (env.loads raw).getD env.emptyObject
      let input : List (StreamEvent J) := [.toolInputStart tcc.id tcc.name]
        ++ (if raw.isEmpty then [] else [.toolInputDelta tcc.id raw])
          ++ [.toolInputAvailable tcc.id tcc.name parsed]
      match env.executeTool n tcc.name parsed with
      | none => (input, [], false)
      | some result =>
          let (events, messages, finished) := runTools env (n + 1) rest
          let content := result ++ "\n\n[".toList ++ env.languageDirective ++ "]".toList
          (input ++ .toolOutputAvailable tcc.id result :: events,
            .tool tcc.id content :: messages, finished)

structure Round (J U : Type) where
  events : List (StreamEvent J)
  state : RoundState U
  messages : List RoundMessage
  finished : Bool

def Reading.finish (env : RoundEnv J) (state : RoundState U) (r : Reading J U) : Round J U :=
  let full := r.textBuffer.flatten
  let events := r.events ++ (r.textPartId.map .textEnd).toList
  let state : RoundState U :=
    { assistantParts :=
        state.assistantParts ++ (if r.textPartId.isSome && !full.isEmpty then [full] else [])
      usageInfo := r.usageInfo
      hasToolCalls := r.hasToolCalls && !r.toolCallsBuffer.entries.isEmpty }
  if state.hasToolCalls then
    let toolCalls :=
      (r.toolCallsBuffer.entries.mergeSort fun a b => decide (a.1 ≤ b.1)).map Prod.snd
    let (toolEvents, toolMessages, finished) := runTools env 0 toolCalls
    ⟨events ++ toolEvents, state, .assistant toolCalls :: toolMessages, finished⟩
  else ⟨events, state, [], true⟩

def streamOneRound (env : RoundEnv J) (state : RoundState U) (arrivals : List (Arrival U)) :
    Round J U :=
  let (r, ended) := Reading.readStream env.partId { usageInfo := state.usageInfo } arrivals
  if ended then r.finish env state
  else ⟨r.events, { state with usageInfo := r.usageInfo }, [], false⟩

end Round

end OnlinetLabs.Chat
