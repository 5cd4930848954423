import OnlinetLabs.Chat.Borders

/-!
# The tutor's reply

A reply is a few rounds with the model. A round that ends in tool calls adds them and their results
to the messages, and the next round sends all of that back. The client gets the events of the rounds
between a start and an end, and the texts of the rounds are stored when the reply is over, however
it ends.
-/

namespace OnlinetLabs.Chat

open Console (Text)

def maxToolRounds : Nat := 5

def maxHistoryMessages : Nat := 6

/-! ### The messages of the learner -/

structure SdkPart where
  type : Text
  text : Option Text

/-- A message of the request. Parts and content are empty where they are not there. -/
structure SdkMessage where
  role : Option Text
  parts : List SdkPart
  content : Text

inductive Message where
  | system (content : Text)
  | turn (role content : Text)
  | round (message : RoundMessage)

def SdkPart.piece (part : SdkPart) :
    Option Text := if part.type = "text".toList then present part.text else none

def SdkMessage.shownContent (msg : SdkMessage) : Text :=
  if msg.parts.isEmpty then msg.content
  else "\n".toList.intercalate (msg.parts.filterMap SdkPart.piece)

def toOpenaiMessages (sdkMessages : List SdkMessage) : List Message :=
  sdkMessages.filterMap fun msg =>
    if msg.shownContent.isEmpty then none
    else some (.turn (msg.role.getD "user".toList) msg.shownContent)

/-- A row of `chat_messages`. -/
inductive ChatMessage (U : Type) where
  | user (parts : List SdkPart)
  | assistant (parts : List Text) (usage : Option U) (modelId : Text)

variable {J U : Type}

def saveUserMessage (rows : List (ChatMessage U)) (sdkMessages : List SdkMessage) :
    List (ChatMessage U) :=
  match sdkMessages.getLast? with
  | none => rows
  | some last =>
      if last.role = some "user".toList then
        rows ++ [.user (if last.parts.isEmpty then [⟨"text".toList, some last.content⟩]
          else last.parts)]
      else rows

def saveAssistantMessage (rows : List (ChatMessage U)) (parts : List Text) (usage : Option U)
    (modelId : Text) :
    List (ChatMessage U) :=
  if parts.isEmpty then rows else rows ++ [.assistant parts usage modelId]

/-! ### The model that answers -/

structure AgentsConfig where
  catalog : List Text
  chatModel : Text

/-- `cfg.get_entry(id) is not None`, of an id that is there. -/
def AgentsConfig.known (cfg : AgentsConfig) (modelId : Option Text) : Option Text :=
  (present modelId).filter fun id => id ∈ cfg.catalog

def resolveChatModel (cfg : AgentsConfig) (requested sessionModelId : Option Text)
    (canSelect : Bool)
    (userDefaultModelId : Option Text) : Text :=
  let chosen := if canSelect then (cfg.known requested).or (cfg.known userDefaultModelId) else none
  (chosen.or (cfg.known sessionModelId)).getD cfg.chatModel

theorem AgentsConfig.mem_of_known {cfg : AgentsConfig} {modelId : Option Text} {id : Text}
    (h : id ∈ cfg.known modelId) : id ∈ cfg.catalog := by
  simpa using (Option.filter_eq_some_iff.mp h).2

/-- Whatever is asked for, the model that answers is one of the catalogue or the one that is
configured. -/
theorem resolveChatModel_mem (cfg : AgentsConfig) (requested sessionModelId : Option Text)
    (canSelect : Bool) (userDefaultModelId : Option Text) :
    resolveChatModel cfg requested sessionModelId canSelect userDefaultModelId
      ∈ cfg.chatModel :: cfg.catalog := by
  have hknown : ∀ {id : Text} {first later : Option Text}, (∀ a ∈ first, a ∈ cfg.catalog) →
      (∀ a ∈ later, a ∈ cfg.catalog) → id ∈ first.or later → id ∈ cfg.catalog := by
    rintro id (_ | a) later hfirst hlater hid
    · exact hlater id hid
    · exact hfirst id hid
  unfold resolveChatModel
  simp only
  rw [List.mem_cons]
  cases hchosen : (if canSelect then (cfg.known requested).or (cfg.known userDefaultModelId)
    else none).or
      (cfg.known sessionModelId) with
  | none => exact Or.inl rfl
  | some id =>
      refine Or.inr (hknown ?_ (fun a ha => AgentsConfig.mem_of_known ha) hchosen)
      split
      · exact fun a => hknown (fun a ha => AgentsConfig.mem_of_known ha) fun a ha =>
          AgentsConfig.mem_of_known ha
      · rintro _ ⟨⟩

/-! ### The rounds -/

/-- How a round ends: after its tools, because the client is gone, or because something is
raised. -/
inductive RoundEnd where
  | over
  | gone
  | raised (error : Text)

structure RoundRun (J U : Type) where
  env : RoundEnv J
  arrivals : List (Arrival U)
  /-- What the request to the model or its stream raises, behind these chunks. -/
  streamError : Option Text
  /-- What a tool raises where one does. -/
  toolError : Text

def RoundRun.run (met : RoundRun J U) (state : RoundState U) : Round J U × RoundEnd :=
  let round := streamOneRound met.env state met.arrivals
  let (r, ended) := Reading.readStream met.env.partId { usageInfo := state.usageInfo } met.arrivals
  if ended then
    match met.streamError with
    | some error => (⟨r.events, { state with usageInfo := r.usageInfo }, [], false⟩, .raised error)
    | none => (round, if round.finished then .over else .raised met.toolError)
  else (round, .gone)

structure ReplyEnv (J U : Type) where
  messageId : Text
  systemContent : Text
  round : Nat → RoundRun J U
  /-- Whether the client is found disconnected before the n-th round. -/
  disconnected : Nat → Bool

inductive Ending where
  | finished
  | gone
  | raised (error : Text)

structure Rounds (J U : Type) where
  events : List (StreamEvent J)
  state : RoundState U
  /-- The messages of each request to the model. -/
  requests : List (List Message)
  ending : Ending

/-- The loop of `generate` with so many rounds left, from the n-th on. -/
def runRounds (env : ReplyEnv J U) : Nat → Nat → RoundState U → List Message → Rounds J U
  | 0, _, state, _ => ⟨[], state, [], .finished⟩
  | left + 1, n, state, messages =>
      if env.disconnected n then ⟨[], state, [], .finished⟩
      else
        let (round, ended) := (env.round n).run state
        match ended with
        | .gone => ⟨round.events, round.state, [messages], .gone⟩
        | .raised error => ⟨round.events, round.state, [messages], .raised error⟩
        | .over =>
            if round.state.hasToolCalls then
              let rest := runRounds env left (n + 1) round.state
                (messages ++ round.messages.map .round)
              ⟨round.events ++ rest.events, rest.state, messages :: rest.requests, rest.ending⟩
            else ⟨round.events, round.state, [messages], .finished⟩

/-! ### The reply -/

/-- What `stream_protocol.py` puts on the wire. -/
inductive ReplyEvent (J : Type) where
  | start (messageId : Text)
  | part (event : StreamEvent J)
  | finish
  | error (errorText : Text)
  | done

def Ending.events : Ending → List (ReplyEvent J)
  | .finished => [.finish, .done]
  | .gone => []
  | .raised error => [.error error, .done]

structure Reply (J U : Type) where
  events : List (ReplyEvent J)
  rounds : Rounds J U
  rows : List (ChatMessage U)

def generate (env : ReplyEnv J U) (modelId : Text) (openaiMessages : List Message)
    (rows : List (ChatMessage U)) :
    Reply J U :=
  let history := openaiMessages.drop (openaiMessages.length - maxHistoryMessages)
  let rounds :=
    runRounds env maxToolRounds 0 ⟨[], none, false⟩ (.system env.systemContent :: history)
  { events := .start env.messageId :: rounds.events.map .part ++ rounds.ending.events
    rounds
    rows := saveAssistantMessage rows rounds.state.assistantParts rounds.state.usageInfo modelId }

structure ChatRequest where
  messages : List SdkMessage
  modelId : Option Text

/-- The error of a request that gets no stream: its code and its status. -/
structure LocalizedError where
  code : String
  statusCode : Nat
deriving DecidableEq

/-- `session` is the learner's session with the model stored in it, where there is one. -/
def streamReply (env : ReplyEnv J U) (cfg : AgentsConfig) (session : Option (Option Text))
    (body : ChatRequest)
    (canSelect : Bool) (userDefaultModelId : Option Text) (rows : List (ChatMessage U)) :
    Except LocalizedError (Reply J U) :=
  match session with
  | none => .error ⟨"error.session.not_found", 404⟩
  | some sessionModelId =>
      let openaiMessages := toOpenaiMessages body.messages
      if openaiMessages.isEmpty then .error ⟨"error.chat.no_messages", 400⟩
      else
        let modelId := resolveChatModel cfg body.modelId sessionModelId canSelect userDefaultModelId
        .ok (generate env modelId openaiMessages (saveUserMessage rows body.messages))

end OnlinetLabs.Chat
