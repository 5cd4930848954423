import Mathlib.Data.Finset.Sort
import OnlinetLabs.Chat.Reply

/-!
# What the client and the model read of a reply

The client takes the events of a reply in an order: a text part is begun, continued and ended before
anything else comes, and a tool call has its input and then its output. The model refuses messages
in which a tool call has no result. Both are kept by every reply, whatever the model streams,
wherever it breaks off and whatever the tools do; and the parts that are stored are those the client
has seen to their end.
-/

namespace OnlinetLabs.Chat

open Console (Text strip)

variable {J U : Type}

/-! ### The client -/

inductive Phase where
  | fresh
  | ready
  | text (id : Text)
  | toolInput (id : Text)
  | toolCall (id : Text)
  | closing
  | closed
deriving DecidableEq

/-- The texts that have ended, and the one that has not. -/
structure Client where
  phase : Phase
  parts : List Text
  unended : Text

namespace Client

def fresh : Client := ⟨.fresh, [], []⟩

def readPart (c : Client) : StreamEvent J → Option Client
  | .textStart id =>
      if c.phase = .ready then some { c with phase := .text id, unended := [] } else none
  | .textDelta id delta =>
      if c.phase = .text id then some { c with unended := c.unended ++ delta } else none
  | .textEnd id =>
      if c.phase = .text id then some ⟨.ready, c.parts ++ [c.unended], []⟩ else none
  | .toolInputStart id _ =>
      if c.phase = .ready then some { c with phase := .toolInput id } else none
  | .toolInputDelta id _ => if c.phase = .toolInput id then some c else none
  | .toolInputAvailable id _ _ =>
      if c.phase = .toolInput id then some { c with phase := .toolCall id } else none
  | .toolOutputAvailable id _ =>
      if c.phase = .toolCall id then some { c with phase := .ready } else none

/-- Nothing but an error may come in the middle of a part. -/
def mayFail : Phase → Bool
  | .ready | .text _ | .toolInput _ | .toolCall _ => true
  | .fresh | .closing | .closed => false

def read (c : Client) : ReplyEvent J → Option Client
  | .start _ => if c.phase = .fresh then some { c with phase := .ready } else none
  | .part event => c.readPart event
  | .finish => if c.phase = .ready then some { c with phase := .closing } else none
  | .error _ => if mayFail c.phase then some { c with phase := .closing } else none
  | .done => if c.phase = .closing then some { c with phase := .closed } else none

end Client

/-- The client after some events, unless one of them is out of order. -/
def clientAfter (c : Client) (events : List (StreamEvent J)) :
    Option Client := events.foldlM Client.readPart c

theorem clientAfter_append (c : Client) (events later : List (StreamEvent J)) :
    clientAfter c (events ++ later) = (clientAfter c events).bind fun c' => clientAfter c' later :=
  List.foldlM_append

theorem clientAfter_append_of_eq {c c' : Client} {events : List (StreamEvent J)}
    (h : clientAfter c events = some c')
    (later : List (StreamEvent J)) : clientAfter c (events ++ later) = clientAfter c' later := by
  rw [clientAfter_append, h, Option.bind_some]

/-! ### A round -/

variable {env : RoundEnv J} {state : RoundState U} {arrivals : List (Arrival U)} {parts : List Text}
  {toolCalls : List ToolCallDelta}

namespace Reading

/-- Where the client stands in the text of a round. -/
def client (parts : List Text) (r : Reading J U) : Client :=
  match r.textPartId with
  | none => ⟨.ready, parts, []⟩
  | some id => ⟨.text id, parts, r.textBuffer.flatten⟩

/-- What a round has sent is in order, and a text part that is begun is not empty. -/
structure InOrder (partId : Text) (parts : List Text) (r : Reading J U) : Prop where
  read : clientAfter ⟨.ready, parts, []⟩ r.events = some (r.client parts)
  onePart : ∀ id ∈ r.textPartId, id = partId ∧ r.textBuffer.flatten ≠ []
  untold : r.textPartId = none → r.textBuffer = []

theorem inOrder_init (parts : List Text) (partId : Text) (usage : Option U) :
    ({ usageInfo := usage } : Reading J U).InOrder partId parts :=
  ⟨rfl, by rintro _ ⟨⟩, fun _ => rfl⟩

variable {r : Reading J U} {partId : Text}

theorem InOrder.readToolCalls (h : r.InOrder partId parts) :
    (r.readToolCalls toolCalls).InOrder partId parts := by
  unfold Reading.readToolCalls
  split
  · exact h
  · exact ⟨h.read, h.onePart, h.untold⟩

theorem InOrder.readContent (h : r.InOrder partId parts) {content : Text}
    (hcontent : content ≠ []) :
    (r.readContent partId content).InOrder partId parts := by
  refine ⟨?_, ?_, fun hnone => nomatch hnone⟩
  · simp only [Reading.readContent, List.append_assoc]
    rw [clientAfter_append_of_eq h.read]
    cases hid : r.textPartId with
    | none =>
        have hempty : r.textBuffer = [] := h.untold hid
        simp [client, hid, hempty, clientAfter, Client.readPart]
    | some id =>
        obtain ⟨rfl, -⟩ := h.onePart id hid
        simp [client, hid, clientAfter, Client.readPart]
  · rintro _ ⟨⟩
    refine ⟨rfl, ?_⟩
    simp [Reading.readContent, hcontent]

theorem InOrder.readDelta (h : r.InOrder partId parts) (delta : Delta) :
    (r.readDelta partId delta).InOrder partId parts := by
  unfold Reading.readDelta
  split
  · exact h.readToolCalls
  · simp only
    split
    · exact h
    · rename_i hfull
      exact (h.readContent
        (List.isEmpty_eq_false_iff.mp (Bool.not_eq_true _ ▸ hfull))).readToolCalls

theorem InOrder.readChunk (h : r.InOrder partId parts) (chunk : Chunk U) :
    (r.readChunk partId chunk).InOrder partId parts := by
  have husage :
      ({ r with usageInfo := chunk.usage.or r.usageInfo } : Reading J U).InOrder partId parts :=
    ⟨h.read, h.onePart, h.untold⟩
  unfold Reading.readChunk
  cases chunk.delta with
  | none => exact husage
  | some delta => exact husage.readDelta delta

theorem InOrder.readStream (h : r.InOrder partId parts) (arrivals : List (Arrival U)) :
    (r.readStream partId arrivals).1.InOrder partId parts := by
  induction arrivals generalizing r with
  | nil => exact h
  | cons arrival arrivals ih =>
      rw [Reading.readStream]
      split
      · exact h
      · exact ih (h.readChunk arrival.chunk)

/-- At the end of the stream its text is the last of the parts, for the client as for what is
stored. -/
theorem InOrder.finish (env : RoundEnv J) (h : r.InOrder partId state.assistantParts) :
    clientAfter ⟨.ready, state.assistantParts, []⟩ (r.events ++ (r.textPartId.map .textEnd).toList)
      = some ⟨.ready, (r.finish env state).state.assistantParts, []⟩ := by
  have hparts : (r.finish env state).state.assistantParts = state.assistantParts
      ++ (if r.textPartId.isSome && !r.textBuffer.flatten.isEmpty then [r.textBuffer.flatten]
        else []) := by
    unfold Reading.finish
    simp only
    split <;> rfl
  rw [clientAfter_append_of_eq h.read, hparts]
  cases hid : r.textPartId with
  | none => simp [client, hid, clientAfter]
  | some id =>
      obtain ⟨-, hfull⟩ := h.onePart id hid
      simp [client, hid, clientAfter, Client.readPart, List.isEmpty_eq_false_iff.mpr hfull]

end Reading

/-! ### The tool calls of a stream -/

/-- A text of which nothing is left: the delta is dropped with the tool calls in it. -/
def Delta.dropped (delta : Delta) : Bool :=
  (present delta.content).any fun text => (strip (removeThinking text)).isEmpty

def Chunk.callDeltas (chunk : Chunk U) : List ToolCallDelta :=
  match chunk.delta with
  | none => []
  | some delta => if delta.dropped then [] else delta.toolCalls

/-- The call of an index: its last id and its last name, and its arguments put together. -/
def callAt (deltas : List ToolCallDelta) (index : Nat) : ToolCall :=
  let parts := deltas.filter fun tc => tc.index = index
  { id := (parts.filterMap fun tc => present tc.id).getLast?.getD []
    name := (parts.filterMap fun tc => tc.function.bind fun function =>
      present function.name).getLast?.getD []
    arguments := parts.flatMap fun tc => (tc.function.bind FunctionDelta.arguments).getD [] }

/-- The calls a model has made in parts, one for each index. -/
def callsOf (deltas : List ToolCallDelta) : List ToolCall :=
  ((deltas.map ToolCallDelta.index).toFinset.sort).map (callAt deltas)

def RoundRun.callsMade (met : RoundRun J U) : List ToolCall :=
  callsOf (met.arrivals.flatMap fun arrival => arrival.chunk.callDeltas)

namespace Reading

variable {r : Reading J U} {partId : Text} {deltas : List ToolCallDelta} {tc : ToolCallDelta}
  {index : Nat}

theorem toolCallsBuffer_readToolCalls :
    (r.readToolCalls toolCalls).toolCallsBuffer
      = toolCalls.foldl readToolCall r.toolCallsBuffer := by
  unfold Reading.readToolCalls
  split
  · rename_i hnone
    rw [List.isEmpty_iff.mp hnone, List.foldl_nil]
  · rfl

theorem toolCallsBuffer_readDelta (delta : Delta) : (r.readDelta partId delta).toolCallsBuffer
    = (if delta.dropped then [] else delta.toolCalls).foldl readToolCall r.toolCallsBuffer := by
  unfold Reading.readDelta Delta.dropped
  split
  · rename_i hnone
    rw [hnone, Option.any_none, toolCallsBuffer_readToolCalls]
    rfl
  · rename_i text htext
    rw [htext, Option.any_some]
    simp only
    split
    · rfl
    · exact toolCallsBuffer_readToolCalls

theorem toolCallsBuffer_readChunk (chunk : Chunk U) :
    (r.readChunk partId chunk).toolCallsBuffer
      = chunk.callDeltas.foldl readToolCall r.toolCallsBuffer := by
  unfold Reading.readChunk Chunk.callDeltas
  cases chunk.delta with
  | none => rfl
  | some delta => exact toolCallsBuffer_readDelta delta

theorem toolCallsBuffer_readStream (hended : (r.readStream partId arrivals).2 = true) :
    (r.readStream partId arrivals).1.toolCallsBuffer
      = (arrivals.flatMap fun arrival =>
        arrival.chunk.callDeltas).foldl readToolCall r.toolCallsBuffer := by
  induction arrivals generalizing r with
  | nil => rfl
  | cons arrival arrivals ih =>
    rw [Reading.readStream] at hended ⊢
    split at hended
    · cases hended
    · rename_i hthere
      rw [if_neg hthere, ih hended, toolCallsBuffer_readChunk, List.flatMap_cons, List.foldl_append]

theorem getLast?_filterMap_concat {α β : Type} (f : α → Option β) (l : List α) (a : α) (b : β) :
    ((l ++ [a]).filterMap f).getLast?.getD b = (f a).getD ((l.filterMap f).getLast?.getD b) := by
  rw [List.filterMap_append]
  cases ha : f a <;> simp [ha]

theorem callAt_concat_of_eq (h : tc.index = index) :
    callAt (deltas ++ [tc]) index = (callAt deltas index).read tc := by
  have hparts : (deltas ++ [tc]).filter (fun tc => tc.index = index)
      = deltas.filter (fun tc => tc.index = index) ++ [tc] := by simp [h]
  have harguments : (tc.function.bind FunctionDelta.arguments).getD []
      = (tc.function.bind fun function => present function.arguments).getD [] := by
    cases tc.function with
    | none => rfl
    | some function =>
      rcases hargs : function.arguments with _ | _ | _ <;> simp [present, hargs, Option.filter]
  unfold callAt
  rw [hparts]
  simp only [getLast?_filterMap_concat, List.flatMap_append, List.flatMap_singleton, harguments]
  rfl

theorem callAt_concat_of_ne (h : tc.index ≠ index) :
    callAt (deltas ++ [tc]) index = callAt deltas index := by
  simp [callAt, h]

/-- What the dictionary holds of the calls. -/
theorem get?_buffer : (deltas.foldl readToolCall {}).get? index
    = if index ∈ deltas.map ToolCallDelta.index then some (callAt deltas index) else none := by
  induction deltas using List.reverseRecOn with
  | nil => rfl
  | append_singleton deltas tc ih =>
    rw [List.foldl_append, List.foldl_cons, List.foldl_nil, readToolCall, Dict.get?_set]
    by_cases heq : index = tc.index
    · subst heq
      rw [if_pos rfl, if_pos (by simp), callAt_concat_of_eq rfl, ih]
      split
      · rfl
      · rename_i hnew
        have hempty : callAt deltas tc.index = .empty := by
          have hnone : deltas.filter (fun part => part.index = tc.index) = [] := by
            rw [List.filter_eq_nil_iff]
            intro part hpart
            have hother : part.index ≠ tc.index := fun heq =>
                hnew (List.mem_map.mpr ⟨part, hpart, heq⟩)
            simpa using hother
          simp [callAt, hnone, ToolCall.empty]
        rw [hempty]
        rfl
    · rw [if_neg heq, ih, callAt_concat_of_ne (Ne.symm heq)]
      simp [heq]

theorem nodup_keys_buffer : (deltas.foldl readToolCall {}).keys.Nodup := by
  induction deltas using List.reverseRecOn with
  | nil => exact List.nodup_nil
  | append_singleton deltas tc ih =>
    rw [List.foldl_append]
    exact Dict.nodup_keys_set ih

theorem mem_keys_buffer :
    index ∈ (deltas.foldl readToolCall {}).keys ↔ index ∈ deltas.map ToolCallDelta.index := by
  rw [Dict.mem_keys_iff, get?_buffer]
  simp

/-- Sorted by their keys, the entries of the dictionary are in the order of the indices. -/
theorem indices_buffer :
    ((deltas.foldl readToolCall {}).entries.mergeSort fun a b => decide (a.1 ≤ b.1)).map Prod.fst
      = (deltas.map ToolCallDelta.index).toFinset.sort := by
  have hperm := (List.mergeSort_perm (deltas.foldl readToolCall {}).entries fun a b =>
    decide (a.1 ≤ b.1)).map Prod.fst
  have hnodup := hperm.nodup_iff.mpr nodup_keys_buffer
  have hsorted : ((deltas.foldl readToolCall {}).entries.mergeSort
      fun a b => decide (a.1 ≤ b.1)).Pairwise fun a b => decide (a.1 ≤ b.1) := by
    apply List.pairwise_mergeSort
    · simpa using fun a _ b _ c _ => Nat.le_trans
    · simpa using fun a _ b _ => Nat.le_total a b
  rw [← (List.toFinset_sort (· ≤ ·) hnodup).mpr (List.pairwise_map.mpr (by simpa using hsorted))]
  congr 1
  ext index
  rw [List.mem_toFinset, List.mem_toFinset, hperm.mem_iff]
  exact mem_keys_buffer

/-- The calls are carried out in the order of their indices. -/
theorem sorted_buffer :
    ((deltas.foldl readToolCall {}).entries.mergeSort fun a b => decide (a.1 ≤ b.1)).map Prod.snd
      = callsOf deltas := by
  have hentries : ∀ entry ∈ (deltas.foldl readToolCall {}).entries,
      entry.2 = callAt deltas entry.1 := by
    intro entry hentry
    have hget := Dict.get?_of_mem nodup_keys_buffer hentry
    have hmem : entry.1 ∈ deltas.map ToolCallDelta.index :=
      mem_keys_buffer.mp (List.mem_map_of_mem hentry)
    rw [get?_buffer, if_pos hmem, Option.some.injEq] at hget
    exact hget.symm
  have hperm := List.mergeSort_perm (deltas.foldl readToolCall {}).entries fun a b =>
      decide (a.1 ≤ b.1)
  calc ((deltas.foldl readToolCall {}).entries.mergeSort fun a b => decide (a.1 ≤ b.1)).map Prod.snd
      = (((deltas.foldl readToolCall {}).entries.mergeSort fun a b => decide (a.1 ≤ b.1)).map
        Prod.fst).map
          (callAt deltas) := by
        rw [List.map_map]
        exact List.map_congr_left fun entry hentry => hentries entry (hperm.mem_iff.mp hentry)
    _ = callsOf deltas := by rw [indices_buffer, callsOf]

end Reading

/-! ### The tools -/

/-- The tools of an answer leave the client ready, or in the middle of the one that raised. -/
theorem clientAfter_runTools (env : RoundEnv J) (n : Nat) (calls : List ToolCall)
    (parts : List Text) :
    ∃ phase, clientAfter ⟨.ready, parts, []⟩ (runTools env n calls).1 = some ⟨phase, parts, []⟩
      ∧ ((runTools env n calls).2.2 = true → phase = .ready) ∧ Client.mayFail phase = true := by
  induction calls generalizing n with
  | nil => exact ⟨.ready, rfl, fun _ => rfl, rfl⟩
  | cons tcc rest ih =>
      have hinput : ∀ input : J, clientAfter ⟨.ready, parts, []⟩ ([.toolInputStart tcc.id tcc.name]
          ++ (if tcc.arguments.isEmpty then [] else [.toolInputDelta tcc.id tcc.arguments])
          ++ [.toolInputAvailable tcc.id tcc.name input]) = some ⟨.toolCall tcc.id, parts, []⟩ := by
        intro input
        split <;> simp [clientAfter, Client.readPart]
      simp only [runTools]
      split
      · exact ⟨.toolCall tcc.id, hinput _, fun h => (Bool.false_ne_true h).elim, rfl⟩
      · rename_i result _
        obtain ⟨phase, hread, hready, hopen⟩ := ih (n + 1)
        refine ⟨phase, ?_, hready, hopen⟩
        rw [clientAfter_append_of_eq (hinput _)]
        simpa [clientAfter, Client.readPart] using hread

/-- The answer of the model with its tool calls, and a result for each of them. -/
structure Exchange where
  calls : List ToolCall
  results : List Text
  nonempty : calls ≠ []
  answered : results.length = calls.length

def Exchange.messages (exchange : Exchange) : List RoundMessage :=
  .assistant exchange.calls
    :: List.zipWith (fun call content => .tool call.id content) exchange.calls exchange.results

theorem messages_runTools (env : RoundEnv J) (n : Nat) (calls : List ToolCall)
    (h : (runTools env n calls).2.2 = true) :
    ∃ results : List Text, results.length = calls.length
      ∧ (runTools env n calls).2.1 = List.zipWith (fun call content =>
        .tool call.id content) calls results := by
  induction calls generalizing n with
  | nil => exact ⟨[], rfl, rfl⟩
  | cons tcc rest ih =>
      simp only [runTools] at h ⊢
      split at h
      · cases h
      · rename_i result _
        obtain ⟨results, hlength, hmessages⟩ := ih (n + 1) h
        refine ⟨(result ++ "\n\n[".toList ++ env.languageDirective ++ "]".toList) :: results, ?_,
          ?_⟩
        · rw [List.length_cons, List.length_cons, hlength]
        · simp only [hmessages, List.zipWith_cons_cons]

/-! ### What a round comes to -/

/-- Where a round leaves the client: with the parts that are stored, and ready where the round is
over. -/
structure Leaves (state : RoundState U) (ended : Prop) (c : Client) : Prop where
  parts : c.parts = state.assistantParts
  ready : ended → c.phase = .ready ∧ c.unended = []
  mayFail : Client.mayFail c.phase = true

theorem Reading.leaves_finish (env : RoundEnv J) {r : Reading J U} {partId : Text}
    (h : r.InOrder partId state.assistantParts) :
    ∃ c, clientAfter ⟨.ready, state.assistantParts, []⟩ (r.finish env state).events = some c
      ∧ Leaves (r.finish env state).state ((r.finish env state).finished = true) c := by
  have hread := h.finish env
  unfold Reading.finish at hread ⊢
  simp only at hread ⊢
  split
  · rename_i htools
    rw [if_pos htools] at hread
    obtain ⟨phase, htail, hready, hmayFail⟩ := clientAfter_runTools env 0
      ((r.toolCallsBuffer.entries.mergeSort fun a b => decide (a.1 ≤ b.1)).map Prod.snd)
      (state.assistantParts ++
        if r.textPartId.isSome && !r.textBuffer.flatten.isEmpty then [r.textBuffer.flatten] else [])
    refine ⟨_, (clientAfter_append_of_eq hread _).trans htail, rfl, fun hover =>
      ⟨hready hover, rfl⟩, hmayFail⟩
  · rename_i hno
    rw [if_neg hno] at hread
    exact ⟨_, hread, rfl, fun _ => ⟨rfl, rfl⟩, rfl⟩

theorem Reading.messages_finish {r : Reading J U} (hover : (r.finish env state).finished = true)
    (htools : (r.finish env state).state.hasToolCalls = true) :
    ∃ exchange : Exchange, exchange.calls
        = (r.toolCallsBuffer.entries.mergeSort fun a b => decide (a.1 ≤ b.1)).map Prod.snd
      ∧ (r.finish env state).messages = exchange.messages := by
  unfold Reading.finish at hover htools ⊢
  simp only at hover htools ⊢
  split
  · rename_i hcalls
    rw [if_pos hcalls] at hover
    have hsome : r.toolCallsBuffer.entries ≠ [] := by
      simp only [Bool.and_eq_true, Bool.not_eq_true', List.isEmpty_eq_false_iff] at hcalls
      exact hcalls.2
    obtain ⟨results, hanswered, hmessages⟩ := messages_runTools env 0 _ hover
    refine ⟨⟨_, results, ?_, hanswered⟩, rfl, congrArg _ hmessages⟩
    simpa [← List.length_eq_zero_iff] using hsome
  · rename_i hno
    rw [if_neg hno] at htools
    exact absurd htools hno

theorem RoundRun.leaves_run (met : RoundRun J U) (state : RoundState U) :
    ∃ c, clientAfter ⟨.ready, state.assistantParts, []⟩ (met.run state).1.events = some c
      ∧ Leaves (met.run state).1.state ((met.run state).2 = .over) c := by
  have horder := (Reading.inOrder_init (J := J) state.assistantParts met.env.partId
    state.usageInfo).readStream met.arrivals
  have hopen : ∀ r : Reading J U, r.InOrder met.env.partId state.assistantParts →
      Client.mayFail (r.client state.assistantParts).phase = true := by
    intro r _
    unfold Reading.client
    split <;> rfl
  have hparts : ∀ r : Reading J U,
      (r.client state.assistantParts).parts = state.assistantParts := by
    intro r
    unfold Reading.client
    split <;> rfl
  unfold RoundRun.run streamOneRound
  simp only
  split
  · cases met.streamError with
    | some error => exact ⟨_, horder.read, hparts _, nofun, hopen _ horder⟩
    | none =>
        obtain ⟨c, hread, hleaves⟩ := Reading.leaves_finish met.env horder
        refine ⟨c, hread, hleaves.parts, fun hover => hleaves.ready ?_, hleaves.mayFail⟩
        by_contra hraised
        exact absurd hover (by simp [if_neg hraised])
  · exact ⟨_, horder.read, hparts _, nofun, hopen _ horder⟩

theorem RoundRun.messages_run {met : RoundRun J U} (hover : (met.run state).2 = .over)
    (htools : (met.run state).1.state.hasToolCalls = true) :
    ∃ exchange : Exchange, exchange.calls = met.callsMade
      ∧ (met.run state).1.messages = exchange.messages := by
  unfold RoundRun.run streamOneRound at hover htools ⊢
  simp only at hover htools ⊢
  split at hover
  · rename_i hended
    simp only [if_pos hended] at hover htools ⊢
    cases hstream : met.streamError with
    | some error =>
        rw [hstream] at hover
        cases hover
    | none =>
        rw [hstream] at hover htools
        simp only at hover htools ⊢
        have hfinished : (Reading.finish met.env state (Reading.readStream met.env.partId
            { usageInfo := state.usageInfo } met.arrivals).1).finished = true := by
          by_contra hraised
          rw [if_neg hraised] at hover
          cases hover
        obtain ⟨exchange, hcalls, hmessages⟩ := Reading.messages_finish hfinished htools
        refine ⟨exchange, ?_, hmessages⟩
        rw [hcalls, Reading.toolCallsBuffer_readStream hended, Reading.sorted_buffer]
        rfl
  · cases hover

/-! ### The rounds of a reply -/

theorem leaves_runRounds (env : ReplyEnv J U) (left n : Nat) (state : RoundState U)
    (messages : List Message) :
    ∃ c, clientAfter ⟨.ready, state.assistantParts, []⟩
        (runRounds env left n state messages).events = some c
      ∧ Leaves (runRounds env left n state messages).state
          ((runRounds env left n state messages).ending = .finished) c := by
  induction left generalizing n state messages with
  | zero => exact ⟨_, rfl, rfl, fun _ => ⟨rfl, rfl⟩, rfl⟩
  | succ left ih =>
      obtain ⟨c, hread, hleaves⟩ := (env.round n).leaves_run state
      simp only [runRounds]
      split
      · exact ⟨_, rfl, rfl, fun _ => ⟨rfl, rfl⟩, rfl⟩
      · split
        · exact ⟨c, hread, hleaves.parts, nofun, hleaves.mayFail⟩
        · exact ⟨c, hread, hleaves.parts, nofun, hleaves.mayFail⟩
        · rename_i hover
          obtain ⟨hphase, hunended⟩ := hleaves.ready hover
          split
          · obtain ⟨c', hread', hleaves'⟩ := ih (n + 1) ((env.round n).run state).1.state
              (messages ++ ((env.round n).run state).1.messages.map .round)
            have hc : c = ⟨.ready, ((env.round n).run state).1.state.assistantParts, []⟩ := by
              rw [← hphase, ← hunended, ← hleaves.parts]
            exact ⟨c', (clientAfter_append_of_eq hread _).trans (hc ▸ hread'), hleaves'⟩
          · exact ⟨c, hread, hleaves.parts, fun _ => ⟨hphase, hunended⟩, hleaves.mayFail⟩

theorem length_requests_le (env : ReplyEnv J U) (left n : Nat) (state : RoundState U)
    (messages : List Message) :
    (runRounds env left n state messages).requests.length ≤ left := by
  induction left generalizing n state messages with
  | zero => exact le_rfl
  | succ left ih =>
      simp only [runRounds]
      split
      · exact Nat.zero_le _
      · split
        · exact Nat.succ_le_succ (Nat.zero_le _)
        · exact Nat.succ_le_succ (Nat.zero_le _)
        · split
          · exact Nat.succ_le_succ (ih _ _ _)
          · exact Nat.succ_le_succ (Nat.zero_le _)

/-- What is sent back to the model behind the messages it began with. -/
def answered (exchanges : List Exchange) :
    List Message := (exchanges.flatMap Exchange.messages).map .round

/-- Behind its first messages a request has the exchanges of the rounds before it, which are those
from the n-th on. -/
def Follows (env : ReplyEnv J U) (n : Nat) (messages : List Message) (i : Nat)
    (request : List Message) : Prop :=
  ∃ exchanges : List Exchange,
    exchanges.map Exchange.calls = (List.range i).map (fun j => (env.round (n + j)).callsMade)
      ∧ request = messages ++ answered exchanges

theorem follows_first {env : ReplyEnv J U} {messages request : List Message} {n i : Nat}
    (h : [messages][i]? = some request) : Follows env n messages i request := by
  rw [List.getElem?_singleton] at h
  split at h
  · rename_i hzero
    cases h
    subst hzero
    exact ⟨[], rfl, (List.append_nil _).symm⟩
  · cases h

/-- The i-th request is the first one and i exchanges. -/
theorem requests_runRounds (env : ReplyEnv J U) {left n i : Nat} {state : RoundState U}
    {messages request : List Message}
    (h : (runRounds env left n state messages).requests[i]? = some request) :
    Follows env n messages i request := by
  induction left generalizing n state messages i with
  | zero => simp [runRounds] at h
  | succ left ih =>
      simp only [runRounds] at h
      split at h
      · simp at h
      · split at h
        · exact follows_first h
        · exact follows_first h
        · rename_i hover
          split at h
          · rename_i htools
            cases i with
            | zero => exact follows_first h
            | succ i =>
                obtain ⟨exchange, hcalls, hexchange⟩ := RoundRun.messages_run hover htools
                obtain ⟨exchanges, hmade, hrequest⟩ := ih h
                refine ⟨exchange :: exchanges, ?_, ?_⟩
                · rw [List.map_cons, hcalls, hmade, List.range_succ_eq_map, List.map_cons,
                    List.map_map]
                  simp [Function.comp_def, Nat.add_assoc, Nat.add_comm 1]
                · rw [hrequest, hexchange, List.append_assoc, answered, answered, List.flatMap_cons,
                    List.map_append]
          · exact follows_first h

theorem isPrefix_requests (env : ReplyEnv J U) (left n : Nat) (state : RoundState U)
    (messages : List Message) :
    (runRounds env left n state messages).requests.Pairwise (· <+: ·) := by
  induction left generalizing n state messages with
  | zero => exact List.Pairwise.nil
  | succ left ih =>
      simp only [runRounds]
      split
      · exact List.Pairwise.nil
      · split
        · exact List.pairwise_singleton _ _
        · exact List.pairwise_singleton _ _
        · split
          · refine List.pairwise_cons.mpr ⟨fun later hlater => ?_, ih _ _ _⟩
            obtain ⟨i, hi⟩ := List.mem_iff_getElem?.mp hlater
            obtain ⟨exchanges, -, rfl⟩ := requests_runRounds env hi
            exact (List.prefix_append _ _).trans (List.prefix_append _ _)
          · exact List.pairwise_singleton _ _

/-! ### The reply -/

/-- How the client that has read a whole reply is left, and that the parts it has seen to their end
are the row that is stored. -/
structure Told (reply : Reply J U) (rows : List (ChatMessage U)) (modelId : Text)
    (c : Client) : Prop where
  stored : reply.rows = saveAssistantMessage rows c.parts reply.rounds.state.usageInfo modelId
  finished : reply.rounds.ending = .finished → c.phase = .closed ∧ c.unended = []
  raised : ∀ error, reply.rounds.ending = .raised error → c.phase = .closed
  gone : reply.rounds.ending = .gone → Client.mayFail c.phase = true

theorem read_begun (messageId : Text) {events : List (StreamEvent J)} {c : Client}
    (h : clientAfter ⟨.ready, [], []⟩ events = some c) (tail : List (ReplyEvent J)) :
    (ReplyEvent.start messageId :: events.map ReplyEvent.part ++ tail).foldlM Client.read
      Client.fresh
      = tail.foldlM Client.read c := by
  have hparts : (events.map ReplyEvent.part).foldlM Client.read ⟨.ready, [], []⟩ = some c :=
    List.foldlM_map.trans h
  change ((events.map ReplyEvent.part) ++ tail).foldlM Client.read ⟨.ready, [], []⟩ = _
  rw [List.foldlM_append, hparts]
  rfl

/-- **Every reply is in order, and is stored as it was seen.** -/
theorem exists_client_generate (env : ReplyEnv J U) (modelId : Text) (openaiMessages : List Message)
    (rows : List (ChatMessage U)) :
    ∃ c, (generate env modelId openaiMessages rows).events.foldlM Client.read Client.fresh = some c
      ∧ Told (generate env modelId openaiMessages rows) rows modelId c := by
  obtain ⟨c, hread, hleaves⟩ := leaves_runRounds env maxToolRounds 0 ⟨[], none, false⟩
    (.system env.systemContent :: openaiMessages.drop (openaiMessages.length - maxHistoryMessages))
  unfold generate
  simp only
  cases hending : (runRounds env maxToolRounds 0 ⟨[], none, false⟩
    (.system env.systemContent
      :: openaiMessages.drop (openaiMessages.length - maxHistoryMessages))).ending with
  | finished =>
      obtain ⟨hphase, hunended⟩ := hleaves.ready hending
      refine ⟨{ c with phase := .closed }, ?_, ?_, fun _ => ⟨rfl, hunended⟩, fun _ _ => rfl, ?_⟩
      · rw [read_begun env.messageId hread]
        simp [Ending.events, Client.read, hphase]
      · simp only [hleaves.parts]
      · exact fun h => nomatch hending.symm.trans h
  | gone =>
      refine ⟨c, ?_, ?_, ?_, ?_, fun _ => hleaves.mayFail⟩
      · rw [read_begun env.messageId hread]
        rfl
      · simp only [hleaves.parts]
      · exact fun h => nomatch hending.symm.trans h
      · exact fun error h => nomatch hending.symm.trans h
  | raised error =>
      refine ⟨{ c with phase := .closed }, ?_, ?_, ?_, fun _ _ => rfl, ?_⟩
      · rw [read_begun env.messageId hread]
        simp [Ending.events, Client.read, hleaves.mayFail]
      · simp only [hleaves.parts]
      · exact fun h => nomatch hending.symm.trans h
      · exact fun h => nomatch hending.symm.trans h

/-- What the model is sent in a reply: the system prompt and the last messages of the dialogue, and
behind them an exchange for each round before, in which every tool call of the round has its
result. -/
structure Conversed (env : ReplyEnv J U) (openaiMessages : List Message)
    (requests : List (List Message)) :
    Prop where
  rounds : requests.length ≤ maxToolRounds
  exchanged : ∃ history, history <:+ openaiMessages ∧ history.length ≤ maxHistoryMessages ∧
    ∀ (i : Nat) (request : List Message), requests[i]? = some request → ∃ exchanges : List Exchange,
      exchanges.map Exchange.calls = (List.range i).map (fun j => (env.round j).callsMade)
        ∧ request = .system env.systemContent :: history ++ answered exchanges
  grown : requests.Pairwise (· <+: ·)

/-- **Every request to the model has the tool calls of the rounds before it answered.** -/
theorem conversed_generate (env : ReplyEnv J U) (modelId : Text) (openaiMessages : List Message)
    (rows : List (ChatMessage U)) :
    Conversed env openaiMessages (generate env modelId openaiMessages rows).rounds.requests := by
  refine ⟨length_requests_le env _ _ _ _,
    ⟨openaiMessages.drop (openaiMessages.length - maxHistoryMessages), List.drop_suffix _ _, ?_,
      fun i request h => ?_⟩, isPrefix_requests env _ _ _ _⟩
  · rw [List.length_drop]
    omega
  · obtain ⟨exchanges, hmade, hrequest⟩ := requests_runRounds env h
    simp only [Nat.zero_add] at hmade
    exact ⟨exchanges, hmade, hrequest⟩

end OnlinetLabs.Chat
