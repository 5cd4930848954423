import OnlinetLabs.Chat.Stream

/-!
# The text of a round

What the learner sees of a round, and what is stored of it, is the text of its deltas, each without
the hidden reasoning in it and without the white space at its ends. Where the model cuts its text
into deltas therefore matters: inside hidden reasoning, and at white space inside the text.
-/

namespace OnlinetLabs.Chat

open Blocks Trim
open Console (Text strip isSpace)

variable {J U : Type}

/-- The payload of a `text_delta`. -/
def StreamEvent.text : StreamEvent J → Text
  | .textDelta _ delta => delta
  | _ => []

/-- The concatenation of the `text_delta` payloads. -/
def shown (events : List (StreamEvent J)) : Text := events.flatMap StreamEvent.text

def Arrival.content (arrival : Arrival U) : Option Text := arrival.chunk.delta.bind Delta.content

/-- The model's text as it comes, as long as the client is there. -/
def deltas (arrivals : List (Arrival U)) : List Text :=
  (arrivals.takeWhile fun arrival => !arrival.disconnected).filterMap Arrival.content

/-- What is shown and what is stored are the whole text without its hidden reasoning, up to white
space at the ends. -/
structure SameText (env : RoundEnv J) (state : RoundState U)
    (arrivals : List (Arrival U)) : Prop where
  sent : strip (shown (streamOneRound env state arrivals).events)
    = strip (removeThinking (deltas arrivals).flatten)
  stored : (∀ arrival ∈ arrivals, arrival.disconnected = false) →
    strip ((streamOneRound env state arrivals).state.assistantParts.drop
      state.assistantParts.length).flatten
      = strip (removeThinking (deltas arrivals).flatten)

variable {env : RoundEnv J} {state : RoundState U} {arrivals : List (Arrival U)} {r : Reading J U}
  {partId : Text}
  {toolCalls : List ToolCallDelta} {events : List (StreamEvent J)}

theorem shown_append (events later : List (StreamEvent J)) :
    shown (events ++ later) = shown events ++ shown later :=
  List.flatMap_append

/-! ### What a round sends -/

def passed (content : Text) : Text := strip (removeThinking content)

/-- What has been sent so far is what is kept to be stored, and a text part is begun with the first
of it. -/
structure Reading.Synced (r : Reading J U) : Prop where
  shown_eq : shown r.events = r.textBuffer.flatten
  begun : r.textPartId = none → r.textBuffer = []

namespace Reading

theorem synced_readToolCalls (h : r.Synced) : (r.readToolCalls toolCalls).Synced := by
  unfold readToolCalls
  split
  · exact h
  · exact ⟨h.shown_eq, h.begun⟩

theorem textBuffer_readToolCalls : (r.readToolCalls toolCalls).textBuffer = r.textBuffer := by
  unfold readToolCalls
  split <;> rfl

theorem synced_readContent (h : r.Synced) (content : Text) :
    (r.readContent partId content).Synced := by
  constructor
  · have hstart :
        shown (if r.textPartId.isNone then [.textStart partId]
          else [] : List (StreamEvent J)) = [] := by
      split <;> rfl
    simp only [readContent]
    rw [shown_append, shown_append, hstart, h.shown_eq, List.append_nil, List.flatten_append]
    rfl
  · intro hnone
    cases hnone

theorem synced_readDelta (h : r.Synced) (delta : Delta) : (r.readDelta partId delta).Synced := by
  unfold readDelta
  split
  · exact synced_readToolCalls h
  · simp only
    split
    · exact h
    · exact synced_readToolCalls (synced_readContent h _)

theorem textBuffer_readDelta (r : Reading J U) (delta : Delta) :
    (r.readDelta partId delta).textBuffer.flatten = r.textBuffer.flatten
      ++ passed (delta.content.getD []) := by
  unfold readDelta
  split
  · rename_i hnone
    have hempty : delta.content.getD [] = [] := by
      cases hcontent : delta.content with
      | none => rfl
      | some text => simpa [present, hcontent] using hnone
    rw [textBuffer_readToolCalls, hempty]
    exact (List.append_nil _).symm
  · rename_i text htext
    have hcontent : delta.content = some text := (Option.filter_eq_some_iff.mp htext).1
    rw [hcontent]
    simp only
    split
    · rename_i hblank
      have hnil : passed text = [] := List.isEmpty_iff.mp hblank
      rw [Option.getD_some, hnil, List.append_nil]
    · rw [textBuffer_readToolCalls]
      simp only [readContent]
      rw [List.flatten_append, List.flatten_singleton]
      rfl

theorem synced_readChunk (h : r.Synced) (chunk : Chunk U) : (r.readChunk partId chunk).Synced := by
  have husage : ({ r with usageInfo := chunk.usage.or r.usageInfo } : Reading J U).Synced :=
    ⟨h.shown_eq, h.begun⟩
  unfold readChunk
  cases chunk.delta with
  | none => exact husage
  | some delta => exact synced_readDelta husage delta

theorem textBuffer_readChunk (r : Reading J U) (arrival : Arrival U) :
    (r.readChunk partId arrival.chunk).textBuffer.flatten
      = r.textBuffer.flatten ++ passed (arrival.content.getD []) := by
  unfold readChunk Arrival.content
  cases arrival.chunk.delta with
  | none => exact (List.append_nil _).symm
  | some delta => exact textBuffer_readDelta _ delta

theorem synced_readStream (partId : Text) (h : r.Synced) (arrivals : List (Arrival U)) :
    (r.readStream partId arrivals).1.Synced := by
  induction arrivals generalizing r with
  | nil => exact h
  | cons arrival arrivals ih =>
    rw [readStream]
    split
    · exact h
    · exact ih (synced_readChunk h arrival.chunk)

/-- **The text a stream leaves is what is passed on of its deltas.** -/
theorem textBuffer_readStream (partId : Text) (r : Reading J U) (arrivals : List (Arrival U)) :
    (r.readStream partId arrivals).1.textBuffer.flatten
      = r.textBuffer.flatten ++ ((deltas arrivals).map passed).flatten := by
  induction arrivals generalizing r with
  | nil => exact (List.append_nil _).symm
  | cons arrival arrivals ih =>
    rw [readStream]
    split
    · rename_i hgone
      have hnone : deltas (arrival :: arrivals) = [] := by simp [deltas, hgone]
      rw [hnone]
      exact (List.append_nil _).symm
    · rename_i hthere
      have hdeltas : ((deltas (arrival :: arrivals)).map passed).flatten
          = passed (arrival.content.getD []) ++ ((deltas arrivals).map passed).flatten := by
        have hstays : (!arrival.disconnected) = true := by simpa using hthere
        unfold deltas
        rw [List.takeWhile_cons, if_pos hstays]
        cases hcontent : arrival.content with
        | none =>
          rw [List.filterMap_cons_none hcontent]
          rfl
        | some text =>
          rw [List.filterMap_cons_some hcontent]
          rfl
      rw [ih, textBuffer_readChunk, hdeltas, List.append_assoc]

theorem ended_readStream (partId : Text) (h : ∀ arrival ∈ arrivals, arrival.disconnected = false)
    (r : Reading J U) :
    (r.readStream partId arrivals).2 = true := by
  induction arrivals generalizing r with
  | nil => rfl
  | cons arrival arrivals ih =>
    rw [readStream, if_neg (by simp [h arrival List.mem_cons_self])]
    exact ih (fun later hlater => h later (List.mem_cons_of_mem _ hlater)) _

end Reading

theorem shown_runTools (n : Nat) (toolCalls : List ToolCall) :
    shown (runTools env n toolCalls).1 = [] := by
  induction toolCalls generalizing n with
  | nil => rfl
  | cons tcc rest ih =>
    have hinput : ∀ (input : J), shown ([.toolInputStart tcc.id tcc.name]
        ++ (if tcc.arguments.isEmpty then [] else [.toolInputDelta tcc.id tcc.arguments])
        ++ [.toolInputAvailable tcc.id tcc.name input]) = [] := by
      intro input
      split <;> rfl
    simp only [runTools]
    split
    · exact hinput _
    · rw [shown_append, hinput]
      exact ih (n + 1)

theorem Reading.shown_finish (r : Reading J U) :
    shown (r.finish env state).events = shown r.events := by
  have hend : shown (r.events ++ (r.textPartId.map .textEnd).toList) = shown r.events := by
    rw [shown_append]
    cases r.textPartId <;> exact List.append_nil _
  unfold finish
  simp only
  split
  · rw [shown_append, hend, shown_runTools, List.append_nil]
  · exact hend

/-- What is stored of a round is what it has sent, as one part. -/
theorem Reading.parts_finish (h : r.Synced) :
    (r.finish env state).state.assistantParts
      = state.assistantParts ++ (if (shown r.events).isEmpty then [] else [shown r.events]) := by
  have hparts : (r.finish env state).state.assistantParts = state.assistantParts
      ++ (if r.textPartId.isSome && !r.textBuffer.flatten.isEmpty then [r.textBuffer.flatten]
        else []) := by
    unfold finish
    simp only
    split <;> rfl
  rw [hparts, ← h.shown_eq]
  cases hid : r.textPartId with
  | none =>
    have hnothing : shown r.events = [] := by rw [h.shown_eq, h.begun hid, List.flatten_nil]
    rw [hnothing]
    rfl
  | some partId =>
    cases (shown r.events).isEmpty <;> rfl

theorem synced_init (J : Type) (usage : Option U) : ({ usageInfo := usage } : Reading J U).Synced :=
  ⟨rfl, fun _ => rfl⟩

/-- **What a round shows is what is passed on of its deltas.** -/
theorem shown_streamOneRound (env : RoundEnv J) (state : RoundState U)
    (arrivals : List (Arrival U)) :
    shown (streamOneRound env state arrivals).events = ((deltas arrivals).map passed).flatten := by
  have hsynced := Reading.synced_readStream env.partId (synced_init J state.usageInfo) arrivals
  have htext := Reading.textBuffer_readStream env.partId
    ({ usageInfo := state.usageInfo } : Reading J U) arrivals
  unfold streamOneRound
  simp only
  split
  · rw [Reading.shown_finish, hsynced.shown_eq, htext]
    rfl
  · rw [hsynced.shown_eq, htext]
    rfl

theorem stored_streamOneRound (h : ∀ arrival ∈ arrivals, arrival.disconnected = false) :
    ((streamOneRound env state arrivals).state.assistantParts.drop
      state.assistantParts.length).flatten
      = shown (streamOneRound env state arrivals).events := by
  have hsynced := Reading.synced_readStream env.partId (synced_init J state.usageInfo) arrivals
  have hended := Reading.ended_readStream env.partId h
    ({ usageInfo := state.usageInfo } : Reading J U)
  unfold streamOneRound
  simp only
  rw [if_pos hended, Reading.shown_finish, Reading.parts_finish hsynced, List.drop_left]
  split
  · rename_i hempty
    exact (List.isEmpty_iff.mp hempty).symm
  · exact List.append_nil _

/-! ### Borders -/

theorem strip_passed (texts : List Text) :
    strip (texts.map passed).flatten = (texts.map passed).flatten := by
  have hmap : texts.map passed = (texts.map removeThinking).map (trim isSpace) := by
    rw [List.map_map]
    rfl
  rw [hmap]
  exact trim_pieces isSpace _

/-- **Where the model's text may be cut.** -/
theorem passed_iff (texts : List Text) :
    strip (texts.map passed).flatten = strip (removeThinking texts.flatten) ↔
      thinking.Uncut texts ∧ Kept isSpace (texts.map removeThinking) := by
  have hmap : texts.map passed = (texts.map removeThinking).map (trim isSpace) := by
    rw [List.map_map]
    rfl
  have hmark : isSpace thinking.mark = false := by decide
  rw [strip_passed, hmap]
  rcases thinking.uncut_or texts with ⟨huncut, heq⟩ | ⟨hcut, hlt⟩
  · have hwhole : removeThinking texts.flatten = (texts.map removeThinking).flatten := heq
    rw [hwhole]
    exact (trim_pieces_iff isSpace _).trans ⟨fun h => ⟨huncut, h⟩, fun h => h.2⟩
  · constructor
    · intro heq
      have hpieces := count_pieces hmark (texts.map removeThinking)
      have hcount : (strip (removeThinking texts.flatten)).count thinking.mark
          = (removeThinking texts.flatten).count thinking.mark := count_trim hmark _
      rw [heq, hcount] at hpieces
      exact absurd hpieces (Nat.ne_of_lt hlt)
    · exact fun h => absurd h.1 hcut

/-- **The text of a round does not depend on its deltas exactly where they are cut at none of these
places.** -/
theorem sameText_iff (env : RoundEnv J) (state : RoundState U) (arrivals : List (Arrival U)) :
    SameText env state arrivals ↔
      thinking.Uncut (deltas arrivals) ∧ Kept isSpace ((deltas arrivals).map removeThinking) := by
  rw [← passed_iff, ← shown_streamOneRound env state]
  constructor
  · exact fun h => h.sent
  · intro h
    refine ⟨h, fun hthere => ?_⟩
    rw [stored_streamOneRound hthere]
    exact h

def noTools : RoundEnv Unit := ⟨"p1".toList, fun _ => none, (), fun _ _ _ => none, []⟩

def textChunk (text : String) : Arrival Unit := ⟨false, ⟨none, some ⟨some text.toList, []⟩⟩⟩

/-- Hidden reasoning that comes in two deltas is shown. -/
example : shown (streamOneRound noTools ⟨[], none, false⟩
    [textChunk "[START_THINKING]no", textChunk "w[END_THINKING]Hi"]).events
      = "[START_THINKING]now[END_THINKING]Hi".toList := by
  decide

theorem not_sameText_twoWords :
    ¬ SameText noTools ⟨[], none, false⟩ [textChunk "Set", textChunk " the mask"] := by
  intro h
  have hsent := h.sent
  revert hsent
  decide

end OnlinetLabs.Chat
