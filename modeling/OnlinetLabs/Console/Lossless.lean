import OnlinetLabs.Console.Framing
import OnlinetLabs.Lib.Chunks
import Mathlib.Data.List.Forall2

/-!
# Framing loses nothing

What the frames of a socket are cut from is a matter of its bytes alone. `Framer` is that cutting
and nothing else: the chunks of the two streams in the order of the calls, and what waits of each. A
tap within its budgets follows it (`KeepsUp`): a frame for each cut, with the direction and the flag
of the cut, and the bytes of the cut where nothing was masked.

So where masking changes nothing, the frames of either direction are its stream.
-/

namespace OnlinetLabs.Console

open Chunks (chunks)
open ConsoleTap (Message Numbered)

/-! ### Cutting -/

/-- What a frame is cut from. -/
structure Cut where
  direction : Direction
  payload : Bytes
  truncated : Bool
deriving DecidableEq

/-- The cuts of a socket so far, and the bytes of each direction that wait. -/
structure Framer where
  cuts : List Cut := []
  waiting : Direction → Bytes := fun _ => []

/-- What a message adds to the stream of a direction. -/
def carries (direction : Direction) : Message → Bytes
  | .fromClient data _ => if direction = .«in» then data else []
  | .fromNode data _ => if direction = .out then data else []

def ingested (direction : Direction) (messages : List Message) : Bytes :=
  messages.flatMap (carries direction)

namespace Framer

def take (framer : Framer) (direction : Direction) (size : Nat) (truncated : Bool) : Framer where
  cuts := framer.cuts ++ [⟨direction, (framer.waiting direction).take size, truncated⟩]
  waiting := Function.update framer.waiting direction ((framer.waiting direction).drop size)

/-- What waits is cut into chunks, in at most `n` cuts. -/
def cutUp (framer : Framer) (direction : Direction) (n : Nat) : Framer :=
  let cut := chunks isBreak maxChunkBytes n (framer.waiting direction)
  { cuts := framer.cuts ++ cut.1.map fun chunk => ⟨direction, chunk.data, chunk.truncated⟩
    waiting := Function.update framer.waiting direction cut.2 }

def push (framer : Framer) (direction : Direction) (data : Bytes) : Framer :=
  { framer with
    waiting := Function.update framer.waiting direction (framer.waiting direction ++ data) }

def ingest (framer : Framer) (direction : Direction) (data : Bytes) : Framer :=
  (framer.push direction data).cutUp direction ((framer.waiting direction ++ data).length + 1)

def flush (framer : Framer) (direction : Direction) : Framer :=
  if framer.waiting direction = [] then framer
  else framer.take direction (framer.waiting direction).length false

def receive (framer : Framer) : Message → Framer
  | .fromClient data _ => framer.ingest .«in» data
  | .fromNode data _ => framer.ingest .out data

def receiveAll (framer : Framer) (messages : List Message) : Framer :=
  messages.foldl receive framer

def close (framer : Framer) : Framer := (framer.flush .«in»).flush .out

def carried (framer : Framer) (direction : Direction) : Bytes :=
  (framer.cuts.filter fun cut => cut.direction = direction).flatMap (·.payload)

/-- Cuts are of 1 to `maxChunkBytes` bytes. -/
def Bounded (framer : Framer) : Prop :=
  ∀ cut ∈ framer.cuts, 0 < cut.payload.length ∧ cut.payload.length ≤ maxChunkBytes

/-- A cut that is not flagged ends where a line ends. -/
def Aligned (framer : Framer) : Prop :=
  ∀ cut ∈ framer.cuts, cut.truncated = false → ∃ l b, cut.payload = l ++ [b] ∧ isBreak b = true

/-- What waits is the head of a line, shorter than a chunk. -/
def Settled (framer : Framer) : Prop :=
  ∀ direction, BreakFree isBreak (framer.waiting direction)
    ∧ (framer.waiting direction).length < maxChunkBytes

section Cutting

variable {framer : Framer} {d d' : Direction} {data : Bytes} {n size : Nat}
  {messages : List Message}

@[simp] theorem waiting_push (framer : Framer) (d : Direction) (data : Bytes) :
    (framer.push d data).waiting d = framer.waiting d ++ data :=
  Function.update_self ..

theorem waiting_push_of_ne (hd : d' ≠ d) : (framer.push d data).waiting d' = framer.waiting d' :=
  Function.update_of_ne hd ..

@[simp] theorem waiting_cutUp (framer : Framer) (d : Direction) (n : Nat) :
    (framer.cutUp d n).waiting d = (chunks isBreak maxChunkBytes n (framer.waiting d)).2 :=
  Function.update_self ..

theorem waiting_cutUp_of_ne (hd : d' ≠ d) : (framer.cutUp d n).waiting d' = framer.waiting d' :=
  Function.update_of_ne hd ..

@[simp] theorem waiting_take (framer : Framer) (d : Direction) (size : Nat) (truncated : Bool) :
    (framer.take d size truncated).waiting d = (framer.waiting d).drop size :=
  Function.update_self ..

theorem waiting_take_of_ne (hd : d' ≠ d) {truncated : Bool} :
    (framer.take d size truncated).waiting d' = framer.waiting d' :=
  Function.update_of_ne hd ..

theorem carried_append {cuts : List Cut} {waiting : Direction → Bytes} (direction : Direction) :
    carried ⟨framer.cuts ++ cuts, waiting⟩ direction
      = framer.carried direction ++ carried ⟨cuts, waiting⟩ direction := by
  rw [carried, List.filter_append, List.flatMap_append]
  rfl

def said (framer : Framer) (direction : Direction) : Bytes :=
  framer.carried direction ++ framer.waiting direction

theorem said_push (d' : Direction) :
    (framer.push d data).said d' = framer.said d' ++ if d' = d then data else [] := by
  by_cases hd : d' = d
  · subst hd
    rw [said, waiting_push, if_pos rfl, ← List.append_assoc]
    rfl
  · rw [said, waiting_push_of_ne hd, if_neg hd, List.append_nil]
    rfl

/-! One turn of the loop. -/

theorem cutUp_zero : framer.cutUp d 0 = framer := by
  rw [cutUp]
  simp only [chunks, List.map_nil, List.append_nil, Function.update_eq_self]

theorem take_cutUp {chunk : Chunks.Chunk UInt8}
    (hsize : (framer.waiting d).take size = chunk.data)
    (hturn : chunks isBreak maxChunkBytes (n + 1) (framer.waiting d)
      = (chunk :: (chunks isBreak maxChunkBytes n ((framer.waiting d).drop size)).1,
        (chunks isBreak maxChunkBytes n ((framer.waiting d).drop size)).2)) :
    framer.cutUp d (n + 1) = (framer.take d size chunk.truncated).cutUp d n := by
  rw [cutUp, cutUp, waiting_take, hturn, take, Function.update_idem, hsize]
  simp only [List.map_cons, List.append_assoc, List.singleton_append]

theorem cutUp_wait (hlines : Chunks.wholeLines isBreak ((framer.waiting d).take maxChunkBytes) = [])
    (hshort : (framer.waiting d).length < maxChunkBytes) : framer.cutUp d (n + 1) = framer := by
  rw [cutUp, Chunks.chunks_wait hlines hshort]
  simp only [List.map_nil, List.append_nil, Function.update_eq_self]

theorem carried_cutUp (framer : Framer) (d : Direction) (n : Nat) (d' : Direction) :
    (framer.cutUp d n).carried d' = framer.carried d'
      ++ if d' = d then (chunks isBreak maxChunkBytes n (framer.waiting d)).1.flatMap (·.data)
        else [] := by
  rw [cutUp, carried_append]
  congr 1
  by_cases hd : d' = d
  · subst hd
    have hall : ∀ cut ∈ (chunks isBreak maxChunkBytes n (framer.waiting d')).1.map
        (fun chunk => (⟨d', chunk.data, chunk.truncated⟩ : Cut)),
          decide (cut.direction = d') = true := by
      intro cut hcut
      obtain ⟨chunk, -, rfl⟩ := List.mem_map.mp hcut
      exact decide_eq_true rfl
    rw [carried, List.filter_eq_self.mpr hall, List.flatMap_map, if_pos rfl]
  · have hnone : ∀ cut ∈ (chunks isBreak maxChunkBytes n (framer.waiting d)).1.map
        (fun chunk => (⟨d, chunk.data, chunk.truncated⟩ : Cut)),
          ¬ decide (cut.direction = d') = true := by
      intro cut hcut
      obtain ⟨chunk, -, rfl⟩ := List.mem_map.mp hcut
      exact fun h => hd (of_decide_eq_true h).symm
    rw [carried, List.filter_eq_nil_iff.mpr hnone, if_neg hd]
    rfl

theorem said_cutUp (d' : Direction) : (framer.cutUp d n).said d' = framer.said d' := by
  rw [said, carried_cutUp, said, List.append_assoc]
  congr 1
  by_cases hd : d' = d
  · subst hd
    rw [if_pos rfl, waiting_cutUp]
    exact Chunks.chunks_flatten maxChunkBytes_pos
  · rw [if_neg hd, waiting_cutUp_of_ne hd]
    rfl

theorem said_ingest (d' : Direction) :
    (framer.ingest d data).said d' = framer.said d' ++ if d' = d then data else [] := by
  rw [ingest, said_cutUp, said_push]

theorem said_receiveAll (d : Direction) :
    (framer.receiveAll messages).said d = framer.said d ++ ingested d messages := by
  induction messages generalizing framer with
  | nil => exact (List.append_nil _).symm
  | cons message messages ih =>
      have hstep : (framer.receive message).said d = framer.said d ++ carries d message := by
        cases message <;> exact said_ingest d
      calc ((framer.receive message).receiveAll messages).said d
          = (framer.receive message).said d ++ ingested d messages := ih
        _ = framer.said d ++ (carries d message ++ ingested d messages) := by
          rw [hstep, List.append_assoc]
        _ = framer.said d ++ ingested d (message :: messages) := by
          rw [ingested, ingested, List.flatMap_cons]

theorem settled_ingest (h : framer.Settled) : (framer.ingest d data).Settled := by
  intro d'
  by_cases hd : d' = d
  · subst hd
    rw [ingest, waiting_cutUp, waiting_push]
    exact Chunks.chunks_rest maxChunkBytes_pos (Nat.lt_succ_self _)
  · rw [ingest, waiting_cutUp_of_ne hd, waiting_push_of_ne hd]
    exact h d'

/-- What holds of every chunk holds of every cut that was made of one. -/
theorem forall_mem_ingest {P : Bytes → Bool → Prop}
    (hchunk : ∀ n text, ∀ chunk ∈ (chunks isBreak maxChunkBytes n text).1,
      P chunk.data chunk.truncated)
    (h : ∀ cut ∈ framer.cuts, P cut.payload cut.truncated) :
    ∀ cut ∈ (framer.ingest d data).cuts, P cut.payload cut.truncated := by
  intro cut hcut
  rcases List.mem_append.mp hcut with hold | hnew
  · exact h cut hold
  · obtain ⟨chunk, hmem, rfl⟩ := List.mem_map.mp hnew
    exact hchunk _ _ chunk hmem

theorem forall_mem_receiveAll {P : Bytes → Bool → Prop}
    (hchunk : ∀ n text, ∀ chunk ∈ (chunks isBreak maxChunkBytes n text).1,
      P chunk.data chunk.truncated)
    (h : ∀ cut ∈ framer.cuts, P cut.payload cut.truncated) :
    ∀ cut ∈ (framer.receiveAll messages).cuts, P cut.payload cut.truncated := by
  induction messages generalizing framer with
  | nil => exact h
  | cons message messages ih =>
      apply ih
      cases message <;> exact forall_mem_ingest hchunk h

theorem bounded_receiveAll : (receiveAll {} messages).Bounded :=
  forall_mem_receiveAll
    (P := fun payload _ => 0 < payload.length ∧ payload.length ≤ maxChunkBytes)
    (fun _ _ chunk hchunk =>
      have hbounds := Chunks.forall_mem_chunks maxChunkBytes_pos chunk hchunk
      ⟨hbounds.1, hbounds.2.1⟩)
    fun _ h => absurd h List.not_mem_nil

theorem aligned_receiveAll : (receiveAll {} messages).Aligned :=
  forall_mem_receiveAll
    (P := fun payload truncated => truncated = false → ∃ l b, payload = l ++ [b] ∧ isBreak b = true)
    (fun _ _ chunk hchunk => (Chunks.forall_mem_chunks maxChunkBytes_pos chunk hchunk).2.2)
    fun _ h => absurd h List.not_mem_nil

/-! The end of a socket. -/

theorem flush_cases (framer : Framer) (d : Direction) :
    (framer.waiting d = [] ∧ framer.flush d = framer)
      ∨ (framer.waiting d ≠ []
        ∧ (framer.flush d).cuts = framer.cuts ++ [⟨d, framer.waiting d, false⟩]
        ∧ (framer.flush d).waiting = Function.update framer.waiting d []) := by
  rw [flush]
  split
  · rename_i hnil
    exact Or.inl ⟨hnil, rfl⟩
  · rename_i hwaits
    refine Or.inr ⟨hwaits, ?_, ?_⟩
    · rw [take, List.take_length]
    · rw [take, List.drop_length]

theorem waiting_flush (framer : Framer) (d : Direction) : (framer.flush d).waiting d = [] := by
  obtain ⟨hnil, hflush⟩ | ⟨-, -, hwaiting⟩ := flush_cases framer d
  · rw [hflush, hnil]
  · rw [hwaiting, Function.update_self]

theorem waiting_flush_of_ne (hd : d' ≠ d) : (framer.flush d).waiting d' = framer.waiting d' := by
  obtain ⟨-, hflush⟩ | ⟨-, -, hwaiting⟩ := flush_cases framer d
  · rw [hflush]
  · rw [hwaiting, Function.update_of_ne hd]

theorem said_flush (d' : Direction) : (framer.flush d).said d' = framer.said d' := by
  obtain ⟨-, hflush⟩ | ⟨-, hcuts, hwaiting⟩ := flush_cases framer d
  · rw [hflush]
  · rw [said, said, hwaiting, carried, hcuts, List.filter_append, List.flatMap_append,
      List.append_assoc]
    by_cases hd : d' = d
    · subst hd
      simp [carried]
    · have hother : d ≠ d' := Ne.symm hd
      simp [carried, hother, Function.update_of_ne hd]

theorem settled_flush (h : framer.Settled) : (framer.flush d).Settled := by
  intro d'
  by_cases hd : d' = d
  · subst hd
    rw [waiting_flush]
    exact ⟨breakFree_nil, maxChunkBytes_pos⟩
  · rw [waiting_flush_of_ne hd]
    exact h d'

theorem bounded_flush (h : framer.Settled) (hbounded : framer.Bounded) :
    (framer.flush d).Bounded := by
  obtain ⟨-, hflush⟩ | ⟨hwaits, hcuts, -⟩ := flush_cases framer d
  · rw [hflush]
    exact hbounded
  · unfold Bounded
    rw [hcuts, List.forall_mem_append, List.forall_mem_singleton]
    exact ⟨hbounded, List.length_pos_iff.mpr hwaits, Nat.le_of_lt (h d).2⟩

theorem cuts_flush (framer : Framer) (d : Direction) :
    ∃ closing, (framer.flush d).cuts = framer.cuts ++ closing
      ∧ (closing.map (·.direction)).Sublist [d] := by
  obtain ⟨-, hflush⟩ | ⟨-, hcuts, -⟩ := flush_cases framer d
  · exact ⟨[], by rw [hflush, List.append_nil], List.nil_sublist _⟩
  · exact ⟨_, hcuts, List.Sublist.refl _⟩

theorem cuts_close (framer : Framer) :
    ∃ closing, framer.close.cuts = framer.cuts ++ closing
      ∧ (closing.map (·.direction)).Sublist [.«in», .out] := by
  obtain ⟨typed, htyped, honce⟩ := cuts_flush framer .«in»
  obtain ⟨printed, hprinted, honce'⟩ := cuts_flush (framer.flush .«in») .out
  refine ⟨typed ++ printed, ?_, ?_⟩
  · rw [close, hprinted, htyped, List.append_assoc]
  · rw [List.map_append]
    exact honce.append honce'

/-- **Nothing waits at the end**, and every byte was cut. -/
theorem carried_close (h : ∀ d, framer.said d = ingested d messages) (d : Direction) :
    framer.close.carried d = ingested d messages := by
  have hempty : framer.close.waiting d = [] := by
    cases d with
    | «in» =>
        rw [close, waiting_flush_of_ne (by decide)]
        exact waiting_flush framer .«in»
    | out => exact waiting_flush _ .out
  have hsaid : framer.close.said d = framer.said d := (said_flush d).trans (said_flush d)
  rw [← h d, ← hsaid, said, hempty, List.append_nil]

end Cutting

end Framer

/-! ### A tap follows its framer -/

structure CutFrom (frame : ConsoleFrame) (cut : Cut) : Prop where
  direction : frame.direction = cut.direction
  truncated : frame.truncated = cut.truncated
  clear : frame.redacted = false → frame.payload = cut.payload

/-- A frame for each cut, and the same bytes wait. -/
structure KeepsUp (tap : ConsoleTap) (framer : Framer) : Prop where
  frames : List.Forall₂ CutFrom tap.frames framer.cuts
  waiting : ∀ direction, (tap.buffer direction).data = framer.waiting direction

section Refinement

open ConsoleTap (emitBuffer_cases taken_frames frames_of_submitted data_emitBuffer
  untouched_emitBuffer KeepsFrames on_of_drain on_of_flushBuffer)

variable {alnum : Char → Bool} {tap tap' : ConsoleTap} {framer : Framer} {d : Direction}
  {data : Bytes}
  {n size searched i : Nat} {truncated : Bool} {now : Int}

theorem KeepsUp.emitBuffer (h : KeepsUp tap framer)
    (hbudget : (tap.emitBuffer d size truncated now).overBudget = false) :
    KeepsUp (tap.emitBuffer d size truncated now) (framer.take d size truncated) where
  frames := by
    obtain ⟨ts, mode, tail, ⟨-, hover⟩ | ⟨frame, -, hdirection, htruncated, hclear, -, hframe⟩⟩ :=
      emitBuffer_cases tap d size truncated now
    · rw [hover] at hbudget
      cases hbudget
    · rw [hframe, frames_of_submitted rfl]
      apply List.rel_append h.frames
      refine List.Forall₂.cons ⟨hdirection, htruncated, ?_⟩ List.Forall₂.nil
      rw [← h.waiting d]
      exact hclear
  waiting := by
    intro d'
    by_cases hd : d' = d
    · subst hd
      rw [data_emitBuffer, h.waiting d', Framer.waiting_take]
    · rw [(untouched_emitBuffer (Ne.symm hd) tap size truncated now).data, h.waiting d',
        Framer.waiting_take_of_ne hd]

theorem KeepsUp.of_keepsFrames (h : KeepsUp tap framer) (hkeeps : KeepsFrames tap tap') :
    KeepsUp tap' framer where
  frames := by
    rw [hkeeps.frames]
    exact h.frames
  waiting := by
    intro d'
    rw [hkeeps.buffer d']
    exact h.waiting d'

/-- What the search for the last break found ends the whole lines of the buffer. -/
theorem wholeLines_of_breakAt {text : Bytes} {stop : Nat}
    (h : max (ConsoleTap.rfind cr text searched stop) (ConsoleTap.rfind lf text searched stop)
      = some i) :
    Chunks.wholeLines isBreak (text.take stop) = text.take (i + 1) := by
  obtain ⟨hstop, b, hb, hat⟩ := ConsoleTap.breakAt_some h
  have hhead := (ConsoleTap.split_at_break hat).2
  have hwindow : text.take stop = text.take i ++ b :: (text.take stop).drop (i + 1) := by
    have hsame : (text.take stop).take (i + 1) = text.take (i + 1) := by
      rw [List.take_take, Nat.min_eq_left hstop]
    rw [← List.singleton_append, ← List.append_assoc, ← hhead, ← hsame, List.take_append_drop]
  rw [hwindow, Chunks.wholeLines_last hb (ConsoleTap.breakAt_last h), hhead]

/-- **The loop of `_ingest`** cuts what waits into chunks. -/
theorem KeepsUp.drain (h : KeepsUp tap framer)
    (hsearched : BreakFree isBreak ((tap.buffer d).data.take searched))
    (hbudget : (ConsoleTap.drain d now n searched tap).overBudget = false) :
    KeepsUp (ConsoleTap.drain d now n searched tap) (framer.cutUp d n) := by
  induction n generalizing tap framer searched with
  | zero =>
      rw [Framer.cutUp_zero]
      exact h
  | succ n ih =>
      have hon : tap.overBudget = false := on_of_drain hbudget
      have hfresh : ∀ tap : ConsoleTap, BreakFree isBreak ((tap.buffer d).data.take 0) := by
        intro tap
        rw [List.take_zero]
        exact breakFree_nil
      have hwindow : (tap.buffer d).data.take (min (tap.buffer d).data.length maxChunkBytes)
          = (framer.waiting d).take maxChunkBytes := by
        rw [h.waiting d, List.take_eq_take_iff]
        omega
      rw [ConsoleTap.drain] at hbudget ⊢
      simp only [hon, Bool.false_eq_true, if_false] at hbudget ⊢
      cases hbreak : max
          (ConsoleTap.rfind cr (tap.buffer d).data searched
            (min (tap.buffer d).data.length maxChunkBytes))
          (ConsoleTap.rfind lf (tap.buffer d).data searched
            (min (tap.buffer d).data.length maxChunkBytes)) with
      | some i =>
          rw [hbreak] at hbudget
          simp only at hbudget ⊢
          have hlines := wholeLines_of_breakAt hbreak
          rw [hwindow, h.waiting d] at hlines
          obtain ⟨hi, b, -, hat⟩ := ConsoleTap.breakAt_some hbreak
          have hsize : (((framer.waiting d).take (i + 1)).length) = i + 1 := by
            rw [List.length_take, ← h.waiting d]
            omega
          have hsome : Chunks.wholeLines isBreak ((framer.waiting d).take maxChunkBytes) ≠ [] := by
            rw [hlines, ← List.length_pos_iff, hsize]
            exact Nat.succ_pos i
          have hturn := @Chunks.chunks_lines _ _ _ n _ hsome
          rw [hlines, hsize] at hturn
          rw [Framer.take_cutUp rfl hturn]
          exact ih (h.emitBuffer (on_of_drain hbudget)) (hfresh _) hbudget
      | none =>
          rw [hbreak] at hbudget
          simp only at hbudget ⊢
          have hfree := ConsoleTap.breakAt_none hbreak hsearched
          rw [hwindow] at hfree
          have hlines := Chunks.wholeLines_of_breakFree hfree
          by_cases hlong : maxChunkBytes ≤ (tap.buffer d).data.length
          · rw [if_pos hlong] at hbudget ⊢
            rw [h.waiting d] at hlong
            rw [Framer.take_cutUp rfl (Chunks.chunks_cut hlines hlong)]
            exact ih (h.emitBuffer (on_of_drain hbudget)) (hfresh _) hbudget
          · rw [if_neg hlong]
            rw [h.waiting d, Nat.not_le] at hlong
            rw [Framer.cutUp_wait hlines hlong]
            exact h

/-! ### A socket -/

/-- A tap and its framer, as long as capture is on. -/
structure Tracked (tap : ConsoleTap) (framer : Framer) : Prop where
  numbered : Numbered tap
  settled : framer.Settled
  follows : tap.overBudget = false → KeepsUp tap framer

theorem Tracked.of_keepsFrames (h : Tracked tap framer) (hkeeps : KeepsFrames tap tap') :
    Tracked tap' framer where
  numbered := hkeeps.numbered h.numbered
  settled := h.settled
  follows := fun hbudget => (h.follows (hkeeps.budget hbudget)).of_keepsFrames hkeeps

/-- What was just received waits behind what waited. -/
theorem KeepsUp.push (h : KeepsUp tap framer) (d : Direction) (data : Bytes) (bytes : Nat)
    (ts : Option Int) :
    KeepsUp ({ tap with bytes }.setBuffer d ⟨(tap.buffer d).data ++ data, ts⟩)
      (framer.push d data) where
  frames := by
    cases d <;> exact h.frames
  waiting := by
    intro d'
    by_cases hd : d' = d
    · subst hd
      rw [ConsoleTap.buffer_setBuffer, Framer.waiting_push, h.waiting d']
    · rw [ConsoleTap.buffer_setBuffer_of_ne (Ne.symm hd), Framer.waiting_push_of_ne hd,
        ← h.waiting d']
      cases d' <;> rfl

theorem Framer.ingest_nil (h : framer.Settled) : framer.ingest d [] = framer := by
  have hpush : framer.push d [] = framer := by
    rw [Framer.push, List.append_nil, Function.update_eq_self]
  obtain ⟨hfree, hshort⟩ := h d
  rw [Framer.ingest, hpush]
  apply Framer.cutUp_wait _ hshort
  rw [List.take_of_length_le (Nat.le_of_lt hshort)]
  exact Chunks.wholeLines_of_breakFree hfree

theorem Tracked.ingest (h : Tracked tap framer) (d : Direction) (data : Bytes) (now : Int) :
    Tracked (tap.ingest d data now) (framer.ingest d data) := by
  refine ⟨ConsoleTap.numbered_ingest h.numbered d data now, Framer.settled_ingest h.settled,
    fun hbudget => ?_⟩
  unfold ConsoleTap.ingest at hbudget ⊢
  by_cases hidle : (tap.overBudget || data.isEmpty) = true
  · rw [if_pos hidle] at hbudget ⊢
    rw [hbudget, Bool.false_or, List.isEmpty_iff] at hidle
    rw [hidle, Framer.ingest_nil h.settled]
    exact h.follows hbudget
  · rw [if_neg hidle] at hbudget ⊢
    rw [Bool.not_eq_true, Bool.or_eq_false_iff] at hidle
    simp only at hbudget ⊢
    by_cases hbytes : maxConnectionBytes < tap.bytes + data.length
    · rw [if_pos hbytes] at hbudget
      cases hbudget
    · rw [if_neg hbytes] at hbudget ⊢
      have hfollows := h.follows hidle.1
      have hsame : ({ tap with bytes := tap.bytes + data.length } : ConsoleTap).buffer d
          = tap.buffer d := by
        cases d <;> rfl
      rw [hsame] at hbudget ⊢
      have hpushed := hfollows.push d data (tap.bytes + data.length)
        (if (tap.buffer d).data.isEmpty then some now else (tap.buffer d).ts)
      have hsearched : BreakFree isBreak
          ((({ tap with bytes := tap.bytes + data.length }.setBuffer d
            ⟨(tap.buffer d).data ++ data,
              if (tap.buffer d).data.isEmpty then some now else (tap.buffer d).ts⟩).buffer
                d).data.take
                (tap.buffer d).data.length) := by
        rw [ConsoleTap.buffer_setBuffer, List.take_left, hfollows.waiting d]
        exact (h.settled d).1
      have hdrained := hpushed.drain hsearched hbudget
      rw [Framer.ingest, List.length_append, ← hfollows.waiting d]
      exact hdrained

theorem Tracked.fromClient (h : Tracked tap framer) (data : Bytes) (now : Int) :
    Tracked (tap.fromClient data now) (framer.ingest .«in» data) := by
  have hingest := h.ingest .«in» data now
  unfold ConsoleTap.fromClient
  simp only
  generalize tap.ingest .«in» data now = tap' at hingest ⊢
  exact hingest.of_keepsFrames (ConsoleTap.keepsFrames_of_eq rfl rfl rfl rfl rfl)

theorem Tracked.fromNode (h : Tracked tap framer) (data : Bytes) (now : Int) :
    Tracked (tap.fromNode alnum data now) (framer.ingest .out data) := by
  unfold ConsoleTap.fromNode
  simp only
  generalize (tap.ingest .out data now).reconstructor.feed alnum data now = fed
  have hreconstructor : KeepsFrames (tap.ingest .out data now)
      { tap.ingest .out data now with reconstructor := fed.1 } :=
    ConsoleTap.keepsFrames_of_eq rfl rfl rfl rfl rfl
  have hemit := (h.ingest .out data now).of_keepsFrames
    (hreconstructor.trans (ConsoleTap.keepsFrames_emit _ fed.2))
  exact hemit.of_keepsFrames (ConsoleTap.keepsFrames_of_eq rfl rfl rfl rfl rfl)

theorem Tracked.receive (h : Tracked tap framer) (message : Message) :
    Tracked (tap.receive alnum message) (framer.receive message) := by
  cases message with
  | fromClient data now => exact h.fromClient data now
  | fromNode data now => exact h.fromNode data now

theorem Tracked.receiveAll (h : Tracked tap framer) (messages : List Message) :
    Tracked (tap.receiveAll alnum messages) (framer.receiveAll messages) := by
  induction messages generalizing tap framer with
  | nil => exact h
  | cons message messages ih => exact ih (h.receive message)

theorem tracked_init (sessionId : Nat) (nodeId : Text) (connectionId : Nat) (start : Int) :
    Tracked (ConsoleTap.init sessionId nodeId connectionId start) {} where
  numbered := rfl
  settled := fun _ => ⟨breakFree_nil, maxChunkBytes_pos⟩
  follows := fun _ => ⟨List.Forall₂.nil, fun d => by cases d <;> rfl⟩

/-! What has been submitted stays, and capture is not switched on again. -/

structure Extends (tap tap' : ConsoleTap) : Prop where
  frames : tap.frames <+: tap'.frames
  budget : tap'.overBudget = false → tap.overBudget = false

theorem Extends.refl : Extends tap tap := ⟨List.prefix_rfl, id⟩

theorem Extends.trans {tap'' : ConsoleTap} (h : Extends tap tap') (h' : Extends tap' tap'') :
    Extends tap tap'' :=
  ⟨h.frames.trans h'.frames, fun hbudget => h.budget (h'.budget hbudget)⟩

theorem extends_of_keepsFrames (h : KeepsFrames tap tap') : Extends tap tap' :=
  ⟨h.frames ▸ List.prefix_rfl, h.budget⟩

theorem extends_emitBuffer (tap : ConsoleTap) (d : Direction) (size : Nat) (truncated : Bool)
    (now : Int) : Extends tap (tap.emitBuffer d size truncated now) := by
  obtain ⟨ts, mode, tail, ⟨-, hover⟩ | ⟨frame, -, -, -, -, -, hframe⟩⟩ :=
    emitBuffer_cases tap d size truncated now
  · rw [hover]
    refine ⟨?_, fun h => by cases h⟩
    change tap.frames <+: (tap.taken d size ts mode tail).frames
    simp only [taken_frames, List.prefix_rfl]
  · rw [hframe]
    exact ⟨⟨[frame], (frames_of_submitted rfl).symm⟩,
      fun h => (ConsoleTap.taken_overBudget tap ts mode tail).symm.trans h⟩

theorem extends_drain (d : Direction) (now : Int) (n searched : Nat) (tap : ConsoleTap) :
    Extends tap (ConsoleTap.drain d now n searched tap) := by
  induction n generalizing searched tap with
  | zero => exact Extends.refl
  | succ n ih =>
      rw [ConsoleTap.drain]
      split
      · exact Extends.refl
      · simp only
        split
        · exact (extends_emitBuffer tap d _ _ now).trans (ih _ _)
        · split
          · exact (extends_emitBuffer tap d _ _ now).trans (ih _ _)
          · exact Extends.refl

theorem extends_flushBuffer (d : Direction) (now : Int) (n : Nat) (tap : ConsoleTap) :
    Extends tap (ConsoleTap.flushBuffer d now n tap) := by
  induction n generalizing tap with
  | zero => exact Extends.refl
  | succ n ih =>
      rw [ConsoleTap.flushBuffer]
      simp only
      split
      · exact Extends.refl
      · exact (extends_emitBuffer tap d _ _ now).trans (ih _)

theorem extends_ingest (tap : ConsoleTap) (d : Direction) (data : Bytes) (now : Int) :
    Extends tap (tap.ingest d data now) := by
  unfold ConsoleTap.ingest
  split
  · exact Extends.refl
  · simp only
    split
    · exact ⟨List.prefix_rfl, fun h => by cases h⟩
    · refine Extends.trans ⟨?_, ?_⟩ (extends_drain d now _ _ _)
      · cases d <;> exact List.prefix_rfl
      · exact fun h => (ConsoleTap.overBudget_setBuffer _ _).symm.trans h

theorem extends_receive (tap : ConsoleTap) (message : Message) :
    Extends tap (tap.receive alnum message) := by
  cases message with
  | fromClient data now =>
      have hingest := extends_ingest tap .«in» data now
      change Extends tap (tap.fromClient data now)
      unfold ConsoleTap.fromClient
      simp only
      generalize tap.ingest .«in» data now = tap' at hingest ⊢
      exact hingest.trans
        (extends_of_keepsFrames (ConsoleTap.keepsFrames_of_eq rfl rfl rfl rfl rfl))
  | fromNode data now =>
      change Extends tap (tap.fromNode alnum data now)
      unfold ConsoleTap.fromNode
      simp only
      generalize (tap.ingest .out data now).reconstructor.feed alnum data now = fed
      have hreconstructor : KeepsFrames (tap.ingest .out data now)
          { tap.ingest .out data now with reconstructor := fed.1 } :=
        ConsoleTap.keepsFrames_of_eq rfl rfl rfl rfl rfl
      have hemit := (extends_ingest tap .out data now).trans (extends_of_keepsFrames
        (hreconstructor.trans (ConsoleTap.keepsFrames_emit _ fed.2)))
      exact hemit.trans (extends_of_keepsFrames (ConsoleTap.keepsFrames_of_eq rfl rfl rfl rfl rfl))

theorem extends_receiveAll (tap : ConsoleTap) (messages : List Message) :
    Extends tap (tap.receiveAll alnum messages) := by
  induction messages generalizing tap with
  | nil => exact Extends.refl
  | cons message messages ih => exact (extends_receive tap message).trans (ih _)

/-! The end of a socket. -/

/-- What is left at the end is the last frame of its direction. -/
theorem Tracked.flushBuffer (h : Tracked tap framer) (d : Direction) (now : Int) :
    Tracked (ConsoleTap.flushBuffer d now (tap.buffer d).data.length tap) (framer.flush d) := by
  refine ⟨ConsoleTap.numbered_flushBuffer h.numbered, Framer.settled_flush h.settled,
    fun hbudget => ?_⟩
  have hfollows := h.follows (on_of_flushBuffer hbudget)
  have hon := on_of_flushBuffer hbudget
  by_cases hnil : framer.waiting d = []
  · rw [Framer.flush, if_pos hnil, hfollows.waiting d, hnil]
    exact hfollows
  · obtain ⟨n, hn⟩ := Nat.exists_eq_succ_of_ne_zero (mt List.length_eq_zero_iff.mp hnil)
    have hsize : min (framer.waiting d).length maxChunkBytes = (framer.waiting d).length :=
      Nat.min_eq_left (Nat.le_of_lt (h.settled d).2)
    have hnonempty : (framer.waiting d).isEmpty = false := List.isEmpty_eq_false_iff.mpr hnil
    rw [Framer.flush, if_neg hnil]
    rw [hfollows.waiting d, hn, ConsoleTap.flushBuffer] at hbudget ⊢
    simp only [hfollows.waiting d, hnonempty, hon, Bool.or_self, Bool.false_eq_true,
      if_false, hsize, Nat.lt_irrefl, decide_false] at hbudget ⊢
    -- one frame, and the buffer is empty
    have hlast := hfollows.emitBuffer (on_of_flushBuffer hbudget)
    have hempty : ∀ n tap, (tap.buffer d).data = [] → ConsoleTap.flushBuffer d now n tap = tap := by
      intro n tap hdata
      cases n with
      | zero => rfl
      | succ n =>
          rw [ConsoleTap.flushBuffer]
          simp only [hdata, List.isEmpty_nil, Bool.true_or, if_true]
    rw [hempty, ← hn]
    · exact hlast
    · rw [hlast.waiting d, Framer.waiting_take, List.drop_length]

/-- `close` without its commands. -/
def flushed (tap : ConsoleTap) (now : Int) : ConsoleTap :=
  let tap := ConsoleTap.flushBuffer .«in» now (tap.buffer .«in»).data.length tap
  ConsoleTap.flushBuffer .out now (tap.buffer .out).data.length tap

theorem keepsFrames_close (tap : ConsoleTap) (now : Int) :
    KeepsFrames (flushed tap now) (tap.close alnum now) := by
  unfold ConsoleTap.close
  simp only
  change KeepsFrames (flushed tap now)
    ({ flushed tap now with
        reconstructor := ((flushed tap now).reconstructor.flush alnum).1 }.emit
      ((flushed tap now).reconstructor.flush alnum).2)
  generalize (flushed tap now).reconstructor.flush alnum = last
  have hreconstructor : KeepsFrames (flushed tap now)
      { flushed tap now with reconstructor := last.1 } :=
    ConsoleTap.keepsFrames_of_eq rfl rfl rfl rfl rfl
  exact hreconstructor.trans (ConsoleTap.keepsFrames_emit _ last.2)

theorem extends_close (tap : ConsoleTap) (now : Int) : Extends tap (tap.close alnum now) :=
  ((extends_flushBuffer .«in» now _ tap).trans (extends_flushBuffer .out now _ _)).trans
    (extends_of_keepsFrames (keepsFrames_close tap now))

theorem Tracked.close (h : Tracked tap framer) (now : Int) :
    Tracked (tap.close alnum now) framer.close :=
  ((h.flushBuffer .«in» now).flushBuffer .out now).of_keepsFrames (keepsFrames_close tap now)

/-! ### Frames and cuts -/

def Cut.of (frame : ConsoleFrame) : Cut := ⟨frame.direction, frame.payload, frame.truncated⟩

theorem map_cut_of {frames : List ConsoleFrame} {cuts : List Cut}
    (h : List.Forall₂ CutFrom frames cuts)
    (hpayload : frames.map (·.payload) = cuts.map (·.payload)) : frames.map Cut.of = cuts := by
  induction h with
  | nil => rfl
  | cons hone _ ih =>
      rw [List.map_cons, List.map_cons, List.cons.injEq] at hpayload
      rw [List.map_cons, ih hpayload.2, Cut.of, hone.direction, hone.truncated, hpayload.1]

/-- Frames in which nothing was masked carry the bytes of their cuts. -/
theorem payload_of_clear {frames : List ConsoleFrame} {cuts : List Cut}
    (h : List.Forall₂ CutFrom frames cuts) (hclear : ∀ frame ∈ frames, frame.redacted = false) :
    frames.map (·.payload) = cuts.map (·.payload) := by
  induction h with
  | nil => rfl
  | cons hone _ ih =>
      obtain ⟨hhere, hlater⟩ := List.forall_mem_cons.mp hclear
      rw [List.map_cons, List.map_cons, hone.clear hhere, ih hlater]

theorem stored_eq_carried (h : tap.frames.map Cut.of = framer.cuts) (d : Direction) :
    tap.stored d = framer.carried d := by
  rw [Framer.carried, ← h, List.filter_map, List.flatMap_map]
  rfl

end Refinement

/-! ### Framing -/

section Framing

variable {alnum : Char → Bool}

/-- Masking changes nothing where no frame is flagged as redacted. -/
theorem payload_of_unredacted (sessionId : Nat) (nodeId : Text) (connectionId : Nat)
    (start now : Int)
    (messages : List Message)
    (hbudget : (((ConsoleTap.init sessionId nodeId connectionId start).receiveAll alnum
      messages).close alnum now).overBudget = false)
    (hclear : ∀ frame ∈ (((ConsoleTap.init sessionId nodeId connectionId start).receiveAll alnum
      messages).close alnum now).frames, frame.redacted = false) :
    (((ConsoleTap.init sessionId nodeId connectionId start).receiveAll alnum
        messages).close alnum now).frames.map (·.payload)
      = ((Framer.receiveAll {} messages).close).cuts.map (·.payload) :=
  payload_of_clear ((((tracked_init sessionId nodeId connectionId start).receiveAll messages).close
    now).follows hbudget).frames hclear

/-- **Framing loses nothing.** Within the budgets, where masking changes nothing: the frames of a
socket are numbered without a gap, each of 1 to 64 KiB, and those of a direction are its stream.
Between calls what waits is the head of a line, shorter than a frame; and a frame that is not
flagged ends where a line ends, except for the last one of a direction, which the end of the socket
makes. -/
theorem framing_lossless (sessionId : Nat) (nodeId : Text) (connectionId : Nat) (start now : Int)
    (messages : List Message)
    (hbudget : (((ConsoleTap.init sessionId nodeId connectionId start).receiveAll alnum
      messages).close alnum now).overBudget = false)
    (hidentity : (((ConsoleTap.init sessionId nodeId connectionId start).receiveAll alnum
        messages).close alnum now).frames.map (·.payload)
      = ((Framer.receiveAll {} messages).close).cuts.map (·.payload)) :
    let opened := ConsoleTap.init sessionId nodeId connectionId start
    let received := opened.receiveAll alnum messages
    let closed := received.close alnum now
    closed.Numbered
      ∧ (∀ frame ∈ closed.frames, 0 < frame.payload.length ∧ frame.payload.length ≤ maxChunkBytes)
      ∧ (∀ direction, closed.stored direction = ingested direction messages)
      ∧ (∀ earlier, earlier <+: messages → ∀ direction,
          BreakFree isBreak ((opened.receiveAll alnum earlier).buffer direction).data
            ∧ ((opened.receiveAll alnum earlier).buffer direction).data.length < maxChunkBytes)
      ∧ ∃ closing, closed.frames = received.frames ++ closing
          ∧ (∀ frame ∈ received.frames, frame.truncated = false →
              ∃ l b, frame.payload = l ++ [b] ∧ isBreak b = true)
          ∧ (closing.map (·.direction)).Sublist [.«in», .out] := by
  intro opened received closed
  have hopened : Tracked opened {} := tracked_init sessionId nodeId connectionId start
  have hreceived : Tracked received (Framer.receiveAll {} messages) := hopened.receiveAll messages
  have hclosed : Tracked closed (Framer.receiveAll {} messages).close := hreceived.close now
  have hcuts : closed.frames.map Cut.of = (Framer.receiveAll {} messages).close.cuts :=
    map_cut_of (hclosed.follows hbudget).frames hidentity
  have hextends : Extends received closed := extends_close received now
  have hon : received.overBudget = false := hextends.budget hbudget
  obtain ⟨closing, hframes⟩ := hextends.frames
  obtain ⟨closingCuts, hclosing, honce⟩ := Framer.cuts_close (Framer.receiveAll {} messages)
  -- the frames before the end are the cuts before the end
  have hlength :
      (received.frames.map Cut.of).length = (Framer.receiveAll {} messages).cuts.length := by
    rw [List.length_map]
    exact (hreceived.follows hon).frames.length_eq
  rw [← hframes, List.map_append, hclosing] at hcuts
  obtain ⟨hbefore, hlast⟩ := List.append_inj hcuts hlength
  have hall : closed.frames.map Cut.of = (Framer.receiveAll {} messages).close.cuts := by
    rw [← hframes, List.map_append, hbefore, hlast, hclosing]
  refine ⟨hclosed.numbered, ?_, ?_, ?_, closing, hframes.symm, ?_, ?_⟩
  · intro frame hframe
    have hbounded : (Framer.receiveAll {} messages).close.Bounded :=
      Framer.bounded_flush (Framer.settled_flush hreceived.settled)
        (Framer.bounded_flush hreceived.settled Framer.bounded_receiveAll)
    exact hbounded (Cut.of frame) (hall ▸ List.mem_map_of_mem hframe)
  · intro direction
    rw [stored_eq_carried hall]
    exact Framer.carried_close (fun d => Framer.said_receiveAll d) direction
  · rintro earlier ⟨later, rfl⟩ direction
    have htracked : Tracked (opened.receiveAll alnum earlier) (Framer.receiveAll {} earlier) :=
      hopened.receiveAll earlier
    have hlater : Extends (opened.receiveAll alnum earlier) received := by
      have hrest := @extends_receiveAll alnum (opened.receiveAll alnum earlier) later
      rw [ConsoleTap.receiveAll, ConsoleTap.receiveAll, ← List.foldl_append] at hrest
      exact hrest
    rw [(htracked.follows (hlater.budget hon)).waiting direction]
    exact htracked.settled direction
  · intro frame hframe
    exact Framer.aligned_receiveAll (Cut.of frame) (hbefore ▸ List.mem_map_of_mem hframe)
  · have hdirections : closing.map (·.direction) = (closing.map Cut.of).map (·.direction) := by
      rw [List.map_map]
      rfl
    rw [hdirections, hlast]
    exact honce

/-- A command, its answer in two chunks, and the prompt that is left. -/
def commandMessages : List Message :=
  [.fromClient (bytes "ls\r") 0, .fromNode (bytes "ls\r\na.t") 1, .fromNode (bytes "xt\r\n$ ") 2]

theorem framing_lossless_command :
    let closed :=
      ((ConsoleTap.init 1 [] 1 0).receiveAll asciiOnly commandMessages).close asciiOnly 3
    closed.stored .«in» = ingested .«in» commandMessages
      ∧ closed.stored .out = ingested .out commandMessages := by
  have hbudget : (((ConsoleTap.init 1 [] 1 0).receiveAll asciiOnly commandMessages).close
      asciiOnly 3).overBudget = false := by
    decide +kernel
  have hidentity := payload_of_unredacted 1 [] 1 0 3 commandMessages hbudget (by decide +kernel)
  have hstored := (framing_lossless 1 [] 1 0 3 commandMessages hbudget hidentity).2.2.1
  exact ⟨hstored .«in», hstored .out⟩

end Framing

end OnlinetLabs.Console
