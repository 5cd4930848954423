import OnlinetLabs.Console.Capture

/-!
# Framing and redaction

Frames are cut where a line ends, or, where no line ends within 64 KiB, after 64 KiB. Credentials
are masked in one frame at a time.

The mask is local to a line (`redact_line`), so a frame made of whole lines is masked as the stream
is, and where the frames fall makes no difference. What is left of the framing is what it does to a
long line: the line is masked in pieces (`maskedInPieces`). So the frames say what the masked stream
says exactly when masking the long lines in pieces is masking them whole.
-/

namespace OnlinetLabs.Console

open Pattern

/-! ### The mask goes line by line -/

theorem isWordByte_of_isBreak {b : UInt8} (h : isBreak b = true) : isWordByte b = false := by
  rw [isBreak, Bool.or_eq_true, beq_iff_eq, beq_iff_eq] at h
  rcases h with rfl | rfl <;> rfl

theorem isSpaceByte_of_isBreak {b : UInt8} (h : isBreak b = true) : isSpaceByte b = true := by
  rw [isBreak, Bool.or_eq_true, beq_iff_eq, beq_iff_eq] at h
  rcases h with rfl | rfl <;> rfl

theorem isBlank_of_isBreak {b : UInt8} (h : isBreak b = true) : isBlank b = false := by
  simp [isBlank, h]

theorem lineLocal_anyCase {s : String} (h : ∀ c ∈ bytes s, c ≠ cr ∧ c ≠ lf) :
    LineLocal isWordByte isBreak (anyCase s) := by
  apply lineLocal_text
  intro accepts haccepts b hb
  obtain ⟨c, hc, rfl⟩ := List.mem_map.mp haccepts
  obtain ⟨hcr, hlf⟩ := h c hc
  rw [isBreak, Bool.or_eq_true, beq_iff_eq, beq_iff_eq] at hb
  rcases hb with rfl | rfl
  · exact beq_false_of_ne hcr.symm
  · exact beq_false_of_ne hlf.symm

theorem lineLocal_keySetting : LineLocal isWordByte isBreak keySetting := by
  apply lineLocal_inOrder
  intro p hp
  simp only [List.mem_cons, List.not_mem_nil, or_false] at hp
  rcases hp with rfl | rfl | rfl
  · exact lineLocal_several fun b hb => isBlank_of_isBreak hb
  · apply lineLocal_choice (lineLocal_anyCase (by simp [bytes, byte, cr, lf]))
    intro q hq
    simp only [List.mem_cons, List.not_mem_nil, or_false] at hq
    rcases hq with rfl | rfl | rfl | rfl | rfl | rfl | rfl | rfl | rfl <;>
      exact lineLocal_anyCase (by simp [bytes, byte, cr, lf])
  · exact lineLocal_ahead_finish fun b hb => isSpaceByte_of_isBreak hb

theorem lineLocal_secretKeyword : LineLocal isWordByte isBreak secretKeyword := by
  apply lineLocal_choice (lineLocal_anyCase (by simp [bytes, byte, cr, lf]))
  intro q hq
  simp only [List.mem_cons, List.not_mem_nil, or_false] at hq
  rcases hq with rfl | rfl | rfl | rfl | rfl | rfl | rfl | rfl | rfl | rfl | rfl
  case inr.inr.inr.inr.inr.inl =>
    exact (lineLocal_anyCase (by simp [bytes, byte, cr, lf])).seq lineLocal_keySetting.notAhead
  all_goals exact lineLocal_anyCase (by simp [bytes, byte, cr, lf])

theorem lineLocal_secretGroup : LineLocal isWordByte isBreak secretGroup := by
  apply lineLocal_inOrder
  intro p hp
  simp only [List.mem_cons, List.not_mem_nil, or_false] at hp
  rcases hp with rfl | rfl | rfl | rfl
  · exact lineLocal_edge fun b hb => isWordByte_of_isBreak hb
  · exact lineLocal_secretKeyword
  · exact lineLocal_edge fun b hb => isWordByte_of_isBreak hb
  · apply lineLocal_several
    intro b hb
    rw [isBreak, Bool.or_eq_true, beq_iff_eq, beq_iff_eq] at hb
    rcases hb with rfl | rfl <;> rfl

theorem lineLocal_secretArg : LineLocal isWordByte isBreak secretArg :=
  lineLocal_several fun b hb => by simp [hb]

theorem advances_findSecret : Advances findSecret := by
  intro c replacement next h
  obtain ⟨⟨mid, last⟩, hcapture, hmatch⟩ := Option.map_eq_some_iff.mp h
  cases hmatch
  obtain ⟨hmid, hlast⟩ := mem_of_capture hcapture
  have hsuffix := suffix_of_mem_ends hmid
  refine ⟨(suffix_of_mem_ends hlast).trans hsuffix, ?_⟩
  calc last.rest.length < mid.rest.length := length_lt_of_mem_several hlast
    _ ≤ c.rest.length := hsuffix.length_le

theorem findsOnLine_findSecret : FindsOnLine isBreak findSecret := by
  intro w l b tail hl hb
  rw [findSecret, findSecret,
    capture_line lineLocal_secretGroup lineLocal_secretArg hl hb, Option.map_map, Option.map_map]
  congr 1
  funext m
  have hread : Cursor.read ⟨w, l ++ b :: tail⟩ (m.1.extend (b :: tail)) = Cursor.read ⟨w, l⟩ m.1 :=
    @Cursor.read_extend _ ⟨w, l⟩ m.1 (b :: tail)
  simp only [Function.comp_apply, hread]

theorem redact_nil : redact [] = [] := rfl

/-- **Lines are masked one by one.** -/
theorem redact_line {l tail : Bytes} {b : UInt8} (hl : BreakFree isBreak l)
    (hb : isBreak b = true) :
    redact (l ++ b :: tail) = redact l ++ b :: redact tail :=
  substituteAll_line advances_findSecret findsOnLine_findSecret
    (fun _ => isWordByte_of_isBreak) hl hb

theorem redact_eq_mapLines (stream : Bytes) : redact stream = mapLines isBreak redact stream :=
  eq_mapLines (fun _ _ => rfl) fun _ _ _ hl hb => redact_line hl hb

theorem breakFree_redact {l : Bytes} (hl : BreakFree isBreak l) : BreakFree isBreak (redact l) := by
  have hstars : BreakFree isBreak (bytes "***") := by
    unfold BreakFree
    decide +kernel
  refine forall_mem_substituteAll (P := fun b => isBreak b = false) advances_findSecret ?_ hl
  intro c replacement next h hc
  obtain ⟨m, -, hmatch⟩ := Option.map_eq_some_iff.mp h
  cases hmatch
  have hgroup : BreakFree isBreak (c.read m.1) := fun b hb => hc b (Cursor.mem_of_mem_read hb)
  exact hgroup.append hstars

/-! ### Frames of a stream -/

/-- A long line, masked as frames mask it: 64 KiB at a time. -/
def maskedInPieces (line : Bytes) : Bytes := (pieces maxChunkBytes line).flatMap redact

def framed (stream : Bytes) : Bytes := mapLines isBreak maskedInPieces stream

section Framed

variable {l p y z stream : Bytes} {b : UInt8}

theorem maxChunkBytes_pos : 0 < maxChunkBytes := by decide

theorem maskedInPieces_of_le (h : l.length ≤ maxChunkBytes) : maskedInPieces l = redact l := by
  rw [maskedInPieces, pieces_of_le h, List.flatMap_singleton]

theorem breakFree_maskedInPieces (hl : BreakFree isBreak l) :
    BreakFree isBreak (maskedInPieces l) := by
  intro b hb
  obtain ⟨piece, hpiece, hb⟩ := List.mem_flatMap.mp hb
  exact breakFree_redact (fun a ha => hl a (mem_of_mem_pieces hpiece a ha)) b hb

theorem framed_last (hl : BreakFree isBreak l) (h : l.length ≤ maxChunkBytes) :
    framed l = redact l := by
  rw [framed, mapLines_last hl, maskedInPieces_of_le h]

theorem framed_lines (hb : isBreak b = true) (h : y.length ≤ maxChunkBytes) :
    framed (y ++ b :: z) = redact (y ++ [b]) ++ framed z := by
  induction y using lines_induction isBreak with
  | last l hl =>
      rw [framed, mapLines_line hl hb, redact_line hl hb, redact_nil,
        maskedInPieces_of_le h, framed, List.append_assoc]
      rfl
  | line l c tail hl hc ih =>
      rw [List.length_append, List.length_cons] at h
      have htail : tail.length ≤ maxChunkBytes := by omega
      have hline : l.length ≤ maxChunkBytes := by omega
      have hframed := ih htail
      rw [framed] at hframed
      rw [List.append_assoc, List.cons_append, framed, mapLines_line hl hc, hframed,
        maskedInPieces_of_le hline, List.append_assoc, List.cons_append, redact_line hl hc,
        List.append_assoc]
      rfl

theorem framed_cut (hp : BreakFree isBreak p) (h : p.length = maxChunkBytes) :
    framed (p ++ z) = redact p ++ framed z := by
  have hpiece : ∀ l, maskedInPieces (p ++ l) = redact p ++ maskedInPieces l := by
    intro l
    have hlong : maxChunkBytes ≤ (p ++ l).length := by
      rw [List.length_append]
      omega
    rw [maskedInPieces, flatMap_pieces maxChunkBytes_pos redact_nil hlong, ← h, List.take_left,
      List.drop_left, h]
    rfl
  rcases exists_line isBreak z with hfree | ⟨l, b, tail, rfl, hl, hb⟩
  · rw [framed, framed, mapLines_last (hp.append hfree), mapLines_last hfree, hpiece]
  · rw [framed, framed, ← List.append_assoc, mapLines_line (hp.append hl) hb, mapLines_line hl hb,
      hpiece, List.append_assoc]

theorem ends_secretGroup (rest : Bytes) :
    secretGroup.ends isWordByte (.start (bytes "secret " ++ byte 'a' :: rest))
      = [⟨false, byte 'a' :: rest⟩] := rfl

/-- A secret in the clear: the keyword, a blank, and the rest of the line. -/
theorem redact_secret {rest : Bytes} (hrest : BreakFree isBreak rest) :
    redact (bytes "secret " ++ byte 'a' :: rest) = bytes "secret ***" := by
  have haccepts : ∀ b ∈ rest, (!isBreak b) = true := fun b hb => by rw [hrest b hb]; rfl
  obtain ⟨w, hlast⟩ := @head?_manyEnds _ isWordByte _ true _ haccepts
  have harg : (secretArg.ends isWordByte ⟨false, byte 'a' :: rest⟩).head? = some ⟨w, []⟩ := by
    have hone : secretArg.ends isWordByte ⟨false, byte 'a' :: rest⟩
        = manyEnds isWordByte (fun b => !isBreak b) true rest ++ [] := rfl
    rw [hone, List.append_nil, hlast]
  have hfind : findSecret (.start (bytes "secret " ++ byte 'a' :: rest))
      = some (bytes "secret ***", ⟨w, []⟩) := by
    rw [findSecret, capture, ends_secretGroup, List.flatMap_singleton, List.head?_map, harg]
    simp only [Option.map_some, Option.some.injEq, Prod.mk.injEq, and_true]
    rw [Cursor.read, Cursor.start_rest, List.length_append, Nat.add_sub_cancel, List.take_left]
    rfl
  rw [redact, substituteAll_some advances_findSecret hfind, substituteAll_nil, List.append_nil]

/-- **The frames say what the masked stream says exactly when that is so of each long line.** -/
theorem framed_eq_redact_iff :
    framed stream = redact stream
      ↔ ∀ line ∈ stream.splitOnP isBreak, maxChunkBytes < line.length →
          maskedInPieces line = redact line := by
  rw [redact_eq_mapLines, framed, mapLines_eq_iff (fun _ => breakFree_maskedInPieces)
    fun _ => breakFree_redact]
  constructor
  · intro h line hline _
    exact h line hline
  · intro h line hline
    rcases Nat.lt_or_ge maxChunkBytes line.length with hlong | hshort
    · exact h line hline hlong
    · exact maskedInPieces_of_le hshort

end Framed

/-! ### What a tap hands over -/

def Item.frame? : Item → Option ConsoleFrame
  | .frame f => some f
  | .record _ => none

namespace ConsoleTap

/-- The frames of a tap, in the order in which they were submitted. -/
def frames (tap : ConsoleTap) : List ConsoleFrame := tap.submitted.filterMap Item.frame?

def stored (tap : ConsoleTap) (direction : Direction) : Bytes :=
  (tap.frames.filter fun frame => frame.direction = direction).flatMap (·.payload)

/-- Frames are numbered from one on, without a gap. -/
def Numbered (tap : ConsoleTap) : Prop :=
  tap.frames.map (·.seq) = List.range' 1 tap.seq

/-- What concerns one direction is as it was, and capture was not switched on again. -/
structure Untouched (direction : Direction) (tap tap' : ConsoleTap) : Prop where
  stored : tap'.stored direction = tap.stored direction
  data : (tap'.buffer direction).data = (tap.buffer direction).data
  budget : tap'.overBudget = false → tap.overBudget = false

section Emission

variable {tap tap' tap'' : ConsoleTap} {d d' : Direction} {size n searched : Nat} {truncated : Bool}
  {now : Int} {item : Item} {frame : ConsoleFrame} {data : Bytes}

theorem Untouched.refl : Untouched d tap tap := ⟨rfl, rfl, id⟩

theorem Untouched.trans (h : Untouched d tap tap') (h' : Untouched d tap' tap'') :
    Untouched d tap tap'' :=
  ⟨h'.stored.trans h.stored, h'.data.trans h.data, fun hbudget => h.budget (h'.budget hbudget)⟩

@[simp] theorem buffer_setBuffer (buffer : DirectionBuffer) :
    (tap.setBuffer d buffer).buffer d = buffer := by
  cases d <;> rfl

theorem buffer_setBuffer_of_ne (hne : d ≠ d') (buffer : DirectionBuffer) :
    (tap.setBuffer d buffer).buffer d' = tap.buffer d' := by
  cases d <;> cases d' <;> first | rfl | exact absurd rfl hne

/-- Masking changes nothing but what is known of the password prompt. -/
theorem maskFrom_tap (n : Nat) (tap : ConsoleTap) (data : Bytes) (redacted : Bool) :
    ∃ mode tail, (maskFrom n tap data redacted).1 = { tap with passwordMode := mode, tail } := by
  induction n generalizing tap data redacted with
  | zero => exact ⟨tap.passwordMode, tap.tail, rfl⟩
  | succ n ih =>
      rw [maskFrom]
      split
      · simp only
        split
        · exact ⟨tap.passwordMode, tap.tail, rfl⟩
        · rename_i b rest _
          split
          · exact ih tap rest _
          · exact ih { tap with passwordMode := false, tail := [] } rest _
      · exact ⟨tap.passwordMode, tap.tail, rfl⟩

theorem maskFrom_reported (n : Nat) (tap : ConsoleTap) (data : Bytes) :
    (maskFrom n tap data true).2.2 = true := by
  induction n generalizing tap data with
  | zero => rfl
  | succ n ih =>
      rw [maskFrom]
      split
      · simp only
        split
        · rfl
        · rw [Bool.true_or]
          exact ih _ _
      · rfl

/-- What is not reported as masked is as it was. -/
theorem maskFrom_clear {redacted : Bool} (h : (maskFrom n tap data redacted).2.2 = false) :
    (maskFrom n tap data redacted).2.1 = data := by
  induction n generalizing tap data redacted with
  | zero => rfl
  | succ n ih =>
      rw [maskFrom] at h ⊢
      by_cases hactive : (tap.passwordMode && !data.isEmpty) = true
      · rw [if_pos hactive] at h ⊢
        cases hsecret : data.takeWhile fun b => !isBreak b with
        | nil =>
            simp only [hsecret, List.length_nil, List.drop_zero] at h ⊢
            cases data with
            | nil => rfl
            | cons b rest => exact congrArg (b :: ·) (ih h)
        | cons a secret =>
            -- what was masked is reported
            simp only [hsecret, List.isEmpty_cons, Bool.not_false, Bool.or_true] at h
            split at h
            · cases h
            · rw [maskFrom_reported] at h
              cases h
      · rw [if_neg hactive]

/-- The state after the head of a buffer was taken. -/
def taken (tap : ConsoleTap) (direction : Direction) (size : Nat) (ts : Option Int) (mode : Bool)
    (tail : Bytes) : ConsoleTap :=
  { tap.setBuffer direction ⟨(tap.buffer direction).data.drop size, ts⟩ with
    passwordMode := mode, tail }

/-- What `_emit_buffer` can do: the row budget is used up and the bytes are gone, or they are a
frame. -/
theorem emitBuffer_cases (tap : ConsoleTap) (d : Direction) (size : Nat) (truncated : Bool)
    (now : Int) :
    ∃ ts mode tail,
      (maxConnectionRows ≤ tap.rows
        ∧ tap.emitBuffer d size truncated now
          = { tap.taken d size ts mode tail with overBudget := true })
      ∨ ∃ frame : ConsoleFrame, frame.seq = tap.seq + 1 ∧ frame.direction = d
          ∧ frame.truncated = truncated
          ∧ (frame.redacted = false → frame.payload = (tap.buffer d).data.take size)
          ∧ (d = .out → frame.payload = redact ((tap.buffer d).data.take size))
          ∧ tap.emitBuffer d size truncated now
            = { tap.taken d size ts mode tail with
                rows := tap.rows + 1
                seq := tap.seq + 1
                submitted := tap.submitted ++ [.frame frame] } := by
  let ts := if ((tap.buffer d).data.drop size).isEmpty then none else some now
  let bare := tap.setBuffer d ⟨(tap.buffer d).data.drop size, ts⟩
  let payload := (tap.buffer d).data.take size
  obtain ⟨mode, tail, hmode⟩ : ∃ mode tail,
      (if d = .«in» && bare.passwordMode then bare.maskPassword payload
        else (bare, payload, false)).1 = tap.taken d size ts mode tail := by
    split
    · exact maskFrom_tap _ _ _ _
    · exact ⟨_, _, rfl⟩
  have hclear : (if d = .«in» && bare.passwordMode then bare.maskPassword payload
      else (bare, payload, false)).2.2 = false →
      (if d = .«in» && bare.passwordMode then bare.maskPassword payload
        else (bare, payload, false)).2.1 = payload := by
    split
    · exact maskFrom_clear
    · exact fun _ => rfl
  have hout : d = .out →
      (if d = .«in» && bare.passwordMode then bare.maskPassword payload
        else (bare, payload, false)).2.1 = payload := by
    rintro rfl
    rfl
  refine ⟨ts, mode, tail, ?_⟩
  unfold emitBuffer
  simp only
  generalize (if d = .«in» && bare.passwordMode then bare.maskPassword payload
    else (bare, payload, false)) = masked at hmode hclear hout ⊢
  obtain ⟨tap', payload', redacted⟩ := masked
  simp only at hmode hclear hout
  subst hmode
  obtain ⟨hrows, hseq, hsubmitted⟩ : (tap.taken d size ts mode tail).rows = tap.rows
      ∧ (tap.taken d size ts mode tail).seq = tap.seq
      ∧ (tap.taken d size ts mode tail).submitted = tap.submitted := by
    cases d <;> exact ⟨rfl, rfl, rfl⟩
  unfold overRowBudget
  rw [hrows]
  by_cases hbudget : maxConnectionRows ≤ tap.rows
  · exact Or.inl ⟨hbudget, by simp [hbudget]⟩
  · refine Or.inr ⟨{
      sessionId := (tap.taken d size ts mode tail).sessionId
      nodeId := (tap.taken d size ts mode tail).nodeId
      connectionId := (tap.taken d size ts mode tail).connectionId
      seq := tap.seq + 1
      direction := d
      payload := redact payload'
      truncated
      redacted := redacted || redact payload' != payload'
      ts := (tap.buffer d).ts.getD now }, rfl, rfl, rfl, ?_, fun h => by rw [hout h], ?_⟩
    · intro h
      rw [Bool.or_eq_false_iff, bne_eq_false_iff_eq] at h
      exact h.2.trans (hclear h.1)
    · simp [hbudget, submit, hseq, hsubmitted, redactSecrets]

@[simp] theorem taken_data (ts : Option Int) (mode : Bool) (tail : Bytes) :
    ((tap.taken d size ts mode tail).buffer d).data = (tap.buffer d).data.drop size := by
  cases d <;> rfl

theorem taken_buffer (hne : d ≠ d') (ts : Option Int) (mode : Bool) (tail : Bytes) :
    (tap.taken d size ts mode tail).buffer d' = tap.buffer d' := by
  cases d <;> cases d' <;> first | rfl | exact absurd rfl hne

@[simp] theorem taken_frames (ts : Option Int) (mode : Bool) (tail : Bytes) :
    (tap.taken d size ts mode tail).frames = tap.frames := by
  cases d <;> rfl

@[simp] theorem taken_overBudget (tap : ConsoleTap) (ts : Option Int) (mode : Bool) (tail : Bytes) :
    (tap.taken d size ts mode tail).overBudget = tap.overBudget := by
  cases d <;> rfl

@[simp] theorem taken_seq (ts : Option Int) (mode : Bool) (tail : Bytes) :
    (tap.taken d size ts mode tail).seq = tap.seq := by
  cases d <;> rfl

theorem frames_of_submitted (h : tap'.submitted = tap.submitted ++ [.frame frame]) :
    tap'.frames = tap.frames ++ [frame] := by
  rw [frames, h, List.filterMap_append]
  rfl

theorem stored_of_frames (h : tap'.frames = tap.frames ++ [frame]) :
    tap'.stored d = tap.stored d ++ if frame.direction = d then frame.payload else [] := by
  rw [stored, h, List.filter_append, List.flatMap_append]
  by_cases hd : frame.direction = d <;> simp [hd, stored]

theorem stored_of_frames_eq (h : tap'.frames = tap.frames) : tap'.stored d = tap.stored d := by
  rw [stored, h, stored]

theorem untouched_emitBuffer (hne : d ≠ d') (tap : ConsoleTap) (size : Nat) (truncated : Bool)
    (now : Int) : Untouched d' tap (tap.emitBuffer d size truncated now) := by
  obtain ⟨ts, mode, tail, ⟨-, hover⟩ | ⟨frame, -, hdirection, -, -, -, hframe⟩⟩ :=
    emitBuffer_cases tap d size truncated now
  · rw [hover]
    refine ⟨stored_of_frames_eq (taken_frames ts mode tail), ?_, fun h => by cases h⟩
    exact congrArg DirectionBuffer.data (taken_buffer hne ts mode tail)
  · rw [hframe]
    refine ⟨?_, congrArg DirectionBuffer.data (taken_buffer hne ts mode tail), ?_⟩
    · rw [stored_of_frames (frames_of_submitted rfl), hdirection, if_neg hne, List.append_nil]
    · exact fun h => (taken_overBudget tap ts mode tail).symm.trans h

theorem data_emitBuffer (tap : ConsoleTap) (d : Direction) (size : Nat) (truncated : Bool)
    (now : Int) :
    ((tap.emitBuffer d size truncated now).buffer d).data = (tap.buffer d).data.drop size := by
  obtain ⟨ts, mode, tail, ⟨-, hover⟩ | ⟨frame, -, -, -, -, -, hframe⟩⟩ :=
    emitBuffer_cases tap d size truncated now
  · rw [hover]
    exact taken_data ts mode tail
  · rw [hframe]
    exact taken_data ts mode tail

/-- Within the budget, the head of the buffer is stored with its secrets masked. -/
theorem stored_emitBuffer (h : (tap.emitBuffer .out size truncated now).overBudget = false) :
    (tap.emitBuffer .out size truncated now).stored .out
        = tap.stored .out ++ redact ((tap.buffer .out).data.take size)
      ∧ tap.overBudget = false := by
  obtain ⟨ts, mode, tail, ⟨-, hover⟩ | ⟨frame, -, hdirection, -, -, hpayload, hframe⟩⟩ :=
    emitBuffer_cases tap .out size truncated now
  · rw [hover] at h
    cases h
  · rw [hframe] at h ⊢
    refine ⟨?_, (taken_overBudget tap ts mode tail).symm.trans h⟩
    rw [stored_of_frames (frames_of_submitted rfl), if_pos hdirection, hpayload rfl]

theorem numbered_emitBuffer (h : Numbered tap) :
    Numbered (tap.emitBuffer d size truncated now) := by
  obtain ⟨ts, mode, tail, ⟨-, hover⟩ | ⟨frame, hseq, -, -, -, -, hframe⟩⟩ :=
    emitBuffer_cases tap d size truncated now
  · rw [hover]
    unfold Numbered
    change (tap.taken d size ts mode tail).frames.map _
      = List.range' 1 (tap.taken d size ts mode tail).seq
    rw [taken_frames, taken_seq]
    exact h
  · rw [hframe]
    unfold Numbered at h ⊢
    change _ = List.range' 1 (tap.seq + 1)
    rw [frames_of_submitted rfl, List.map_append, h, List.map_singleton, hseq, List.range'_1_concat,
      Nat.add_comm]

/-! Loops. -/

theorem untouched_drain (hne : d ≠ d') (now : Int) (n searched : Nat) (tap : ConsoleTap) :
    Untouched d' tap (drain d now n searched tap) := by
  induction n generalizing searched tap with
  | zero => exact Untouched.refl
  | succ n ih =>
      rw [drain]
      split
      · exact Untouched.refl
      · simp only
        split
        · exact (untouched_emitBuffer hne tap _ _ now).trans (ih _ _)
        · split
          · exact (untouched_emitBuffer hne tap _ _ now).trans (ih _ _)
          · exact Untouched.refl

theorem untouched_flushBuffer (hne : d ≠ d') (now : Int) (n : Nat) (tap : ConsoleTap) :
    Untouched d' tap (flushBuffer d now n tap) := by
  induction n generalizing tap with
  | zero => exact Untouched.refl
  | succ n ih =>
      rw [flushBuffer]
      simp only
      split
      · exact Untouched.refl
      · exact (untouched_emitBuffer hne tap _ _ now).trans (ih _)

theorem numbered_drain (h : Numbered tap) : Numbered (drain d now n searched tap) := by
  induction n generalizing searched tap with
  | zero => exact h
  | succ n ih =>
      rw [drain]
      split
      · exact h
      · simp only
        split
        · exact ih (numbered_emitBuffer h)
        · split
          · exact ih (numbered_emitBuffer h)
          · exact h

theorem numbered_flushBuffer (h : Numbered tap) : Numbered (flushBuffer d now n tap) := by
  induction n generalizing tap with
  | zero => exact h
  | succ n ih =>
      rw [flushBuffer]
      simp only
      split
      · exact h
      · exact ih (numbered_emitBuffer h)

structure KeepsFrames (tap tap' : ConsoleTap) : Prop where
  frames : tap'.frames = tap.frames
  seq : tap'.seq = tap.seq
  buffer : ∀ d, tap'.buffer d = tap.buffer d
  budget : tap'.overBudget = false → tap.overBudget = false

theorem KeepsFrames.refl : KeepsFrames tap tap := ⟨rfl, rfl, fun _ => rfl, id⟩

theorem KeepsFrames.trans (h : KeepsFrames tap tap') (h' : KeepsFrames tap' tap'') :
    KeepsFrames tap tap'' :=
  ⟨h'.frames.trans h.frames, h'.seq.trans h.seq, fun d => (h'.buffer d).trans (h.buffer d),
    fun hbudget => h.budget (h'.budget hbudget)⟩

theorem KeepsFrames.untouched (h : KeepsFrames tap tap') (d : Direction) : Untouched d tap tap' :=
  ⟨stored_of_frames_eq h.frames, congrArg DirectionBuffer.data (h.buffer d), h.budget⟩

theorem KeepsFrames.numbered (h : KeepsFrames tap tap') (hnumbered : Numbered tap) :
    Numbered tap' := by
  unfold Numbered
  rw [h.frames, h.seq]
  exact hnumbered

theorem keepsFrames_of_eq (hsubmitted : tap'.submitted = tap.submitted) (hseq : tap'.seq = tap.seq)
    (hin : tap'.inBuffer = tap.inBuffer) (hout : tap'.outBuffer = tap.outBuffer)
    (hbudget : tap'.overBudget = tap.overBudget) : KeepsFrames tap tap' := by
  refine ⟨by rw [frames, hsubmitted, frames], hseq, ?_, fun h => by rw [← hbudget, h]⟩
  rintro (_ | _)
  · exact hin
  · exact hout

theorem keepsFrames_isLearnerCommand (tap : ConsoleTap) (command : ReconstructedCommand) :
    KeepsFrames tap (tap.isLearnerCommand command).1 := by
  unfold isLearnerCommand
  simp only
  split
  · split <;> exact keepsFrames_of_eq rfl rfl rfl rfl rfl
  · exact keepsFrames_of_eq rfl rfl rfl rfl rfl

theorem keepsFrames_overRowBudget (tap : ConsoleTap) : KeepsFrames tap tap.overRowBudget.1 := by
  unfold overRowBudget
  split
  · exact ⟨rfl, rfl, fun d => by cases d <;> rfl, fun h => by cases h⟩
  · exact keepsFrames_of_eq rfl rfl rfl rfl rfl

theorem keepsFrames_record (record : ConsoleCommandRecord) :
    KeepsFrames tap (tap.submit (.record record)) := by
  refine ⟨?_, rfl, fun d => by cases d <;> rfl, id⟩
  rw [frames, submit, List.filterMap_append]
  exact List.append_nil _

theorem keepsFrames_emitCommand (tap : ConsoleTap) (command : ReconstructedCommand) :
    KeepsFrames tap (tap.emitCommand command) := by
  unfold emitCommand
  simp only
  have hlearner := tap.keepsFrames_isLearnerCommand command
  split
  · exact hlearner
  · split
    · exact hlearner.trans (keepsFrames_overRowBudget _)
    · exact (hlearner.trans (keepsFrames_overRowBudget _)).trans (keepsFrames_record _)

theorem keepsFrames_emit (tap : ConsoleTap) (commands : List ReconstructedCommand) :
    KeepsFrames tap (tap.emit commands) := by
  unfold emit
  induction commands generalizing tap with
  | nil => exact KeepsFrames.refl
  | cons command commands ih => exact (tap.keepsFrames_emitCommand command).trans (ih _)

end Emission

/-! ### The loop over a buffer -/

section Drain

variable {tap tap' : ConsoleTap} {n searched start stop i : Nat} {now : Int} {b : UInt8}
  {data : Bytes}

theorem rfind_some (h : rfind b data start stop = some i) : i < stop ∧ data[i]? = some b := by
  obtain ⟨j, hj, rfl⟩ := Option.map_eq_some_iff.mp h
  obtain ⟨hlength, hat, -⟩ := List.idxOf?_eq_some_iff.mp hj
  rw [List.length_reverse] at hlength
  have hwindow : ((data.take stop).drop start).length = min stop data.length - start := by
    rw [List.length_drop, List.length_take]
  rw [List.getElem_reverse, List.getElem_drop, List.getElem_take] at hat
  refine ⟨by omega, ?_⟩
  rw [← hat]
  exact List.getElem?_eq_getElem _

theorem le_of_rfind (h : rfind b data start stop = some i) : start ≤ i := by
  obtain ⟨j, -, rfl⟩ := Option.map_eq_some_iff.mp h
  exact Nat.le_add_right _ _

theorem rfind_none (h : rfind b data start stop = none) : b ∉ (data.take stop).drop start := by
  have hnone := List.idxOf?_eq_none_iff.mp (Option.map_eq_none_iff.mp h)
  rwa [List.mem_reverse] at hnone

/-- The search does not stop before a place where `b` stands. -/
theorem le_rfind {k : Nat} (hat : data[k]? = some b) (hstart : start ≤ k) (hstop : k < stop) :
    ∃ j, rfind b data start stop = some j ∧ k ≤ j := by
  obtain ⟨hlt, hget⟩ := List.getElem?_eq_some_iff.mp hat
  have hlength : ((data.take stop).drop start).length = min stop data.length - start := by
    rw [List.length_drop, List.length_take]
  have hwindow : ((data.take stop).drop start)[k - start]? = some b := by
    rw [List.getElem?_drop, Nat.add_sub_cancel' hstart, List.getElem?_take, if_pos hstop, hat]
  have hreversed :
      ((data.take stop).drop start).reverse[min stop data.length - start - 1 - (k - start)]?
      = some b := by
    rw [List.getElem?_reverse (by omega), hlength, ← hwindow]
    congr 1
    omega
  cases hfind : ((data.take stop).drop start).reverse.idxOf? b with
  | none =>
      exact absurd (List.mem_of_getElem? hreversed) (List.idxOf?_eq_none_iff.mp hfind)
  | some m =>
      obtain ⟨hm, -, hfirst⟩ := List.idxOf?_eq_some_iff.mp hfind
      rw [List.length_reverse, hlength] at hm
      refine ⟨start + (min stop data.length - start - 1 - m), ?_, ?_⟩
      · rw [rfind]
        simp only [hfind, Option.map_some, hlength]
      by_contra hlate
      have hbefore : min stop data.length - start - 1 - (k - start) < m := by omega
      obtain ⟨hplace, hhere⟩ := List.getElem?_eq_some_iff.mp hreversed
      exact absurd hhere (hfirst _ hbefore)

theorem split_at_break (h : data[i]? = some b) :
    data = data.take i ++ b :: data.drop (i + 1) ∧ data.take (i + 1) = data.take i ++ [b] := by
  obtain ⟨hlt, hat⟩ := List.getElem?_eq_some_iff.mp h
  constructor
  · rw [← hat, ← List.drop_eq_getElem_cons hlt, List.take_append_drop]
  · rw [List.take_add_one, h]
    rfl

theorem rfind_of_max
    (h : max (rfind cr data searched stop) (rfind lf data searched stop) = some i) :
    rfind cr data searched stop = some i ∨ rfind lf data searched stop = some i := by
  cases hcr : rfind cr data searched stop <;> cases hlf : rfind lf data searched stop <;>
    simp [hcr, hlf] at h ⊢
  case none.some => exact h
  case some.none => exact h
  case some.some => omega

theorem breakAt_some
    (h : max (rfind cr data searched stop) (rfind lf data searched stop) = some i) :
    i < stop ∧ ∃ b, isBreak b = true ∧ data[i]? = some b := by
  rcases rfind_of_max h with hcr | hlf
  · obtain ⟨hstop, hat⟩ := rfind_some hcr
    exact ⟨hstop, cr, rfl, hat⟩
  · obtain ⟨hstop, hat⟩ := rfind_some hlf
    exact ⟨hstop, lf, rfl, hat⟩

theorem breakAt_last
    (h : max (rfind cr data searched stop) (rfind lf data searched stop) = some i) :
    BreakFree isBreak ((data.take stop).drop (i + 1)) := by
  have hbound : ∀ j, rfind cr data searched stop = some j ∨ rfind lf data searched stop = some j →
      j ≤ i := by
    intro j hj
    cases hcr : rfind cr data searched stop <;> cases hlf : rfind lf data searched stop <;>
      simp [hcr, hlf] at h hj
    case none.some => omega
    case some.none => omega
    case some.some => omega
  have hstart : searched ≤ i := by
    rcases rfind_of_max h with hcr | hlf
    · exact le_of_rfind hcr
    · exact le_of_rfind hlf
  intro b hb
  by_contra hbreak
  rw [Bool.not_eq_false, isBreak, Bool.or_eq_true, beq_iff_eq, beq_iff_eq] at hbreak
  obtain ⟨k, hk⟩ := List.getElem?_of_mem hb
  rw [List.getElem?_drop, List.getElem?_take] at hk
  split at hk
  · rename_i hstop
    have hsearched : searched ≤ i + 1 + k := by omega
    obtain ⟨j, hj, hle⟩ := le_rfind hk hsearched hstop
    have hji : j ≤ i := by
      apply hbound j
      rcases hbreak with rfl | rfl
      · exact Or.inl hj
      · exact Or.inr hj
    omega
  · cases hk

/-- What was searched before and is searched now has no break. -/
theorem breakAt_none (h : max (rfind cr data searched stop) (rfind lf data searched stop) = none)
    (hsearched : BreakFree isBreak (data.take searched)) : BreakFree isBreak (data.take stop) := by
  have hnone : rfind cr data searched stop = none ∧ rfind lf data searched stop = none := by
    cases hcr : rfind cr data searched stop <;> cases hlf : rfind lf data searched stop <;>
      simp [hcr, hlf] at h ⊢
  intro b hb
  rw [← List.take_append_drop searched (data.take stop)] at hb
  rcases List.mem_append.mp hb with hbefore | hwindow
  · rw [List.take_take, Nat.min_comm, ← List.take_take] at hbefore
    exact hsearched b (List.mem_of_mem_take hbefore)
  · rw [isBreak, Bool.or_eq_false_iff, beq_eq_false_iff_ne, beq_eq_false_iff_ne]
    exact ⟨fun hcr => rfind_none hnone.1 (hcr ▸ hwindow), fun hlf =>
      rfind_none hnone.2 (hlf ▸ hwindow)⟩

/-- What is stored and what the buffer will say, whatever comes behind it, is what it was. -/
def SaysAs (tap tap' : ConsoleTap) : Prop :=
  ∀ later, tap.stored .out ++ framed ((tap.buffer .out).data ++ later)
    = tap'.stored .out ++ framed ((tap'.buffer .out).data ++ later)

theorem SaysAs.trans {tap'' : ConsoleTap} (h : SaysAs tap tap') (h' : SaysAs tap' tap'') :
    SaysAs tap tap'' :=
  fun later => (h later).trans (h' later)

theorem saysAs_emit_line (hi : i < maxChunkBytes) (hb : isBreak b = true)
    (hat : (tap.buffer .out).data[i]? = some b) {truncated : Bool}
    (hbudget : (tap.emitBuffer .out (i + 1) truncated now).overBudget = false) :
    SaysAs tap (tap.emitBuffer .out (i + 1) truncated now) := by
  intro later
  obtain ⟨hsplit, hhead⟩ := split_at_break hat
  have hshort : ((tap.buffer .out).data.take i).length ≤ maxChunkBytes :=
    Nat.le_trans (List.length_take_le _ _) (Nat.le_of_lt hi)
  rw [(stored_emitBuffer hbudget).1, data_emitBuffer, hhead, List.append_assoc]
  congr 1
  calc framed ((tap.buffer .out).data ++ later)
      = framed ((tap.buffer .out).data.take i
          ++ b :: ((tap.buffer .out).data.drop (i + 1) ++ later)) := by
        rw [← List.cons_append, ← List.append_assoc, ← hsplit]
    _ = _ := framed_lines hb hshort

theorem saysAs_emit_cut (hlong : maxChunkBytes ≤ (tap.buffer .out).data.length)
    (hfree : BreakFree isBreak ((tap.buffer .out).data.take maxChunkBytes)) {truncated : Bool}
    (hbudget : (tap.emitBuffer .out maxChunkBytes truncated now).overBudget = false) :
    SaysAs tap (tap.emitBuffer .out maxChunkBytes truncated now) := by
  intro later
  have hlength : ((tap.buffer .out).data.take maxChunkBytes).length = maxChunkBytes :=
    List.length_take_of_le hlong
  rw [(stored_emitBuffer hbudget).1, data_emitBuffer, List.append_assoc, ← framed_cut hfree hlength,
    ← List.append_assoc, List.take_append_drop]

/-- Between calls, the buffer is the head of a line and shorter than a frame. -/
structure Pending (tap : ConsoleTap) : Prop where
  breakFree : BreakFree isBreak (tap.buffer .out).data
  short : (tap.buffer .out).data.length < maxChunkBytes

theorem drain_over (h : tap.overBudget = true) {d : Direction} :
    drain d now n searched tap = tap := by
  cases n with
  | zero => rfl
  | succ n => rw [drain, if_pos h]

theorem flushBuffer_over (h : tap.overBudget = true) {d : Direction} :
    flushBuffer d now n tap = tap := by
  cases n with
  | zero => rfl
  | succ n => simp [flushBuffer, h]

theorem on_of_drain {d : Direction} (h : (drain d now n searched tap).overBudget = false) :
    tap.overBudget = false := by
  by_contra hover
  rw [Bool.not_eq_false] at hover
  rw [drain_over hover, hover] at h
  cases h

theorem on_of_flushBuffer {d : Direction} (h : (flushBuffer d now n tap).overBudget = false) :
    tap.overBudget = false := by
  by_contra hover
  rw [Bool.not_eq_false] at hover
  rw [flushBuffer_over hover, hover] at h
  cases h

/-- **The loop of `_ingest`**: it stores frames until what is left is the head of a line. -/
theorem saysAs_drain (hfuel : (tap.buffer .out).data.length < n)
    (hsearched : BreakFree isBreak ((tap.buffer .out).data.take searched))
    (hbudget : (drain .out now n searched tap).overBudget = false) :
    SaysAs tap (drain .out now n searched tap) ∧ Pending (drain .out now n searched tap) := by
  induction n generalizing tap searched with
  | zero => exact absurd hfuel (Nat.not_lt_zero _)
  | succ n ih =>
      rw [drain] at hbudget ⊢
      by_cases hover : tap.overBudget = true
      · rw [if_pos hover, hover] at hbudget
        cases hbudget
      · rw [if_neg hover] at hbudget ⊢
        simp only at hbudget ⊢
        -- a turn takes `size` bytes off the buffer
        have hturn : ∀ size truncated, 0 < size → 0 < (tap.buffer .out).data.length →
            ((tap.emitBuffer .out size truncated now).buffer .out).data.length < n := by
          intro size truncated hsize hdata
          rw [data_emitBuffer, List.length_drop]
          omega
        cases hbreak : max
            (rfind cr (tap.buffer .out).data searched
              (min (tap.buffer .out).data.length maxChunkBytes))
            (rfind lf (tap.buffer .out).data searched
              (min (tap.buffer .out).data.length maxChunkBytes))
          with
        | some i =>
            rw [hbreak] at hbudget
            obtain ⟨hi, b, hb, hat⟩ := breakAt_some hbreak
            have haccount := saysAs_emit_line (Nat.lt_of_lt_of_le hi (Nat.min_le_right _ _)) hb hat
              (on_of_drain hbudget)
            have hnonempty : 0 < (tap.buffer .out).data.length :=
              Nat.lt_of_le_of_lt (Nat.zero_le i) (Nat.lt_of_lt_of_le hi (Nat.min_le_left _ _))
            obtain ⟨hlater, hpending⟩ := ih (hturn _ _ (Nat.succ_pos i) hnonempty)
              (by rw [List.take_zero]; exact breakFree_nil) hbudget
            exact ⟨haccount.trans hlater, hpending⟩
        | none =>
            rw [hbreak] at hbudget
            have hfree := breakAt_none hbreak hsearched
            simp only at hbudget ⊢
            by_cases hlong : maxChunkBytes ≤ (tap.buffer .out).data.length
            · rw [if_pos hlong] at hbudget ⊢
              rw [Nat.min_eq_right hlong] at hfree
              have haccount := saysAs_emit_cut hlong hfree (on_of_drain hbudget)
              obtain ⟨hlater, hpending⟩ := ih
                (hturn _ _ maxChunkBytes_pos (Nat.lt_of_lt_of_le maxChunkBytes_pos hlong))
                (by rw [List.take_zero]; exact breakFree_nil) hbudget
              exact ⟨haccount.trans hlater, hpending⟩
            · rw [if_neg hlong]
              rw [Nat.not_le] at hlong
              rw [Nat.min_eq_left (Nat.le_of_lt hlong), List.take_length] at hfree
              exact ⟨fun _ => rfl, hfree, hlong⟩

end Drain

/-! ### A socket -/

def Message.fromNode? : Message → Bytes
  | .fromClient _ _ => []
  | .fromNode data _ => data

def nodeStream (messages : List Message) : Bytes := messages.flatMap Message.fromNode?

section Socket

variable {alnum : Char → Bool} {tap tap' : ConsoleTap} {stream data : Bytes} {now : Int} {n : Nat}
  {d d' : Direction}

/-- While capture is on, the frames and the buffer say what the stream says. -/
structure Captured (stream : Bytes) (tap : ConsoleTap) : Prop where
  numbered : Numbered tap
  accounts : tap.overBudget = false →
    (∀ later, framed (stream ++ later)
      = tap.stored .out ++ framed ((tap.buffer .out).data ++ later)) ∧ Pending tap

theorem Captured.of_untouched (h : Captured stream tap) (huntouched : Untouched .out tap tap')
    (hnumbered : Numbered tap') : Captured stream tap' where
  numbered := hnumbered
  accounts := by
    intro hbudget
    obtain ⟨haccount, hfree, hshort⟩ := h.accounts (huntouched.budget hbudget)
    rw [← huntouched.data] at hfree hshort
    rw [huntouched.stored, huntouched.data]
    exact ⟨haccount, hfree, hshort⟩

theorem Captured.of_keepsFrames (h : Captured stream tap) (hkeeps : KeepsFrames tap tap') :
    Captured stream tap' :=
  h.of_untouched (hkeeps.untouched .out) (hkeeps.numbered h.numbered)

/-- The bytes that were just ingested wait behind those before them. -/
theorem stored_setBuffer (buffer : DirectionBuffer) (bytes : Nat) :
    ({ tap with bytes }.setBuffer d buffer).stored d' = tap.stored d' := by
  cases d <;> rfl

theorem numbered_setBuffer (buffer : DirectionBuffer) (bytes : Nat) (h : Numbered tap) :
    Numbered ({ tap with bytes }.setBuffer d buffer) := by
  cases d <;> exact h

theorem overBudget_setBuffer (buffer : DirectionBuffer) (bytes : Nat) :
    ({ tap with bytes }.setBuffer d buffer).overBudget = tap.overBudget := by
  cases d <;> rfl

theorem numbered_ingest (h : Numbered tap) (d : Direction) (data : Bytes) (now : Int) :
    Numbered (tap.ingest d data now) := by
  unfold ingest
  split
  · exact h
  · simp only
    split
    · exact h
    · exact numbered_drain (numbered_setBuffer _ _ h)

theorem untouched_ingest (hne : d ≠ d') : Untouched d' tap (tap.ingest d data now) := by
  unfold ingest
  split
  · exact Untouched.refl
  · simp only
    split
    · exact ⟨rfl, by cases d' <;> rfl, fun h => by cases h⟩
    · refine Untouched.trans ⟨stored_setBuffer _ _, ?_, ?_⟩ (untouched_drain hne now _ _ _)
      · rw [buffer_setBuffer_of_ne hne]
        cases d' <;> rfl
      · exact fun h => (overBudget_setBuffer _ _).symm.trans h

theorem Captured.ingest (h : Captured stream tap) (data : Bytes) (now : Int) :
    Captured (stream ++ data) (tap.ingest .out data now) := by
  refine ⟨numbered_ingest h.numbered .out data now, fun hbudget => ?_⟩
  unfold ConsoleTap.ingest at hbudget ⊢
  by_cases hidle : (tap.overBudget || data.isEmpty) = true
  · rw [if_pos hidle] at hbudget ⊢
    rw [hbudget, Bool.false_or, List.isEmpty_iff] at hidle
    rw [hidle, List.append_nil]
    exact h.accounts hbudget
  · rw [if_neg hidle] at hbudget ⊢
    simp only at hbudget ⊢
    by_cases hbytes : maxConnectionBytes < tap.bytes + data.length
    · rw [if_pos hbytes] at hbudget
      cases hbudget
    · rw [if_neg hbytes] at hbudget ⊢
      have hon : tap.overBudget = false := by
        cases hover : tap.overBudget with
        | false => rfl
        | true => simp [hover] at hidle
      obtain ⟨hstream, hfree, -⟩ := h.accounts hon
      have hsame : ({ tap with bytes := tap.bytes + data.length } : ConsoleTap).buffer .out
          = tap.buffer .out := rfl
      rw [hsame] at hbudget ⊢
      generalize hts :
        (if (tap.buffer .out).data.isEmpty then some now else (tap.buffer .out).ts) = ts
        at hbudget ⊢
      have hfuel : (({ tap with bytes := tap.bytes + data.length }.setBuffer .out
          ⟨(tap.buffer .out).data ++ data, ts⟩).buffer .out).data.length
            < (tap.buffer .out).data.length + data.length + 1 := by
        rw [buffer_setBuffer, List.length_append]
        exact Nat.lt_succ_self _
      have hsearched : BreakFree isBreak
          ((({ tap with bytes := tap.bytes + data.length }.setBuffer .out
            ⟨(tap.buffer .out).data ++ data, ts⟩).buffer .out).data.take
              (tap.buffer .out).data.length) := by
        rw [buffer_setBuffer, List.take_left]
        exact hfree
      obtain ⟨haccount, hpending⟩ := saysAs_drain hfuel hsearched hbudget
      refine ⟨fun later => ?_, hpending⟩
      have hlater := haccount later
      rw [stored_setBuffer, buffer_setBuffer] at hlater
      rw [← hlater, List.append_assoc, hstream, List.append_assoc]

theorem Captured.fromClient (h : Captured stream tap) (data : Bytes) (now : Int) :
    Captured stream (tap.fromClient data now) := by
  have hne : Direction.«in» ≠ .out := by decide
  have hingest := h.of_untouched (untouched_ingest hne) (numbered_ingest h.numbered .«in» data now)
  unfold ConsoleTap.fromClient
  simp only
  generalize tap.ingest .«in» data now = tap' at hingest ⊢
  exact hingest.of_keepsFrames (keepsFrames_of_eq rfl rfl rfl rfl rfl)

theorem Captured.fromNode (h : Captured stream tap) (data : Bytes) (now : Int) :
    Captured (stream ++ data) (tap.fromNode alnum data now) := by
  unfold ConsoleTap.fromNode
  simp only
  generalize hfeed : (tap.ingest .out data now).reconstructor.feed alnum data now = fed
  have hreconstructor : KeepsFrames (tap.ingest .out data now)
      { tap.ingest .out data now with reconstructor := fed.1 } :=
    keepsFrames_of_eq rfl rfl rfl rfl rfl
  have hemit := (h.ingest data now).of_keepsFrames (hreconstructor.trans (keepsFrames_emit _ fed.2))
  exact hemit.of_keepsFrames (keepsFrames_of_eq rfl rfl rfl rfl rfl)

theorem Captured.receiveAll (h : Captured stream tap) (messages : List Message) :
    Captured (stream ++ nodeStream messages) (tap.receiveAll alnum messages) := by
  induction messages generalizing tap stream with
  | nil =>
      rw [nodeStream, List.flatMap_nil, List.append_nil]
      exact h
  | cons message messages ih =>
      have hstep : Captured (stream ++ message.fromNode?) (tap.receive alnum message) := by
        cases message with
        | fromClient data now =>
            rw [Message.fromNode?, List.append_nil]
            exact h.fromClient data now
        | fromNode data now => exact h.fromNode data now
      have hrest := ih hstep
      rw [List.append_assoc] at hrest
      exact hrest

/-- The head of a line that is left at the end becomes the last frame. -/
theorem stored_flushBuffer (hpending : Pending tap)
    (hbudget : (flushBuffer .out now (tap.buffer .out).data.length tap).overBudget = false) :
    (flushBuffer .out now (tap.buffer .out).data.length tap).stored .out
      = tap.stored .out ++ redact (tap.buffer .out).data := by
  cases hlength : (tap.buffer .out).data.length with
  | zero =>
      rw [List.length_eq_zero_iff.mp hlength, redact_nil, List.append_nil]
      rfl
  | succ n =>
      have hnonempty : (tap.buffer .out).data.isEmpty = false := by
        rw [List.isEmpty_eq_false_iff]
        intro hnil
        rw [hnil] at hlength
        cases hlength
      have hsize :
          min (tap.buffer .out).data.length maxChunkBytes = (tap.buffer .out).data.length :=
        Nat.min_eq_left (Nat.le_of_lt hpending.short)
      rw [hlength, flushBuffer] at hbudget
      rw [flushBuffer]
      simp only [hnonempty, Bool.false_or, hsize] at hbudget ⊢
      by_cases hover : tap.overBudget = true
      · rw [if_pos hover, hover] at hbudget
        cases hbudget
      · rw [if_neg hover] at hbudget ⊢
        have hempty : ∀ truncated, (((tap.emitBuffer .out (tap.buffer .out).data.length truncated
            now).buffer .out).data.isEmpty) = true := by
          intro truncated
          rw [data_emitBuffer, List.drop_length]
          rfl
        have hdone : ∀ truncated, flushBuffer .out now n
            (tap.emitBuffer .out (tap.buffer .out).data.length truncated now)
              = tap.emitBuffer .out (tap.buffer .out).data.length truncated now := by
          intro truncated
          cases n with
          | zero => rfl
          | succ n => rw [flushBuffer]; simp only [hempty, Bool.true_or, if_true]
        rw [hdone] at hbudget ⊢
        rw [(stored_emitBuffer hbudget).1, List.take_length]

/-- **What the frames of a socket say.** -/
theorem Captured.close (h : Captured stream tap)
    (hbudget : (tap.close alnum now).overBudget = false) :
    Numbered (tap.close alnum now) ∧ (tap.close alnum now).stored .out = framed stream := by
  have hne : Direction.«in» ≠ .out := by decide
  unfold ConsoleTap.close at hbudget ⊢
  simp only at hbudget ⊢
  have hin := h.of_untouched (untouched_flushBuffer hne now (tap.buffer .«in»).data.length tap)
    (numbered_flushBuffer h.numbered)
  generalize flushBuffer .«in» now (tap.buffer .«in»).data.length tap = tap' at hin hbudget ⊢
  generalize hout : flushBuffer .out now (tap'.buffer .out).data.length tap' = tap'' at hbudget ⊢
  generalize tap''.reconstructor.flush alnum = flushed at hbudget ⊢
  have hreconstructor : KeepsFrames tap'' { tap'' with reconstructor := flushed.1 } :=
    keepsFrames_of_eq rfl rfl rfl rfl rfl
  have hkeeps := hreconstructor.trans (keepsFrames_emit _ flushed.2)
  have hflushed : tap''.overBudget = false := hkeeps.budget hbudget
  have hnumbered : Numbered tap'' := hout ▸ numbered_flushBuffer hin.numbered
  refine ⟨hkeeps.numbered hnumbered, ?_⟩
  have hon : tap'.overBudget = false := on_of_flushBuffer (hout ▸ hflushed)
  obtain ⟨haccount, hpending⟩ := hin.accounts hon
  have hlast := haccount []
  rw [List.append_nil, List.append_nil,
    framed_last hpending.breakFree (Nat.le_of_lt hpending.short)]
    at hlast
  rw [(hkeeps.untouched .out).stored, hlast, ← hout]
  exact stored_flushBuffer hpending (hout ▸ hflushed)

/-- A run of a socket within its budgets: the frames are numbered without a gap and say what the
stream, framed, says. -/
theorem stored_eq_framed (sessionId : Nat) (nodeId : Text) (connectionId : Nat) (start now : Int)
    (messages : List Message)
    (hbudget : (((init sessionId nodeId connectionId start).receiveAll alnum messages).close alnum
      now).overBudget = false) :
    Numbered (((init sessionId nodeId connectionId start).receiveAll alnum messages).close alnum
      now)
      ∧ (((init sessionId nodeId connectionId start).receiveAll alnum messages).close alnum
          now).stored .out = framed (nodeStream messages) := by
  have hinit : Captured [] (init sessionId nodeId connectionId start) :=
    ⟨rfl, fun _ => ⟨fun _ => rfl, breakFree_nil, maxChunkBytes_pos⟩⟩
  obtain ⟨hnumbered, hstored⟩ := (hinit.receiveAll messages).close hbudget
  rw [List.nil_append] at hstored
  exact ⟨hnumbered, hstored⟩

end Socket

/-! ### A secret behind 64 KiB -/

section Leak

variable {alnum : Char → Bool} {tap tap' : ConsoleTap} {data l rest : Bytes} {now : Int}
  {n k searched : Nat} {d : Direction}

theorem breakAt_of_breakFree (hfree : BreakFree isBreak data) {stop : Nat} :
    max (rfind cr data searched stop) (rfind lf data searched stop) = none := by
  have hnone : ∀ b, isBreak b = true → rfind b data searched stop = none := by
    intro b hb
    cases hfind : rfind b data searched stop with
    | none => rfl
    | some i =>
        rw [hfree b (List.mem_of_getElem? (rfind_some hfind).2)] at hb
        cases hb
  rw [hnone cr rfl, hnone lf rfl]
  rfl

theorem drain_cut (hon : tap.overBudget = false) (hfree : BreakFree isBreak (tap.buffer d).data)
    (hlong : maxChunkBytes ≤ (tap.buffer d).data.length) :
    drain d now (n + 1) searched tap
      = drain d now n 0 (tap.emitBuffer d maxChunkBytes true now) := by
  rw [drain, hon]
  simp only [Bool.false_eq_true, if_false, breakAt_of_breakFree hfree, if_pos hlong]

theorem drain_rest (hfree : BreakFree isBreak (tap.buffer d).data)
    (hshort : (tap.buffer d).data.length < maxChunkBytes) :
    drain d now (n + 1) searched tap = tap := by
  rw [drain]
  simp only [breakAt_of_breakFree hfree, if_neg (Nat.not_le.mpr hshort), ite_self]

/-- Few rows are used, and no Enter is pending. -/
structure Roomy (k : Nat) (tap : ConsoleTap) : Prop where
  on : tap.overBudget = false
  rows : tap.rows ≤ k
  quiet : tap.pendingEnters = []

theorem Roomy.emitBuffer (h : Roomy k tap) (hk : k < maxConnectionRows) (size : Nat)
    (truncated : Bool) : Roomy (k + 1) (tap.emitBuffer d size truncated now) := by
  obtain ⟨ts, mode, tail, ⟨hrows, -⟩ | ⟨frame, -, -, -, -, -, hframe⟩⟩ :=
    emitBuffer_cases tap d size truncated now
  · exact absurd (Nat.le_trans hrows h.rows) (Nat.not_le.mpr hk)
  · rw [hframe]
    refine ⟨?_, Nat.succ_le_succ h.rows, ?_⟩
    · exact (taken_overBudget tap ts mode tail).trans h.on
    · cases d <;> exact h.quiet

theorem Roomy.flushBuffer (h : Roomy k tap) (hk : k + n ≤ maxConnectionRows) :
    Roomy (k + n) (flushBuffer d now n tap) := by
  induction n generalizing k tap with
  | zero => exact h
  | succ n ih =>
      rw [ConsoleTap.flushBuffer]
      simp only
      split
      · exact ⟨h.on, Nat.le_trans h.rows (Nat.le_add_right _ _), h.quiet⟩
      · rw [Nat.add_comm n 1, ← Nat.add_assoc] at hk ⊢
        exact ih (h.emitBuffer (by omega) _ _) hk

theorem emitCommand_of_quiet (h : tap.pendingEnters = []) (command : ReconstructedCommand) :
    tap.emitCommand command = tap := by
  have hlearner : tap.isLearnerCommand command = (tap, false) := by
    cases tap
    cases h
    rfl
  unfold emitCommand
  rw [hlearner]
  rfl

theorem Roomy.emit (h : Roomy k tap) (commands : List ReconstructedCommand) :
    tap.emit commands = tap := by
  unfold ConsoleTap.emit
  induction commands with
  | nil => rfl
  | cons command commands ih => rw [List.foldl_cons, emitCommand_of_quiet h.quiet, ih]

/-- A node that sends a little more than 64 KiB without a break stays within the budgets. -/
theorem overBudget_longLine (hfree : BreakFree isBreak data)
    (hlength : data.length = maxChunkBytes + 7) (sessionId : Nat) (nodeId : Text)
    (connectionId : Nat) :
    (((init sessionId nodeId connectionId 0).receiveAll alnum [.fromNode data 0]).close alnum
      0).overBudget = false := by
  let waiting : ConsoleTap :=
    { init sessionId nodeId connectionId 0 with
      bytes := 0 + data.length
      outBuffer := ⟨data, some 0⟩ }
  have hbuffer : (waiting.buffer .out).data = data := rfl
  have hnonempty : data.isEmpty = false := by
    rw [List.isEmpty_eq_false_iff]
    rintro rfl
    cases hlength
  have hfits : ¬ maxConnectionBytes
      < (init sessionId nodeId connectionId 0).bytes + data.length := by
    rw [hlength]
    change ¬ maxConnectionBytes < 0 + (maxChunkBytes + 7)
    decide
  have hingest : (init sessionId nodeId connectionId 0).ingest .out data 0
      = drain .out 0 (0 + data.length + 1) 0 waiting := by
    unfold ConsoleTap.ingest
    have hidle : ((init sessionId nodeId connectionId 0).overBudget || data.isEmpty) = false := by
      rw [hnonempty]
      rfl
    rw [hidle]
    simp only [Bool.false_eq_true, if_false]
    rw [if_neg hfits]
    rfl
  -- one frame is cut off, seven bytes wait
  let cut := waiting.emitBuffer .out maxChunkBytes true 0
  have hcutData : (cut.buffer .out).data = data.drop maxChunkBytes := by
    rw [data_emitBuffer, hbuffer]
  have hcutLength : (cut.buffer .out).data.length = 7 := by
    rw [hcutData, List.length_drop, hlength, Nat.add_sub_cancel_left]
  have hcut : Roomy 1 cut := Roomy.emitBuffer ⟨rfl, Nat.le_refl 0, rfl⟩ (by decide) _ _
  have hdrain : drain .out 0 (0 + data.length + 1) 0 waiting = cut := by
    rw [hlength, drain_cut rfl (by rw [hbuffer]; exact hfree) (by rw [hbuffer, hlength]; omega)]
    have hfree' : BreakFree isBreak (cut.buffer .out).data := by
      rw [hcutData]
      exact hfree.drop
    exact drain_rest hfree' (by rw [hcutLength]; decide)
  -- the commands of the stream are nobody's
  generalize hfed : cut.reconstructor.feed alnum data 0 = fed
  have hparser : Roomy 1 { cut with reconstructor := fed.1 } := ⟨hcut.on, hcut.rows, hcut.quiet⟩
  have hreceived : ∃ tail mode, (init sessionId nodeId connectionId 0).fromNode alnum data 0
      = { cut with reconstructor := fed.1, tail, passwordMode := mode } := by
    unfold ConsoleTap.fromNode
    rw [hingest, hdrain]
    simp only [hfed]
    rw [hparser.emit]
    exact ⟨_, _, rfl⟩
  obtain ⟨tail, mode, hreceived⟩ := hreceived
  let received : ConsoleTap := { cut with reconstructor := fed.1, tail, passwordMode := mode }
  have hroomy : Roomy 1 received := ⟨hcut.on, hcut.rows, hcut.quiet⟩
  have hin : (received.buffer .«in»).data.length = 0 := by
    have huntouched :=
      (untouched_emitBuffer (by decide : Direction.out ≠ .«in») waiting maxChunkBytes true 0).data
    change (cut.buffer .«in»).data.length = 0
    rw [huntouched]
    rfl
  have hout : (received.buffer .out).data.length = 7 := hcutLength
  have hflushed : Roomy (1 + 7) (ConsoleTap.flushBuffer .out 0 7 received) :=
    hroomy.flushBuffer (by decide)
  have hclose : (received.close alnum 0).overBudget = false := by
    unfold ConsoleTap.close
    rw [hin]
    have hidle : ConsoleTap.flushBuffer .«in» 0 0 received = received := rfl
    simp only [hidle, hout]
    generalize (ConsoleTap.flushBuffer .out 0 7 received).reconstructor.flush alnum = flushed
    have hlast : Roomy (1 + 7)
        { ConsoleTap.flushBuffer .out 0 7 received with reconstructor := flushed.1 } :=
      ⟨hflushed.on, hflushed.rows, hflushed.quiet⟩
    rw [hlast.emit]
    exact hlast.on
  have hrun : (init sessionId nodeId connectionId 0).receiveAll alnum [.fromNode data 0]
      = received :=
    hreceived
  rw [hrun]
  exact hclose

end Leak

end ConsoleTap

/-! ### Redaction and framing -/

section Redaction

variable {alnum : Char → Bool}

open ConsoleTap (Message nodeStream)

/-- **Redaction and framing.** Within the budgets, the frames of a socket are numbered without a
gap, and the `out` frames say what the masked stream says exactly when every long line does: when
masking it 64 KiB at a time is masking it whole. -/
theorem stored_eq_redact_iff (sessionId : Nat) (nodeId : Text) (connectionId : Nat)
    (start now : Int)
    (messages : List Message)
    (hbudget : (((ConsoleTap.init sessionId nodeId connectionId start).receiveAll alnum
      messages).close alnum now).overBudget = false) :
    (((ConsoleTap.init sessionId nodeId connectionId start).receiveAll alnum messages).close alnum
        now).Numbered
      ∧ ((((ConsoleTap.init sessionId nodeId connectionId start).receiveAll alnum messages).close
        alnum
            now).stored .out = redact (nodeStream messages)
          ↔ ∀ line ∈ (nodeStream messages).splitOnP isBreak, maxChunkBytes < line.length →
              maskedInPieces line = redact line) := by
  obtain ⟨hnumbered, hstored⟩ :=
    ConsoleTap.stored_eq_framed sessionId nodeId connectionId start now messages hbudget
  rw [hstored]
  exact ⟨hnumbered, framed_eq_redact_iff⟩

/-- A secret in two chunks, and an answer without a line end. -/
theorem stored_eq_redact_iff_twoChunks :
    (((ConsoleTap.init 1 [] 1 0).receiveAll asciiOnly
        [.fromNode (bytes "psk a") 0, .fromNode (bytes "bc\r\nok") 1]).close asciiOnly 2).stored
          .out
      = bytes "psk ***\r\nok" := by
  have hbudget : (((ConsoleTap.init 1 [] 1 0).receiveAll asciiOnly
      [.fromNode (bytes "psk a") 0, .fromNode (bytes "bc\r\nok") 1]).close asciiOnly 2).overBudget
        = false := by decide +kernel
  have hshort : ∀ line ∈ (nodeStream [.fromNode (bytes "psk a") 0,
      .fromNode (bytes "bc\r\nok") 1]).splitOnP isBreak, line.length ≤ maxChunkBytes := by
    decide +kernel
  rw [(stored_eq_redact_iff 1 [] 1 0 2 _ hbudget).2.mpr fun line hline hlong =>
    absurd (hshort line hline) (Nat.not_le.mpr hlong)]
  decide +kernel

def longSecret : Bytes := bytes "secret " ++ byte 'a' :: List.replicate 65535 (byte 'a')

theorem breakFree_replicate (n : Nat) : BreakFree isBreak (List.replicate n (byte 'a')) := by
  intro b hb
  rw [List.eq_of_mem_replicate hb]
  rfl

theorem breakFree_longSecret : BreakFree isBreak longSecret := by
  have hkeyword : BreakFree isBreak (bytes "secret ") := by
    unfold BreakFree
    decide +kernel
  exact hkeyword.append (List.forall_mem_cons.mpr ⟨rfl, breakFree_replicate _⟩)

theorem length_longSecret : longSecret.length = maxChunkBytes + 7 := by
  rw [longSecret, List.length_append, List.length_cons, List.length_replicate]
  rfl

/-- The last bytes of the secret are a piece of their own, in which nothing is secret. -/
theorem maskedInPieces_longSecret :
    maskedInPieces longSecret = bytes "secret ***" ++ bytes "aaaaaaa" := by
  have hlong : maxChunkBytes < longSecret.length := by
    rw [length_longSecret]
    exact Nat.lt_add_of_pos_right (by decide)
  have hsplit : longSecret
      = (bytes "secret " ++ byte 'a' :: List.replicate 65528 (byte 'a')) ++ bytes "aaaaaaa" := by
    have htail : bytes "aaaaaaa" = List.replicate 7 (byte 'a') := rfl
    rw [longSecret, htail, List.append_assoc, List.cons_append, List.replicate_append_replicate]
  have hhead : (bytes "secret " ++ byte 'a' :: List.replicate 65528 (byte 'a')).length
      = maxChunkBytes := by
    rw [List.length_append, List.length_cons, List.length_replicate]
    rfl
  have hrest : (pieces maxChunkBytes (bytes "aaaaaaa")).flatMap redact = bytes "aaaaaaa" := by
    rw [pieces_of_le (by decide), List.flatMap_singleton]
    rfl
  rw [maskedInPieces, pieces_of_lt maxChunkBytes_pos hlong, List.flatMap_cons, hsplit, ← hhead,
    List.take_left, List.drop_left, redact_secret (breakFree_replicate _), hhead, hrest]

/-- **A secret that goes on behind 64 KiB is stored.** The frames end with seven bytes of it. -/
theorem long_line_leaks_secret :
    ¬ ∀ (messages : List Message) (now : Int),
      (((ConsoleTap.init 1 [] 1 0).receiveAll asciiOnly messages).close asciiOnly now).overBudget
          = false →
        (((ConsoleTap.init 1 [] 1 0).receiveAll asciiOnly messages).close asciiOnly now).stored .out
          = redact (nodeStream messages) := by
  intro h
  have hbudget := @ConsoleTap.overBudget_longLine asciiOnly _ breakFree_longSecret
    length_longSecret 1 [] 1
  have hstream : nodeStream [.fromNode longSecret 0] = longSecret :=
    List.append_nil _
  have hstored := (ConsoleTap.stored_eq_framed 1 [] 1 0 0 [.fromNode longSecret 0] hbudget).2
  rw [h [.fromNode longSecret 0] 0 hbudget, hstream, framed, mapLines_last breakFree_longSecret,
    maskedInPieces_longSecret, longSecret, redact_secret (breakFree_replicate _)] at hstored
  exact absurd hstored (by decide)

end Redaction

end OnlinetLabs.Console
