import OnlinetLabs.Console.Reconstruct

/-!
# Replay and live

A console stream says one thing, however it arrived: its complete lines in order, then what is left.
`replay` reads it that way, with no buffer, no chunks and no clock. The parser works on chunks,
closes a command early when the tail of a chunk reads as a prompt, and bounds the tail it keeps.

A chunking is compared with the replay cut by cut. Between two chunks the parser is either in step
with the lines read so far, or one prompt ahead: it has closed a command on a tail that is going to
be a prompt line, and reading that line will close nothing (`Position`). A cut that respects this
(`CleanCut`) leaves no trace.
-/

namespace OnlinetLabs.Console

open Reconstructor

variable {alnum : Char → Bool}

/-! ### What a stream says -/

structure Exchange where
  prompt : Text
  command : Text
  response : Text
deriving DecidableEq

/-- Between two lines: the command that is being answered, and the answer so far. -/
structure Dialogue where
  command : Option (Text × Text) := none
  response : List Text := []
  responseChars : Nat := 0
deriving DecidableEq

/-- The prompt of a line and the command echoed behind it. -/
def promptLine (alnum : Char → Bool) (line : Text) : Option (Text × Text) :=
  (if line.isEmpty then none else matchPrompt alnum line).map fun m =>
    (m.1, dropPrompt m.1 m.2.length (strip m.2))

namespace Dialogue

def close (d : Dialogue) : Dialogue × List Exchange :=
  match d.command with
  | none => (d, [])
  | some (prompt, command) =>
    ({}, [⟨prompt, command, stripNewlines (['\n'].intercalate d.response)⟩])

def read (alnum : Char → Bool) (d : Dialogue) (line : Text) : Dialogue × List Exchange :=
  match promptLine alnum line with
  | none =>
    if d.command.isSome && decide (d.responseChars < maxResponseChars) then
      ({ d with
        response := d.response ++ [line], responseChars := d.responseChars + line.length + 1 }, [])
    else (d, [])
  | some (prompt, command) =>
    (if command.isEmpty then d.close.1 else { d.close.1 with command := some (prompt, command) },
      d.close.2)

def readLines (alnum : Char → Bool) (d : Dialogue) : List Bytes → Dialogue × List Exchange
  | [] => (d, [])
  | line :: rest =>
    let here := d.read alnum (clean line)
    let later := readLines alnum here.1 rest
    (later.1, here.2 ++ later.2)

end Dialogue

def completeLines (stream : Bytes) : List Bytes := (breakLines [] stream).1

def unfinished (stream : Bytes) : Bytes := (breakLines [] stream).2

/-- Where the conversation stands after the complete lines of a stream. -/
def dialogue (alnum : Char → Bool) (stream : Bytes) : Dialogue :=
  (Dialogue.readLines alnum {} (completeLines stream)).1

/-- The commands that the complete lines of a stream have closed. -/
def exchanges (alnum : Char → Bool) (stream : Bytes) : List Exchange :=
  (Dialogue.readLines alnum {} (completeLines stream)).2

/-- The end of the stream: what is left is a line, and the last command is closed. -/
def finish (alnum : Char → Bool) (d : Dialogue) (rest : Bytes) : List Exchange :=
  let last := if rest.isEmpty then (d, []) else d.read alnum (clean rest)
  last.2 ++ last.1.close.2

def replay (alnum : Char → Bool) (stream : Bytes) : List Exchange :=
  exchanges alnum stream ++ finish alnum (dialogue alnum stream) (trim (unfinished stream))

/-! ### Cuts -/

/-- The line that `tail` is the head of, when `rest` comes after it. -/
def nextLine (tail rest : Bytes) : Bytes :=
  ((breakLines tail rest).1.head?).getD (trim (breakLines tail rest).2)

def Answering (alnum : Char → Bool) (stream : Bytes) : Prop :=
  (dialogue alnum stream).command.isSome = true

/-- The cut separates the two bytes of a line break. -/
def SplitsBreak (before after : Bytes) : Prop :=
  before.getLast? = some cr ∧ after.head? = some lf

structure CleanCut (alnum : Char → Bool) (before after : Bytes) : Prop where
  keepsBreak : Answering alnum before → ¬ SplitsBreak before after
  staysPrompt : Answering alnum before → isPromptTail alnum (unfinished before) = true →
    (promptLine alnum (clean (nextLine (unfinished before) after))).isSome = true
  fits : after ≠ [] → (unfinished before).length ≤ maxBufferBytes

/-- A chunking all of whose cuts are clean. -/
def CleanCuts (alnum : Char → Bool) (chunks : List Bytes) : Prop :=
  ∀ i < chunks.length, CleanCut alnum (chunks.take i).flatten (chunks.drop i).flatten

instance (stream : Bytes) : Decidable (Answering alnum stream) :=
  inferInstanceAs (Decidable (_ = true))

instance (before after : Bytes) : Decidable (SplitsBreak before after) :=
  inferInstanceAs (Decidable (_ ∧ _))

instance (before after : Bytes) : Decidable (CleanCut alnum before after) :=
  decidable_of_iff
    ((Answering alnum before → ¬ SplitsBreak before after)
      ∧ (Answering alnum before → isPromptTail alnum (unfinished before) = true →
          (promptLine alnum (clean (nextLine (unfinished before) after))).isSome = true)
      ∧ (after ≠ [] → (unfinished before).length ≤ maxBufferBytes))
    ⟨fun h => ⟨h.1, h.2.1, h.2.2⟩, fun h => ⟨h.keepsBreak, h.staysPrompt, h.fits⟩⟩

instance (chunks : List Bytes) : Decidable (CleanCuts alnum chunks) :=
  inferInstanceAs (Decidable (∀ i < chunks.length, _))

/-! ### Lines and chunks -/

section Lines

variable {line p q data : Bytes} {b : UInt8}

theorem splitsBreak_pair (h : SplitsBreak [b] data) : b = cr ∧ ∃ rest, data = lf :: rest := by
  obtain ⟨hlast, hhead⟩ := h
  exact ⟨Option.some.inj hlast, List.head?_eq_some_iff.mp hhead⟩

theorem breakLines_other (hb : isBreak b = false) :
    breakLines line (b :: data) = breakLines (line ++ [b]) data := by
  have hcr : (b == cr) = false := by
    rw [isBreak, Bool.or_eq_false_iff] at hb
    exact hb.1
  cases data with
  | nil => simp [breakLines, hb]
  | cons b' data => simp [breakLines, hb, hcr]

theorem breakLines_break (hb : isBreak b = true) (hnot : ¬ SplitsBreak [b] data) :
    breakLines line (b :: data) = (line :: (breakLines [] data).1, (breakLines [] data).2) := by
  cases data with
  | nil => simp [breakLines, hb]
  | cons b' data =>
      have hpair : ¬ (b == cr && b' == lf) = true := by
        intro h
        apply hnot
        simpa [SplitsBreak] using h
      rw [breakLines, if_neg hpair, if_pos hb]

theorem breakLines_crlf :
    breakLines line (cr :: lf :: data) = (line :: (breakLines [] data).1,
      (breakLines [] data).2) := by
  simp [breakLines]

/-- The lines of a stream go on where they were cut, unless a line break was. -/
theorem breakLines_append (h : ¬ SplitsBreak p q) :
    breakLines line (p ++ q)
      = ((breakLines line p).1 ++ (breakLines (breakLines line p).2 q).1,
          (breakLines (breakLines line p).2 q).2) := by
  induction hn : p.length using Nat.strongRecOn generalizing p line with
  | _ n ih =>
      cases p with
      | nil => rfl
      | cons b p =>
          have hshorter : p.length < n := by
            rw [← hn, List.length_cons]
            omega
          have hsplits : SplitsBreak p q → SplitsBreak (b :: p) q := by
            rintro ⟨hlast, hhead⟩
            refine ⟨?_, hhead⟩
            rw [List.getLast?_cons, hlast]
            rfl
          by_cases hb : isBreak b = true
          · by_cases hpair : SplitsBreak [b] p
            · -- a line break of two bytes inside `p`
              obtain ⟨rfl, p, rfl⟩ := splitsBreak_pair hpair
              have hrest : ¬ SplitsBreak p q := by
                rintro ⟨hlast, hhead⟩
                apply h
                refine ⟨?_, hhead⟩
                rw [List.getLast?_cons, List.getLast?_cons, hlast]
                rfl
              have hshorter' : p.length < n := Nat.lt_of_succ_lt hshorter
              rw [List.cons_append, List.cons_append, breakLines_crlf, breakLines_crlf,
                ih p.length hshorter' hrest rfl]
              rfl
            · have hpair' : ¬ SplitsBreak [b] (p ++ q) := by
                cases p with
                | nil => exact h
                | cons b' p => exact hpair
              rw [List.cons_append, breakLines_break hb hpair', breakLines_break hb hpair,
                ih p.length hshorter (mt hsplits h) rfl]
              rfl
          · rw [Bool.not_eq_true] at hb
            rw [List.cons_append, breakLines_other hb, breakLines_other hb,
              ih p.length hshorter (mt hsplits h) rfl]

/-- A cut inside a line break makes one empty line more of what follows. -/
theorem breakLines_splits (h : SplitsBreak p q) :
    (breakLines line p).2 = [] ∧ ∃ q', q = lf :: q' ∧
      breakLines line (p ++ q)
        = ((breakLines line p).1 ++ (breakLines [] q').1, (breakLines [] q').2) := by
  obtain ⟨hlast, hhead⟩ := h
  obtain ⟨front, rfl⟩ := List.getLast?_eq_some_iff.mp hlast
  obtain ⟨q', rfl⟩ := List.head?_eq_some_iff.mp hhead
  have hfront : ∀ rest, ¬ SplitsBreak front (cr :: rest) := by
    rintro rest ⟨-, hcr⟩
    cases hcr
  have hcr : breakLines (breakLines line front).2 [cr] = ([(breakLines line front).2], []) := rfl
  have hp : breakLines line (front ++ [cr])
      = ((breakLines line front).1 ++ [(breakLines line front).2], []) := by
    rw [breakLines_append (hfront []), hcr]
  refine ⟨by rw [hp], q', rfl, ?_⟩
  rw [List.append_assoc, List.singleton_append, breakLines_append (hfront _), breakLines_crlf, hp,
    List.append_assoc]
  rfl

theorem breakLines_prefix (line p q : Bytes) :
    (breakLines line p).1 <+: (breakLines line (p ++ q)).1 := by
  by_cases h : SplitsBreak p q
  · obtain ⟨-, q', -, hlines⟩ := @breakLines_splits line _ _ h
    rw [hlines]
    exact List.prefix_append _ _
  · rw [breakLines_append h]
    exact List.prefix_append _ _

/-- Data in which no line ends makes the line longer. -/
theorem breakLines_of_no_line (h : (breakLines line data).1 = []) :
    (breakLines line data).2 = line ++ data ∧ ∀ b ∈ data, isBreak b = false := by
  induction data generalizing line with
  | nil => exact ⟨(List.append_nil line).symm, by simp⟩
  | cons b data ih =>
      by_cases hb : isBreak b = true
      · by_cases hpair : SplitsBreak [b] data
        · obtain ⟨rfl, rest, rfl⟩ := splitsBreak_pair hpair
          rw [breakLines_crlf] at h
          cases h
        · rw [breakLines_break hb hpair] at h
          cases h
      · rw [Bool.not_eq_true] at hb
        rw [breakLines_other hb] at h ⊢
        obtain ⟨htail, hdata⟩ := ih h
        refine ⟨by rw [htail, List.append_assoc, List.singleton_append], ?_⟩
        exact List.forall_mem_cons.mpr ⟨hb, hdata⟩

end Lines

/-! ### The parser reads lines as the replay does -/

section Parser

variable {r : Reconstructor} {ts : Int} {d : Dialogue} {lines later : List Bytes}

/-- A reconstructed command without its times and its number. -/
def ReconstructedCommand.exchange (c : ReconstructedCommand) : Exchange :=
  ⟨c.prompt, c.command, c.response⟩

def Reconstructor.dialogue (r : Reconstructor) : Dialogue :=
  ⟨r.current.map fun c => (c.prompt, c.command), r.response, r.responseChars⟩

theorem dialogue_close (r : Reconstructor) (ts : Option Int) :
    (r.close ts).1.dialogue = r.dialogue.close.1
      ∧ (r.close ts).2.map (·.exchange) = r.dialogue.close.2 := by
  obtain ⟨buf, seq, current, response, responseChars, lastTs⟩ := r
  cases current <;> exact ⟨rfl, rfl⟩

theorem dialogue_consume (r : Reconstructor) (line : Text) (ts : Int) :
    (r.consume alnum line (some ts)).1.dialogue = (r.dialogue.read alnum line).1
      ∧ (r.consume alnum line (some ts)).2.map (·.exchange) = (r.dialogue.read alnum line).2 := by
  obtain ⟨hclose, hfinished⟩ := dialogue_close r (some ts)
  unfold Reconstructor.consume Dialogue.read promptLine
  cases hmatch : (if line.isEmpty then none else matchPrompt alnum line) with
  | none =>
      have hopen : r.dialogue.command.isSome = r.current.isSome := Option.isSome_map
      have hchars : r.dialogue.responseChars = r.responseChars := rfl
      simp only [Option.map_none, hopen, hchars]
      by_cases hroom : (r.current.isSome && decide (r.responseChars < maxResponseChars)) = true
      · rw [if_pos hroom, if_pos hroom]
        exact ⟨rfl, rfl⟩
      · rw [if_neg hroom, if_neg hroom]
        exact ⟨rfl, rfl⟩
  | some m =>
      obtain ⟨prompt, text⟩ := m
      simp only [Option.map_some]
      by_cases hempty : (dropPrompt prompt text.length (strip text)).isEmpty = true
      · rw [if_pos hempty, if_pos hempty]
        exact ⟨hclose, hfinished⟩
      · rw [if_neg hempty, if_neg hempty, ← hclose]
        exact ⟨rfl, hfinished⟩

theorem Reconstructor.consumeLines_cons (r : Reconstructor) (ts : Option Int) (line : Bytes)
    (rest : List Bytes) :
    r.consumeLines alnum ts (line :: rest)
      = (((r.consume alnum (clean line) ts).1.consumeLines alnum ts rest).1,
          (r.consume alnum (clean line) ts).2
            ++ ((r.consume alnum (clean line) ts).1.consumeLines alnum ts rest).2) := by
  rw [consumeLines]

theorem dialogue_consumeLines (r : Reconstructor) (ts : Int) (lines : List Bytes) :
    (r.consumeLines alnum (some ts) lines).1.dialogue = (r.dialogue.readLines alnum lines).1
      ∧ (r.consumeLines alnum (some ts) lines).2.map (·.exchange)
          = (r.dialogue.readLines alnum lines).2 := by
  induction lines generalizing r with
  | nil => exact ⟨rfl, rfl⟩
  | cons line lines ih =>
      obtain ⟨hhere, hfinished⟩ := @dialogue_consume alnum r (clean line) ts
      obtain ⟨hlater, hfinished'⟩ := ih (r.consume alnum (clean line) (some ts)).1
      rw [Reconstructor.consumeLines_cons, Dialogue.readLines]
      rw [hhere] at hlater hfinished'
      refine ⟨hlater, ?_⟩
      rw [List.map_append, hfinished, hfinished']

theorem Dialogue.readLines_append (d : Dialogue) (lines later : List Bytes) :
    d.readLines alnum (lines ++ later)
      = (((d.readLines alnum lines).1.readLines alnum later).1,
          (d.readLines alnum lines).2 ++ ((d.readLines alnum lines).1.readLines alnum
            later).2) := by
  induction lines generalizing d with
  | nil => rfl
  | cons line lines ih =>
      rw [List.cons_append, Dialogue.readLines, ih]
      simp only [Dialogue.readLines, List.append_assoc]

theorem clean_nil : clean [] = [] := rfl

theorem promptLine_nil : promptLine alnum [] = none := rfl

/-- An empty line is heard only by a command that is being answered. -/
theorem Dialogue.read_empty (hd : d.command = none) : d.read alnum (clean []) = (d, []) := by
  rw [Dialogue.read, clean_nil, promptLine_nil]
  simp only [hd]
  rfl

/-- A prompt closes the command before it; if that was done already, nothing else changes. -/
theorem Dialogue.read_prompt {line : Text} (hline : (promptLine alnum line).isSome = true)
    (hd : d.command.isSome = true) :
    (d.read alnum line).1 = (({} : Dialogue).read alnum line).1
      ∧ (d.read alnum line).2 = d.close.2 ∧ (({} : Dialogue).read alnum line).2 = [] := by
  obtain ⟨m, hm⟩ := Option.isSome_iff_exists.mp hline
  obtain ⟨m', hm'⟩ := Option.isSome_iff_exists.mp hd
  have hclose : d.close.1 = {} := by rw [Dialogue.close, hm']
  have hquiet : ({} : Dialogue).close = ({}, []) := rfl
  simp only [Dialogue.read, hm, hclose, hquiet, and_self]

end Parser

/-! ### The position of the parser in a stream -/

section Position

variable {before after data chunk rest : Bytes} {d : Dialogue} {emitted : List Exchange}

/-- Where the parser stands after `before`, when `after` is still to come: in step with the lines
that are complete, or one prompt ahead of them. -/
inductive Position (alnum : Char → Bool) (before after : Bytes) (d : Dialogue)
    (emitted : List Exchange) : Prop
  | inStep (hd : d = dialogue alnum before) (hemitted : emitted = exchanges alnum before)
  | ahead (hd : d = {}) (hanswering : Answering alnum before) (htail : unfinished before ≠ [])
      (hemitted : emitted = exchanges alnum before ++ (dialogue alnum before).close.2)
      (hnext : (promptLine alnum (clean (nextLine (unfinished before) after))).isSome = true)

theorem trim_of_le (h : data.length ≤ maxBufferBytes) : trim data = data := by
  rw [trim, if_neg (Nat.not_lt.mpr h)]

theorem length_trim_of_lt (h : maxBufferBytes < data.length) :
    (trim data).length = maxBufferBytes / 2 := by
  rw [trim, if_pos h, List.length_drop]
  have hhalf : maxBufferBytes / 2 ≤ maxBufferBytes := Nat.div_le_self _ _
  omega

theorem trim_trim (data : Bytes) : trim (trim data) = trim data := by
  apply trim_of_le
  rcases Nat.lt_or_ge maxBufferBytes data.length with hlong | hshort
  · rw [length_trim_of_lt hlong]
    exact Nat.div_le_self _ _
  · rw [trim_of_le hshort]
    exact hshort

/-- A bounded tail is too long for a prompt. -/
theorem fits_of_isPromptTail (h : isPromptTail alnum (trim data) = true) :
    data.length ≤ maxBufferBytes := by
  by_contra hlong
  rw [Nat.not_le] at hlong
  have hshort : (trim data).length ≤ maxPromptTailBytes := by
    unfold isPromptTail at h
    simp only [Bool.and_eq_true, decide_eq_true_eq] at h
    exact h.1.1
  rw [length_trim_of_lt hlong] at hshort
  exact absurd hshort (by decide)

theorem ne_nil_of_isPromptTail (h : isPromptTail alnum data = true) : data ≠ [] := by
  rintro rfl
  cases h

theorem completeLines_append (h : ¬ SplitsBreak before chunk) :
    completeLines (before ++ chunk)
      = completeLines before ++ (breakLines (unfinished before) chunk).1 := by
  rw [completeLines, breakLines_append h]
  rfl

theorem unfinished_append (h : ¬ SplitsBreak before chunk) :
    unfinished (before ++ chunk) = (breakLines (unfinished before) chunk).2 := by
  rw [unfinished, breakLines_append h]
  rfl

theorem readLines_completeLines (lines : List Bytes) :
    (({} : Dialogue).readLines alnum (completeLines before ++ lines))
      = (((dialogue alnum before).readLines alnum lines).1,
          exchanges alnum before ++ ((dialogue alnum before).readLines alnum lines).2) :=
  Dialogue.readLines_append _ _ _

theorem nextLine_append {tail : Bytes} (h : (breakLines tail chunk).1 = []) :
    nextLine tail (chunk ++ rest) = nextLine (breakLines tail chunk).2 rest := by
  have hnot : ¬ SplitsBreak chunk rest := by
    rintro ⟨hlast, -⟩
    have hcr := (breakLines_of_no_line h).2 cr (List.mem_of_getLast? hlast)
    cases hcr
  rw [nextLine, breakLines_append hnot, h]
  rfl

theorem nextLine_of_cons {tail line : Bytes} {lines : List Bytes}
    (h : (breakLines tail chunk).1 = line :: lines) : nextLine tail (chunk ++ rest) = line := by
  obtain ⟨later, hlater⟩ := breakLines_prefix tail chunk rest
  rw [nextLine, ← hlater, h]
  rfl

theorem Position.readLines (h : Position alnum before (chunk ++ rest) d emitted)
    (hcut : CleanCut alnum before (chunk ++ rest)) :
    Position alnum (before ++ chunk) rest
        (d.readLines alnum (breakLines (unfinished before) chunk).1).1
        (emitted ++ (d.readLines alnum (breakLines (unfinished before) chunk).1).2)
      ∧ unfinished (before ++ chunk) = (breakLines (unfinished before) chunk).2 := by
  by_cases hsplits : SplitsBreak before chunk
  · -- the line feed makes an empty line, which nobody hears
    obtain ⟨hnil, rest', rfl, hstream⟩ := @breakLines_splits [] _ _ hsplits
    have htail : unfinished before = [] := hnil
    have hlf : breakLines [] (lf :: rest')
        = ([] :: (breakLines [] rest').1, (breakLines [] rest').2) := by
      apply breakLines_break rfl
      rintro ⟨hlast, -⟩
      cases hlast
    have hlines : completeLines (before ++ lf :: rest')
        = completeLines before ++ (breakLines [] rest').1 := by
      rw [completeLines, hstream]
      rfl
    rw [htail, hlf]
    refine ⟨?_, by rw [unfinished, hstream]⟩
    cases h with
    | inStep hd hemitted =>
        have hquiet : d.command = none := by
          rw [hd, ← Option.not_isSome_iff_eq_none]
          exact fun hanswering => hcut.keepsBreak hanswering ⟨hsplits.1, rfl⟩
        have hread : d.readLines alnum ([] :: (breakLines [] rest').1)
            = d.readLines alnum (breakLines [] rest').1 := by
          rw [Dialogue.readLines, Dialogue.read_empty hquiet]
          rfl
        apply Position.inStep
        · rw [hread, dialogue, hlines, readLines_completeLines, hd]
        · rw [hread, exchanges, hlines, readLines_completeLines, hd, hemitted]
    | ahead _ _ hne _ _ => exact absurd htail hne
  · have hlines := completeLines_append hsplits
    refine ⟨?_, unfinished_append hsplits⟩
    cases h with
    | inStep hd hemitted =>
        apply Position.inStep
        · rw [dialogue, hlines, readLines_completeLines, hd]
        · rw [exchanges, hlines, readLines_completeLines, hd, hemitted]
    | ahead hd hanswering hne hemitted hnext =>
        cases hended : (breakLines (unfinished before) chunk).1 with
        | nil =>
            -- no line ends: the prompt is still to come
            have htail := (breakLines_of_no_line hended).1
            rw [hended, List.append_nil] at hlines
            rw [nextLine_append hended, ← unfinished_append hsplits] at hnext
            have hsame : dialogue alnum (before ++ chunk) = dialogue alnum before := by
              rw [dialogue, hlines]
              rfl
            refine Position.ahead hd (by rwa [Answering, hsame]) ?_ ?_ hnext
            · rw [unfinished_append hsplits, htail]
              intro hnil
              exact hne (List.append_eq_nil_iff.mp hnil).1
            · rw [hsame, exchanges, hlines, hemitted]
              exact List.append_nil _
        | cons line lines =>
            -- the prompt closes what has been closed already
            rw [nextLine_of_cons hended] at hnext
            obtain ⟨hafter, hclosed, hquiet⟩ := Dialogue.read_prompt hnext hanswering
            rw [hended] at hlines
            apply Position.inStep
            · rw [dialogue, hlines, readLines_completeLines, hd]
              simp only [Dialogue.readLines, hafter]
            · rw [exchanges, hlines, readLines_completeLines, hd, hemitted]
              simp only [Dialogue.readLines, hafter, hclosed, hquiet, List.append_assoc,
                List.nil_append]

/-- A tail that reads as a prompt closes the command that its line is going to close. -/
theorem Position.close (h : Position alnum before after d emitted)
    (hcut : CleanCut alnum before after)
    (htail : isPromptTail alnum (trim (unfinished before)) = true) :
    Position alnum before after d.close.1 (emitted ++ d.close.2) := by
  rw [trim_of_le (fits_of_isPromptTail htail)] at htail
  cases h with
  | inStep hd hemitted =>
      cases hcommand : d.command with
      | none =>
          have hclose : d.close = (d, []) := by rw [Dialogue.close, hcommand]
          rw [hclose, List.append_nil]
          exact Position.inStep hd hemitted
      | some m =>
          have hanswering : Answering alnum before := by
            rw [Answering, ← hd, hcommand]
            rfl
          apply Position.ahead _ hanswering (ne_nil_of_isPromptTail htail) _
            (hcut.staysPrompt hanswering htail)
          · rw [Dialogue.close, hcommand]
          · rw [hemitted, hd]
  | ahead hd hanswering hne hemitted hnext =>
      have hclose : d.close = (d, []) := by rw [hd]; rfl
      rw [hclose, List.append_nil]
      exact Position.ahead hd hanswering hne hemitted hnext

/-- At the end of the stream both positions say the same. -/
theorem Position.finish (h : Position alnum before [] d emitted) :
    emitted ++ finish alnum d (trim (unfinished before)) = replay alnum before := by
  cases h with
  | inStep hd hemitted => rw [hd, hemitted, replay]
  | ahead hd hanswering hne hemitted hnext =>
      have hline : nextLine (unfinished before) [] = trim (unfinished before) := rfl
      rw [hline] at hnext
      obtain ⟨hafter, hclosed, hquiet⟩ := Dialogue.read_prompt hnext hanswering
      have hrest : (trim (unfinished before)).isEmpty = false := by
        rw [List.isEmpty_eq_false_iff]
        intro hnil
        rw [hnil] at hnext
        cases hnext
      rw [replay, Console.finish, Console.finish, hrest, hemitted, hd]
      simp only [Bool.false_eq_true, if_false, hafter, hclosed, hquiet, List.nil_append,
        List.append_assoc]

end Position

/-! ### A run of the parser -/

section Run

variable {before after chunk rest : Bytes} {r : Reconstructor} {emitted : List Exchange}

@[simp] theorem close_buf (r : Reconstructor) (ts : Option Int) : (r.close ts).1.buf = r.buf := by
  unfold Reconstructor.close
  split <;> rfl

@[simp] theorem close_lastTs (r : Reconstructor) (ts : Option Int) :
    (r.close ts).1.lastTs = r.lastTs := by
  unfold Reconstructor.close
  split <;> rfl

@[simp] theorem consume_lastTs (r : Reconstructor) (line : Text) (ts : Int) :
    (r.consume alnum line (some ts)).1.lastTs = r.lastTs := by
  unfold Reconstructor.consume
  split
  · split <;> rfl
  · simp only
    split <;> exact close_lastTs r (some ts)

@[simp] theorem consumeLines_lastTs (r : Reconstructor) (ts : Int) (lines : List Bytes) :
    (r.consumeLines alnum (some ts) lines).1.lastTs = r.lastTs := by
  induction lines generalizing r with
  | nil => rfl
  | cons line lines ih =>
      rw [Reconstructor.consumeLines]
      simp only
      rw [ih, consume_lastTs]

/-- The state of a parser that has been fed `before`, when `after` is still to come. -/
structure Follows (alnum : Char → Bool) (before after : Bytes) (r : Reconstructor)
    (emitted : List Exchange) : Prop where
  buf : r.buf = trim (unfinished before)
  clock : r.buf ≠ [] → r.lastTs.isSome = true
  position : Position alnum before after r.dialogue emitted

theorem Follows.readLines (h : Follows alnum before (chunk ++ rest) r emitted)
    (hcut : CleanCut alnum before (chunk ++ rest)) :
    Position alnum (before ++ chunk) rest
        (r.dialogue.readLines alnum (breakLines r.buf chunk).1).1
        (emitted ++ (r.dialogue.readLines alnum (breakLines r.buf chunk).1).2)
      ∧ trim (unfinished (before ++ chunk)) = trim (breakLines r.buf chunk).2 := by
  by_cases hmore : chunk ++ rest = []
  · obtain ⟨rfl, rfl⟩ := List.append_eq_nil_iff.mp hmore
    have hposition := h.position
    rw [List.append_nil] at hposition ⊢
    refine ⟨?_, ?_⟩
    · change Position alnum before [] r.dialogue (emitted ++ [])
      rwa [List.append_nil]
    · change trim (unfinished before) = trim r.buf
      rw [h.buf, trim_trim]
  · have hbuf : r.buf = unfinished before := by rw [h.buf, trim_of_le (hcut.fits hmore)]
    obtain ⟨hposition, htail⟩ := h.position.readLines hcut
    rw [hbuf, htail]
    exact ⟨hposition, rfl⟩

theorem Follows.feed (h : Follows alnum before (chunk ++ rest) r emitted)
    (hcut : CleanCut alnum before (chunk ++ rest)) (hnext : CleanCut alnum (before ++ chunk) rest)
    (ts : Int) :
    Follows alnum (before ++ chunk) rest (r.feed alnum chunk ts).1
      (emitted ++ (r.feed alnum chunk ts).2.map (·.exchange)) := by
  obtain ⟨hposition, htail⟩ := h.readLines hcut
  obtain ⟨hdialogue, hfinished⟩ := @dialogue_consumeLines alnum { r with lastTs := some ts } ts
    (breakLines r.buf chunk).1
  have hsame : ({ r with lastTs := some ts } : Reconstructor).dialogue = r.dialogue := rfl
  rw [hsame] at hdialogue hfinished
  rw [← hdialogue, ← hfinished] at hposition
  unfold Reconstructor.feed
  simp only
  generalize hread : Reconstructor.consumeLines alnum { r with lastTs := some ts } (some ts)
    (breakLines r.buf chunk).1 = read at hposition ⊢
  have hclock : read.1.lastTs = some ts := by rw [← hread, consumeLines_lastTs]
  rw [← htail]
  split
  · rename_i hprompt
    obtain ⟨hclose, hclosed⟩ :=
      dialogue_close { read.1 with buf := trim (unfinished (before ++ chunk)) } (some ts)
    refine ⟨?_, ?_, ?_⟩
    · rw [close_buf]
    · intro _
      rw [close_lastTs]
      exact Option.isSome_iff_exists.mpr ⟨ts, hclock⟩
    · rw [List.map_append, ← List.append_assoc, hclose, hclosed]
      exact hposition.close hnext hprompt
  · exact ⟨rfl, fun _ => Option.isSome_iff_exists.mpr ⟨ts, hclock⟩, hposition⟩

/-- The flush reads what is left as a line and closes the last command. -/
theorem Follows.flush (h : Follows alnum before [] r emitted) :
    emitted ++ (r.flush alnum).2.map (·.exchange) = replay alnum before := by
  rw [← h.position.finish, ← h.buf]
  congr 1
  unfold Reconstructor.flush finish
  cases hempty : r.buf.isEmpty with
  | true =>
      simp only [if_true]
      rw [List.map_append, (dialogue_close r r.lastTs).2]
      rfl
  | false =>
      obtain ⟨ts, hts⟩ :=
        Option.isSome_iff_exists.mp (h.clock (List.isEmpty_eq_false_iff.mp hempty))
      obtain ⟨hread, hfinished⟩ := @dialogue_consume alnum r (clean r.buf) ts
      simp only [Bool.false_eq_true, if_false, hts]
      generalize r.consume alnum (clean r.buf) (some ts) = here at hread hfinished ⊢
      rw [List.map_append, hfinished, ← hread]
      congr 1
      exact (dialogue_close { here.1 with buf := [] } _).2

def CleanFrom (alnum : Char → Bool) (before : Bytes) (chunks : List Bytes) : Prop :=
  ∀ i ≤ chunks.length,
    CleanCut alnum (before ++ (chunks.take i).flatten) (chunks.drop i).flatten

theorem cleanCut_end (stream : Bytes) : CleanCut alnum stream [] where
  keepsBreak := by
    rintro - ⟨-, hhead⟩
    cases hhead
  staysPrompt := by
    intro _ hprompt
    have hshort : (unfinished stream).length ≤ maxPromptTailBytes := by
      unfold isPromptTail at hprompt
      simp only [Bool.and_eq_true, decide_eq_true_eq] at hprompt
      exact hprompt.1.1
    have htrim : trim (unfinished stream) = unfinished stream :=
      trim_of_le (Nat.le_trans hshort (by decide))
    have hline : nextLine (unfinished stream) [] = trim (unfinished stream) := rfl
    rw [hline, htrim]
    unfold isPromptTail at hprompt
    simp only [Bool.and_eq_true, Bool.not_eq_true'] at hprompt
    rw [promptLine, hprompt.1.2]
    simpa using hprompt.2
  fits := fun h => absurd rfl h

theorem Follows.feedAll {chunks : List (Bytes × Int)}
    (h : Follows alnum before (chunks.map (·.1)).flatten r emitted)
    (hclean : CleanFrom alnum before (chunks.map (·.1))) :
    Follows alnum (before ++ (chunks.map (·.1)).flatten) [] (r.feedAll alnum chunks).1
      (emitted ++ (r.feedAll alnum chunks).2.map (·.exchange)) := by
  induction chunks generalizing before r emitted with
  | nil =>
      simp only [List.map_nil, List.flatten_nil, List.append_nil, Reconstructor.feedAll]
      exact h
  | cons chunk chunks ih =>
      obtain ⟨data, ts⟩ := chunk
      have hhere := hclean 0 (Nat.zero_le _)
      have hnext := hclean 1 (by simp)
      simp only [List.map_cons, List.take_zero, List.drop_zero, List.flatten_nil, List.append_nil,
        List.take_succ_cons, List.flatten_cons, List.drop_succ_cons] at h hhere hnext
      have hlater : CleanFrom alnum (before ++ data) (chunks.map (·.1)) := by
        intro i hi
        have hcut := hclean (i + 1) (by simpa using hi)
        simpa only [List.map_cons, List.take_succ_cons, List.flatten_cons, List.drop_succ_cons,
          List.append_assoc] using hcut
      have hrest := ih (h.feed hhere hnext ts) hlater
      simp only [List.map_cons, List.flatten_cons, Reconstructor.feedAll, List.map_append]
      simpa only [List.append_assoc] using hrest

theorem CleanCuts.cleanFrom {chunks : List Bytes} (h : CleanCuts alnum chunks) :
    CleanFrom alnum [] chunks := by
  intro i hi
  rw [List.nil_append]
  rcases Nat.lt_or_eq_of_le hi with hlt | rfl
  · exact h i hlt
  · rw [List.drop_length, List.flatten_nil]
    exact cleanCut_end _

def transcript (alnum : Char → Bool) (chunks : List (Bytes × Int)) : List Exchange :=
  (Reconstructor.run alnum chunks).map (·.exchange)

/-- **A run over clean cuts says what its stream says.** -/
theorem transcript_eq_replay {chunks : List (Bytes × Int)}
    (h : CleanCuts alnum (chunks.map (·.1))) :
    transcript alnum chunks = replay alnum (chunks.map (·.1)).flatten := by
  have hstart : Follows alnum [] (chunks.map (·.1)).flatten {} [] :=
    ⟨rfl, fun hne => absurd rfl hne, Position.inStep rfl rfl⟩
  have hend := (hstart.feedAll h.cleanFrom).flush
  rw [List.nil_append, List.nil_append] at hend
  rw [← hend, transcript, Reconstructor.run]
  simp only [List.map_append]

end Run

/-! ### Chunks and stored frames -/

section Frames

variable {payloads : List Bytes}

/-- Every frame but the last one ends where a line does. -/
def LineAligned (payloads : List Bytes) : Prop :=
  ∀ payload ∈ payloads.dropLast, (payload.getLast?.any isBreak) = true

/-- While a command is answered, no line break is cut in two. -/
def KeepsBreaks (alnum : Char → Bool) (payloads : List Bytes) : Prop :=
  ∀ i < payloads.length, Answering alnum (payloads.take i).flatten →
    ¬ SplitsBreak (payloads.take i).flatten (payloads.drop i).flatten

/-- The bytes of the `out` frames. -/
def outPayloads (frames : List (Direction × Bytes × Int)) : List Bytes :=
  (frames.filter fun frame => frame.1 = .out).map fun frame => frame.2.1

instance (payloads : List Bytes) : Decidable (LineAligned payloads) :=
  inferInstanceAs (Decidable (∀ payload ∈ payloads.dropLast, _ = true))

instance (payloads : List Bytes) : Decidable (KeepsBreaks alnum payloads) :=
  inferInstanceAs (Decidable (∀ i < payloads.length, _ → ¬ _))

theorem unfinished_of_isBreak {stream : Bytes} {b : UInt8} (h : stream.getLast? = some b)
    (hb : isBreak b = true) : unfinished stream = [] := by
  obtain ⟨front, rfl⟩ := List.getLast?_eq_some_iff.mp h
  have hlast : breakLines (breakLines [] front).2 [b] = ([(breakLines [] front).2], []) := by
    rw [breakLines, if_pos hb]
  by_cases hsplits : SplitsBreak front [b]
  · obtain ⟨-, rest, hrest, hlines⟩ := @breakLines_splits [] _ _ hsplits
    cases hrest
    rw [unfinished, hlines]
    rfl
  · rw [unfinished, breakLines_append hsplits, hlast]

/-- Frames that end with their lines leave no trace, once their line breaks are whole. -/
theorem LineAligned.cleanCuts (h : LineAligned payloads) (hkeeps : KeepsBreaks alnum payloads) :
    CleanCuts alnum payloads := by
  intro i hi
  have htail : unfinished (payloads.take i).flatten = [] := by
    rcases List.eq_nil_or_concat (payloads.take i) with hnil | ⟨front, payload, hconcat⟩
    · rw [hnil]
      rfl
    · have hmem : payload ∈ payloads.dropLast := by
        rw [List.dropLast_eq_take]
        have htake : payload ∈ payloads.take i := by
          rw [hconcat, List.concat_eq_append]
          exact List.mem_append_right front List.mem_cons_self
        exact (List.take_prefix_take_left (by omega)).subset htake
      obtain ⟨b, hlast, hb⟩ := (Option.any_eq_true _ _).mp (h payload hmem)
      refine unfinished_of_isBreak ?_ hb
      rw [hconcat, List.concat_eq_append, List.flatten_append, List.flatten_singleton,
        List.getLast?_append, hlast]
      rfl
  exact {
    keepsBreak := hkeeps i hi
    staysPrompt := by
      intro _ hprompt
      rw [htail] at hprompt
      cases hprompt
    fits := fun _ => by rw [htail]; exact Nat.zero_le _ }

/-- **Replay equals live.** Two chunkings of one stream give the same commands when their cuts are
clean, and the stored frames of a stream, cut where lines end, give the commands of the live
chunks. -/
theorem replay_equals_live :
    (∀ chunks chunks' : List (Bytes × Int),
      (chunks.map (·.1)).flatten = (chunks'.map (·.1)).flatten →
      CleanCuts alnum (chunks.map (·.1)) → CleanCuts alnum (chunks'.map (·.1)) →
        transcript alnum chunks = transcript alnum chunks')
    ∧ ∀ (frames : List (Direction × Bytes × Int)) (live : List (Bytes × Int)),
      (outPayloads frames).flatten = (live.map (·.1)).flatten →
      LineAligned (outPayloads frames) → KeepsBreaks alnum (outPayloads frames) →
      CleanCuts alnum (live.map (·.1)) →
        (reconstruct alnum frames).map (·.exchange) = transcript alnum live := by
  constructor
  · intro chunks chunks' hstream hclean hclean'
    rw [transcript_eq_replay hclean, transcript_eq_replay hclean', hstream]
  · intro frames live hstream haligned hkeeps hclean
    have hpayloads : ((frames.filter fun frame => frame.1 = .out).map (·.2)).map (·.1)
        = outPayloads frames := List.map_map
    have hstored : CleanCuts alnum
        (((frames.filter fun frame => frame.1 = .out).map (·.2)).map (·.1)) := by
      rw [hpayloads]
      exact haligned.cleanCuts hkeeps
    calc (reconstruct alnum frames).map (·.exchange)
        = transcript alnum ((frames.filter fun frame => frame.1 = .out).map (·.2)) := rfl
      _ = replay alnum (outPayloads frames).flatten := by
          rw [transcript_eq_replay hstored, hpayloads]
      _ = transcript alnum live := by rw [hstream, transcript_eq_replay hclean]

/-- A line cut in the middle, and a prompt that is cut from the command typed after it. -/
theorem replay_equals_live_cutLines :
    transcript asciiOnly [(bytes "R1#sh", 0), (bytes "ow\r\nfo", 1), (bytes "o\r\nR1#", 2),
      (bytes "ping", 3)]
        = transcript asciiOnly [(bytes "R1#show\r\nfoo\r\nR1#ping", 9)]
      ∧ (reconstruct asciiOnly
          [(.out, bytes "R1#show\r\n", 0), (.«in», bytes "ping", 1), (.out, bytes "foo\r\n", 2),
            (.out, bytes "R1#ping", 3)]).map (·.exchange)
        = transcript asciiOnly [(bytes "R1#show\r\nfoo\r\nR1#ping", 9)]
      ∧ transcript asciiOnly [(bytes "R1#show\r\nfoo\r\nR1#ping", 9)]
        = [⟨"R1#".toList, "show".toList, "foo".toList⟩, ⟨"R1#".toList, "ping".toList, []⟩] :=
  ⟨replay_equals_live.1 _ _ (by decide +kernel) (by decide +kernel) (by decide +kernel),
    replay_equals_live.2 _ _ (by decide +kernel) (by decide +kernel) (by decide +kernel)
      (by decide +kernel),
    by decide +kernel⟩

/-- A line of the answer is cut behind `foo#`, which reads as a prompt: the command is closed, and
what the line turns out to be is lost. In one chunk it is the answer. -/
theorem early_close_loses_the_answer :
    ¬ ∀ chunks chunks' : List (Bytes × Int),
      (chunks.map (·.1)).flatten = (chunks'.map (·.1)).flatten →
        transcript asciiOnly chunks = transcript asciiOnly chunks' := by
  intro h
  have heq := h [(bytes "R1#show\r\nfoo#", 0), (8 :: bytes "bar\r\nR1#", 1)]
    [(bytes "R1#show\r\nfoo#" ++ 8 :: bytes "bar\r\nR1#", 1)] (by decide +kernel)
  have hchunked : transcript asciiOnly [(bytes "R1#show\r\nfoo#", 0), (8 :: bytes "bar\r\nR1#", 1)]
      = [⟨"R1#".toList, "show".toList, []⟩] := by decide +kernel
  have hwhole : transcript asciiOnly [(bytes "R1#show\r\nfoo#" ++ 8 :: bytes "bar\r\nR1#", 1)]
      = [⟨"R1#".toList, "show".toList, "foobar".toList⟩] := by decide +kernel
  rw [hchunked, hwhole] at heq
  exact absurd heq (by decide +kernel)

end Frames

end OnlinetLabs.Console
