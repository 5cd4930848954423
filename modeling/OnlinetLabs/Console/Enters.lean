import OnlinetLabs.Console.Framing
import OnlinetLabs.Console.Replay
import OnlinetLabs.Lib.Deque

/-!
# Whose command it was

A tap counts the Enters in what the learner types and takes one of them for each command that the
node echoes. It counts `CR LF` once, in one message. Typed in two, it is two Enters, and the second
is there for a command that the platform runs. So what is attributed depends on how many pairs were
cut, and on nothing else of how the bytes came.
-/

namespace OnlinetLabs.Console

/-- The presses of Enter that `from_client` counts in a message. -/
def presses (data : Bytes) : Nat :=
  let collapsed := ConsoleTap.collapse data
  collapsed.count cr + collapsed.count lf

def cutsAfter (typed : Bytes) : List Bytes → Nat
  | [] => 0
  | piece :: pieces =>
      (if SplitsBreak typed piece then 1 else 0) + cutsAfter (typed ++ piece) pieces

/-- How many pairs of `CR LF` come in two pieces. -/
def cuts (pieces : List Bytes) : Nat := cutsAfter [] pieces

namespace ConsoleTap

variable (alnum : Char → Bool)

/-- The commands given to `_emit` that are taken to be the learner's. -/
def attributedOf (tap : ConsoleTap) : List ReconstructedCommand → List ReconstructedCommand
  | [] => []
  | command :: commands =>
    let later := (tap.emitCommand command).attributedOf commands
    if (tap.isLearnerCommand command).2 then command :: later else later

def attributedOn (tap : ConsoleTap) : Message → List ReconstructedCommand
  | .fromClient _ _ => []
  | .fromNode data now =>
    let tap := tap.ingest .out data now
    let (reconstructor, commands) := tap.reconstructor.feed alnum data now
    { tap with reconstructor }.attributedOf commands

def attributedAtClose (tap : ConsoleTap) (now : Int) : List ReconstructedCommand :=
  let tap := flushBuffer .«in» now (tap.buffer .«in»).data.length tap
  let tap := flushBuffer .out now (tap.buffer .out).data.length tap
  let (reconstructor, commands) := tap.reconstructor.flush alnum
  { tap with reconstructor }.attributedOf commands

/-- Over a run, to its end if the socket is closed. -/
def attributed (tap : ConsoleTap) : List Message → Option Int → List ReconstructedCommand
  | [], none => []
  | [], some now => tap.attributedAtClose alnum now
  | message :: messages, closedAt =>
    tap.attributedOn alnum message ++ (tap.receive alnum message).attributed messages closedAt

/-- All at one instant. -/
def type (tap : ConsoleTap) (pieces : List Bytes) (now : Int) : ConsoleTap :=
  pieces.foldl (fun tap piece => tap.fromClient piece now) tap

def Message.fromClient? : Message → Option Bytes
  | .fromClient data _ => some data
  | .fromNode _ _ => none

def clientMessages (messages : List Message) : List Bytes := messages.filterMap Message.fromClient?

end ConsoleTap

open ConsoleTap (Message clientMessages)

/-- Typed in either way at one instant, after whatever came before and with whatever the node prints
after it, the same commands are attributed. -/
def SameAttribution (alnum : Char → Bool) (pieces pieces' : List Bytes) : Prop :=
  ∀ (sessionId : Nat) (nodeId : Text) (connectionId : Nat) (start now : Int)
    (earlier : List Message)
    (outputs : List (Bytes × Int)) (closedAt : Option Int),
      let tap := (ConsoleTap.init sessionId nodeId connectionId start).receiveAll alnum earlier
      let later := outputs.map fun output => Message.fromNode output.1 output.2
      (tap.type pieces now).attributed alnum later closedAt
        = (tap.type pieces' now).attributed alnum later closedAt

/-- In every run in which this is typed, each attributed command has a press of Enter. -/
def AttributionBounded (alnum : Char → Bool) (pieces : List Bytes) : Prop :=
  ∀ (sessionId : Nat) (nodeId : Text) (connectionId : Nat) (start : Int) (messages : List Message)
    (closedAt : Option Int), clientMessages messages = pieces →
      ((ConsoleTap.init sessionId nodeId connectionId start).attributed alnum messages
        closedAt).length
        ≤ presses pieces.flatten

/-! ### Pieces -/

section Pieces

open ConsoleTap (collapse)

variable {data : Bytes} {b : UInt8}

theorem collapse_cons (h : ¬ SplitsBreak [b] data) : collapse (b :: data) = b :: collapse data := by
  cases data with
  | nil => rfl
  | cons b' rest =>
    have hpair : ¬ (b == cr && b' == lf) = true := by
      intro hpair
      rw [Bool.and_eq_true, beq_iff_eq, beq_iff_eq] at hpair
      exact h ⟨congrArg some hpair.1, congrArg some hpair.2⟩
    rw [collapse, if_neg hpair]

theorem count_breaks_cons (b : UInt8) (data : Bytes) : (b :: data).count cr + (b :: data).count lf
    = (if isBreak b then 1 else 0) + (data.count cr + data.count lf) := by
  by_cases hcr : b = cr
  · subst hcr
    have hlf : cr ≠ lf := by decide
    have hbreak : isBreak cr = true := rfl
    rw [List.count_cons_self, List.count_cons_of_ne hlf, if_pos hbreak]
    omega
  · by_cases hlf : b = lf
    · subst hlf
      have hbreak : isBreak lf = true := rfl
      rw [List.count_cons_self, List.count_cons_of_ne hcr, if_pos hbreak]
      omega
    · have hbreak : isBreak b = false := by simp [isBreak, hcr, hlf]
      rw [List.count_cons_of_ne hcr, List.count_cons_of_ne hlf, hbreak, if_neg Bool.false_ne_true,
        Nat.zero_add]

theorem presses_cons (b : UInt8) (data : Bytes) :
    presses (b :: data) + (if SplitsBreak [b] data then 1 else 0)
    = (if isBreak b then 1 else 0) + presses data := by
  by_cases h : SplitsBreak [b] data
  · obtain ⟨rfl, rest, rfl⟩ := splitsBreak_pair h
    have hlf : collapse (lf :: rest) = lf :: collapse rest := by
      apply collapse_cons
      intro hsplit
      exact absurd (splitsBreak_pair hsplit).1 (by decide)
    rw [if_pos h, presses, presses, hlf, Nat.add_comm]
    rfl
  · rw [if_neg h, presses, presses, collapse_cons h]
    exact count_breaks_cons b (collapse data)

/-- A cut pair is counted in both pieces. -/
theorem presses_append (x y : Bytes) :
    presses (x ++ y) + (if SplitsBreak x y then 1 else 0) = presses x + presses y := by
  induction x with
  | nil =>
    have hnil : presses [] = 0 := rfl
    rw [List.nil_append, if_neg (by simp [SplitsBreak]), hnil, Nat.add_zero, Nat.zero_add]
  | cons b x ih =>
    have hwhole := presses_cons b (x ++ y)
    have hpart := presses_cons b x
    cases x with
    | nil =>
      have hnil : presses [] = 0 := rfl
      have hnone : ¬ SplitsBreak [b] [] := by simp [SplitsBreak]
      rw [if_neg hnone, hnil] at hpart
      rw [List.nil_append] at hwhole
      rw [List.cons_append, List.nil_append, hwhole]
      omega
    | cons b' x =>
      have hlast : SplitsBreak (b :: b' :: x) y ↔ SplitsBreak (b' :: x) y := by
        rw [SplitsBreak, SplitsBreak, List.getLast?_cons_cons]
      have hhead : SplitsBreak [b] (b' :: x ++ y) ↔ SplitsBreak [b] (b' :: x) := by
        rw [SplitsBreak, SplitsBreak, List.cons_append, List.head?_cons, List.head?_cons]
      simp only [hhead] at hwhole
      simp only [hlast]
      rw [List.cons_append]
      omega

theorem sum_presses (pieces : List Bytes) :
    (pieces.map presses).sum = presses pieces.flatten + cuts pieces := by
  have hafter : ∀ typed, presses typed + (pieces.map presses).sum
      = presses (typed ++ pieces.flatten) + cutsAfter typed pieces := by
    induction pieces with
    | nil =>
      intro typed
      simp [cutsAfter]
    | cons piece pieces ih =>
      intro typed
      have happend := presses_append typed piece
      have hrest := ih (typed ++ piece)
      rw [List.map_cons, List.sum_cons, List.flatten_cons, ← List.append_assoc, cutsAfter]
      omega
  have hall := hafter []
  rw [List.nil_append] at hall
  rw [cuts, ← hall]
  exact (Nat.zero_add _).symm

end Pieces

/-! ### What the attribution reads

Of a tap, the answers depend on the parser, the Enters that wait and the time of the last match.
They are a machine of their own, which the tap drives. -/

structure Enters where
  pending : List Int
  lastMatch : Int
  reconstructor : Reconstructor

namespace Enters

/-- Whether an Enter is there for the command, and what is left. -/
def claim (e : Enters) (command : ReconstructedCommand) : Enters × Bool :=
  let pending := e.pending.dropWhile fun enter =>
      decide (max enter e.lastMatch < command.ts - learnerEnterWindow)
  match pending with
  | enter :: later =>
    if enter ≤ command.ts then ({ e with pending := later, lastMatch := command.ts }, true)
    else ({ e with pending }, false)
  | [] => ({ e with pending := [] }, false)

def claimAll (e : Enters) : List ReconstructedCommand → Enters × List ReconstructedCommand
  | [] => (e, [])
  | command :: commands =>
    let (e, learner) := e.claim command
    let (e, later) := e.claimAll commands
    (e, if learner then command :: later else later)

def type (e : Enters) (data : Bytes) (now : Int) : Enters :=
  { e with pending := Deque.push maxPendingEnters e.pending (List.replicate (presses data) now) }

variable (alnum : Char → Bool)

def print (e : Enters) (data : Bytes) (now : Int) : Enters × List ReconstructedCommand :=
  let (reconstructor, commands) := e.reconstructor.feed alnum data now
  { e with reconstructor }.claimAll commands

def receive (e : Enters) : Message → Enters × List ReconstructedCommand
  | .fromClient data now => (e.type data now, [])
  | .fromNode data now => e.print alnum data now

def receiveAll (e : Enters) : List Message → Enters × List ReconstructedCommand
  | [] => (e, [])
  | message :: messages =>
    let (e, attributed) := e.receive alnum message
    let (e, later) := e.receiveAll messages
    (e, attributed ++ later)

def close (e : Enters) : List ReconstructedCommand :=
  let (reconstructor, commands) := e.reconstructor.flush alnum
  ({ e with reconstructor }.claimAll commands).2

def attributed (e : Enters) (messages : List Message) (closedAt : Option Int) :
    List ReconstructedCommand :=
  let (e, attributed) := e.receiveAll alnum messages
  attributed ++ if closedAt.isSome then e.close alnum else []

end Enters

section Simulation

open ConsoleTap (flushBuffer drain)

variable {alnum : Char → Bool} {tap : ConsoleTap} {now : Int} {d : Direction} {n searched : Nat}

def ConsoleTap.enters (tap : ConsoleTap) : Enters where
  pending := tap.pendingEnters
  lastMatch := tap.lastEnterMatch
  reconstructor := tap.reconstructor

theorem enters_reconstructor (tap : ConsoleTap) :
    tap.enters.reconstructor = tap.reconstructor := rfl

theorem enters_withReconstructor (tap : ConsoleTap) (r : Reconstructor) :
    ({ tap with reconstructor := r } : ConsoleTap).enters
      = { tap.enters with reconstructor := r } := rfl

theorem enters_setBuffer (buffer : DirectionBuffer) :
    (tap.setBuffer d buffer).enters = tap.enters := by
  cases d with
  | «in» | out => rfl

theorem enters_emitBuffer (size : Nat) (truncated : Bool) :
    (tap.emitBuffer d size truncated now).enters = tap.enters := by
  have htaken : ∀ ts mode tail, (tap.taken d size ts mode tail).enters = tap.enters :=
    fun ts mode tail => enters_setBuffer _
  obtain ⟨ts, mode, tail, ⟨-, hframe⟩ | ⟨frame, -, -, -, -, -, hframe⟩⟩ :=
    tap.emitBuffer_cases d size truncated now
  · rw [hframe]
    exact htaken ts mode tail
  · rw [hframe]
    exact htaken ts mode tail

theorem enters_drain : (drain d now n searched tap).enters = tap.enters := by
  induction n generalizing searched tap with
  | zero => rfl
  | succ n ih =>
    rw [drain]
    split
    · rfl
    · dsimp only
      split
      · rw [ih, enters_emitBuffer]
      · split
        · rw [ih, enters_emitBuffer]
        · rfl

theorem enters_ingest : (tap.ingest d data now).enters = tap.enters := by
  unfold ConsoleTap.ingest
  split
  · rfl
  · dsimp only
    split
    · rfl
    · rw [enters_drain, enters_setBuffer]
      rfl

theorem enters_flushBuffer : (flushBuffer d now n tap).enters = tap.enters := by
  induction n generalizing tap with
  | zero => rfl
  | succ n ih =>
    rw [flushBuffer]
    dsimp only
    split
    · rfl
    · rw [ih, enters_emitBuffer]

theorem claim_enters (tap : ConsoleTap) (command : ReconstructedCommand) : tap.enters.claim command
    = ((tap.isLearnerCommand command).1.enters, (tap.isLearnerCommand command).2) := by
  cases hwaiting : tap.pendingEnters.dropWhile fun enter =>
      decide (max enter tap.lastEnterMatch < command.ts - learnerEnterWindow) with
  | nil =>
    have hpending : tap.enters.pending.dropWhile (fun enter =>
      decide (max enter tap.enters.lastMatch < command.ts - learnerEnterWindow)) = [] := hwaiting
    simp only [Enters.claim, ConsoleTap.isLearnerCommand, hpending, hwaiting]
    rfl
  | cons enter later =>
    have hpending : tap.enters.pending.dropWhile (fun enter =>
      decide (max enter tap.enters.lastMatch < command.ts - learnerEnterWindow)) = enter :: later :=
        hwaiting
    simp only [Enters.claim, ConsoleTap.isLearnerCommand, hpending, hwaiting]
    split <;> rfl

theorem enters_overRowBudget (tap : ConsoleTap) : tap.overRowBudget.1.enters = tap.enters := by
  unfold ConsoleTap.overRowBudget
  split <;> rfl

theorem enters_emitCommand (tap : ConsoleTap) (command : ReconstructedCommand) :
    (tap.emitCommand command).enters = (tap.enters.claim command).1 := by
  rw [claim_enters]
  unfold ConsoleTap.emitCommand
  dsimp only
  split
  · rfl
  · split
    · exact enters_overRowBudget _
    · exact enters_overRowBudget _

theorem enters_emit (tap : ConsoleTap) (commands : List ReconstructedCommand) :
    (tap.emit commands).enters = (tap.enters.claimAll commands).1 := by
  unfold ConsoleTap.emit
  induction commands generalizing tap with
  | nil => rfl
  | cons command commands ih =>
    rw [List.foldl_cons, ih, enters_emitCommand]
    rfl

theorem attributedOf_eq (tap : ConsoleTap) (commands : List ReconstructedCommand) :
    tap.attributedOf commands = (tap.enters.claimAll commands).2 := by
  induction commands generalizing tap with
  | nil => rfl
  | cons command commands ih =>
    rw [ConsoleTap.attributedOf, ih, enters_emitCommand, Enters.claimAll, claim_enters]

theorem enters_fromClient (tap : ConsoleTap) (data : Bytes) (now : Int) :
    (tap.fromClient data now).enters = tap.enters.type data now := by
  have hingest : (tap.ingest .«in» data now).enters = tap.enters := enters_ingest
  rw [← hingest]
  unfold ConsoleTap.fromClient Enters.type
  generalize tap.ingest .«in» data now = tap'
  dsimp only [ConsoleTap.enters, Deque.push, List.rtake, presses]

theorem enters_fromNode (tap : ConsoleTap) (data : Bytes) (now : Int) :
    (tap.fromNode alnum data now).enters = (tap.enters.print alnum data now).1
      ∧ tap.attributedOn alnum (.fromNode data now) = (tap.enters.print alnum data now).2 := by
  have hingest : (tap.ingest .out data now).enters = tap.enters := enters_ingest
  have hreconstructor : (tap.ingest .out data now).reconstructor = tap.reconstructor :=
    congrArg Enters.reconstructor hingest
  constructor
  · have hstate : (tap.fromNode alnum data now).enters = ((({ tap.ingest .out data now with
        reconstructor := ((tap.ingest .out data now).reconstructor.feed alnum data now).1 } :
          ConsoleTap).emit
          ((tap.ingest .out data now).reconstructor.feed alnum data now).2)).enters := rfl
    rw [hstate, enters_emit, enters_withReconstructor, hingest, hreconstructor, Enters.print,
      enters_reconstructor]
  · unfold ConsoleTap.attributedOn Enters.print
    dsimp only
    rw [attributedOf_eq, enters_withReconstructor, hingest, hreconstructor, enters_reconstructor]

theorem attributedAtClose_eq (tap : ConsoleTap) (now : Int) :
    tap.attributedAtClose alnum now = tap.enters.close alnum := by
  unfold ConsoleTap.attributedAtClose Enters.close
  dsimp only
  generalize hflushed : flushBuffer .out now _ (flushBuffer .«in» now _ tap) = flushed
  have henters : flushed.enters = tap.enters := by
    rw [← hflushed, enters_flushBuffer, enters_flushBuffer]
  rw [attributedOf_eq, enters_withReconstructor, ← enters_reconstructor, henters]

/-- **What is attributed is what the machine answers.** -/
theorem attributed_eq (tap : ConsoleTap) (messages : List Message) (closedAt : Option Int) :
    tap.attributed alnum messages closedAt = tap.enters.attributed alnum messages closedAt := by
  induction messages generalizing tap with
  | nil =>
    cases closedAt with
    | none => rfl
    | some now => exact attributedAtClose_eq tap now
  | cons message messages ih =>
    rw [ConsoleTap.attributed, ih, Enters.attributed, Enters.attributed, Enters.receiveAll]
    cases message with
    | fromClient data now =>
      rw [ConsoleTap.receive, enters_fromClient]
      rfl
    | fromNode data now =>
      obtain ⟨henters, hattributed⟩ := enters_fromNode tap data now
      rw [ConsoleTap.receive, henters, hattributed, ← List.append_assoc]
      rfl

theorem enters_receiveAll (tap : ConsoleTap) (messages : List Message) :
    (tap.receiveAll alnum messages).enters = (tap.enters.receiveAll alnum messages).1 := by
  unfold ConsoleTap.receiveAll
  induction messages generalizing tap with
  | nil => rfl
  | cons message messages ih =>
    rw [List.foldl_cons, ih, Enters.receiveAll]
    cases message with
    | fromClient data now => rw [ConsoleTap.receive, Enters.receive, enters_fromClient]
    | fromNode data now => rw [ConsoleTap.receive, Enters.receive, (enters_fromNode tap data now).1]

end Simulation

/-! ### The Enters that wait -/

namespace Enters

variable {alnum : Char → Bool} {e : Enters} {now last : Int} {n k : Nat}

/-- A command that is attributed takes an Enter. -/
theorem length_claim (e : Enters) (command : ReconstructedCommand) :
    (if (e.claim command).2 then 1 else 0) + (e.claim command).1.pending.length
      ≤ e.pending.length := by
  have hdropped := (List.dropWhile_suffix (l := e.pending) fun enter =>
    decide (max enter e.lastMatch < command.ts - learnerEnterWindow)).length_le
  cases hwaiting : e.pending.dropWhile fun enter =>
      decide (max enter e.lastMatch < command.ts - learnerEnterWindow) with
  | nil =>
    simp only [claim, hwaiting]
    exact Nat.zero_le _
  | cons enter later =>
    rw [hwaiting, List.length_cons] at hdropped
    by_cases hle : enter ≤ command.ts
    · simp only [claim, hwaiting, if_pos hle, if_true]
      omega
    · simp only [claim, hwaiting, if_neg hle, Bool.false_eq_true, if_false, List.length_cons]
      omega

theorem length_claimAll (e : Enters) (commands : List ReconstructedCommand) :
    (e.claimAll commands).2.length + (e.claimAll commands).1.pending.length ≤ e.pending.length := by
  induction commands generalizing e with
  | nil => exact Nat.le_of_eq (Nat.zero_add _)
  | cons command commands ih =>
    have hclaim := e.length_claim command
    have hrest := ih (e.claim command).1
    rw [claimAll]
    dsimp only
    split
    · rename_i hlearner
      rw [if_pos hlearner] at hclaim
      rw [List.length_cons]
      omega
    · omega

theorem pending_type (e : Enters) (data : Bytes) (now : Int) : (e.type data now).pending
    = Deque.push maxPendingEnters e.pending (List.replicate (presses data) now) := by
  rw [type]

theorem length_type_le (e : Enters) (data : Bytes) (now : Int) :
    (e.type data now).pending.length ≤ e.pending.length + min (presses data) maxPendingEnters := by
  have hle := @Deque.length_push_le _ maxPendingEnters e.pending (List.replicate (presses data) now)
  rwa [List.length_replicate, ← pending_type] at hle

theorem length_print (alnum : Char → Bool) (e : Enters) (data : Bytes) (now : Int) :
    (e.print alnum data now).2.length + (e.print alnum data now).1.pending.length
      ≤ e.pending.length :=
  length_claimAll _ _

theorem length_receiveAll (alnum : Char → Bool) (e : Enters) (messages : List Message) :
    (e.receiveAll alnum messages).2.length + (e.receiveAll alnum messages).1.pending.length
      ≤ e.pending.length + ((clientMessages messages).map fun piece =>
        min (presses piece) maxPendingEnters).sum := by
  induction messages generalizing e with
  | nil => exact Nat.le_of_eq (Nat.zero_add _)
  | cons message messages ih =>
    have hrest := ih (e.receive alnum message).1
    rw [receiveAll]
    dsimp only
    rw [List.length_append]
    cases message with
    | fromClient data now =>
      have hpush := e.length_type_le data now
      have htyped :
          clientMessages (.fromClient data now :: messages) = data :: clientMessages messages := rfl
      have hreceived : e.receive alnum (.fromClient data now) = (e.type data now, []) := rfl
      rw [htyped, List.map_cons, List.sum_cons]
      rw [hreceived] at hrest ⊢
      dsimp only at hrest ⊢
      rw [List.length_nil]
      omega
    | fromNode data now =>
      have hprint := length_print alnum e data now
      have htyped : clientMessages (.fromNode data now :: messages) = clientMessages messages := rfl
      have hreceived : e.receive alnum (.fromNode data now) = e.print alnum data now := rfl
      rw [htyped]
      rw [hreceived] at hrest ⊢
      omega

theorem length_attributed_le (alnum : Char → Bool) (e : Enters) (messages : List Message)
    (closedAt : Option Int) :
    (e.attributed alnum messages closedAt).length
      ≤ e.pending.length + ((clientMessages messages).map fun piece =>
        min (presses piece) maxPendingEnters).sum := by
  have hrun := length_receiveAll alnum e messages
  have hclose : ((e.receiveAll alnum messages).1.close alnum).length
      ≤ (e.receiveAll alnum messages).1.pending.length :=
    Nat.le_trans (Nat.le_add_right _ _) (length_claimAll _ _)
  unfold attributed
  dsimp only
  rw [List.length_append]
  split
  · omega
  · rw [List.length_nil]
    omega

/-- More than its bound never waits. -/
theorem length_pending_receiveAll (messages : List Message)
    (h : e.pending.length ≤ maxPendingEnters) :
    (e.receiveAll alnum messages).1.pending.length ≤ maxPendingEnters := by
  induction messages generalizing e with
  | nil => exact h
  | cons message messages ih =>
    rw [receiveAll]
    apply ih
    cases message with
    | fromClient data now =>
      rw [receive, pending_type]
      exact Deque.length_push_le_bound
    | fromNode data now =>
      rw [receive]
      exact Nat.le_trans (Nat.le_add_left _ _) (Nat.le_trans (length_print alnum e data now) h)

/-- However it is cut, what is typed at one instant is so many Enters of that instant. -/
theorem type_pieces (pieces : List Bytes) (h : e.pending.length ≤ maxPendingEnters) :
    pieces.foldl (fun e piece => e.type piece now) e = { e with
      pending := Deque.push maxPendingEnters e.pending
        (List.replicate (pieces.map presses).sum now) } := by
  induction pieces generalizing e with
  | nil =>
    rw [List.foldl_nil, List.map_nil, List.sum_nil, List.replicate_zero, Deque.push_nil h]
  | cons piece pieces ih =>
    have hpiece : (e.type piece now).pending.length ≤ maxPendingEnters := by
      rw [pending_type]
      exact Deque.length_push_le_bound
    rw [List.foldl_cons, ih hpiece, pending_type, Deque.push_push, List.replicate_append_replicate,
      List.map_cons, List.sum_cons, type]

/-! ### A node that answers each time -/

def answering (now last : Int) (n k : Nat) : Enters where
  pending := List.replicate n now
  lastMatch := last
  reconstructor := { buf := bytes "R>", seq := k, lastTs := some now }

def echo : Bytes := bytes "a\nR>"

theorem clean_prompt : clean (bytes "R>") = ['R', '>'] := rfl

theorem isPromptTail_prompt (alnum : Char → Bool) :
    Reconstructor.isPromptTail alnum (bytes "R>") = true := by
  have hlength : decide ((bytes "R>").length ≤ maxPromptTailBytes) = true := rfl
  have hmatch : matchPrompt alnum ['R', '>'] = some (['R', '>'], []) := rfl
  rw [Reconstructor.isPromptTail, clean_prompt, hlength, hmatch]
  rfl

theorem feed_prompt (now : Int) : ({} : Reconstructor).feed alnum (bytes "R>") now
    = ({ buf := bytes "R>", lastTs := some now }, []) := by
  have hlines : breakLines [] (bytes "R>") = ([], bytes "R>") := rfl
  have htrim : Reconstructor.trim (bytes "R>") = bytes "R>" := rfl
  simp only [Reconstructor.feed, hlines, Reconstructor.consumeLines, htrim,
    isPromptTail_prompt, if_true, Reconstructor.close, List.append_nil]

def echoed (now : Int) (k : Nat) : ReconstructedCommand where
  seq := k + 1
  prompt := ['R', '>']
  command := ['a']
  response := []
  ts := now
  durationMs := some (((now - now : Int) : ℚ) / 1000)

theorem feed_echo (now : Int) (k : Nat) :
    ({ buf := bytes "R>", seq := k, lastTs := some now } : Reconstructor).feed alnum echo now
      = ({ buf := bytes "R>", seq := k + 1, lastTs := some now }, [echoed now k]) := by
  have hlines : breakLines (bytes "R>") echo = ([bytes "R>a"], bytes "R>") := by decide +kernel
  have hclean : clean (bytes "R>a") = ['R', '>', 'a'] := rfl
  have hmatch : matchPrompt alnum ['R', '>', 'a'] = some (['R', '>'], ['a']) := rfl
  have hcommand : dropPrompt ['R', '>'] ['a'].length (strip ['a']) = ['a'] := rfl
  have htrim : Reconstructor.trim (bytes "R>") = bytes "R>" := rfl
  have hresponse : stripNewlines (['\n'].intercalate []) = [] := rfl
  simp only [Reconstructor.feed, hlines, Reconstructor.consumeLines, Reconstructor.consume,
    hclean, hmatch, List.isEmpty_cons, Bool.false_eq_true, if_false, Reconstructor.close, hcommand,
    htrim, isPromptTail_prompt, if_true,
    List.append_nil, List.nil_append, hresponse, echoed]

/-- While Enters wait, the answer is the learner's. -/
theorem print_echo (now last : Int) (n k : Nat) :
    ∃ last', ((answering now last n k).print alnum echo now).1 = answering now last' (n - 1) (k + 1)
      ∧ ((answering now last n k).print alnum echo now).2.length = min n 1 := by
  have hprint : (answering now last n k).print alnum echo now
      = (answering now last n (k + 1)).claimAll [echoed now k] := by
    rw [print, answering, feed_echo]
    rfl
  have hts : (echoed now k).ts = now := rfl
  have hone : ∀ e : Enters, e.claimAll [echoed now k]
      = ((e.claim (echoed now k)).1, if (e.claim (echoed now k)).2 then [echoed now k] else []) :=
        fun _ => rfl
  rw [hprint, hone]
  cases n with
  | zero => exact ⟨last, rfl, rfl⟩
  | succ n =>
    have hfresh : ¬ max now last < now - learnerEnterWindow := by
      have hwindow : 0 ≤ learnerEnterWindow := by decide
      omega
    have hclaim :
        (answering now last (n + 1) (k + 1)).claim (echoed now k) = (answering now now n (k + 1),
          true) := by
      simp only [claim, answering, List.replicate_succ, hts, List.dropWhile_cons, hfresh,
        decide_false, Bool.false_eq_true, if_false, Int.le_refl, if_true]
    rw [hclaim]
    exact ⟨now, rfl, by simp⟩

theorem receiveAll_echoes (now last : Int) (n k m : Nat) : ∃ last',
    ((answering now last n k).receiveAll alnum (List.replicate m (.fromNode echo now))).1
        = answering now last' (n - m) (k + m)
      ∧ ((answering now last n k).receiveAll alnum (List.replicate m (.fromNode echo now))).2.length
        = min n m := by
  induction m generalizing last n k with
  | zero => exact ⟨last, rfl, (Nat.min_zero n).symm⟩
  | succ m ih =>
    obtain ⟨last₁, hstate, hcount⟩ := @print_echo alnum now last n k
    obtain ⟨last₂, hrest, hlater⟩ := ih last₁ (n - 1) (k + 1)
    rw [List.replicate_succ, receiveAll, receive]
    dsimp only
    rw [hstate, hrest, List.length_append, hcount, hlater]
    refine ⟨last₂, ?_, by omega⟩
    rw [Nat.sub_sub, Nat.add_assoc, Nat.add_comm 1 m]

theorem print_prompt (now start : Int) : (⟨[], start, {}⟩ : Enters).print alnum (bytes "R>") now
    = (answering now start 0 0, []) := by
  rw [print, feed_prompt]
  rfl

/-- A node that shows its prompt and answers after each message as often as Enters can wait. -/
def conversation (now : Int) (pieces : List Bytes) : List Message :=
  pieces.flatMap fun piece =>
    .fromClient piece now :: List.replicate maxPendingEnters (.fromNode echo now)

theorem clientMessages_conversation (now : Int) (pieces : List Bytes) :
    clientMessages (conversation now pieces) = pieces := by
  induction pieces with
  | nil => rfl
  | cons piece pieces ih =>
    have hechoes :
        (List.replicate maxPendingEnters (Message.fromNode echo now)).filterMap
        Message.fromClient? = [] :=
      List.filterMap_eq_nil_iff.mpr fun message hmessage => by
        rw [List.eq_of_mem_replicate hmessage]; rfl
    have hpiece : (Message.fromClient piece now).fromClient? = some piece := rfl
    rw [conversation, List.flatMap_cons, clientMessages, List.filterMap_append,
      List.filterMap_cons_some hpiece, hechoes]
    exact congrArg (piece :: ·) ih

theorem receiveAll_append (e : Enters) (messages later : List Message) :
    (e.receiveAll alnum (messages ++ later)).2
      = (e.receiveAll alnum messages).2 ++ ((e.receiveAll alnum messages).1.receiveAll alnum
        later).2 := by
  induction messages generalizing e with
  | nil => rfl
  | cons message messages ih =>
    rw [List.cons_append, receiveAll, receiveAll]
    dsimp only
    rw [ih, List.append_assoc]

theorem type_answering (now last : Int) (k : Nat) (piece : Bytes) :
    (answering now last 0 k).type piece now
    = answering now last (min (presses piece) maxPendingEnters) k := by
  rw [type, answering, List.replicate_zero, Deque.push_replicate, answering]

theorem length_conversation (now last : Int) (k : Nat) (pieces : List Bytes) :
    ((answering now last 0 k).receiveAll alnum (conversation now pieces)).2.length
      = (pieces.map fun piece => min (presses piece) maxPendingEnters).sum := by
  induction pieces generalizing last k with
  | nil => rfl
  | cons piece pieces ih =>
    obtain ⟨last', hstate, hcount⟩ :=
      @receiveAll_echoes alnum now last (min (presses piece) maxPendingEnters) k maxPendingEnters
    have hempty : min (presses piece) maxPendingEnters - maxPendingEnters = 0 := by omega
    rw [hempty] at hstate
    have hrest := ih last' (k + maxPendingEnters)
    rw [conversation] at hrest
    rw [conversation, List.flatMap_cons, List.cons_append, receiveAll, receive]
    dsimp only
    rw [type_answering, List.nil_append, receiveAll_append, List.length_append, hcount, hstate,
      hrest, List.map_cons, List.sum_cons, Nat.min_assoc, Nat.min_self]

end Enters

/-! ### Attribution and framing -/

open Enters (answering echo conversation)

variable {alnum : Char → Bool} {pieces pieces' : List Bytes}

theorem enters_type (tap : ConsoleTap) (pieces : List Bytes) (now : Int) :
    (tap.type pieces now).enters = pieces.foldl (fun e piece => e.type piece now) tap.enters := by
  unfold ConsoleTap.type
  induction pieces generalizing tap with
  | nil => rfl
  | cons piece pieces ih => rw [List.foldl_cons, List.foldl_cons, ih, enters_fromClient]

/-- In a run, the bytes count as their number of Enters alone. -/
theorem enters_type_receiveAll (sessionId : Nat) (nodeId : Text) (connectionId : Nat)
    (start now : Int)
    (earlier : List Message) (pieces : List Bytes) :
    let tap := (ConsoleTap.init sessionId nodeId connectionId start).receiveAll alnum earlier
    (tap.type pieces now).enters = { tap.enters with
      pending := Deque.push maxPendingEnters tap.enters.pending
        (List.replicate (presses pieces.flatten + cuts pieces) now) } := by
  intro tap
  have hbound : tap.enters.pending.length ≤ maxPendingEnters := by
    rw [enters_receiveAll]
    exact Enters.length_pending_receiveAll earlier (Nat.zero_le _)
  rw [enters_type, Enters.type_pieces pieces hbound, sum_presses]

/-- A prompt, so many Enters, and an answer to as many commands as Enters can wait. -/
theorem length_attributed_echoes (alnum : Char → Bool) (pieces : List Bytes) :
    ((((ConsoleTap.init 0 [] 0 0).receiveAll alnum [.fromNode (bytes "R>") 0]).type pieces
      0).attributed alnum (List.replicate maxPendingEnters (.fromNode echo 0)) none).length
      = min (presses pieces.flatten + cuts pieces) maxPendingEnters := by
  have hprompt : ((ConsoleTap.init 0 [] 0 0).receiveAll alnum [.fromNode (bytes "R>") 0]).enters
      = answering 0 0 0 0 := by
    have hinit : (ConsoleTap.init 0 [] 0 0).enters = ⟨[], 0, {}⟩ := rfl
    rw [enters_receiveAll, hinit, Enters.receiveAll, Enters.receive, Enters.print_prompt]
    rfl
  have htyped :
      (((ConsoleTap.init 0 [] 0 0).receiveAll alnum [.fromNode (bytes "R>") 0]).type
        pieces 0).enters
      = answering 0 0 (min (presses pieces.flatten + cuts pieces) maxPendingEnters) 0 := by
    rw [enters_type_receiveAll, hprompt, answering, List.replicate_zero,
      Deque.push_replicate, answering]
  obtain ⟨last, -, hcount⟩ := @Enters.receiveAll_echoes alnum 0 0
    (min (presses pieces.flatten + cuts pieces) maxPendingEnters) 0 maxPendingEnters
  rw [attributed_eq, htyped, Enters.attributed]
  dsimp only
  rw [Option.isSome_none, if_neg Bool.false_ne_true, List.append_nil, hcount, Nat.min_assoc,
    Nat.min_self]

theorem sameAttribution_iff (hsame : pieces'.flatten = pieces.flatten) :
    SameAttribution alnum pieces pieces'
    ↔ cuts pieces = cuts pieces'
      ∨ maxPendingEnters ≤ presses pieces.flatten + min (cuts pieces) (cuts pieces') := by
  constructor
  · intro h
    have hcount := congrArg List.length (h 0 [] 0 0 0 [.fromNode (bytes "R>") 0]
      (List.replicate maxPendingEnters (echo, 0)) none)
    rw [List.map_replicate, length_attributed_echoes, length_attributed_echoes, hsame] at hcount
    omega
  · intro hcuts sessionId nodeId connectionId start now earlier outputs closedAt
    dsimp only
    rw [attributed_eq, attributed_eq, enters_type_receiveAll, enters_type_receiveAll, hsame]
    rcases hcuts with hcuts | hmany
    · rw [hcuts]
    · rw [Deque.push_replicate_of_le (by omega), Deque.push_replicate_of_le (by omega)]

/-- What one message counts either waits or finds no room. -/
theorem sum_min_presses (pieces : List Bytes) :
    (pieces.map fun piece => min (presses piece) maxPendingEnters).sum
        + (pieces.map fun piece => presses piece - maxPendingEnters).sum
      = presses pieces.flatten + cuts pieces := by
  rw [← sum_presses]
  induction pieces with
  | nil => rfl
  | cons piece pieces ih =>
    simp only [List.map_cons, List.sum_cons]
    omega

theorem attributionBounded_iff : AttributionBounded alnum pieces
    ↔ cuts pieces ≤ (pieces.map fun piece => presses piece - maxPendingEnters).sum := by
  have hsum := sum_min_presses pieces
  constructor
  · intro h
    have hbound := h 0 [] 0 0 (.fromNode (bytes "R>") 0 :: conversation 0 pieces) none
      (Enters.clientMessages_conversation 0 pieces)
    have hinit : (ConsoleTap.init 0 [] 0 0).enters = ⟨[], 0, {}⟩ := rfl
    rw [attributed_eq, hinit, Enters.attributed, Enters.receiveAll, Enters.receive,
      Enters.print_prompt] at hbound
    dsimp only at hbound
    rw [Option.isSome_none, if_neg Bool.false_ne_true, List.append_nil, List.nil_append,
      Enters.length_conversation] at hbound
    omega
  · intro hcuts sessionId nodeId connectionId start messages closedAt htyped
    have hbound := Enters.length_attributed_le alnum
      (ConsoleTap.init sessionId nodeId connectionId start).enters messages closedAt
    have hempty : (ConsoleTap.init sessionId nodeId connectionId start).enters.pending.length = 0 :=
      rfl
    rw [htyped, hempty] at hbound
    rw [attributed_eq]
    omega

/-- **Attribution and framing.** Two ways of typing attribute the same commands exactly when they
cut equally many pairs, or both are as many Enters as can wait. There are never more commands than
presses exactly when no more pairs are cut than presses of one message find no room. -/
theorem attribution_iff (alnum : Char → Bool) (pieces pieces' : List Bytes)
    (hsame : pieces'.flatten = pieces.flatten) :
    (SameAttribution alnum pieces pieces' ↔ cuts pieces = cuts pieces'
        ∨ maxPendingEnters ≤ presses pieces.flatten + min (cuts pieces) (cuts pieces'))
      ∧ (AttributionBounded alnum pieces
        ↔ cuts pieces ≤ (pieces.map fun piece => presses piece - maxPendingEnters).sum) :=
  ⟨sameAttribution_iff hsame, attributionBounded_iff⟩

/-- A line that is cut before its end. -/
theorem attribution_iff_lineEnd :
    SameAttribution asciiOnly [bytes "ping\r\n"] [bytes "ping", [cr, lf]]
    ∧ AttributionBounded asciiOnly [bytes "ping", [cr, lf]] := by
  have hsame : [bytes "ping", [cr, lf]].flatten = [bytes "ping\r\n"].flatten := rfl
  have hsame' : [bytes "ping\r\n"].flatten = [bytes "ping", [cr, lf]].flatten := rfl
  exact ⟨(attribution_iff asciiOnly _ _ hsame).1.mpr (Or.inl (by decide +kernel)),
    (attribution_iff asciiOnly _ _ hsame').2.mpr (by decide +kernel)⟩

/-- The learner's command, and one that the platform runs behind it. -/
def twoCommands : List (Bytes × Int) :=
  [(bytes "VPCS> show ip\r\nVPCS> ", 0), (bytes "ping 10.0.0.2\r\nVPCS> ", 1000000)]

/-- **One Enter is there for two commands.** -/
theorem cut_enter_attributes_probe : ¬ SameAttribution asciiOnly [[cr, lf]] [[cr], [lf]]
    ∧ ¬ AttributionBounded asciiOnly [[cr], [lf]] := by
  constructor
  · intro h
    have hcount := congrArg List.length (h 1 [] 1 0 0 [] twoCommands none)
    revert hcount
    decide +kernel
  · intro h
    have hbound := h 1 [] 1 0 ([.fromClient [cr] 0, .fromClient [lf] 0]
      ++ twoCommands.map fun output => .fromNode output.1 output.2) none rfl
    revert hbound
    decide +kernel

end OnlinetLabs.Console
