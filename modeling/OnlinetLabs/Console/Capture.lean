import OnlinetLabs.Console.Reconstruct

/-!
# Console capture

One tap for each console socket. It cuts what passes in either direction into frames, masks
passwords and credentials in them, and keeps the commands the learner ran. What the tap hands over
to the queue is kept in the order of the calls. One reading of the clock stands for all those of a
call.
-/

namespace OnlinetLabs.Console

open Pattern

/-! ### Limits -/

def maxChunkBytes : Nat := 64 * 1024

def maxConnectionBytes : Nat := 8 * 1024 * 1024

def maxConnectionRows : Nat := 20000

def maxPromptChars : Nat := 255

def maxNodeIdChars : Nat := 64

def tailBytes : Nat := 64

/-- `_LEARNER_ENTER_WINDOW`: two seconds. -/
def learnerEnterWindow : Int := 2000000

def maxPendingEnters : Nat := 256

/-! ### Secrets -/

/-- `_PASSWORD_PROMPT_RE`. -/
def passwordPromptPattern : Pattern UInt8 :=
  inOrder [anyCase "assword", many isBlank, one (is (byte ':')), many isBlank, finish]

/-- What makes `key` the name of a setting and not of a secret. -/
def keySetting : Pattern UInt8 :=
  inOrder [several isBlank,
    choice (anyCase "chain") [anyCase "generate", anyCase "zeroize", anyCase "config-key",
      anyCase "pair", anyCase "exchange", anyCase "pubkey-chain", anyCase "to", anyCase "id",
      anyCase "is"],
    ahead (alt (one isSpaceByte) finish)]

def secretKeyword : Pattern UInt8 :=
  choice (anyCase "secret") [anyCase "password", anyCase "passwd", anyCase "key-string",
    anyCase "pre-shared-key", anyCase "authentication-key", seq (anyCase "key")
      (notAhead keySetting),
    anyCase "community", anyCase "psk", anyCase "passphrase", anyCase "auth", anyCase "priv"]

/-- The group of `_SECRET_ARG_RE`: the keyword and its separators. -/
def secretGroup : Pattern UInt8 :=
  inOrder [edge, secretKeyword, edge, several fun b => isBlank b || isIn ":=" b]

def secretArg : Pattern UInt8 := several fun b => !isBreak b

/-- A match of `_SECRET_ARG_RE`, and what `\1***` puts in its place. -/
def findSecret (c : Cursor UInt8) : Option (Bytes × Cursor UInt8) :=
  (capture isWordByte secretGroup secretArg c).map fun m => (c.read m.1 ++ bytes "***", m.2)

/-- `_SECRET_ARG_RE.sub`. -/
def redact (data : Bytes) : Bytes := substituteAll isWordByte findSecret (.start data)

def redactSecrets (data : Bytes) : Bytes × Bool := (redact data, redact data != data)

/-! ### Items -/

structure ConsoleFrame where
  sessionId : Nat
  nodeId : Text
  connectionId : Nat
  seq : Nat
  direction : Direction
  payload : Bytes
  truncated : Bool
  redacted : Bool
  ts : Int
deriving DecidableEq

structure ConsoleCommandRecord where
  sessionId : Nat
  nodeId : Text
  connectionId : Nat
  seq : Nat
  prompt : Option Text
  command : Text
  response : Text
  ts : Int
  durationMs : Option ℚ
deriving DecidableEq

inductive Item where
  | frame (frame : ConsoleFrame)
  | record (record : ConsoleCommandRecord)
deriving DecidableEq

structure DirectionBuffer where
  data : Bytes := []
  ts : Option Int := none
deriving DecidableEq

structure ConsoleTap where
  sessionId : Nat
  nodeId : Text
  connectionId : Nat
  seq : Nat := 0
  bytes : Nat := 0
  overBudget : Bool := false
  rows : Nat := 0
  tail : Bytes := []
  passwordMode : Bool := false
  reconstructor : Reconstructor := {}
  pendingEnters : List Int := []
  lastEnterMatch : Int
  inBuffer : DirectionBuffer := {}
  outBuffer : DirectionBuffer := {}
  submitted : List Item := []
deriving DecidableEq

namespace ConsoleTap

def init (sessionId : Nat) (nodeId : Text) (connectionId : Nat) (now : Int) : ConsoleTap :=
  { sessionId, nodeId := nodeId.take maxNodeIdChars, connectionId, lastEnterMatch := now }

def buffer (tap : ConsoleTap) : Direction → DirectionBuffer
  | .«in» => tap.inBuffer
  | .out => tap.outBuffer

def setBuffer (tap : ConsoleTap) (direction : Direction) (buffer : DirectionBuffer) : ConsoleTap :=
  match direction with
  | .«in» => { tap with inBuffer := buffer }
  | .out => { tap with outBuffer := buffer }

def submit (tap : ConsoleTap) (item : Item) : ConsoleTap :=
  { tap with submitted := tap.submitted ++ [item] }

def overRowBudget (tap : ConsoleTap) : ConsoleTap × Bool :=
  if maxConnectionRows ≤ tap.rows then ({ tap with overBudget := true }, true)
  else ({ tap with rows := tap.rows + 1 }, false)

/-! ### Frames -/

/-- The loop of `_mask_password`, with what was masked before. -/
def maskFrom : Nat → ConsoleTap → Bytes → Bool → ConsoleTap × Bytes × Bool
  | 0, tap, data, redacted => (tap, data, redacted)
  | n + 1, tap, data, redacted =>
    if tap.passwordMode && !data.isEmpty then
      let secret := data.takeWhile fun b => !isBreak b
      let stars := List.replicate secret.length (byte '*')
      match data.drop secret.length with
      | [] => (tap, stars, true)
      | b :: rest =>
        -- an empty line keeps masking armed
        let tap := if secret.isEmpty then tap else { tap with passwordMode := false, tail := [] }
        let (tap, masked, redacted) := maskFrom n tap rest (redacted || !secret.isEmpty)
        (tap, stars ++ b :: masked, redacted)
    else (tap, data, redacted)

/-- `_mask_password`: each line takes one step. -/
def maskPassword (tap : ConsoleTap) (data : Bytes) : ConsoleTap × Bytes × Bool :=
  maskFrom data.length tap data false

def emitBuffer (tap : ConsoleTap) (direction : Direction) (size : Nat) (truncated : Bool)
    (now : Int) :
    ConsoleTap :=
  let buffer := tap.buffer direction
  let payload := buffer.data.take size
  let ts := buffer.ts.getD now
  let rest := buffer.data.drop size
  let tap := tap.setBuffer direction ⟨rest, if rest.isEmpty then none else some now⟩
  let (tap, payload, redacted) :=
    if direction = .«in» && tap.passwordMode then tap.maskPassword payload
    else (tap, payload, false)
  let (payload, secretFound) := redactSecrets payload
  let (tap, exceeded) := tap.overRowBudget
  if exceeded then tap
  else
    let tap := { tap with seq := tap.seq + 1 }
    tap.submit (.frame {
      sessionId := tap.sessionId
      nodeId := tap.nodeId
      connectionId := tap.connectionId
      seq := tap.seq
      direction, payload, truncated
      redacted := redacted || secretFound
      ts })

/-- `data.rfind(b, start, stop)`. -/
def rfind (b : UInt8) (data : Bytes) (start stop : Nat) : Option Nat :=
  let window := (data.take stop).drop start
  (window.reverse.idxOf? b).map fun i => start + (window.length - 1 - i)

/-- The loop of `_ingest`. Each turn emits a byte at least. -/
def drain (direction : Direction) (now : Int) : Nat → Nat → ConsoleTap → ConsoleTap
  | 0, _, tap => tap
  | n + 1, searched, tap =>
    if tap.overBudget then tap
    else
      let data := (tap.buffer direction).data
      let limit := min data.length maxChunkBytes
      match max (rfind cr data searched limit) (rfind lf data searched limit) with
      | some breakAt => drain direction now n 0 (tap.emitBuffer direction (breakAt + 1) false now)
      | none =>
        if maxChunkBytes ≤ data.length then
          drain direction now n 0 (tap.emitBuffer direction maxChunkBytes true now)
        else tap

def ingest (tap : ConsoleTap) (direction : Direction) (data : Bytes) (now : Int) : ConsoleTap :=
  if tap.overBudget || data.isEmpty then tap
  else
    let tap := { tap with bytes := tap.bytes + data.length }
    if maxConnectionBytes < tap.bytes then { tap with overBudget := true }
    else
      let buffer := tap.buffer direction
      let searched := buffer.data.length
      let ts := if buffer.data.isEmpty then some now else buffer.ts
      let tap := tap.setBuffer direction ⟨buffer.data ++ data, ts⟩
      tap.drain direction now (searched + data.length + 1) searched

/-! ### Commands -/

def isLearnerCommand (tap : ConsoleTap) (command : ReconstructedCommand) : ConsoleTap × Bool :=
  let cutoff := command.ts - learnerEnterWindow
  let pending := tap.pendingEnters.dropWhile fun enter =>
      decide (max enter tap.lastEnterMatch < cutoff)
  match pending with
  | enter :: later =>
    if enter ≤ command.ts then
      ({ tap with pendingEnters := later, lastEnterMatch := command.ts }, true)
    else ({ tap with pendingEnters := pending }, false)
  | [] => ({ tap with pendingEnters := [] }, false)

/-- The step of `_emit` for one command. -/
def emitCommand (tap : ConsoleTap) (command : ReconstructedCommand) : ConsoleTap :=
  let (tap, learner) := tap.isLearnerCommand command
  if !learner || tap.overBudget then tap
  else
    let (tap, exceeded) := tap.overRowBudget
    if exceeded then tap
    else
      let prompt := command.prompt.take maxPromptChars
      tap.submit (.record {
        sessionId := tap.sessionId
        nodeId := tap.nodeId
        connectionId := tap.connectionId
        seq := command.seq
        prompt := if prompt.isEmpty then none else some prompt
        command := decode (redactSecrets (encode command.command)).1
        response := decode (redactSecrets (encode command.response)).1
        ts := command.ts
        durationMs := command.durationMs })

def emit (tap : ConsoleTap) (commands : List ReconstructedCommand) : ConsoleTap :=
  commands.foldl emitCommand tap

/-! ### The socket -/

/-- `data.replace(CR + LF, LF)`. -/
def collapse : Bytes → Bytes
  | [] => []
  | [b] => [b]
  | b :: b' :: rest =>
    if b == cr && b' == lf then lf :: collapse rest else b :: collapse (b' :: rest)

def fromClient (tap : ConsoleTap) (data : Bytes) (now : Int) : ConsoleTap :=
  let tap := tap.ingest .«in» data now
  let collapsed := collapse data
  let enters := List.replicate (collapsed.count cr + collapsed.count lf) now
  let pending := tap.pendingEnters ++ enters
  { tap with pendingEnters := pending.drop (pending.length - maxPendingEnters) }

variable (alnum : Char → Bool)

def fromNode (tap : ConsoleTap) (data : Bytes) (now : Int) : ConsoleTap :=
  let tap := tap.ingest .out data now
  let (reconstructor, commands) := tap.reconstructor.feed alnum data now
  let tap := { tap with reconstructor }.emit commands
  let tail := tap.tail ++ data
  let tail := tail.drop (tail.length - tailBytes)
  { tap with
    tail
    passwordMode := tap.passwordMode || passwordPromptPattern.search isWordByte false tail }

/-- The loop of `close` for one direction. -/
def flushBuffer (direction : Direction) (now : Int) : Nat → ConsoleTap → ConsoleTap
  | 0, tap => tap
  | n + 1, tap =>
    let data := (tap.buffer direction).data
    if data.isEmpty || tap.overBudget then tap
    else
      let size := min data.length maxChunkBytes
      flushBuffer direction now n (tap.emitBuffer direction size (decide (size < data.length)) now)

def close (tap : ConsoleTap) (now : Int) : ConsoleTap :=
  let tap := flushBuffer .«in» now (tap.buffer .«in»).data.length tap
  let tap := flushBuffer .out now (tap.buffer .out).data.length tap
  let (reconstructor, commands) := tap.reconstructor.flush alnum
  { tap with reconstructor }.emit commands

inductive Message where
  | fromClient (data : Bytes) (now : Int)
  | fromNode (data : Bytes) (now : Int)

def receive (tap : ConsoleTap) : Message → ConsoleTap
  | .fromClient data now => tap.fromClient data now
  | .fromNode data now => tap.fromNode alnum data now

def receiveAll (tap : ConsoleTap) (messages : List Message) : ConsoleTap :=
  messages.foldl (receive alnum) tap

end ConsoleTap

end OnlinetLabs.Console
