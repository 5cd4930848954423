import Mathlib.Algebra.Order.Field.Rat
import OnlinetLabs.Console.Text

/-!
# Commands from console output

The incremental parser of what a node prints. A line that begins with a prompt is an echoed command;
the lines up to the next prompt are its response. Instants are integers of microseconds.
-/

namespace OnlinetLabs.Console

open Pattern

/-! ### Patterns -/

/-- `_ANSI_RE`: control sequences, titles, character sets. -/
def ansiPattern : Pattern UInt8 :=
  choice
    (inOrder [one (is 0x1b), one (is (byte '[')),
      many (fun b => between (byte '0') (byte '9') b || isIn ";?" b),
      many (between (byte ' ') (byte '/')), one (between (byte '@') (byte '~'))])
    [inOrder [one (is 0x1b), one (is (byte ']')), many (fun b => b != 0x07 && b != 0x1b),
      alt (one (is 0x07)) (seq (one (is 0x1b)) (one (is (byte '\\'))))],
    inOrder [one (is 0x1b), one (isIn "()"), one (isIn "B0")]]

/-- `_MORE_RE`: the marker of a pager. -/
def morePattern : Pattern UInt8 :=
  inOrder [exactly "--", many isSpaceByte, exactly "More", many isSpaceByte, exactly "--"]

/-- `_CONTROL_RE`: bytes that are not text. -/
def controlPattern : Pattern UInt8 :=
  one fun b => between 0 8 b || b == 0x0b || b == 0x0c || between 0x0e 0x1f b || b == 0x7f

variable (alnum : Char → Bool)

/-- The group `prompt` of `_PROMPT_RE`. -/
def promptPattern : Pattern Char :=
  inOrder [several fun c => isWord alnum c || ".@:~/-[]".toList.contains c,
    opt (inOrder [one (is '('), many (· != ')'), one (is ')')]),
    opt (one isSpace),
    one fun c => "#>$".toList.contains c]

/-- `$`: the end of the text, or the line break it ends with. -/
def endOfLine : Pattern Char := alt finish (ahead (seq (one (is '\n')) finish))

/-- `_PROMPT_RE.match`: the groups `prompt` and `command`. -/
def matchPrompt (line : Text) : Option (Text × Text) :=
  let word := isWord alnum
  let start := Cursor.start line
  (((promptPattern alnum).ends word start).flatMap fun afterPrompt =>
    ((opt (one isSpace)).ends word afterPrompt).flatMap fun beforeCommand =>
      ((many (· != '\n')).ends word beforeCommand).flatMap fun afterCommand =>
        (endOfLine.ends word afterCommand).map fun _ =>
          (start.read afterPrompt, beforeCommand.read afterCommand)).head?

/-! ### Lines -/

def maxResponseChars : Nat := 256 * 1024

def maxBufferBytes : Nat := 8 * 1024

def maxPromptTailBytes : Nat := 512

/-- `pattern.sub(b"", data)`. -/
def remove (pattern : Pattern UInt8) (data : Bytes) : Bytes :=
  substituteAll isWordByte (fun c => (pattern.firstEnd isWordByte c).map fun next => ([], next))
    (.start data)

def applyBackspaces (data : Bytes) : Bytes :=
  data.foldl (fun out b => if b == 0x08 || b == 0x7f then out.dropLast else out ++ [b]) []

def clean (line : Bytes) : Text :=
  rstrip (decode
    (remove controlPattern (applyBackspaces (remove morePattern (remove ansiPattern line)))))

/-- `_LINE_BREAK_RE` from the head of `data` on: the lines that end in it and what is left. What
stands before `data` on its line is `line`. -/
def breakLines (line : Bytes) : Bytes → List Bytes × Bytes
  | [] => ([], line)
  | [b] => if isBreak b then ([line], []) else ([], line ++ [b])
  | b :: b' :: rest =>
    if b == cr && b' == lf then (line :: (breakLines [] rest).1, (breakLines [] rest).2)
    else if isBreak b then (line :: (breakLines [] (b' :: rest)).1, (breakLines [] (b' :: rest)).2)
    else breakLines (line ++ [b]) (b' :: rest)

/-! ### The parser -/

structure ReconstructedCommand where
  seq : Nat
  prompt : Text
  command : Text
  response : Text
  ts : Int
  durationMs : Option ℚ
deriving DecidableEq

/-- `ConsoleReconstructor`. -/
structure Reconstructor where
  buf : Bytes := []
  seq : Nat := 0
  current : Option ReconstructedCommand := none
  response : List Text := []
  responseChars : Nat := 0
  lastTs : Option Int := none
deriving DecidableEq

/-- The command drops the prompt as often as it is repeated at its head. -/
def dropPrompt (prompt : Text) : Nat → Text → Text
  | 0, command => command
  | n + 1, command =>
    if prompt.isPrefixOf command then dropPrompt prompt n (strip (command.drop prompt.length))
    else command

namespace Reconstructor

variable {alnum}

/-- `_close`, with what it appends to the finished commands. -/
def close (r : Reconstructor) (ts : Option Int) : Reconstructor × List ReconstructedCommand :=
  match r.current with
  | none => (r, [])
  | some command =>
    ({ r with current := none, response := [], responseChars := 0 },
      [{ command with
        response := stripNewlines (['\n'].intercalate r.response)
        durationMs := match ts with
          | none => command.durationMs
          | some ts => some (((ts - command.ts : Int) : ℚ) / 1000) }])

variable (alnum)

def consume (r : Reconstructor) (line : Text) (ts : Option Int) :
    Reconstructor × List ReconstructedCommand :=
  match if line.isEmpty then none else matchPrompt alnum line with
  | none =>
    if r.current.isSome && decide (r.responseChars < maxResponseChars) then
      ({ r with
        response := r.response ++ [line], responseChars := r.responseChars + line.length + 1 }, [])
    else (r, [])
  | some (prompt, text) =>
    let (r, finished) := r.close ts
    let command := dropPrompt prompt text.length (strip text)
    match ts with
    | none => (r, finished)
    | some ts =>
      if command.isEmpty then (r, finished)
      else
        ({ r with
          seq := r.seq + 1
          current := some { seq := r.seq + 1
                            prompt
                            command
                            response := []
                            ts
                            durationMs := none } },
          finished)

def consumeLines (r : Reconstructor) (ts : Option Int) :
    List Bytes → Reconstructor × List ReconstructedCommand
  | [] => (r, [])
  | line :: rest =>
    let (r, finished) := r.consume alnum (clean line) ts
    let (r, later) := consumeLines r ts rest
    (r, finished ++ later)

/-- The unterminated tail is bounded. -/
def trim (buf : Bytes) : Bytes :=
  if maxBufferBytes < buf.length then buf.drop (buf.length - maxBufferBytes / 2) else buf

def isPromptTail (buf : Bytes) : Bool :=
  decide (buf.length ≤ maxPromptTailBytes) && !(clean buf).isEmpty
    && (matchPrompt alnum (clean buf)).isSome

/-- `feed`. What was in the buffer before has been searched for line breaks already. -/
def feed (r : Reconstructor) (data : Bytes) (ts : Int) :
    Reconstructor × List ReconstructedCommand :=
  let r := { r with lastTs := some ts }
  let (lines, tail) := breakLines r.buf data
  let (r, finished) := r.consumeLines alnum (some ts) lines
  let r := { r with buf := trim tail }
  if isPromptTail alnum r.buf then
    let (r, closed) := r.close (some ts)
    (r, finished ++ closed)
  else (r, finished)

def flush (r : Reconstructor) : Reconstructor × List ReconstructedCommand :=
  let (r, finished) :=
    if r.buf.isEmpty then (r, [])
    else
      let (r, finished) := r.consume alnum (clean r.buf) r.lastTs
      ({ r with buf := [] }, finished)
  let (r, closed) := r.close r.lastTs
  (r, finished ++ closed)

def feedAll (r : Reconstructor) :
    List (Bytes × Int) → Reconstructor × List ReconstructedCommand
  | [] => (r, [])
  | (data, ts) :: rest =>
    let (r, finished) := r.feed alnum data ts
    let (r, later) := feedAll r rest
    (r, finished ++ later)

/-- Chunks fed in order to a new parser, and a flush. -/
def run (chunks : List (Bytes × Int)) : List ReconstructedCommand :=
  let (r, finished) := ({} : Reconstructor).feedAll alnum chunks
  finished ++ (r.flush alnum).2

end Reconstructor

inductive Direction where
  | «in»
  | out
deriving Repr, DecidableEq

/-- `reconstruct`, from stored frames. -/
def reconstruct (frames : List (Direction × Bytes × Int)) : List ReconstructedCommand :=
  Reconstructor.run alnum ((frames.filter fun frame => frame.1 = .out).map (·.2))

/-! ### Repeated prompts

The loop of `_consume` ends because a prompt is not empty, and it has as many steps as the command
has characters. -/

section Prompt

variable {alnum} {prompt text line command : Text} {n : Nat}

theorem length_strip_le (text : Text) : (strip text).length ≤ text.length := by
  calc (strip text).length ≤ (text.dropWhile isSpace).length :=
        (List.rdropWhile_prefix isSpace _).length_le
    _ ≤ text.length := (List.dropWhile_suffix isSpace).length_le

/-- **The loop has stopped for good.** -/
theorem not_prefix_dropPrompt (hprompt : prompt ≠ []) (hn : command.length ≤ n) :
    ¬ prompt <+: dropPrompt prompt n command := by
  induction n generalizing command with
  | zero =>
      rw [List.length_eq_zero_iff.mp (Nat.le_zero.mp hn), dropPrompt, List.prefix_nil]
      exact hprompt
  | succ n ih =>
      rw [dropPrompt]
      split
      · apply ih
        have hpositive := List.length_pos_iff.mpr hprompt
        calc (strip (command.drop prompt.length)).length
            ≤ (command.drop prompt.length).length := length_strip_le _
          _ = command.length - prompt.length := List.length_drop
          _ ≤ n := by omega
      · rename_i hnot
        rwa [List.isPrefixOf_iff_prefix] at hnot

end Prompt

end OnlinetLabs.Console
