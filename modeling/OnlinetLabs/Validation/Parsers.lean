import OnlinetLabs.Console.Text
import OnlinetLabs.Validation.Runner

/-!
# What a device prints

The checks read what a console or vtysh prints by patterns and by columns. Letters and digits beyond
ASCII, `repr`, the cases of letters, the networks of `ipaddress` and the texts of exceptions are
Python's matter and a parameter.
-/

namespace OnlinetLabs.Validation

open Console (Text is isSpace isWord rstrip strip)
open Json (Fields)

/-- What Python does beyond this model. -/
structure Python where
  alnum : Char → Bool
  /-- The value of a decimal digit beyond ASCII. -/
  digit : Char → Option Nat
  lower : Text → Text
  upper : Text → Text
  repr : Json → String
  /-- `ip_address(addr) in ip_network(subnet, strict=False)`, and false where that raises
  `ValueError`. -/
  inNetwork : Text → Json → Bool
  /-- What an operation says that does not take values of this type. -/
  typeError : String → Json → String

/-! ### Classes of characters -/

namespace Python

variable (py : Python)

/-- `\d`. -/
def isDigit (c : Char) : Bool := if c.toNat < 128 then c.isDigit else (py.digit c).isSome

/-- `int` of a text of digits. -/
def int (digits : Text) : Nat :=
  digits.foldl (fun n c => 10 * n + if c.toNat < 128 then c.toNat - 48 else (py.digit c).getD 0) 0

end Python

/-- A letter as `re.IGNORECASE` compares it. -/
def caseless (c : Char) : Char :=
  if c.toNat = 0x130 ∨ c.toNat = 0x131 then 'i'
  else if c.toNat = 0x17f then 's'
  else if c.toNat = 0x212a then 'k'
  else c.toLower

def ignoringCase (text : String) : Pattern Char :=
  Pattern.text (text.toList.map fun c d => caseless d == caseless c)

def written (text : String) : Pattern Char := Pattern.text (text.toList.map is)

/-- `\s*`. -/
def spaces : Pattern Char := .many isSpace

/-- `\s+`. -/
def blanks : Pattern Char := .several isSpace

/-- `\S+`. -/
def column : Pattern Char := .several fun c => !isSpace c

/-! ### Methods of `str` -/

def lstrip (text : Text) : Text := text.dropWhile isSpace

def startsWith (start : String) (text : Text) : Bool := start.toList.isPrefixOf text

/-- `str.split`. -/
def split (text : Text) : List Text := (text.splitOnP isSpace).filter fun part => !part.isEmpty

/-- `text == value`. -/
def equals (text : Text) : Json → Bool
  | .str s => s.toList == text
  | _ => false

def textValue (text : Text) : Json := .str (String.ofList text)

/-- `str.splitlines`, as the parsers use it: each line without the blanks at its end, those that are
left. -/
def printedLines (stdout : Text) : List Text :=
  ((splitLinesFrom [] stdout).map rstrip).filter fun line => !line.isEmpty

/-! ### VPCS -/

structure ShownIp where
  ip : Text
  gateway : Text
deriving DecidableEq

/-- `{"ip": ..., "gateway": ...}`. -/
def ShownIp.actual (parsed : ShownIp) : Fields :=
  [("ip", textValue parsed.ip), ("gateway", textValue parsed.gateway)]

structure Pinged where
  received : Nat
  ttl : Option Nat
deriving DecidableEq

section Parsers

variable (py : Python)

/-- `<name>\s*:\s*(\S+)`, where it is found. -/
def shownField (name : String) (text : Text) : Text :=
  match findPieces (isWord py.alnum) [ignoringCase name, spaces, .one (is ':'), spaces, column]
    false text with
  | some [_, _, _, _, shown] => shown
  | _ => []

def parseShowIp (text : Text) : ShownIp where
  ip := shownField py "IP/MASK" text
  gateway := shownField py "GATEWAY" text

/-- `_PING_REPLY_RE`, from the start of a line. -/
def pingReply : List (Pattern Char) :=
  [spaces, .several py.isDigit, blanks, written "bytes", blanks, written "from", blanks, column]

def nextLine : Text → Option Text
  | [] => none
  | '\n' :: rest => some rest
  | _ :: rest => nextLine rest

/-- The matches of `_PING_REPLY_RE`, from the start of a line. -/
def countReplies : Nat → Text → Nat
  | 0, _ => 0
  | fuel + 1, line =>
    let reply := (piecewise (isWord py.alnum) (pingReply py) ⟨false, line⟩).head?
    -- A match may go over several lines, and the next one starts a line behind it.
    let behind := match reply with
      | some found => found.2.rest
      | none => line
    let later := match nextLine behind with
      | some next => countReplies fuel next
      | none => 0
    if reply.isSome then later + 1 else later

/-- The groups of `_PING_TTL_RE`. -/
def pingTtls (text : Text) : List Nat :=
  (findAll (isWord py.alnum) [.edge, ignoringCase "ttl=", .several py.isDigit] text.length
    (.start text)).map
    fun found => py.int (found.getLastD [])

def parsePing (text : Text) : Pinged where
  received := countReplies py (text.length + 1) text
  ttl := (pingTtls py text).getLast?

/-- `_PING_UNREACHABLE_RE.search`. -/
def saysUnreachable (text : Text) : Bool :=
  Pattern.search (isWord py.alnum)
    (.choice (ignoringCase "not reachable")
      [ignoringCase "timeout", ignoringCase "host unreachable"]) false text

/-- `_COMPARE_RE.match`: the operator, which is `=` where none is written, and the number. -/
def parseCompare (expected : Text) : Option (Text × Nat) :=
  let operator := Pattern.choice (written ">=")
      [written "<=", written "==", written "=", written ">", written "<"]
  match (piecewise (isWord py.alnum)
    [spaces, .opt operator, spaces, .several py.isDigit, spaces, .finish]
      (.start expected)).head? with
  | some ([_, op, _, target, _, _], _) => some (if op.isEmpty then ['='] else op, py.int target)
  | _ => none

def compareBy (op : Text) (actual target : Nat) : Bool :=
  if op = ['>', '='] then decide (target ≤ actual)
  else if op = ['<', '='] then decide (actual ≤ target)
  else if op = ['>'] then decide (target < actual)
  else if op = ['<'] then decide (actual < target)
  else actual == target

/-- `_matches`. To Python a truth value is a whole number. -/
def matchesExpected (actual : Option Nat) (expected : Option Json) : Bool :=
  match actual, expected with
  | some actual, some (.bool b) => actual == b.toNat
  | some actual, some (.num n) => decide (n = Numeral.ofNat actual)
  | some actual, some (.str s) =>
      (parseCompare py s.toList).any fun compare => compareBy compare.1 actual compare.2
  | _, _ => false

/-- `ip_with_mask.split("/", 1)[0].strip()`. -/
def bareAddress (ipWithMask : Text) : Text := strip (ipWithMask.takeWhile fun c => c != '/')

def ipInSubnet (ipWithMask : Text) (subnet : Json) : Bool :=
  let addr := bareAddress ipWithMask
  !addr.isEmpty && py.inNetwork addr subnet

/-! ### FRR and Cisco IOS -/

/-- The state of a neighbor in the table of `show ip ospf neighbor`. -/
def neighborState (stdout : Text) (neighborId : Json) : Option Text :=
  (printedLines stdout).findSome? fun line =>
    if startsWith "Neighbor ID" (lstrip line) then none
    else
      match (piecewise (isWord py.alnum)
        [spaces, column, blanks, .several py.isDigit, blanks, column]
          (.start line)).head? with
      | some ([_, id, _, _, _, state], _) => if equals id neighborId then some state else none
      | _ => none

def parseNeighborState (stdout : Text) (neighborId : Json) :
    Option Text := neighborState py stdout neighborId

def parseCiscoNeighbor (stdout : Text) (neighborId : Json) :
    Option Text := neighborState py stdout neighborId

/-- `\d+\.\d+\.\d+\.\d+/\d+`. -/
def routePrefix : Pattern Char :=
  let digits : Pattern Char := .several py.isDigit
  let dot : Pattern Char := .one (is '.')
  .inOrder [digits, dot, digits, dot, digits, dot, digits, .one (is '/'), digits]

/-- The code and the line of a route, with the marks that may stand in a code and the headers that
are left out. -/
def routeLine (isMark : Char → Bool) (headers : List String) (stdout : Text) (routedPrefix : Json) :
    Option (Text × Text) :=
  let code : Pattern Char := .seq (.one (·.isUpper)) (.many fun c => c.isUpper || isMark c)
  (printedLines stdout).findSome? fun line =>
    if headers.any (startsWith · (lstrip line)) then none
    else
      match (piecewise (isWord py.alnum) [spaces, code, blanks, routePrefix py, .edge]
        (.start line)).head? with
      | some ([_, code, _, found, _], _) =>
          if equals found routedPrefix then some (code, strip line) else none
      | _ => none

def parseRoute (stdout : Text) (routedPrefix : Json) : Option (Text × Text) :=
  routeLine py (fun c => c == '>' || c == '*') [] stdout routedPrefix

def parseCiscoRoute (stdout : Text) (routedPrefix : Json) : Option (Text × Text) :=
  routeLine py (is '*') ["Codes:", "Gateway of last resort"] stdout routedPrefix

end Parsers

structure CiscoInterface where
  ip : Text
  status : Text
  protocol : Text
deriving DecidableEq

/-- `_parse_cisco_interface`. A status of two words makes a seventh column. -/
def parseCiscoInterface (stdout : Text) (interface : Json) : Option CiscoInterface :=
  (printedLines stdout).findSome? fun line =>
    match split line with
    | name :: ip :: _ :: _ :: status :: protocol :: more =>
        if equals name interface then
          match more with
          | [] => some { ip, status, protocol }
          | [last] => some { ip, status := status ++ ' ' :: protocol, protocol := last }
          | _ =>
              let tail := (status :: protocol :: more).reverse
              some { ip, status := tail.getD 1 [], protocol := tail.getD 0 [] }
        else none
    | _ => none

end OnlinetLabs.Validation
