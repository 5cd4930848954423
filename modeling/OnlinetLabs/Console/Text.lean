import Mathlib.Data.List.DropRight
import OnlinetLabs.Lib.Regex

/-!
# Bytes and text of a console

A console stream is a list of bytes. What a line says is text: a list of characters, decoded from
UTF-8 with the replacement character in the place of what is not UTF-8.
-/

namespace OnlinetLabs.Console

abbrev Bytes := List UInt8

abbrev Text := List Char

def byte (c : Char) : UInt8 := c.toNat.toUInt8

def bytes (s : String) : Bytes := s.toList.map byte

def cr : UInt8 := 13

def lf : UInt8 := 10

def isBreak (b : UInt8) : Bool := b == cr || b == lf

/-! ### Classes of symbols -/

def is {α : Type} [BEq α] (a : α) : α → Bool := (· == a)

def isIn (s : String) (b : UInt8) : Bool := (bytes s).contains b

def between (low high b : UInt8) : Bool := decide (low ≤ b) && decide (b ≤ high)

/-- `[a-zA-Z0-9_]`. -/
def isWordByte (b : UInt8) : Bool :=
  between (byte 'a') (byte 'z') b || between (byte 'A') (byte 'Z') b
    || between (byte '0') (byte '9') b || b == byte '_'

/-- `\s` of a bytes pattern. -/
def isSpaceByte (b : UInt8) : Bool := between 9 13 b || b == 32

/-- `[^\S\r\n]`: white space that ends no line. -/
def isBlank (b : UInt8) : Bool := isSpaceByte b && !isBreak b

def lowerByte (b : UInt8) : UInt8 := if between (byte 'A') (byte 'Z') b then b + 32 else b

def anyCase (s : String) : Pattern UInt8 :=
  Pattern.text ((bytes s).map fun c b => lowerByte b == c)

def exactly (s : String) : Pattern UInt8 := Pattern.text ((bytes s).map is)

/-- `str.isspace`, and `\s` of a text pattern. -/
def isSpace (c : Char) : Bool :=
  let n := c.toNat
  decide (9 ≤ n ∧ n ≤ 13) || decide (28 ≤ n ∧ n ≤ 32) || n == 0x85 || n == 0xa0 || n == 0x1680
    || decide (0x2000 ≤ n ∧ n ≤ 0x200a) || n == 0x2028 || n == 0x2029 || n == 0x202f
    || n == 0x205f || n == 0x3000

/-- `\w` of a text pattern. Which characters beyond ASCII are letters or digits is Unicode's
matter. -/
def isWord (alnum : Char → Bool) (c : Char) : Bool :=
  if c.toNat < 128 then c.isAlphanum || c == '_' else alnum c

/-- Letters and digits beyond ASCII, where there are none. -/
def asciiOnly : Char → Bool := fun _ => false

/-! ### Methods of `str` -/

def rstrip (text : Text) : Text := text.rdropWhile isSpace

def strip (text : Text) : Text := rstrip (text.dropWhile isSpace)

/-- `text.strip("\n")`. -/
def stripNewlines (text : Text) : Text := (text.dropWhile (is '\n')).rdropWhile (is '\n')

def encode (text : Text) : Bytes := text.flatMap String.utf8EncodeChar

/-! ### UTF-8 -/

def replacementChar : Char := Char.ofNat 0xfffd

/-- A character some bytes of which have been read: the bits so far, how many bytes are missing, and
the bounds of the next one. -/
structure Incomplete where
  bits : Nat
  missing : Nat
  low : Nat
  high : Nat

def leadByte (b : Nat) : Text × Option Incomplete :=
  if b < 0x80 then ([Char.ofNat b], none)
  else if b < 0xc2 then ([replacementChar], none)
  else if b < 0xe0 then ([], some ⟨b - 0xc0, 1, 0x80, 0xbf⟩)
  else if b < 0xf0 then
    ([], some ⟨b - 0xe0, 2, if b = 0xe0 then 0xa0 else 0x80, if b = 0xed then 0x9f else 0xbf⟩)
  else if b < 0xf5 then
    ([], some ⟨b - 0xf0, 3, if b = 0xf0 then 0x90 else 0x80, if b = 0xf4 then 0x8f else 0xbf⟩)
  else ([replacementChar], none)

/-- `bytes.decode("utf-8", errors="replace")`: what cannot be continued to a character is replaced,
all of it by one replacement character. -/
def decodeFrom : Option Incomplete → Bytes → Text
  | none, [] => []
  | some _, [] => [replacementChar]
  | none, b :: rest => (leadByte b.toNat).1 ++ decodeFrom (leadByte b.toNat).2 rest
  | some pending, b :: rest =>
    if pending.low ≤ b.toNat ∧ b.toNat ≤ pending.high then
      let bits := pending.bits * 64 + b.toNat % 64
      if pending.missing = 1 then Char.ofNat bits :: decodeFrom none rest
      else decodeFrom (some ⟨bits, pending.missing - 1, 0x80, 0xbf⟩) rest
    else replacementChar :: ((leadByte b.toNat).1 ++ decodeFrom (leadByte b.toNat).2 rest)

def decode (data : Bytes) : Text := decodeFrom none data

end OnlinetLabs.Console
