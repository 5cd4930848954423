import Mathlib.Data.List.Basic
import Mathlib.Data.List.TakeWhile

/-!
# JSON

Values, the text that Python's `json.dumps` writes for one, and what JavaScript's `JSON.parse` reads
from a text. A number is its numeral, so a value is what both languages can hold alike. Of two
fields with one name the later counts, which `field?` sees to.
-/

/-! ### Numerals -/

namespace Numeral

def isChar (c : Char) : Bool :=
  c.isDigit || c == '-' || c == '+' || c == '.' || c == 'e' || c == 'E'

def unsigned : List Char → List Char
  | '-' :: rest | '+' :: rest => rest
  | text => text

def isDigits (text : List Char) : Bool := !text.isEmpty && text.all Char.isDigit

def isExponent : List Char → Bool
  | [] => true
  | c :: rest => (c == 'e' || c == 'E') && isDigits (unsigned rest)

def isFraction : List Char → Bool
  | '.' :: rest =>
      !(rest.takeWhile Char.isDigit).isEmpty && isExponent (rest.dropWhile Char.isDigit)
  | text => isExponent text

/-- A whole number without a leading zero, then perhaps a fraction and an exponent. -/
def isMagnitude (text : List Char) : Bool :=
  let whole := text.takeWhile Char.isDigit
  (whole == ['0'] || (!whole.isEmpty && whole.head? != some '0'))
    && isFraction (text.dropWhile Char.isDigit)

def isText : List Char → Bool
  | '-' :: rest => isMagnitude rest
  | text => isMagnitude text

end Numeral

structure Numeral where
  text : List Char
  valid : Numeral.isText text = true
deriving DecidableEq

namespace Numeral

variable {text : List Char} {c : Char}

theorem isChar_of_isDigit (h : c.isDigit = true) : isChar c = true := by
  simp [isChar, h]

theorem forall_mem_takeWhile_isDigit : ∀ c ∈ text.takeWhile Char.isDigit, isChar c = true :=
  fun _ hc => isChar_of_isDigit (List.mem_takeWhile_imp hc)

theorem forall_mem_of_isDigits (h : isDigits text = true) : ∀ c ∈ text, isChar c = true := by
  simp only [isDigits, Bool.and_eq_true, List.all_eq_true] at h
  exact fun c hc => isChar_of_isDigit (h.2 c hc)

theorem forall_mem_of_unsigned (h : ∀ c ∈ unsigned text, isChar c = true) :
    ∀ c ∈ text, isChar c = true := by
  unfold unsigned at h
  split at h
  · exact List.forall_mem_cons.mpr ⟨rfl, h⟩
  · exact List.forall_mem_cons.mpr ⟨rfl, h⟩
  · exact h

theorem forall_mem_of_isExponent (h : isExponent text = true) : ∀ c ∈ text, isChar c = true := by
  cases text with
  | nil => simp
  | cons c rest =>
      simp only [isExponent, Bool.and_eq_true, Bool.or_eq_true, beq_iff_eq] at h
      refine List.forall_mem_cons.mpr ⟨?_, forall_mem_of_unsigned (forall_mem_of_isDigits h.2)⟩
      rcases h.1 with rfl | rfl
      · rfl
      · rfl

theorem forall_mem_of_isFraction (h : isFraction text = true) : ∀ c ∈ text, isChar c = true := by
  unfold isFraction at h
  split at h
  · rename_i rest
    simp only [Bool.and_eq_true] at h
    refine List.forall_mem_cons.mpr ⟨rfl, ?_⟩
    rw [← List.takeWhile_append_dropWhile (p := Char.isDigit) (l := rest)]
    exact List.forall_mem_append.mpr ⟨forall_mem_takeWhile_isDigit, forall_mem_of_isExponent h.2⟩
  · exact forall_mem_of_isExponent h

theorem forall_mem_of_isMagnitude (h : isMagnitude text = true) : ∀ c ∈ text, isChar c = true := by
  simp only [isMagnitude, Bool.and_eq_true] at h
  rw [← List.takeWhile_append_dropWhile (p := Char.isDigit) (l := text)]
  exact List.forall_mem_append.mpr ⟨forall_mem_takeWhile_isDigit, forall_mem_of_isFraction h.2⟩

theorem ne_nil_of_isMagnitude (h : isMagnitude text = true) : text ≠ [] := by
  rintro rfl
  simp [isMagnitude] at h

theorem forall_mem (n : Numeral) : ∀ c ∈ n.text, isChar c = true := by
  have h := n.valid
  unfold isText at h
  split at h
  · rename_i rest heq
    rw [heq]
    exact List.forall_mem_cons.mpr ⟨rfl, forall_mem_of_isMagnitude h⟩
  · exact forall_mem_of_isMagnitude h

theorem ne_nil (n : Numeral) : n.text ≠ [] := by
  have h := n.valid
  unfold isText at h
  split at h
  · rename_i rest heq
    rw [heq]
    exact List.cons_ne_nil _ _
  · exact ne_nil_of_isMagnitude h

theorem isText_of_isDigits (h : isDigits text = true)
    (hhead : text = ['0'] ∨ text.head? ≠ some '0') :
    isText text = true := by
  simp only [isDigits, Bool.and_eq_true, List.all_eq_true] at h
  have htake : text.takeWhile Char.isDigit = text := List.takeWhile_eq_self_iff.mpr h.2
  have hdrop : text.dropWhile Char.isDigit = [] := List.dropWhile_eq_nil_iff.mpr h.2
  have hmagnitude : isMagnitude text = true := by
    simp only [isMagnitude, htake, hdrop, isFraction, isExponent, Bool.and_true, Bool.or_eq_true,
      Bool.and_eq_true, beq_iff_eq, bne_iff_ne]
    exact hhead.imp_right fun hne => ⟨h.1, hne⟩
  unfold isText
  split
  · have hminus := h.2 '-' List.mem_cons_self
    cases hminus
  · exact hmagnitude

theorem isDigits_toDigits (n : Nat) : isDigits (Nat.toDigits 10 n) = true := by
  simp only [isDigits, Bool.and_eq_true, Bool.not_eq_true', List.isEmpty_eq_false_iff,
    List.all_eq_true]
  exact ⟨Nat.toDigits_ne_nil, fun c hc => Nat.isDigit_of_mem_toDigits (by decide) (by decide) hc⟩

theorem head?_toDigits {n : Nat} (hn : 0 < n) : (Nat.toDigits 10 n).head? ≠ some '0' := by
  induction n using Nat.strongRecOn with
  | ind n ih =>
      by_cases hsmall : n < 10
      · rw [Nat.toDigits_of_lt_base hsmall]
        have hdigit : ∀ d < 10, 0 < d → [d.digitChar].head? ≠ some '0' := by decide
        exact hdigit n hsmall hn
      · have hle : 10 ≤ n := by omega
        rw [Nat.toDigits_of_base_le (by decide) hle,
          List.head?_append_of_ne_nil _ Nat.toDigits_ne_nil]
        exact ih (n / 10) (by omega) (by omega)

def ofNat (n : Nat) : Numeral where
  text := Nat.toDigits 10 n
  valid := by
    apply isText_of_isDigits (isDigits_toDigits n)
    rcases Nat.eq_zero_or_pos n with rfl | hn
    · exact Or.inl rfl
    · exact Or.inr (head?_toDigits hn)

end Numeral

inductive Json where
  | null
  | bool (b : Bool)
  | num (n : Numeral)
  | str (s : String)
  | arr (items : List Json)
  | obj (fields : List (String × Json))

namespace Json

abbrev Fields := List (String × Json)

def field? (name : String) : Json → Option Json
  | obj fields => (fields.reverse.find? (·.1 == name)).map (·.2)
  | _ => none

/-- How both languages write a natural number. -/
def ofNat (n : Nat) : Json := num (Numeral.ofNat n)

/-! ### json.dumps -/

def hexDigit (n : Nat) : Char := Char.ofNat (if n < 10 then 48 + n else 87 + n)

/-- `'\\u{0:04x}'` of a code unit. -/
def unicodeEscape (n : Nat) : List Char :=
  ['\\', 'u', hexDigit (n / 4096 % 16), hexDigit (n / 256 % 16), hexDigit (n / 16 % 16),
    hexDigit (n % 16)]

/-- How `ensure_ascii=False` writes a character of a string. -/
def escape (c : Char) : List Char :=
  if c = '"' then ['\\', '"']
  else if c = '\\' then ['\\', '\\']
  else if c = '\n' then ['\\', 'n']
  else if c = '\r' then ['\\', 'r']
  else if c = '\t' then ['\\', 't']
  else if c.toNat = 12 then ['\\', 'f']
  else if c.toNat = 8 then ['\\', 'b']
  else if c.toNat < 32 then unicodeEscape c.toNat
  else [c]

/-- How `ensure_ascii=True` does: beyond ASCII by UTF-16 code units. -/
def escapeAscii (c : Char) : List Char :=
  if c.toNat < 127 then escape c
  else if c.toNat < 0x10000 then unicodeEscape c.toNat
  else
    let n := c.toNat - 0x10000
    unicodeEscape (0xd800 + n / 1024) ++ unicodeEscape (0xdc00 + n % 1024)

def quote (esc : Char → List Char) (s : String) :
    List Char := '"' :: (s.toList.flatMap esc ++ ['"'])

mutual

/-- `json.dumps(value)`, with the way its characters are escaped. -/
def dumps (esc : Char → List Char) : Json → List Char
  | null => ['n', 'u', 'l', 'l']
  | bool true => ['t', 'r', 'u', 'e']
  | bool false => ['f', 'a', 'l', 's', 'e']
  | num n => n.text
  | str s => quote esc s
  | arr [] => ['[', ']']
  | arr (item :: items) => '[' :: (dumps esc item ++ dumpsItems esc items)
  | obj [] => ['{', '}']
  | obj ((name, value) :: fields) =>
      '{' :: (quote esc name ++ ':' :: ' ' :: (dumps esc value ++ dumpsFields esc fields))

def dumpsItems (esc : Char → List Char) : List Json → List Char
  | [] => [']']
  | item :: items => ',' :: ' ' :: (dumps esc item ++ dumpsItems esc items)

def dumpsFields (esc : Char → List Char) : Fields → List Char
  | [] => ['}']
  | (name, value) :: fields =>
      ',' :: ' ' :: (quote esc name ++ ':' :: ' ' :: (dumps esc value ++ dumpsFields esc fields))

end

mutual

/-- A value as `sort_keys=True` orders it. -/
def sortKeys : Json → Json
  | null => null
  | bool b => bool b
  | num n => num n
  | str s => str s
  | arr items => arr (sortKeysItems items)
  | obj fields => obj ((sortKeysFields fields).mergeSort fun a b => !decide (b.1 < a.1))

def sortKeysItems : List Json → List Json
  | [] => []
  | item :: items => sortKeys item :: sortKeysItems items

def sortKeysFields : Fields → Fields
  | [] => []
  | (name, value) :: fields => (name, sortKeys value) :: sortKeysFields fields

end

/-- `json.dumps(value, sort_keys=True)`. -/
def dumpsSorted (value : Json) : String := String.ofList (dumps escapeAscii (sortKeys value))

def truthy : Json → Bool
  | null => false
  | bool b => b
  | num n => (n.text.takeWhile fun c => c != 'e' && c != 'E').any fun c => c.isDigit && c != '0'
  | str s => s != ""
  | arr items => !items.isEmpty
  | obj fields => !fields.isEmpty

/-! ### JSON.parse -/

def isSpace (c : Char) : Bool := c == ' ' || c == '\n' || c == '\r' || c == '\t'

def skipSpace (text : List Char) : List Char := text.dropWhile isSpace

def hexValue? (c : Char) : Option Nat :=
  let n := c.toNat
  if 48 ≤ n ∧ n ≤ 57 then some (n - 48)
  else if 97 ≤ n ∧ n ≤ 102 then some (n - 87)
  else if 65 ≤ n ∧ n ≤ 70 then some (n - 55)
  else none

def codeUnit? (a b c d : Char) : Option Nat := do
  return ((← hexValue? a) * 16 + (← hexValue? b)) * 256 + (← hexValue? c) * 16 + (← hexValue? d)

def simpleEscape? : Char → Option Char
  | '"' => some '"'
  | '\\' => some '\\'
  | '/' => some '/'
  | 'b' => some (Char.ofNat 8)
  | 'f' => some (Char.ofNat 12)
  | 'n' => some '\n'
  | 'r' => some '\r'
  | 't' => some '\t'
  | _ => none

/-- What follows the opening quote of a string. A lone surrogate, which no character is, is turned
away. -/
def parseString : List Char → Option (List Char × List Char)
  | [] => none
  | '"' :: rest => some ([], rest)
  | '\\' :: 'u' :: a :: b :: c :: d :: rest =>
      match codeUnit? a b c d with
      | none => none
      | some unit =>
          if unit < 0xd800 ∨ 0xe000 ≤ unit then
            (parseString rest).map fun r => (Char.ofNat unit :: r.1, r.2)
          else
            match rest with
            | '\\' :: 'u' :: a' :: b' :: c' :: d' :: rest' =>
                match codeUnit? a' b' c' d' with
                | none => none
                | some low =>
                    if unit < 0xdc00 ∧ 0xdc00 ≤ low ∧ low < 0xe000 then
                      (parseString rest').map fun r =>
                        (Char.ofNat (0x10000 + (unit - 0xd800) * 1024 + (low - 0xdc00)) :: r.1, r.2)
                    else none
            | _ => none
  | '\\' :: c :: rest =>
      match simpleEscape? c with
      | none => none
      | some c => (parseString rest).map fun r => (c :: r.1, r.2)
  | c :: rest =>
      if c.toNat < 32 ∨ c = '\\' then none else (parseString rest).map fun r => (c :: r.1, r.2)

def parseNumeral (text : List Char) : Option (Json × List Char) :=
  let token := text.takeWhile Numeral.isChar
  if h : Numeral.isText token = true
    then some (num ⟨token, h⟩, text.dropWhile Numeral.isChar) else none

/-- A string used as a name, and the colon after it. -/
def parseName : List Char → Option (String × List Char)
  | '"' :: rest =>
      match parseString rest with
      | none => none
      | some (name, rest) =>
          match skipSpace rest with
          | ':' :: rest => some (String.ofList name, rest)
          | _ => none
  | _ => none

mutual

/-- One value at the beginning of a text, nested at most as deep as the fuel. -/
def parseValue : Nat → List Char → Option (Json × List Char)
  | 0, _ => none
  | fuel + 1, text =>
      match text with
      | '"' :: rest => (parseString rest).map fun r => (str (String.ofList r.1), r.2)
      | '[' :: rest =>
          match skipSpace rest with
          | ']' :: rest => some (arr [], rest)
          | rest => (parseItems fuel rest).map fun r => (arr r.1, r.2)
      | '{' :: rest =>
          match skipSpace rest with
          | '}' :: rest => some (obj [], rest)
          | rest => (parseFields fuel rest).map fun r => (obj r.1, r.2)
      | 'n' :: 'u' :: 'l' :: 'l' :: rest => some (null, rest)
      | 't' :: 'r' :: 'u' :: 'e' :: rest => some (bool true, rest)
      | 'f' :: 'a' :: 'l' :: 's' :: 'e' :: rest => some (bool false, rest)
      | text => parseNumeral text

def parseItems : Nat → List Char → Option (List Json × List Char)
  | 0, _ => none
  | fuel + 1, text =>
      match parseValue fuel (skipSpace text) with
      | none => none
      | some (item, rest) =>
          match skipSpace rest with
          | ']' :: rest => some ([item], rest)
          | ',' :: rest => (parseItems fuel rest).map fun r => (item :: r.1, r.2)
          | _ => none

def parseFields : Nat → List Char → Option (Fields × List Char)
  | 0, _ => none
  | fuel + 1, text =>
      match parseName (skipSpace text) with
      | none => none
      | some (name, rest) =>
          match parseValue fuel (skipSpace rest) with
          | none => none
          | some (value, rest) =>
              match skipSpace rest with
              | '}' :: rest => some ([(name, value)], rest)
              | ',' :: rest => (parseFields fuel rest).map fun r => ((name, value) :: r.1, r.2)
              | _ => none

end

/-- `JSON.parse`, or `none` where it throws. -/
def parse (text : List Char) : Option Json :=
  match parseValue (text.length + 1) (skipSpace text) with
  | none => none
  | some (value, rest) => if (skipSpace rest).isEmpty then some value else none

/-! ### What is written is read back -/

/-- No numeral goes on here. -/
def Delimited (rest : List Char) : Prop := ∀ c ∈ rest.head?, Numeral.isChar c = false

theorem parseNumeral_append {n : Numeral} {rest : List Char} (hrest : Delimited rest) :
    parseNumeral (n.text ++ rest) = some (num n, rest) := by
  have htake : (n.text ++ rest).takeWhile Numeral.isChar = n.text := by
    rw [List.takeWhile_append_of_pos n.forall_mem]
    cases rest with
    | nil => simp
    | cons c rest => simp [hrest c rfl]
  have hdrop : (n.text ++ rest).dropWhile Numeral.isChar = rest := by
    rw [List.dropWhile_append_of_pos n.forall_mem]
    cases rest with
    | nil => simp
    | cons c rest => simp [hrest c rfl]
  simp only [parseNumeral, htake, hdrop, n.valid, dite_true]

section Strings

variable {c : Char} {s rest : List Char}

/-- What is written for a character is read as that character. -/
def Readable (esc : Char → List Char) : Prop :=
  ∀ c rest, parseString (esc c ++ rest) = (parseString rest).map fun r => (c :: r.1, r.2)

theorem hexValue?_hexDigit : ∀ n < 16, hexValue? (hexDigit n) = some n := by
  decide

theorem codeUnit?_hexDigit {n : Nat} (hn : n < 0x10000) :
    codeUnit? (hexDigit (n / 4096 % 16)) (hexDigit (n / 256 % 16)) (hexDigit (n / 16 % 16))
      (hexDigit (n % 16))
      = some n := by
  have hdigit : ∀ m, hexValue? (hexDigit (m % 16)) = some (m % 16) :=
    fun m => hexValue?_hexDigit _ (Nat.mod_lt m (by decide))
  have hsum : (n / 4096 % 16 * 16 + n / 256 % 16) * 256 + n / 16 % 16 * 16 + n % 16 = n := by omega
  simp only [codeUnit?, hdigit, Option.bind_eq_bind, Option.bind_some, Option.pure_def, hsum]

theorem parseString_simpleEscape {d : Char} (hc : c ≠ 'u') (h : simpleEscape? c = some d)
    (rest : List Char) :
    parseString ('\\' :: c :: rest) = (parseString rest).map fun r => (d :: r.1, r.2) := by
  rw [parseString, h]
  intro _ _ _ _ _ hu
  exact absurd hu hc

theorem readable_escape : Readable escape := by
  intro c rest
  unfold escape
  split_ifs with hquote hslash hn hr ht hf hb hcontrol
  · subst hquote
    exact parseString_simpleEscape (by decide) rfl rest
  · subst hslash
    exact parseString_simpleEscape (by decide) rfl rest
  · subst hn
    exact parseString_simpleEscape (by decide) rfl rest
  · subst hr
    exact parseString_simpleEscape (by decide) rfl rest
  · subst ht
    exact parseString_simpleEscape (by decide) rfl rest
  · rw [← Char.ofNat_toNat c, hf]
    exact parseString_simpleEscape (by decide) rfl rest
  · rw [← Char.ofNat_toNat c, hb]
    exact parseString_simpleEscape (by decide) rfl rest
  · have hsmall : c.toNat < 0xd800 := by omega
    simp only [unicodeEscape, List.cons_append, List.nil_append, parseString,
      codeUnit?_hexDigit (n := c.toNat) (by omega), hsmall, true_or, if_true, Char.ofNat_toNat]
  · rw [List.singleton_append, parseString.eq_def]
    split
    · rename_i hnil
      cases hnil
    · rename_i heq
      exact absurd (List.cons.inj heq).1 hquote
    · rename_i heq
      exact absurd (List.cons.inj heq).1 hslash
    · rename_i heq
      exact absurd (List.cons.inj heq).1 hslash
    · rename_i heq
      obtain ⟨rfl, rfl⟩ := List.cons.inj heq
      rw [if_neg (not_or.mpr ⟨hcontrol, hslash⟩)]

theorem readable_escapeAscii : Readable escapeAscii := by
  intro c rest
  unfold escapeAscii
  split_ifs with hascii hunit
  · exact readable_escape c rest
  · have hvalid : c.toNat < 0xd800 ∨ 0xe000 ≤ c.toNat := by
      rcases c.valid with hlow | ⟨hhigh, -⟩
      · exact Or.inl hlow
      · exact Or.inr hhigh
    simp only [unicodeEscape, List.cons_append, List.nil_append, parseString,
      codeUnit?_hexDigit hunit, hvalid, if_true, Char.ofNat_toNat]
  · have hmax : c.toNat < 0x110000 := by
      rcases c.valid with hlow | ⟨-, hhigh⟩
      · exact Nat.lt_trans hlow (by decide)
      · exact hhigh
    have hhigh : 0xd800 + (c.toNat - 0x10000) / 1024 < 0xdc00 := by omega
    have hlow : 0xdc00 + (c.toNat - 0x10000) % 1024 < 0xe000 := by omega
    have hfirst := codeUnit?_hexDigit (n := 0xd800 + (c.toNat - 0x10000) / 1024) (by omega)
    have hsecond := codeUnit?_hexDigit (n := 0xdc00 + (c.toNat - 0x10000) % 1024) (by omega)
    have hpair : 0x10000 + (0xd800 + (c.toNat - 0x10000) / 1024 - 0xd800) * 1024
        + (0xdc00 + (c.toNat - 0x10000) % 1024 - 0xdc00) = c.toNat := by
      omega
    have hsurrogate : ¬ (0xd800 + (c.toNat - 0x10000) / 1024 < 0xd800
        ∨ 0xe000 ≤ 0xd800 + (c.toNat - 0x10000) / 1024) := by
      omega
    have hboth : 0xd800 + (c.toNat - 0x10000) / 1024 < 0xdc00
        ∧ 0xdc00 ≤ 0xdc00 + (c.toNat - 0x10000) % 1024
        ∧ 0xdc00 + (c.toNat - 0x10000) % 1024 < 0xe000 := by
      omega
    simp only [unicodeEscape, List.cons_append, List.nil_append, parseString, hfirst, hsecond,
      hsurrogate, hboth, hpair, if_false, and_self, if_true, Char.ofNat_toNat]

variable {esc : Char → List Char}

theorem parseString_flatMap (hesc : Readable esc) :
    parseString (s.flatMap esc ++ '"' :: rest) = some (s, rest) := by
  induction s with
  | nil => simp [parseString]
  | cons c s ih =>
      rw [List.flatMap_cons, List.append_assoc, hesc, ih]
      rfl

end Strings

section Values

mutual

/-- How deep the parser goes into a value, at most. -/
def size : Json → Nat
  | null | bool _ | num _ | str _ => 1
  | arr items => 1 + sizeItems items
  | obj fields => 1 + sizeFields fields

def sizeItems : List Json → Nat
  | [] => 0
  | item :: items => 1 + size item + sizeItems items

def sizeFields : Fields → Nat
  | [] => 0
  | (_, value) :: fields => 1 + size value + sizeFields fields

end

variable {esc : Char → List Char} {value : Json} {text rest : List Char} {name : String}
  {fuel : Nat}

theorem skipSpace_cons {c : Char} (h : isSpace c = false) : skipSpace (c :: rest) = c :: rest :=
  List.dropWhile_cons_of_neg (by simp [h])

theorem skipSpace_space : skipSpace (' ' :: rest) = skipSpace rest :=
  List.dropWhile_cons_of_pos rfl

theorem isSpace_of_isChar {c : Char} (h : Numeral.isChar c = true) :
    isSpace c = false
      ∧ c ≠ ']' ∧ c ≠ '}' ∧ c ≠ '"' ∧ c ≠ '[' ∧ c ≠ '{' ∧ c ≠ 'n' ∧ c ≠ 't' ∧ c ≠ 'f' := by
  have hne : ∀ d : Char, Numeral.isChar d = false → c ≠ d := by
    rintro d hd rfl
    rw [h] at hd
    cases hd
  refine ⟨?_, hne _ rfl, hne _ rfl, hne _ rfl, hne _ rfl, hne _ rfl, hne _ rfl,
    hne _ rfl, hne _ rfl⟩
  simp [isSpace, hne ' ' rfl, hne '\n' rfl, hne '\r' rfl, hne '\t' rfl]

/-- A written value begins with a character that ends no list and no white space. -/
theorem exists_dumps_eq_cons (value : Json) : ∃ c rest, dumps esc value = c :: rest
    ∧ isSpace c = false ∧ c ≠ ']' ∧ c ≠ '}' := by
  cases value with
  | null => exact ⟨_, _, rfl, rfl, by decide, by decide⟩
  | bool b =>
      cases b with
      | false => exact ⟨_, _, rfl, rfl, by decide, by decide⟩
      | true => exact ⟨_, _, rfl, rfl, by decide, by decide⟩
  | num n =>
      obtain ⟨c, rest, htext⟩ := List.exists_cons_of_ne_nil n.ne_nil
      have hc := isSpace_of_isChar (n.forall_mem c (htext ▸ List.mem_cons_self))
      exact ⟨c, rest, by rw [dumps, htext], hc.1, hc.2.1, hc.2.2.1⟩
  | str s => exact ⟨_, _, rfl, rfl, by decide, by decide⟩
  | arr items =>
      cases items with
      | nil => exact ⟨_, _, rfl, rfl, by decide, by decide⟩
      | cons item items => exact ⟨_, _, rfl, rfl, by decide, by decide⟩
  | obj fields =>
      cases fields with
      | nil => exact ⟨_, _, rfl, rfl, by decide, by decide⟩
      | cons field fields => exact ⟨_, _, rfl, rfl, by decide, by decide⟩

theorem skipSpace_dumps (value : Json) (rest : List Char) :
    skipSpace (dumps esc value ++ rest) = dumps esc value ++ rest := by
  obtain ⟨c, tail, heq, hspace, -, -⟩ := exists_dumps_eq_cons value
  rw [heq, List.cons_append, skipSpace_cons hspace]

theorem parseName_quote (hesc : Readable esc) :
    parseName (quote esc name ++ ':' :: rest) = some (name, rest) := by
  simp only [quote, List.cons_append, List.append_assoc, List.nil_append, parseName,
    parseString_flatMap hesc, skipSpace_cons (c := ':') rfl, String.ofList_toList]

theorem parseValue_num {n : Numeral} (hrest : Delimited rest) :
    parseValue (fuel + 1) (n.text ++ rest) = some (num n, rest) := by
  obtain ⟨c, tail, htext⟩ := List.exists_cons_of_ne_nil n.ne_nil
  obtain ⟨-, -, -, hquote, hbracket, hbrace, hn, ht, hf⟩ :=
    isSpace_of_isChar (n.forall_mem c (htext ▸ List.mem_cons_self))
  rw [← parseNumeral_append hrest, htext, List.cons_append, parseValue]
  all_goals simp [hquote, hbracket, hbrace, hn, ht, hf]

theorem skipSpace_quote : skipSpace (quote esc name ++ rest) = quote esc name ++ rest :=
  skipSpace_cons rfl

theorem parseItems_space : parseItems fuel (' ' :: text) = parseItems fuel text := by
  cases fuel with
  | zero => rfl
  | succ fuel => rw [parseItems, parseItems, skipSpace_space]

theorem parseFields_space : parseFields fuel (' ' :: text) = parseFields fuel text := by
  cases fuel with
  | zero => rfl
  | succ fuel => rw [parseFields, parseFields, skipSpace_space]

theorem parseValue_arr_cons {item : Json} {items : List Json} :
    parseValue (fuel + 1) (dumps esc (arr (item :: items)) ++ rest)
      = (parseItems fuel (dumps esc item ++ (dumpsItems esc items ++ rest))).map
          fun r => (arr r.1, r.2) := by
  obtain ⟨c, tail, heq, hspace, hbracket, -⟩ := exists_dumps_eq_cons item
  rw [dumps, List.cons_append, List.append_assoc, parseValue, skipSpace_dumps, heq]
  simp [hbracket]

theorem parseValue_obj_cons {fields : Fields} :
    parseValue (fuel + 1) (dumps esc (obj ((name, value) :: fields)) ++ rest)
      = (parseFields fuel (quote esc name ++ ':' :: ' ' :: (dumps esc value
          ++ (dumpsFields esc fields ++ rest)))).map fun r => (obj r.1, r.2) := by
  rw [dumps, List.cons_append, parseValue, quote]
  simp [skipSpace_cons (c := '"') rfl]

mutual

theorem parseValue_dumps (hesc : Readable esc) : ∀ (value : Json) (fuel : Nat) (rest : List Char),
    size value ≤ fuel →
    Delimited rest → parseValue fuel (dumps esc value ++ rest) = some (value, rest)
  | value, 0, _, hfuel, _ => by cases value <;> simp [size] at hfuel
  | null, fuel + 1, rest, _, _ => by simp [dumps, parseValue]
  | bool true, fuel + 1, rest, _, _ => by simp [dumps, parseValue]
  | bool false, fuel + 1, rest, _, _ => by simp [dumps, parseValue]
  | num n, fuel + 1, rest, _, hrest => by rw [dumps, parseValue_num hrest]
  | str s, fuel + 1, rest, _, _ => by
      simp [dumps, quote, parseValue, parseString_flatMap hesc]
  | arr [], fuel + 1, rest, _, _ => by simp [dumps, parseValue, skipSpace_cons (c := ']') rfl]
  | arr (item :: items), fuel + 1, rest, hfuel, _ => by
      have hsize : size item + sizeItems items < fuel := by
        simp only [size, sizeItems] at hfuel
        omega
      rw [parseValue_arr_cons, parseItems_dumps hesc items item fuel rest hsize]
      rfl
  | obj [], fuel + 1, rest, _, _ => by simp [dumps, parseValue, skipSpace_cons (c := '}') rfl]
  | obj ((name, value) :: fields), fuel + 1, rest, hfuel, _ => by
      have hsize : size value + sizeFields fields < fuel := by
        simp only [size, sizeFields] at hfuel
        omega
      rw [parseValue_obj_cons, parseFields_dumps hesc fields name value fuel rest hsize]
      rfl

theorem parseItems_dumps (hesc : Readable esc) : ∀ (items : List Json) (item : Json) (fuel : Nat)
    (rest : List Char),
    size item + sizeItems items < fuel →
    parseItems fuel (dumps esc item ++ (dumpsItems esc items ++ rest)) = some (item :: items, rest)
  | _, _, 0, _, hfuel => absurd hfuel (Nat.not_lt_zero _)
  | [], item, fuel + 1, rest, hfuel => by
      have hitem : size item ≤ fuel := by omega
      have hdelimited : Delimited (']' :: rest) := by simp [Delimited, Numeral.isChar]
      rw [parseItems, skipSpace_dumps, dumpsItems, List.singleton_append,
        parseValue_dumps hesc item fuel _ hitem hdelimited]
      simp [skipSpace_cons (c := ']') rfl]
  | next :: items, item, fuel + 1, rest, hfuel => by
      simp only [sizeItems] at hfuel
      have hitem : size item ≤ fuel := by omega
      have hitems : size next + sizeItems items < fuel := by omega
      have hdelimited :
          Delimited (',' :: ' ' :: (dumps esc next ++ (dumpsItems esc items ++ rest))) := by
        simp [Delimited, Numeral.isChar]
      rw [parseItems, skipSpace_dumps, dumpsItems, List.cons_append, List.cons_append,
        List.append_assoc, parseValue_dumps hesc item fuel _ hitem hdelimited]
      simp [skipSpace_cons (c := ',') rfl, parseItems_space,
        parseItems_dumps hesc items next fuel rest hitems]

theorem parseFields_dumps (hesc : Readable esc) : ∀ (fields : Fields) (name : String) (value : Json)
    (fuel : Nat)
    (rest : List Char), size value + sizeFields fields < fuel →
    parseFields fuel (quote esc name ++ ':' :: ' ' :: (dumps esc value
      ++ (dumpsFields esc fields ++ rest))) = some ((name, value) :: fields, rest)
  | _, _, _, 0, _, hfuel => absurd hfuel (Nat.not_lt_zero _)
  | [], name, value, fuel + 1, rest, hfuel => by
      have hvalue : size value ≤ fuel := by omega
      have hdelimited : Delimited ('}' :: rest) := by simp [Delimited, Numeral.isChar]
      rw [parseFields, skipSpace_quote, parseName_quote hesc, dumpsFields, List.singleton_append]
      simp only [skipSpace_space, skipSpace_dumps,
        parseValue_dumps hesc value fuel _ hvalue hdelimited]
      simp [skipSpace_cons (c := '}') rfl]
  | (name', value') :: fields, name, value, fuel + 1, rest, hfuel => by
      simp only [sizeFields] at hfuel
      have hvalue : size value ≤ fuel := by omega
      have hfields : size value' + sizeFields fields < fuel := by omega
      have hdelimited : Delimited (',' :: ' ' :: (quote esc name' ++ ':' :: ' ' :: (dumps esc value'
          ++ (dumpsFields esc fields ++ rest)))) := by
        simp [Delimited, Numeral.isChar]
      have hwritten : dumpsFields esc ((name', value') :: fields) ++ rest
          = ',' :: ' ' :: (quote esc name' ++ ':' :: ' ' :: (dumps esc value'
              ++ (dumpsFields esc fields ++ rest))) := by
        simp [dumpsFields]
      rw [parseFields, skipSpace_quote, parseName_quote hesc, hwritten]
      simp only [skipSpace_space, skipSpace_dumps,
        parseValue_dumps hesc value fuel _ hvalue hdelimited]
      simp [skipSpace_cons (c := ',') rfl, parseFields_space,
        parseFields_dumps hesc fields name' value' fuel rest hfields]

end

mutual

theorem size_le_length : ∀ value : Json, size value ≤ (dumps esc value).length
  | null => by simp [size, dumps]
  | bool true => by simp [size, dumps]
  | bool false => by simp [size, dumps]
  | num n => List.length_pos_iff.mpr n.ne_nil
  | str s => by simp [size, dumps, quote]
  | arr [] => by simp [size, sizeItems, dumps]
  | arr (item :: items) => by
      have hitem := size_le_length item
      have hitems := sizeItems_lt_length items
      simp only [size, sizeItems, dumps, List.length_cons, List.length_append]
      omega
  | obj [] => by simp [size, sizeFields, dumps]
  | obj ((name, value) :: fields) => by
      have hvalue := size_le_length value
      have hfields := sizeFields_lt_length fields
      simp only [size, sizeFields, dumps, List.length_cons, List.length_append]
      omega

theorem sizeItems_lt_length : ∀ items : List Json, sizeItems items < (dumpsItems esc items).length
  | [] => by simp [sizeItems, dumpsItems]
  | item :: items => by
      have hitem := size_le_length item
      have hitems := sizeItems_lt_length items
      simp only [sizeItems, dumpsItems, List.length_cons, List.length_append]
      omega

theorem sizeFields_lt_length : ∀ fields :
    Fields, sizeFields fields < (dumpsFields esc fields).length
  | [] => by simp [sizeFields, dumpsFields]
  | (name, value) :: fields => by
      have hvalue := size_le_length value
      have hfields := sizeFields_lt_length fields
      simp only [sizeFields, dumpsFields, List.length_cons, List.length_append]
      omega

end

/-- **What `json.dumps` writes, `JSON.parse` reads back.** -/
theorem parse_dumps_of (hesc : Readable esc) (value : Json) :
    parse (dumps esc value) = some value := by
  have hread := parseValue_dumps hesc value ((dumps esc value).length + 1) []
    (Nat.le_succ_of_le (size_le_length value)) (by simp [Delimited])
  have hspace : skipSpace (dumps esc value ++ []) = dumps esc value ++ [] :=
    skipSpace_dumps value []
  rw [List.append_nil] at hread hspace
  rw [parse, hspace, hread]
  rfl

theorem parse_dumps (value : Json) : parse (dumps escape value) = some value :=
  parse_dumps_of readable_escape value

theorem parse_dumpsAscii (value : Json) : parse (dumps escapeAscii value) = some value :=
  parse_dumps_of readable_escapeAscii value

/-! ### What is written is one line -/

theorem forall_mem_of_all {text : List Char}
    (h : text.all (fun d => decide (32 ≤ d.toNat)) = true) :
    ∀ d ∈ text, 32 ≤ d.toNat :=
  fun d hd => of_decide_eq_true (List.all_eq_true.mp h d hd)

theorem forall_mem_escape {c : Char} : ∀ d ∈ escape c, 32 ≤ d.toNat := by
  unfold escape
  split_ifs with hquote hslash hn hr ht hf hb hcontrol
  · exact forall_mem_of_all rfl
  · exact forall_mem_of_all rfl
  · exact forall_mem_of_all rfl
  · exact forall_mem_of_all rfl
  · exact forall_mem_of_all rfl
  · exact forall_mem_of_all rfl
  · exact forall_mem_of_all rfl
  · have hdigits : ∀ n < 32, (unicodeEscape n).all (fun d => decide (32 ≤ d.toNat)) = true := by
      decide +kernel
    exact forall_mem_of_all (hdigits c.toNat hcontrol)
  · simpa using hcontrol

theorem forall_mem_quote : ∀ d ∈ quote escape name, 32 ≤ d.toNat := by
  intro d hd
  simp only [quote, List.mem_cons, List.mem_append, List.mem_flatMap, List.not_mem_nil,
    or_false] at hd
  rcases hd with rfl | ⟨c, -, hd⟩ | rfl
  · decide
  · exact forall_mem_escape d hd
  · decide

theorem le_toNat_of_isChar {c : Char} (h : Numeral.isChar c = true) : 32 ≤ c.toNat := by
  simp only [Numeral.isChar, Char.isDigit, Bool.or_eq_true, Bool.and_eq_true, decide_eq_true_eq,
    beq_iff_eq] at h
  rcases h with ((((⟨hlow, -⟩ | rfl) | rfl) | rfl) | rfl) | rfl
  · have hlow' : (48 : Nat) ≤ c.toNat := hlow
    omega
  all_goals decide

mutual

/-- No control character is written, and so no line feed. -/
theorem forall_mem_dumps : ∀ value : Json, ∀ d ∈ dumps escape value, 32 ≤ d.toNat
  | null => forall_mem_of_all rfl
  | bool true => forall_mem_of_all rfl
  | bool false => forall_mem_of_all rfl
  | num n => fun d hd => le_toNat_of_isChar (n.forall_mem d hd)
  | str s => forall_mem_quote
  | arr [] => forall_mem_of_all rfl
  | arr (item :: items) => List.forall_mem_cons.mpr ⟨by decide,
      List.forall_mem_append.mpr ⟨forall_mem_dumps item, forall_mem_dumpsItems items⟩⟩
  | obj [] => forall_mem_of_all rfl
  | obj ((name, value) :: fields) => List.forall_mem_cons.mpr ⟨by decide,
      List.forall_mem_append.mpr ⟨forall_mem_quote, List.forall_mem_cons.mpr ⟨by decide,
        List.forall_mem_cons.mpr ⟨by decide,
          List.forall_mem_append.mpr ⟨forall_mem_dumps value, forall_mem_dumpsFields fields⟩⟩⟩⟩⟩

theorem forall_mem_dumpsItems : ∀ items : List Json, ∀ d ∈ dumpsItems escape items, 32 ≤ d.toNat
  | [] => forall_mem_of_all rfl
  | item :: items => List.forall_mem_cons.mpr ⟨by decide, List.forall_mem_cons.mpr ⟨by decide,
      List.forall_mem_append.mpr ⟨forall_mem_dumps item, forall_mem_dumpsItems items⟩⟩⟩

theorem forall_mem_dumpsFields : ∀ fields : Fields, ∀ d ∈ dumpsFields escape fields, 32 ≤ d.toNat
  | [] => forall_mem_of_all rfl
  | (name, value) :: fields =>
      List.forall_mem_cons.mpr
      ⟨by decide, List.forall_mem_cons.mpr ⟨by decide,
        List.forall_mem_append.mpr ⟨forall_mem_quote, List.forall_mem_cons.mpr ⟨by decide,
        List.forall_mem_cons.mpr ⟨by decide,
          List.forall_mem_append.mpr ⟨forall_mem_dumps value, forall_mem_dumpsFields fields⟩⟩⟩⟩⟩⟩

end

theorem exists_dumpsFields_eq : ∀ fields : Fields, ∃ body, dumpsFields escape fields = body ++ ['}']
  | [] => ⟨[], rfl⟩
  | (name, value) :: fields => by
      obtain ⟨body, hbody⟩ := exists_dumpsFields_eq fields
      refine ⟨',' :: ' ' :: (quote escape name ++ ':' :: ' ' :: (dumps escape value ++ body)), ?_⟩
      rw [dumpsFields, hbody]
      simp

theorem exists_dumps_obj_eq (fields : Fields) :
    ∃ body, dumps escape (obj fields) = '{' :: (body ++ ['}']) := by
  cases fields with
  | nil => exact ⟨[], rfl⟩
  | cons field fields =>
      obtain ⟨name, value⟩ := field
      obtain ⟨body, hbody⟩ := exists_dumpsFields_eq fields
      refine ⟨quote escape name ++ ':' :: ' ' :: (dumps escape value ++ body), ?_⟩
      rw [dumps, hbody]
      simp

end Values

end Json
