import OnlinetLabs.Console.Text

/-!
# TextDecoder

The browser's incremental UTF-8 decoder. What a chunk leaves incomplete is kept for the next one,
and a byte order mark at the beginning of the stream is dropped.
-/

namespace OnlinetLabs.Validation

open Console (Bytes Text Incomplete leadByte replacementChar encode)

def decodeByte : Option Incomplete → UInt8 → Text × Option Incomplete
  | none, b => leadByte b.toNat
  | some pending, b =>
      if pending.low ≤ b.toNat ∧ b.toNat ≤ pending.high then
        let bits := pending.bits * 64 + b.toNat % 64
        if pending.missing = 1 then ([Char.ofNat bits], none)
        else ([], some ⟨bits, pending.missing - 1, 0x80, 0xbf⟩)
      else (replacementChar :: (leadByte b.toNat).1, (leadByte b.toNat).2)

def byteOrderMark : Char := Char.ofNat 0xfeff

/-- A decoder, and whether anything has come out of it. -/
structure TextDecoder where
  pending : Option Incomplete := none
  started : Bool := false

namespace TextDecoder

def emit (decoder : TextDecoder) : Text → Text × TextDecoder
  | [] => ([], decoder)
  | c :: text =>
      (if decoder.started || c != byteOrderMark then c :: text else text,
        { decoder with started := true })

def step (decoder : TextDecoder) (b : UInt8) : Text × TextDecoder :=
  let (raw, pending) := decodeByte decoder.pending b
  { decoder with pending }.emit raw

/-- `decoder.decode(chunk, { stream: true })`. -/
def decode : TextDecoder → Bytes → Text × TextDecoder
  | decoder, [] => ([], decoder)
  | decoder, b :: chunk =>
      ((decoder.step b).1 ++ ((decoder.step b).2.decode chunk).1,
        ((decoder.step b).2.decode chunk).2)

variable {decoder : TextDecoder} {chunk chunk' : Bytes} {c : Char} {text : Text}

theorem decode_append : decoder.decode (chunk ++ chunk')
    = ((decoder.decode chunk).1 ++ ((decoder.decode chunk).2.decode chunk').1,
        ((decoder.decode chunk).2.decode chunk').2) := by
  induction chunk generalizing decoder with
  | nil => rfl
  | cons b chunk ih => rw [List.cons_append, decode, decode, ih, List.append_assoc]

theorem toNat_ofNat {n : Nat} (h : n < 256) : (UInt8.ofNat n).toNat = n := by
  simp [Nat.mod_eq_of_lt h]

/-- A first byte that does not end a character, and a byte that does not end one either. -/
theorem step_lead {started : Bool} {n : Nat} {pending : Incomplete} (hn : n < 256)
    (h : leadByte n = ([], some pending)) :
    step ⟨none, started⟩ (UInt8.ofNat n) = ([], ⟨some pending, started⟩) := by
  simp [step, decodeByte, toNat_ofNat hn, h, emit]

theorem step_more {started : Bool} {n : Nat} {pending : Incomplete} (hn : n < 256)
    (hlow : pending.low ≤ n) (hhigh : n ≤ pending.high) (hmissing : pending.missing ≠ 1) :
    step ⟨some pending, started⟩ (UInt8.ofNat n)
      = ([], ⟨some ⟨pending.bits * 64 + n % 64, pending.missing - 1, 0x80, 0xbf⟩, started⟩) := by
  simp [step, decodeByte, toNat_ofNat hn, hlow, hhigh, hmissing, emit]

theorem step_last {started : Bool} {n : Nat} {pending : Incomplete} (hn : n < 256)
    (hlow : pending.low ≤ n) (hhigh : n ≤ pending.high) (hmissing : pending.missing = 1)
    (hc : pending.bits * 64 + n % 64 = c.toNat) :
    step ⟨some pending, started⟩ (UInt8.ofNat n) = (⟨none, started⟩ : TextDecoder).emit [c] := by
  simp [step, decodeByte, toNat_ofNat hn, hlow, hhigh, hmissing, hc]

theorem decode_utf8EncodeChar (c : Char) (started : Bool) :
    decode ⟨none, started⟩ (String.utf8EncodeChar c)
      = (⟨none, started⟩ : TextDecoder).emit [c] := by
  have hvalid : c.toNat < 0xd800 ∨ 0xdfff < c.toNat ∧ c.toNat < 0x110000 := c.valid
  have hval : c.val.toNat = c.toNat := rfl
  rw [String.utf8EncodeChar]
  simp only [hval]
  split_ifs with h1 h2 h3
  · have hlead : leadByte c.toNat = ([c], none) := by
      rw [leadByte, if_pos (by omega), Char.ofNat_toNat]
    simp [decode, step, decodeByte, toNat_ofNat (n := c.toNat) (by omega), hlead]
  · have hlead : leadByte (c.toNat / 64 % 0x20 + 0xc0)
        = ([], some ⟨c.toNat / 64 % 0x20 + 0xc0 - 0xc0, 1, 0x80, 0xbf⟩) := by
      rw [leadByte, if_neg (by omega), if_neg (by omega), if_pos (by omega)]
    simp only [decode, step_lead (by omega) hlead]
    rw [step_last (c := c) (by omega) (by simp) (by simp; omega) rfl (by simp; omega)]
    simp
  · generalize hlead : c.toNat / 4096 % 0x10 + 0xe0 = lead
    generalize hmid : c.toNat / 64 % 0x40 + 0x80 = mid
    have hfirst : leadByte lead = ([], some ⟨lead - 0xe0, 2, if lead = 0xe0 then 0xa0 else 0x80,
        if lead = 0xed then 0x9f else 0xbf⟩) := by
      rw [leadByte, if_neg (by omega), if_neg (by omega), if_neg (by omega), if_pos (by omega)]
    have hlow : (if lead = 0xe0 then 0xa0 else 0x80) ≤ mid := by
      split_ifs
      · omega
      · omega
    have hhigh : mid ≤ if lead = 0xed then 0x9f else 0xbf := by
      split_ifs
      · omega
      · omega
    simp only [decode, step_lead (show lead < 256 by omega) hfirst]
    rw [step_more (by omega) hlow hhigh (by simp), step_last (c := c) (by omega) (by simp)
      (by simp; omega) rfl (by simp; omega)]
    simp
  · generalize hlead : c.toNat / 262144 % 0x08 + 0xf0 = lead
    generalize hmid : c.toNat / 4096 % 0x40 + 0x80 = mid
    have hfirst : leadByte lead = ([], some ⟨lead - 0xf0, 3, if lead = 0xf0 then 0x90 else 0x80,
        if lead = 0xf4 then 0x8f else 0xbf⟩) := by
      rw [leadByte, if_neg (by omega), if_neg (by omega), if_neg (by omega), if_neg (by omega),
        if_pos (by omega)]
    have hlow : (if lead = 0xf0 then 0x90 else 0x80) ≤ mid := by
      split_ifs
      · omega
      · omega
    have hhigh : mid ≤ if lead = 0xf4 then 0x8f else 0xbf := by
      split_ifs
      · omega
      · omega
    simp only [decode, step_lead (show lead < 256 by omega) hfirst]
    rw [step_more (by omega) hlow hhigh (by simp), step_more (by omega) (by simp)
      (by simp; omega) (by simp), step_last (c := c) (by omega) (by simp)
      (by simp; omega) rfl (by simp; omega)]
    simp

/-- Past the beginning of a stream, what was encoded comes out as it was. -/
theorem decode_encode (text : Text) :
    decode { started := true } (encode text) = (text, { started := true }) := by
  induction text with
  | nil => rfl
  | cons c text ih =>
      have hc : decode { started := true } (String.utf8EncodeChar c) = ([c], { started := true }) :=
        decode_utf8EncodeChar c true
      have hencode : encode (c :: text) = String.utf8EncodeChar c ++ encode text := rfl
      rw [hencode, decode_append, hc, ih]
      rfl

/-- **A whole stream.** Only a byte order mark at its beginning is lost. -/
theorem decode_stream {text : Text} (h : text.head? ≠ some byteOrderMark) :
    (decode {} (encode text)).1 = text := by
  cases text with
  | nil => rfl
  | cons c text =>
      have hne : c ≠ byteOrderMark := fun heq => h (congrArg some heq)
      have hc : decode {} (String.utf8EncodeChar c) = ([c], { started := true }) := by
        rw [decode_utf8EncodeChar]
        simp [emit, hne]
      have hencode : encode (c :: text) = String.utf8EncodeChar c ++ encode text := rfl
      rw [hencode, decode_append, hc, decode_encode]
      rfl

end TextDecoder

end OnlinetLabs.Validation
