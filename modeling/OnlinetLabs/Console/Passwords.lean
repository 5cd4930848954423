import OnlinetLabs.Console.Capture
import OnlinetLabs.Lib.FirstLine

/-!
# What is typed at a password prompt

While the password mode is on, each payload is masked up to the end of its first line that is not
empty, and a line that ends turns the mode off. A payload may end within the line: then the mode
stays on, and the next one starts where the line goes on. So nothing of the line is left, wherever
it was cut; where it was not, only the line is masked.
-/

namespace OnlinetLabs.Console

open FirstLine

namespace ConsoleTap

variable {tap : ConsoleTap} {data : Bytes} {payloads : List Bytes} {n : Nat} {redacted : Bool}

/-- What `_emit_buffer` makes of the payloads typed, in their order. -/
def maskAll : ConsoleTap → List Bytes → List Bytes
  | _, [] => []
  | tap, payload :: payloads =>
    if tap.passwordMode then
      let (tap, masked, _) := tap.maskPassword payload
      masked :: tap.maskAll payloads
    else payload :: tap.maskAll payloads

/-- The payloads with the first line that is not empty masked. -/
structure MasksPassword (payloads masked : List Bytes) : Prop where
  framed : List.Forall₂ (KeepsBreaks isBreak) payloads masked
  hidden : ∀ i, (leading isBreak payloads.flatten).length ≤ i →
    i < (leading isBreak payloads.flatten).length + (firstLine isBreak payloads.flatten).length →
      masked.flatten[i]? = some (byte '*')
  exact_of_lines : (∀ payload ∈ payloads, ∃ b ∈ payload.getLast?, isBreak b = true) →
    masked.flatten = replaceFirst isBreak (byte '*') payloads.flatten

/-! ### One payload -/

theorem maskFrom_off (h : tap.passwordMode = false) :
    maskFrom n tap data redacted = (tap, data, redacted) := by
  cases n with
  | zero => rfl
  | succ n => rw [maskFrom, h, Bool.false_and, if_neg Bool.false_ne_true]

/-- The first line that is not empty is masked, and the mode stays on until it ends. -/
theorem maskFrom_on (h : tap.passwordMode = true) (hn : data.length ≤ n) :
    (maskFrom n tap data redacted).2.1 = replaceFirst isBreak (byte '*') data
      ∧ (maskFrom n tap data redacted).1.passwordMode = (afterFirst isBreak data).isEmpty := by
  induction n generalizing data redacted with
  | zero =>
    obtain rfl := List.length_eq_zero_iff.mp (Nat.le_zero.mp hn)
    exact ⟨rfl, h⟩
  | succ n ih =>
    cases data with
    | nil =>
      rw [maskFrom, List.isEmpty_nil, Bool.not_true, Bool.and_false, if_neg Bool.false_ne_true]
      exact ⟨rfl, h⟩
    | cons c data =>
      have hactive : (tap.passwordMode && !(c :: data).isEmpty) = true := by rw [h]; rfl
      cases hc : isBreak c with
      | true =>
        have hline : (c :: data).takeWhile (fun b => !isBreak b) = [] := by simp [hc]
        have hdata : data.length ≤ n := by simpa using hn
        obtain ⟨hmasked, hmode⟩ := @ih data redacted hdata
        have hafter : afterFirst isBreak (c :: data) = afterFirst isBreak data := by
          rw [afterFirst, List.dropWhile_cons_of_pos hc, afterFirst]
        rw [replaceFirst_cons hc, hafter, maskFrom, if_pos hactive]
        simp only [hline, List.length_nil, List.drop_zero, List.replicate_zero, List.nil_append,
          List.isEmpty_nil, Bool.not_true, Bool.or_false, if_true]
        exact ⟨congrArg (c :: ·) hmasked, hmode⟩
      | false =>
        have hline : (c :: data).takeWhile (fun b => !isBreak b) = firstLine isBreak (c :: data) :=
          (firstLine_of_not hc).symm
        have hlead : leading isBreak (c :: data) = [] := leading_of_not hc
        have hdrop :
            (c :: data).drop (firstLine isBreak (c :: data)).length
              = afterFirst isBreak (c :: data) := by
          have hsplit := append_first isBreak (c :: data)
          rw [hlead, List.nil_append] at hsplit
          calc (c :: data).drop (firstLine isBreak (c :: data)).length
              = (firstLine isBreak (c :: data) ++ afterFirst isBreak (c :: data)).drop
                  (firstLine isBreak (c :: data)).length := by rw [hsplit]
            _ = afterFirst isBreak (c :: data) := List.drop_left
        have hsome : (firstLine isBreak (c :: data)).isEmpty = false := by
          rw [← hline, List.takeWhile_cons_of_pos (by simp [hc])]
          rfl
        rw [maskFrom, if_pos hactive, replaceFirst, hlead, List.nil_append]
        simp only [hline, hdrop, hsome, Bool.false_eq_true, if_false]
        cases afterFirst isBreak (c :: data) with
        | nil => exact ⟨(List.append_nil _).symm, h⟩
        | cons b rest =>
          simp only [maskFrom_off]
          exact ⟨trivial, rfl⟩

theorem maskAll_off (h : tap.passwordMode = false) : tap.maskAll payloads = payloads := by
  induction payloads with
  | nil => rfl
  | cons payload payloads ih => rw [maskAll, h, if_neg Bool.false_ne_true, ih]

theorem maskAll_on (h : tap.passwordMode = true) (payload : Bytes) (payloads : List Bytes) :
    ∃ tap' : ConsoleTap, tap'.passwordMode = (afterFirst isBreak payload).isEmpty
      ∧ tap.maskAll (payload :: payloads) = replaceFirst isBreak (byte '*') payload
        :: tap'.maskAll payloads := by
  have hspec : (tap.maskPassword payload).2.1 = replaceFirst isBreak (byte '*') payload
      ∧ (tap.maskPassword payload).1.passwordMode = (afterFirst isBreak payload).isEmpty :=
    maskFrom_on h (Nat.le_refl payload.length)
  obtain ⟨hmasked, hmode⟩ := hspec
  refine ⟨(tap.maskPassword payload).1, hmode, ?_⟩
  rw [maskAll, if_pos h]
  exact congrArg (· :: _) hmasked

/-! ### All payloads -/

theorem isBreak_star : isBreak (byte '*') = false := by decide

theorem forall₂_keepsBreaks (payloads : List Bytes) (tap : ConsoleTap) :
    List.Forall₂ (KeepsBreaks isBreak) payloads (tap.maskAll payloads) := by
  induction payloads generalizing tap with
  | nil => exact .nil
  | cons payload payloads ih =>
    cases h : tap.passwordMode with
    | true =>
      obtain ⟨tap', -, heq⟩ := maskAll_on h payload payloads
      rw [heq]
      exact .cons (keepsBreaks_replaceFirst isBreak_star) (ih tap')
    | false =>
      rw [maskAll, h, if_neg Bool.false_ne_true]
      exact .cons (KeepsBreaks.refl isBreak payload) (ih tap)

/-- The stars stand at the place of the first line. -/
theorem flatten_maskAll (payloads : List Bytes) (tap : ConsoleTap) (h : tap.passwordMode = true) :
    ∃ rest, (tap.maskAll payloads).flatten = leading isBreak payloads.flatten
      ++ (List.replicate (firstLine isBreak payloads.flatten).length (byte '*') ++ rest) := by
  induction payloads generalizing tap with
  | nil => exact ⟨[], rfl⟩
  | cons payload payloads ih =>
    obtain ⟨tap', hmode, heq⟩ := maskAll_on h payload payloads
    rw [heq, List.flatten_cons, List.flatten_cons]
    by_cases hline : firstLine isBreak payload = []
    · have hbreaks := isBreak_of_firstLine_eq_nil hline
      have hon : tap'.passwordMode = true := by rw [hmode, afterFirst_breaks hbreaks]; rfl
      obtain ⟨rest, hrest⟩ := ih tap' hon
      refine ⟨rest, ?_⟩
      rw [hrest, replaceFirst_of_breaks hbreaks, leading_breaks hbreaks, firstLine_breaks hbreaks,
        List.append_assoc]
    · rw [leading_append hline, replaceFirst, List.append_assoc, List.append_assoc]
      cases hafter : afterFirst isBreak payload with
      | nil =>
        -- the line goes on with the next payload
        have hon : tap'.passwordMode = true := by rw [hmode, hafter]; rfl
        obtain ⟨rest, hrest⟩ := ih tap' hon
        rw [hrest, firstLine_append hline hafter, List.nil_append]
        rcases leading_append_firstLine isBreak payloads.flatten with hnone | ⟨hlead, hgoes⟩
        · rw [hnone, List.append_nil]
          exact ⟨_, rfl⟩
        · refine ⟨rest, ?_⟩
          rw [hlead, hgoes, List.nil_append, List.length_append, List.replicate_add,
            List.append_assoc]
      | cons b after =>
        have hended : afterFirst isBreak payload ≠ [] := by simp [hafter]
        rw [firstLine_append_of_ended hline hended]
        exact ⟨_, rfl⟩

/-- Payloads that are whole lines are masked as one. -/
theorem flatten_maskAll_of_lines (payloads : List Bytes) (tap : ConsoleTap)
    (h : tap.passwordMode = true)
    (hlines : ∀ payload ∈ payloads, ∃ b ∈ payload.getLast?, isBreak b = true) :
    (tap.maskAll payloads).flatten = replaceFirst isBreak (byte '*') payloads.flatten := by
  induction payloads generalizing tap with
  | nil => rfl
  | cons payload payloads ih =>
    obtain ⟨tap', hmode, heq⟩ := maskAll_on h payload payloads
    obtain ⟨hfirst, hrest⟩ := List.forall_mem_cons.mp hlines
    rw [heq, List.flatten_cons, List.flatten_cons]
    by_cases hline : firstLine isBreak payload = []
    · have hbreaks := isBreak_of_firstLine_eq_nil hline
      have hon : tap'.passwordMode = true := by rw [hmode, afterFirst_breaks hbreaks]; rfl
      rw [ih tap' hon hrest, replaceFirst_of_breaks hbreaks, replaceFirst_breaks hbreaks]
    · -- the payload ends with a break, so the line has ended
      have hended : afterFirst isBreak payload ≠ [] := by
        intro hopen
        obtain ⟨b, hlast, hb⟩ := hfirst
        have hsplit := append_first isBreak payload
        rw [hopen, List.append_nil] at hsplit
        rw [← hsplit, List.getLast?_append_of_ne_nil _ hline] at hlast
        rw [breakFree_firstLine isBreak payload b (List.mem_of_getLast? hlast)] at hb
        cases hb
      have hoff : tap'.passwordMode = false := by
        rw [hmode, List.isEmpty_eq_false_iff]; exact hended
      rw [maskAll_off hoff, replaceFirst_append hline hended]

/-- **What is typed at a password prompt.** -/
theorem masksPassword (tap : ConsoleTap) (payloads : List Bytes) (h : tap.passwordMode = true) :
    MasksPassword payloads (tap.maskAll payloads) := by
  obtain ⟨rest, hrest⟩ := flatten_maskAll payloads tap h
  refine ⟨forall₂_keepsBreaks payloads tap, fun i hlead hline =>
    ?_, flatten_maskAll_of_lines payloads tap h⟩
  rw [hrest, List.getElem?_append_right hlead,
    List.getElem?_append_left (by rw [List.length_replicate]; omega), List.getElem?_replicate,
    if_pos (by omega)]

/-- An empty line, a secret cut in two, and a command. -/
def typed : List Bytes :=
  [Console.bytes "\r\n", Console.bytes "s3", Console.bytes "cret\r", Console.bytes "conf t\r"]

def armed : ConsoleTap :=
  { sessionId := 1, nodeId := [], connectionId := 1, passwordMode := true, lastEnterMatch := 0 }

def typedMasked : List Bytes :=
  [Console.bytes "\r\n", Console.bytes "**", Console.bytes "****\r", Console.bytes "conf t\r"]

theorem masksPassword_typed : MasksPassword typed typedMasked := by
  have hmasked : armed.maskAll typed = typedMasked := by decide +kernel
  rw [← hmasked]
  exact masksPassword armed typed rfl

end ConsoleTap

end OnlinetLabs.Console
