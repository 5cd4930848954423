import Mathlib.Logic.Basic

/-!
# Loops

A loop the end of which is in question. A turn goes on with a state or ends with a result.
-/

namespace Loop

variable {σ τ : Type} {turn : σ → σ ⊕ τ} {s s' : σ} {t t' : τ}

def turns (turn : σ → σ ⊕ τ) : Nat → σ → Option τ
  | 0, _ => none
  | n + 1, s =>
    match turn s with
    | .inl s' => turns turn n s'
    | .inr t => some t

/-- After some turns the loop ends with the result. -/
def Ends (turn : σ → σ ⊕ τ) (s : σ) (t : τ) : Prop := ∃ n, turns turn n s = some t

theorem ends_of_inr (h : turn s = .inr t) : Ends turn s t' ↔ t' = t := by
  constructor
  · rintro ⟨n, hn⟩
    cases n with
    | zero => cases hn
    | succ n =>
      simp only [turns, h, Option.some.injEq] at hn
      exact hn.symm
  · rintro rfl
    exact ⟨1, by simp only [turns, h]⟩

theorem ends_of_inl (h : turn s = .inl s') : Ends turn s t ↔ Ends turn s' t := by
  constructor
  · rintro ⟨n, hn⟩
    cases n with
    | zero => cases hn
    | succ n =>
      simp only [turns, h] at hn
      exact ⟨n, hn⟩
  · rintro ⟨n, hn⟩
    exact ⟨n + 1, by simp only [turns, h, hn]⟩

/-- A turn that changes nothing is taken for ever. -/
theorem not_ends_of_fixed (h : turn s = .inl s) : ¬Ends turn s t := by
  rintro ⟨n, hn⟩
  induction n with
  | zero => cases hn
  | succ n ih =>
    apply ih
    simpa only [turns, h] using hn

end Loop
