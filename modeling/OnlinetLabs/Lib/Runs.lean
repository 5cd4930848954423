import Mathlib.Data.List.Basic

/-!
# Runs of a step function

A step that is not enabled gives `none`, and a run with such a step is none. Every list of labels
that gives a state is a run to it, so a statement about every list of labels is a statement about
every order in which the parties can move, and, as any beginning of a list is a list, about every
state on the way.
-/

namespace Runs

variable {σ l : Type} {step : σ → l → Option σ} {s s' t : σ} {a : l} {labels before after : List l}

/-- The state after the labels, if each of them was enabled. -/
def run (step : σ → l → Option σ) : σ → List l → Option σ
  | s, [] => some s
  | s, a :: labels => (step s a).bind fun s' => run step s' labels

@[simp] theorem run_nil : run step s [] = some s := rfl

theorem run_cons :
    run step s (a :: labels) = some t ↔ ∃ s', step s a = some s' ∧ run step s' labels = some t :=
  Option.bind_eq_some_iff

theorem run_append :
    run step s (before ++ after) = some t ↔ ∃ s', run step s before = some s'
      ∧ run step s' after = some t := by
  induction before generalizing s with
  | nil => simp
  | cons a before ih =>
      rw [List.cons_append, run_cons]
      constructor
      · rintro ⟨s', hstep, hrest⟩
        obtain ⟨s'', hbefore, hafter⟩ := ih.mp hrest
        exact ⟨s'', run_cons.mpr ⟨s', hstep, hbefore⟩, hafter⟩
      · rintro ⟨s'', hbegun, hafter⟩
        obtain ⟨s', hstep, hbefore⟩ := run_cons.mp hbegun
        exact ⟨s', hstep, ih.mpr ⟨s'', hbefore, hafter⟩⟩

/-- **The invariant rule.** What every step whose label satisfies `Q` preserves, a run of such
labels preserves. -/
theorem invariant_of_labels {P : σ → Prop} {Q : l → Prop}
    (hstep : ∀ s a s', P s → Q a → step s a = some s' → P s') (hlabels : ∀ a ∈ labels, Q a)
    (hrun : run step s labels = some t) (hs : P s) : P t := by
  induction labels generalizing s with
  | nil =>
      rw [run_nil, Option.some.injEq] at hrun
      exact hrun ▸ hs
  | cons a labels ih =>
      obtain ⟨s', hone, hrest⟩ := run_cons.mp hrun
      obtain ⟨ha, hlater⟩ := List.forall_mem_cons.mp hlabels
      exact ih hlater hrest (hstep s a s' hs ha hone)

theorem invariant {P : σ → Prop} (hstep : ∀ s a s', P s → step s a = some s' → P s')
    (hrun : run step s labels = some t) (hs : P s) : P t :=
  invariant_of_labels (Q := fun _ => True) (fun s a s' h _ => hstep s a s' h) (fun _ _ => trivial)
    hrun hs

/-- `P` holds in every state that a run reaches. -/
def Always (step : σ → l → Option σ) (s : σ) (P : σ → Prop) :
    Prop := ∀ labels t, run step s labels = some t → P t

theorem always_of_invariant {P I : σ → Prop}
    (hstep : ∀ s a s', I s → step s a = some s' → I s') (hs : I s)
    (himp : ∀ t, I t → P t) : Always step s P :=
  fun _ t hrun => himp t (invariant hstep hrun hs)

end Runs
