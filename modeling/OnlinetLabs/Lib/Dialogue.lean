import Mathlib.Logic.Basic

/-!
# Dialogues

A program that asks its environment, and goes on by what it is answered. What comes of it is proved
along its questions: an answer of some kind spoils the outcome where the program then ends badly
whatever else it is told (`Spoils.ask`).
-/

/-- A program that asks questions of `Q`, with the answers that each allows. -/
inductive Dialogue (Q : Type) (R : Q → Type) (α : Type) where
  | done (a : α)
  | ask (q : Q) (next : R q → Dialogue Q R α)

namespace Dialogue

variable {Q : Type} {R : Q → Type} {α : Type} {p : (q : Q) → R q → Prop} {bad : α → Prop}

def run (env : (q : Q) → R q) : Dialogue Q R α → α
  | done a => a
  | ask q next => (next (env q)).run env

/-- Some question that the program asks in this environment is answered so. -/
def Meets (p : (q : Q) → R q → Prop) (env : (q : Q) → R q) : Dialogue Q R α → Prop
  | done _ => False
  | ask q next => p q (env q) ∨ (next (env q)).Meets p env

/-- Wherever the program meets such an answer, it ends badly. -/
def Spoils (p : (q : Q) → R q → Prop) (bad : α → Prop) (d : Dialogue Q R α) : Prop :=
  ∀ env, d.Meets p env → bad (d.run env)

theorem spoils_done (a : α) : Spoils p bad (done a : Dialogue Q R α) := fun _ h => h.elim

theorem Spoils.ask {q : Q} {next : R q → Dialogue Q R α}
    (hends : ∀ r, p q r → ∀ env, bad ((next r).run env))
    (hnext : ∀ r, ¬p q r → Spoils p bad (next r)) : Spoils p bad (ask q next) := by
  intro env hmeets
  by_cases hanswer : p q (env q)
  · exact hends (env q) hanswer env
  · exact hnext (env q) hanswer env (hmeets.resolve_left hanswer)

end Dialogue
