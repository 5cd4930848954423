import Mathlib.Order.Basic

/-!
# Computations that may raise

A computation over a state returns a value or raises, and either way it leaves a state: an exception
does not undo what was done before it. `Ends m s Q E` says that `m`, started in `s`, returns in a
state satisfying `Q` or raises in a state satisfying `E`. The rules follow the ways a computation is
put together, and as equivalences they compute what has to hold before it.

Much of what is proved about a long computation is that most of it touches nothing of interest.
`Within R m` says that `m` changes the state only along `R`, whether it returns or raises. For a
preorder `R` this needs no intermediate assertions.
-/

/-- A computation over `σ` that returns an `α` or raises an `ε`. -/
abbrev Eff (ε σ α : Type) : Type := ExceptT ε (StateM σ) α

namespace Eff

variable {ε σ α β : Type} {m : Eff ε σ α} {f : α → Eff ε σ β} {s : σ}

def run (m : Eff ε σ α) (s : σ) : Except ε α × σ := StateT.run (ExceptT.run m) s

/-- A statement `if c: body` with nothing else to do. -/
def when (c : Bool) (body : Eff ε σ PUnit) : Eff ε σ PUnit := if c then body else pure ⟨⟩

theorem run_bind (m : Eff ε σ α) (f : α → Eff ε σ β) (s : σ) :
    (m >>= f).run s = match m.run s with
      | (.ok a, s') => (f a).run s'
      | (.error e, s') => (.error e, s') := by
  unfold run
  rw [ExceptT.run_bind, StateT.run_bind]
  change (match StateT.run (ExceptT.run m) s with | (a, s') => _) = _
  rcases StateT.run (ExceptT.run m) s with ⟨a | a, s'⟩ <;> rfl

theorem run_tryCatch (m : Eff ε σ α) (handler : ε → Eff ε σ α) (s : σ) :
    (tryCatch m handler).run s = match m.run s with
      | (.ok a, s') => (.ok a, s')
      | (.error e, s') => (handler e).run s' := by
  unfold run
  rw [ExceptT.run_tryCatch, StateT.run_bind]
  change (match StateT.run (ExceptT.run m) s with | (a, s') => _) = _
  rcases StateT.run (ExceptT.run m) s with ⟨a | a, s'⟩ <;> rfl

/-! ### From a given state -/

section Ends

variable {Q Q' : α → σ → Prop} {E E' : ε → σ → Prop}

/-- The computation returns in `Q` or raises in `E`. -/
def Ends (m : Eff ε σ α) (s : σ) (Q : α → σ → Prop) (E : ε → σ → Prop) : Prop :=
  match m.run s with
  | (.ok a, s') => Q a s'
  | (.error e, s') => E e s'

theorem Ends.mono (h : Ends m s Q E) (hq : ∀ a s', Q a s' → Q' a s')
    (he : ∀ e s', E e s' → E' e s') : Ends m s Q' E' := by
  unfold Ends at h ⊢
  rcases hm : m.run s with ⟨a | a, s'⟩ <;> rw [hm] at h
  · exact he a s' h
  · exact hq a s' h

theorem Ends.and (h : Ends m s Q E) (h' : Ends m s Q' E') :
    Ends m s (fun a s' => Q a s' ∧ Q' a s') (fun e s' => E e s' ∧ E' e s') := by
  unfold Ends at h h' ⊢
  rcases hm : m.run s with ⟨a | a, s'⟩ <;> rw [hm] at h h' <;> exact ⟨h, h'⟩

theorem ends_true : Ends m s (fun _ _ => True) fun _ _ => True := by
  unfold Ends
  rcases m.run s with ⟨a | a, s'⟩ <;> trivial

/-- What holds either way holds of the state that is left. -/
theorem Ends.state {P : σ → Prop} (h : Ends m s (fun _ => P) fun _ => P) : P (m.run s).2 := by
  unfold Ends at h
  rcases hm : m.run s with ⟨a | a, s'⟩ <;> rw [hm] at h <;> exact h

@[simp] theorem ends_pure {a : α} : Ends (pure a : Eff ε σ α) s Q E ↔ Q a s := Iff.rfl

@[simp] theorem ends_throw {e : ε} : Ends (throw e : Eff ε σ α) s Q E ↔ E e s := Iff.rfl

@[simp] theorem ends_get {Q : σ → σ → Prop} : Ends (get : Eff ε σ σ) s Q E ↔ Q s s := Iff.rfl

@[simp] theorem ends_modify {update : σ → σ} {Q : PUnit → σ → Prop} :
    Ends (modify update : Eff ε σ PUnit) s Q E ↔ Q ⟨⟩ (update s) := Iff.rfl

@[simp] theorem ends_bind {Q : β → σ → Prop} :
    Ends (m >>= f) s Q E ↔ Ends m s (fun a s' => Ends (f a) s' Q E) E := by
  unfold Ends
  rw [run_bind]
  rcases m.run s with ⟨a | a, s'⟩ <;> exact Iff.rfl

@[simp] theorem ends_tryCatch {handler : ε → Eff ε σ α} :
    Ends (tryCatch m handler) s Q E ↔ Ends m s Q (fun e s' => Ends (handler e) s' Q E) := by
  unfold Ends
  rw [run_tryCatch]
  rcases m.run s with ⟨a | a, s'⟩ <;> exact Iff.rfl

@[simp] theorem ends_when {c : Bool} {body : Eff ε σ PUnit} {Q : PUnit → σ → Prop} :
    Ends (when c body) s Q E ↔ (c = true → Ends body s Q E) ∧ (c = false → Q ⟨⟩ s) := by
  cases c <;> simp [when]

/-- A rule for a part is used where the part stands. -/
theorem Ends.bind {R : α → σ → Prop} {Q : β → σ → Prop} (h : Ends m s R E)
    (hf : ∀ a s', R a s' → Ends (f a) s' Q E) : Ends (m >>= f) s Q E :=
  ends_bind.mpr (h.mono hf fun _ _ he => he)

end Ends

/-! ### From every state -/

section Within

variable {R R' : σ → σ → Prop}

/-- Whatever it starts in, the computation leaves a state related to that one. -/
def Within (R : σ → σ → Prop) (m : Eff ε σ α) : Prop := ∀ s, R s (m.run s).2

theorem Within.ends (h : Within R m) (s : σ) : Ends m s (fun _ => R s) (fun _ => R s) := by
  have hs := h s
  unfold Ends
  rcases hm : m.run s with ⟨a | a, s'⟩ <;> rw [hm] at hs <;> exact hs

theorem Within.mono (h : Within R m) (himp : ∀ s s', R s s' → R' s s') : Within R' m :=
  fun s => himp _ _ (h s)

theorem within_modify {update : σ → σ} (h : ∀ s, R s (update s)) :
    Within R (modify update : Eff ε σ PUnit) := h

theorem within_pure [Std.Refl R] {a : α} : Within R (pure a : Eff ε σ α) :=
  fun s => Std.Refl.refl s

theorem within_throw [Std.Refl R] {e : ε} : Within R (throw e : Eff ε σ α) :=
  fun s => Std.Refl.refl s

theorem within_get [Std.Refl R] : Within R (get : Eff ε σ σ) := fun s => Std.Refl.refl s

theorem within_bind [IsTrans σ R] (h : Within R m) (hf : ∀ a, Within R (f a)) :
    Within R (m >>= f) := by
  intro s
  have hs := h s
  rw [run_bind]
  rcases hm : m.run s with ⟨a | a, s'⟩ <;> rw [hm] at hs
  · exact hs
  · exact IsTrans.trans s s' _ hs (hf a s')

theorem within_tryCatch [IsTrans σ R] {handler : ε → Eff ε σ α} (h : Within R m)
    (hh : ∀ e, Within R (handler e)) : Within R (tryCatch m handler) := by
  intro s
  have hs := h s
  rw [run_tryCatch]
  rcases hm : m.run s with ⟨a | a, s'⟩ <;> rw [hm] at hs
  · exact IsTrans.trans s s' _ hs (hh a s')
  · exact hs

theorem within_ite {c : Prop} [Decidable c] {m m' : Eff ε σ α} (h : Within R m)
    (h' : Within R m') : Within R (if c then m else m') := by
  split
  · exact h
  · exact h'

theorem within_when [Std.Refl R] {c : Bool} {body : Eff ε σ PUnit} (h : Within R body) :
    Within R (when c body) :=
  within_ite h within_pure

end Within

end Eff
