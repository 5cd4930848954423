import Mathlib.Data.List.Basic
import Mathlib.Data.List.Induction

/-!
# Runs and their journals

A machine that is fed one input after another keeps an invariant if every step keeps it, and a step
may rely on a condition that only holds of the steps actually made.

What such a machine did is an append-only list. `Justified P l` says that every entry of `l` is
justified by the entries before it. Appending never takes a justification away, so it is established
entry by entry.
-/

section Runs

variable {σ ι : Type} {step : σ → ι → σ} {C D : σ → ι → Prop} {s : σ} {input : ι} {inputs : List ι}

def Everywhere (step : σ → ι → σ) (C : σ → ι → Prop) (s : σ) (inputs : List ι) : Prop :=
  ∀ before input after, inputs = before ++ input :: after → C (before.foldl step s) input

theorem everywhere_cons :
    Everywhere step C s (input :: inputs) ↔
      C s input ∧ Everywhere step C (step s input) inputs := by
  constructor
  · intro h
    refine ⟨h [] input inputs rfl, fun before next after heq => ?_⟩
    exact h (input :: before) next after (by rw [heq]; rfl)
  · rintro ⟨hfirst, hrest⟩ before next after heq
    cases before with
    | nil =>
      cases heq
      exact hfirst
    | cons head before =>
      cases heq
      exact hrest before next after rfl

theorem Everywhere.mono (h : Everywhere step C s inputs) (himp : ∀ s i, C s i → D s i) :
    Everywhere step D s inputs :=
  fun before input after heq => himp _ _ (h before input after heq)

/-- **The invariant rule.** -/
theorem Everywhere.foldl (hC : Everywhere step C s inputs) (Inv : σ → Prop) (hinit : Inv s)
    (hstep : ∀ s i, Inv s → C s i → Inv (step s i)) : Inv (inputs.foldl step s) := by
  induction inputs generalizing s with
  | nil => exact hinit
  | cons input inputs ih =>
    obtain ⟨hfirst, hrest⟩ := everywhere_cons.mp hC
    exact ih hrest (hstep s input hinit hfirst)

/-- **The exact rule.** Where a step from a state satisfying `P` keeps `P` exactly under the
condition, all the steps of a run do so exactly under it. -/
theorem everywhere_iff {P : σ → Prop} (hstep : ∀ s i, P s → (P (step s i) ↔ C s i)) (hs : P s) :
    Everywhere step (fun s i => P (step s i)) s inputs ↔ Everywhere step C s inputs := by
  induction inputs generalizing s with
  | nil =>
    have hnone : ∀ {D : σ → ι → Prop}, Everywhere step D s [] := by
      intro D before input after heq
      simp at heq
    exact iff_of_true hnone hnone
  | cons input inputs ih =>
    rw [everywhere_cons, everywhere_cons]
    constructor
    · rintro ⟨hone, hrest⟩
      exact ⟨(hstep s input hs).mp hone, (ih hone).mp hrest⟩
    · rintro ⟨hone, hrest⟩
      have hkept : P (step s input) := (hstep s input hs).mpr hone
      exact ⟨hkept, (ih hkept).mpr hrest⟩

/-- Conditions that agree under an invariant agree along every run. -/
theorem everywhere_congr (Inv : σ → Prop) (hinit : Inv s) (hinv : ∀ s i, Inv s → Inv (step s i))
    (hiff : ∀ s i, Inv s → (C s i ↔ D s i)) :
    Everywhere step C s inputs ↔ Everywhere step D s inputs := by
  have hreached : ∀ before : List ι, Inv (before.foldl step s) :=
    fun before => List.foldlRecOn before step hinit fun s hs input _ => hinv s input hs
  constructor
  · exact fun h before input after heq =>
      (hiff _ input (hreached before)).mp (h before input after heq)
  · exact fun h before input after heq =>
      (hiff _ input (hreached before)).mpr (h before input after heq)

/-- A run may be followed by one that remembers more. -/
theorem everywhere_map {τ : Type} {step' : τ → ι → τ} {f : τ → σ} {t : τ}
    (hf : ∀ t i, step (f t) i = f (step' t i)) :
    Everywhere step C (f t) inputs ↔ Everywhere step' (fun t i => C (f t) i) t inputs := by
  have hreached : ∀ before : List ι, before.foldl step (f t) = f (before.foldl step' t) :=
    fun before => List.foldl_hom f hf
  unfold Everywhere
  simp only [hreached]

end Runs

section Journal

variable {α κ : Type} {P Q : List α → α → Prop} {l added : List α} {a : α}

def Justified (P : List α → α → Prop) (l : List α) : Prop :=
  ∀ before a after, l = before ++ a :: after → P before a

theorem justified_nil : Justified P [] := by
  intro before a after h
  simp at h

theorem Justified.concat (h : Justified P l) (ha : P l a) : Justified P (l ++ [a]) := by
  intro before b after heq
  rcases List.eq_nil_or_concat after with rfl | ⟨after, c, rfl⟩
  · obtain ⟨rfl, hab⟩ := List.append_inj' heq rfl
    cases hab
    exact ha
  · rw [List.concat_eq_append, ← List.cons_append, ← List.append_assoc] at heq
    obtain ⟨rfl, -⟩ := List.append_inj' heq rfl
    exact h before b after rfl

/-- Entries that need no justification can be appended. -/
theorem Justified.append (h : Justified P l) (hadded : ∀ a ∈ added, ∀ before, P before a) :
    Justified P (l ++ added) := by
  induction added generalizing l with
  | nil => simpa using h
  | cons a added ih =>
    rw [List.append_cons]
    exact ih (h.concat (hadded a (by simp) l)) fun b hb => hadded b (by simp [hb])

theorem Justified.of_append (h : Justified P (l ++ added)) : Justified P l := by
  intro before a after heq
  exact h before a (after ++ added) (by simp [heq])

theorem justified_concat : Justified P (l ++ [a]) ↔ Justified P l ∧ P l a := by
  constructor
  · exact fun h => ⟨h.of_append, h l a [] rfl⟩
  · rintro ⟨h, ha⟩
    exact h.concat ha

/-- An entry that asks has had no answer yet. Whether it asks may depend on the entries before
it. -/
def Unanswered (asks : List α → α → Prop) (answers : α → Prop) (l : List α) : Prop :=
  ∃ before a after, l = before ++ a :: after ∧ asks before a ∧ ∀ b ∈ after, ¬ answers b

theorem not_unanswered_nil {asks : List α → α → Prop} {answers : α → Prop} :
    ¬ Unanswered asks answers [] := by
  rintro ⟨before, b, after, heq, -⟩
  simp at heq

theorem unanswered_concat {asks : List α → α → Prop} {answers : α → Prop} :
    Unanswered asks answers (l ++ [a]) ↔ asks l a ∨ (¬ answers a ∧ Unanswered asks answers l) := by
  constructor
  · rintro ⟨before, b, after, heq, hasks, hsilent⟩
    rcases List.eq_nil_or_concat after with rfl | ⟨after, c, rfl⟩
    · obtain ⟨rfl, hab⟩ := List.append_inj' heq rfl
      cases hab
      exact Or.inl hasks
    · rw [List.concat_eq_append, ← List.cons_append, ← List.append_assoc] at heq
      obtain ⟨rfl, hac⟩ := List.append_inj' heq rfl
      cases hac
      exact Or.inr ⟨hsilent a (by simp), before, b, after, rfl, hasks, fun d hd =>
        hsilent d (by simp [hd])⟩
  · rintro (hasks | ⟨hanswer, before, b, after, rfl, hasks, hsilent⟩)
    · exact ⟨l, a, [], rfl, hasks, by simp⟩
    · refine ⟨before, b, after ++ [a], by simp, hasks, ?_⟩
      intro d hd
      rcases List.mem_append.mp hd with hd | hd
      · exact hsilent d hd
      · rw [List.mem_singleton.mp hd]
        exact hanswer

theorem Unanswered.of_append {asks : List α → α → Prop} {answers : α → Prop}
    (h : Unanswered asks answers (l ++ added)) (hadded : ∀ a ∈ added, ∀ before, ¬ asks before a) :
    Unanswered asks answers l := by
  induction added using List.reverseRecOn with
  | nil => simpa using h
  | append_singleton added a ih =>
    rw [← List.append_assoc] at h
    rcases unanswered_concat.mp h with hasks | ⟨-, hbefore⟩
    · exact absurd hasks (hadded a (by simp) _)
    · exact ih hbefore fun b hb => hadded b (by simp [hb])

/-- Nothing asks where nothing that asks is there. -/
theorem not_unanswered_of_forall {asks : List α → α → Prop} {answers : α → Prop}
    (h : ∀ a ∈ l, ∀ before, ¬ asks before a) : ¬ Unanswered asks answers l := by
  rintro ⟨before, b, after, rfl, hasks, -⟩
  exact h b (by simp) before hasks

/-- Where keys are used once, an entry's place in the list is told by its key. -/
theorem split_unique {key : α → Option κ} {before before' after after' : List α} {a a' : α} {k : κ}
    (hnodup : (l.filterMap key).Nodup) (h : l = before ++ a :: after)
    (h' : l = before' ++ a' :: after') (hk : key a = some k) (hk' : key a' = some k) :
    before = before' ∧ a = a' ∧ after = after' := by
  subst h
  rcases List.append_eq_append_iff.mp h' with ⟨mid, rfl, hmid⟩ | ⟨mid, rfl, hmid⟩
  · cases mid with
    | nil =>
      cases hmid
      exact ⟨(List.append_nil _).symm, rfl, rfl⟩
    | cons b mid =>
      cases hmid
      simp [List.nodup_append, hk, hk'] at hnodup
  · cases mid with
    | nil =>
      cases hmid
      exact ⟨List.append_nil _, rfl, rfl⟩
    | cons b mid =>
      cases hmid
      simp [List.nodup_append, hk, hk'] at hnodup

end Journal
