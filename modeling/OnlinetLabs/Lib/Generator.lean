import Mathlib.Data.List.Basic

/-!
# Generators

What a generator has yielded, and the value it returned unless it raised. A consumer that folds over
what is yielded is reasoned about with `Consumes`: from a state satisfying `P` it comes, if nothing
was raised, to one that satisfies `Q` of the value returned.
-/

structure Generator (Y α : Type) where
  yielded : List Y
  result : Option α

namespace Generator

variable {Y α β σ : Type}

instance : Monad (Generator Y) where
  pure a := ⟨[], some a⟩
  bind m f :=
    match m.result with
    | none => ⟨m.yielded, none⟩
    | some a => ⟨m.yielded ++ (f a).yielded, (f a).result⟩

def yieldAll (ys : List Y) : Generator Y PUnit := ⟨ys, some ⟨⟩⟩

def yield (y : Y) : Generator Y PUnit := yieldAll [y]

def ofOption (o : Option α) : Generator Y α := ⟨[], o⟩

variable {m : Generator Y α} {f : α → Generator Y β} {a : α} {b : β} {y : Y} {ys : List Y}
  {o : Option α}

@[simp] theorem result_pure : (pure a : Generator Y α).result = some a := rfl

@[simp] theorem result_yieldAll : (yieldAll ys).result = some ⟨⟩ := rfl

@[simp] theorem result_yield : (yield y).result = some ⟨⟩ := rfl

@[simp] theorem result_ofOption : (ofOption o : Generator Y α).result = o := rfl

@[simp] theorem result_bind : (m >>= f).result = m.result.bind fun a => (f a).result := by
  change (match m.result with
    | none => (⟨m.yielded, none⟩ : Generator Y β)
    | some a => ⟨m.yielded ++ (f a).yielded, (f a).result⟩).result = _
  cases m.result with
  | none => rfl
  | some a => rfl

theorem yielded_bind :
    (m >>= f).yielded = m.yielded ++ (m.result.map fun a => (f a).yielded).getD [] := by
  change (match m.result with
    | none => (⟨m.yielded, none⟩ : Generator Y β)
    | some a => ⟨m.yielded ++ (f a).yielded, (f a).result⟩).yielded = _
  cases m.result with
  | none => exact (List.append_nil _).symm
  | some a => rfl

/-- Everything yielded satisfies `p`, whether or not something is raised. -/
def Yields (p : Y → Prop) (m : Generator Y α) : Prop := ∀ y ∈ m.yielded, p y

theorem yields_pure {p : Y → Prop} : Yields p (pure a : Generator Y α) := fun _ hy => nomatch hy

theorem yields_ofOption {p : Y → Prop} : Yields p (ofOption o : Generator Y α) :=
  fun _ hy => nomatch hy

theorem yields_yieldAll {p : Y → Prop} (h : ∀ y ∈ ys, p y) : Yields p (yieldAll ys) := h

theorem yields_yield {p : Y → Prop} (h : p y) : Yields p (yield y) :=
  List.forall_mem_singleton.mpr h

theorem Yields.bind {p : Y → Prop} (hm : Yields p m) (hf : ∀ a, Yields p (f a)) :
    Yields p (m >>= f) := by
  intro y hy
  rw [yielded_bind] at hy
  rcases List.mem_append.mp hy with hy | hy
  · exact hm y hy
  · cases hresult : m.result with
    | none =>
        rw [hresult] at hy
        exact nomatch hy
    | some a =>
        rw [hresult] at hy
        exact hf a y hy

/-- Where a consumer comes to, if the generator returns. -/
def Consumes (step : σ → Y → σ) (P : σ → Prop) (m : Generator Y α) (Q : α → σ → Prop) : Prop :=
  ∀ s a, P s → m.result = some a → Q a (m.yielded.foldl step s)

variable {step : σ → Y → σ} {P : σ → Prop} {Q : α → σ → Prop} {R : β → σ → Prop}

theorem consumes_pure (h : ∀ s, P s → Q a s) : Consumes step P (pure a) Q := by
  rintro s _ hs ⟨⟩
  exact h s hs

theorem consumes_yieldAll {Q : PUnit → σ → Prop} (h : ∀ s, P s → Q ⟨⟩ (ys.foldl step s)) :
    Consumes step P (yieldAll ys) Q := fun s _ hs _ => h s hs

theorem consumes_yield {Q : PUnit → σ → Prop} (h : ∀ s, P s → Q ⟨⟩ (step s y)) :
    Consumes step P (yield y) Q := fun s _ hs _ => h s hs

theorem consumes_ofOption (h : ∀ s a, P s → o = some a → Q a s) : Consumes step P (ofOption o) Q :=
  fun s a hs ha => h s a hs ha

theorem Consumes.bind (hm : Consumes step P m Q) (hf : ∀ a, Consumes step (Q a) (f a) R) :
    Consumes step P (m >>= f) R := by
  intro s b hs hb
  rw [result_bind] at hb
  obtain ⟨a, ha, hb⟩ := Option.bind_eq_some_iff.mp hb
  rw [yielded_bind, ha, Option.map_some, Option.getD_some, List.foldl_append]
  exact hf a _ b (hm s a hs ha) hb

end Generator
