import Mathlib.Data.List.Basic

/-!
# Processes over a shared state

A system is a shared state and a list of processes. One label moves it: the environment changes the
shared state, a new process starts, or one process takes its next atomic step with the answer its
environment gives. Nothing is assumed about the order of the labels, so a statement about every list
of labels is a statement about every interleaving.

Two predicates speak of a whole run. `Throughout P` says that `P` holds in every configuration the
run visits, and `Along Q` that every move the run makes satisfies `Q` in the configuration it is
made from. The rules below derive the first from the second.
-/

namespace Interleaving

variable {σ π ε ι α : Type}

/-- What the parties of a system can do: a move of the environment, the start of a process, and one
atomic step of a process. `none` means that the move is not enabled. -/
structure System (σ π ε ι α : Type) where
  env : σ → ε → Option σ
  spawn : ι → π
  step : σ → π → α → Option (σ × π)

/-- The shared state, and every process started so far in the order of their starts. -/
structure Conf (σ π : Type) where
  shared : σ
  procs : List π

inductive Label (ε ι α : Type) where
  | env (e : ε)
  | spawn (i : ι)
  | run (pid : Nat) (a : α)
deriving Repr, DecidableEq

namespace System

variable (sys : System σ π ε ι α)

def next (c : Conf σ π) : Label ε ι α → Option (Conf σ π)
  | .env e => (sys.env c.shared e).map fun s => { c with shared := s }
  | .spawn i => some { c with procs := c.procs ++ [sys.spawn i] }
  | .run pid a =>
      match c.procs[pid]? with
      | none => none
      | some p => (sys.step c.shared p a).map fun r => ⟨r.1, c.procs.set pid r.2⟩

def exec (c : Conf σ π) : List (Label ε ι α) → Option (Conf σ π)
  | [] => some c
  | l :: ls =>
      match sys.next c l with
      | none => none
      | some c' => exec c' ls

/-- `P` holds in every configuration the run visits. -/
def Throughout (P : Conf σ π → Prop) : Conf σ π → List (Label ε ι α) → Prop
  | c, [] => P c
  | c, l :: ls => P c ∧ ∀ c', sys.next c l = some c' → Throughout P c' ls

/-- Every move the run makes satisfies `Q` in the configuration it is made from. -/
def Along (Q : Conf σ π → Label ε ι α → Prop) : Conf σ π → List (Label ε ι α) → Prop
  | _, [] => True
  | c, l :: ls => ∀ c', sys.next c l = some c' → Q c l ∧ Along Q c' ls

/-- Where the run stops: at its end, or before its first move that is not enabled. -/
def last (c : Conf σ π) : List (Label ε ι α) → Conf σ π
  | [] => c
  | l :: ls =>
      match sys.next c l with
      | none => c
      | some c' => last c' ls

def countMoves (mark : Conf σ π → Label ε ι α → Bool) : Conf σ π → List (Label ε ι α) → Nat
  | _, [] => 0
  | c, l :: ls =>
      match sys.next c l with
      | none => 0
      | some c' => (if mark c l then 1 else 0) + countMoves mark c' ls

instance decidableAlong {Q : Conf σ π → Label ε ι α → Prop} [∀ c l, Decidable (Q c l)] :
    ∀ (c : Conf σ π) (ls : List (Label ε ι α)), Decidable (sys.Along Q c ls)
  | _, [] => .isTrue trivial
  | c, l :: ls =>
      match hnext : sys.next c l with
      | none => .isTrue fun c' hc' => by rw [hnext] at hc'; exact nomatch hc'
      | some c' =>
          have : Decidable (sys.Along Q c' ls) := decidableAlong c' ls
          decidable_of_iff (Q c l ∧ sys.Along Q c' ls)
            ⟨fun h d hd => by
              rw [hnext, Option.some.injEq] at hd; exact hd ▸ h, fun h => h c' hnext⟩

/-- The three ways a configuration can move. -/
theorem next_cases {c c' : Conf σ π} {l : Label ε ι α} (h : sys.next c l = some c') :
    (∃ e s, l = .env e ∧ sys.env c.shared e = some s ∧ c' = { c with shared := s })
      ∨ (∃ i, l = .spawn i ∧ c' = { c with procs := c.procs ++ [sys.spawn i] })
      ∨ (∃ pid a p s p', l = .run pid a ∧ c.procs[pid]? = some p
          ∧ sys.step c.shared p a = some (s, p') ∧ c' = ⟨s, c.procs.set pid p'⟩) := by
  cases l with
  | env e =>
      simp only [next, Option.map_eq_some_iff] at h
      obtain ⟨s, hs, rfl⟩ := h
      exact Or.inl ⟨e, s, rfl, hs, rfl⟩
  | spawn i =>
      simp only [next, Option.some.injEq] at h
      exact Or.inr (Or.inl ⟨i, rfl, h.symm⟩)
  | run pid a =>
      simp only [next] at h
      split at h
      · simp at h
      · rename_i p hp
        simp only [Option.map_eq_some_iff] at h
        obtain ⟨⟨s, p'⟩, hstep, rfl⟩ := h
        exact Or.inr (Or.inr ⟨pid, a, p, s, p', rfl, hp, hstep, rfl⟩)

theorem Throughout.head {P : Conf σ π → Prop} {c : Conf σ π} {ls : List (Label ε ι α)}
    (h : sys.Throughout P c ls) : P c := by
  cases ls with
  | nil => exact h
  | cons l ls => exact h.1

theorem Throughout.exec {P : Conf σ π → Prop} :
    ∀ {ls : List (Label ε ι α)} {c c' : Conf σ π}, sys.Throughout P c ls →
      sys.exec c ls = some c' → P c' := by
  intro ls
  induction ls with
  | nil =>
      intro c c' h hexec
      simp only [System.exec, Option.some.injEq] at hexec
      exact hexec ▸ h
  | cons l ls ih =>
      intro c c' h hexec
      simp only [System.exec] at hexec
      split at hexec
      · simp at hexec
      · rename_i d hd
        exact ih (h.2 d hd) hexec

theorem Throughout.mono {P P' : Conf σ π → Prop} (hle : ∀ c, P c → P' c) :
    ∀ {ls : List (Label ε ι α)} {c : Conf σ π}, sys.Throughout P c ls → sys.Throughout P' c ls := by
  intro ls
  induction ls with
  | nil => exact fun h => hle _ h
  | cons l ls ih => exact fun h => ⟨hle _ h.1, fun c' hc' => ih (h.2 c' hc')⟩

theorem along_of_forall_mem {R : Label ε ι α → Prop} :
    ∀ {ls : List (Label ε ι α)} {c : Conf σ π}, (∀ l ∈ ls, R l) →
      sys.Along (fun _ l => R l) c ls := by
  intro ls
  induction ls with
  | nil => exact fun _ => trivial
  | cons l ls ih =>
      exact fun h c' _ =>
        ⟨h l List.mem_cons_self, ih fun l' hl' => h l' (List.mem_cons_of_mem _ hl')⟩

theorem Along.and {Q R : Conf σ π → Label ε ι α → Prop} :
    ∀ {ls : List (Label ε ι α)} {c : Conf σ π}, sys.Along Q c ls → sys.Along R c ls →
      sys.Along (fun c l => Q c l ∧ R c l) c ls := by
  intro ls
  induction ls with
  | nil => exact fun _ _ => trivial
  | cons l ls ih =>
      exact fun hq hr c' hc' => ⟨⟨(hq c' hc').1, (hr c' hc').1⟩, ih (hq c' hc').2 (hr c' hc').2⟩

theorem Along.and_forall_mem {Q : Conf σ π → Label ε ι α → Prop} {R : Label ε ι α → Prop} :
    ∀ {ls : List (Label ε ι α)} {c : Conf σ π}, sys.Along Q c ls → (∀ l ∈ ls, R l) →
      sys.Along (fun c l => Q c l ∧ R l) c ls := by
  intro ls
  induction ls with
  | nil => exact fun _ _ => trivial
  | cons l ls ih =>
      exact fun h hmem c' hc' => ⟨⟨(h c' hc').1, hmem l List.mem_cons_self⟩,
        ih (h c' hc').2 fun l' hl' => hmem l' (List.mem_cons_of_mem _ hl')⟩

/-- **The invariant rule.** What every move satisfying `Q` preserves holds throughout every run
whose moves all satisfy `Q`. -/
theorem throughout_of_along {P : Conf σ π → Prop} {Q : Conf σ π → Label ε ι α → Prop}
    (hstep : ∀ c l c', P c → Q c l → sys.next c l = some c' → P c') :
    ∀ {ls : List (Label ε ι α)} {c : Conf σ π}, P c → sys.Along Q c ls →
      sys.Throughout P c ls := by
  intro ls
  induction ls with
  | nil => exact fun hc _ => hc
  | cons l ls ih =>
      intro c hc halong
      refine ⟨hc, fun c' hc' => ?_⟩
      obtain ⟨hq, hrest⟩ := halong c' hc'
      exact ih (hstep c l c' hc hq hc') hrest

theorem throughout_of_preserved {P : Conf σ π → Prop}
    (hstep : ∀ c l c', P c → sys.next c l = some c' → P c') {ls : List (Label ε ι α)}
    {c : Conf σ π} (hc : P c) : sys.Throughout P c ls := by
  have hfree : sys.Along (fun _ _ => True) c ls := sys.along_of_forall_mem fun _ _ => trivial
  exact sys.throughout_of_along (fun c l c' h _ => hstep c l c' h) hc hfree

/-- **The exact rule.** Under an invariant `I`, if a move from a configuration satisfying `P` lands
in `P` exactly when it satisfies `Q`, then `P` holds throughout a run exactly when all its moves
satisfy `Q`. -/
theorem throughout_iff_along {I P : Conf σ π → Prop} {Q : Conf σ π → Label ε ι α → Prop}
    (hinv : ∀ c l c', I c → sys.next c l = some c' → I c')
    (hstep : ∀ c l c', I c → P c → sys.next c l = some c' → (P c' ↔ Q c l)) :
    ∀ {ls : List (Label ε ι α)} {c : Conf σ π}, I c → P c →
      (sys.Throughout P c ls ↔ sys.Along Q c ls) := by
  intro ls
  induction ls with
  | nil => exact fun _ hp => ⟨fun _ => trivial, fun _ => hp⟩
  | cons l ls ih =>
      intro c hi hp
      constructor
      · rintro ⟨-, hrest⟩ c' hc'
        have hp' : P c' := Throughout.head sys (hrest c' hc')
        exact ⟨(hstep c l c' hi hp hc').mp hp', (ih (hinv c l c' hi hc') hp').mp (hrest c' hc')⟩
      · intro halong
        refine ⟨hp, fun c' hc' => ?_⟩
        obtain ⟨hq, hrest⟩ := halong c' hc'
        exact (ih (hinv c l c' hi hc') ((hstep c l c' hi hp hc').mpr hq)).mpr hrest

/-- **The ledger rule.** A measure that every move changes by what it marks as coming in and as
going out changes over a run by the difference of the two counts. -/
theorem last_add_countMoves {P : Conf σ π → Prop} {Q : Conf σ π → Label ε ι α → Prop}
    (m : Conf σ π → Nat) (into out : Conf σ π → Label ε ι α → Bool)
    (hstep : ∀ c l c', P c → Q c l → sys.next c l = some c' →
      m c' + (if out c l then 1 else 0) = m c + (if into c l then 1 else 0)) :
    ∀ {ls : List (Label ε ι α)} {c : Conf σ π}, sys.Throughout P c ls → sys.Along Q c ls →
      m (sys.last c ls) + sys.countMoves out c ls = m c + sys.countMoves into c ls := by
  intro ls
  induction ls with
  | nil => exact fun _ _ => rfl
  | cons l ls ih =>
      intro c hP hQ
      simp only [last, countMoves]
      split
      · rfl
      · rename_i c' hc'
        have hone := hstep c l c' hP.1 (hQ c' hc').1 hc'
        have hrest := ih (hP.2 c' hc') (hQ c' hc').2
        omega

theorem last_of_exec : ∀ {ls : List (Label ε ι α)} {c c' : Conf σ π}, sys.exec c ls = some c' →
    sys.last c ls = c' := by
  intro ls
  induction ls with
  | nil =>
      intro c c' h
      exact Option.some.inj h
  | cons l ls ih =>
      intro c c' h
      simp only [exec, last] at h ⊢
      split at h
      · cases h
      · exact ih h

theorem countMoves_eq_zero_iff {mark : Conf σ π → Label ε ι α → Bool} :
    ∀ {ls : List (Label ε ι α)} {c : Conf σ π},
      sys.countMoves mark c ls = 0 ↔ sys.Along (fun c l => mark c l = false) c ls := by
  intro ls
  induction ls with
  | nil => exact ⟨fun _ => trivial, fun _ => rfl⟩
  | cons l ls ih =>
      intro c
      simp only [countMoves, Along]
      cases hnext : sys.next c l with
      | none => exact ⟨fun _ c' hc' => (nomatch hc'), fun _ => rfl⟩
      | some c' =>
          cases hmark : mark c l with
          | true =>
              constructor
              · intro h
                simp at h
              · intro h
                cases (h c' rfl).1
          | false =>
              simp only [Bool.false_eq_true, if_false, Nat.zero_add, ih]
              constructor
              · rintro h c'' hc''
                cases hc''
                exact ⟨trivial, h⟩
              · exact fun h => (h c' rfl).2

theorem exec_append {first rest : List (Label ε ι α)} {c d : Conf σ π} :
    sys.exec c (first ++ rest) = some d ↔ ∃ u, sys.exec c first = some u
      ∧ sys.exec u rest = some d := by
  induction first generalizing c with
  | nil => simp [exec]
  | cons l first ih =>
      simp only [List.cons_append, exec]
      cases sys.next c l with
      | none => simp
      | some c' => exact ih

/-- What a run does after one of its moves. -/
theorem exec_of_split {first rest : List (Label ε ι α)} {l : Label ε ι α} {c d d' e : Conf σ π}
    (hexec : sys.exec c (first ++ l :: rest) = some e) (hfirst : sys.exec c first = some d)
    (hnext : sys.next d l = some d') : sys.exec d' rest = some e := by
  obtain ⟨u, hu, hrest⟩ := sys.exec_append.mp hexec
  cases hfirst.symm.trans hu
  simpa only [exec, hnext] using hrest

theorem along_append {Q : Conf σ π → Label ε ι α → Prop} {first rest : List (Label ε ι α)}
    {c d : Conf σ π}
    (hexec : sys.exec c first = some d) :
    sys.Along Q c (first ++ rest) ↔ sys.Along Q c first ∧ sys.Along Q d rest := by
  induction first generalizing c with
  | nil =>
      cases hexec
      exact ⟨fun h => ⟨trivial, h⟩, And.right⟩
  | cons l first ih =>
      simp only [exec] at hexec
      split at hexec
      · cases hexec
      · rename_i c' hc'
        simp only [List.cons_append, Along, hc', Option.some.injEq, forall_eq', ih hexec, and_assoc]

theorem throughout_append {P : Conf σ π → Prop} {first rest : List (Label ε ι α)} {c d : Conf σ π}
    (hexec : sys.exec c first = some d) :
    sys.Throughout P c (first ++ rest) ↔ sys.Throughout P c first ∧ sys.Throughout P d rest := by
  induction first generalizing c with
  | nil =>
      cases hexec
      exact ⟨fun h => ⟨h.head, h⟩, And.right⟩
  | cons l first ih =>
      simp only [exec] at hexec
      split at hexec
      · cases hexec
      · rename_i c' hc'
        simp only [List.cons_append, Throughout, hc', Option.some.injEq, forall_eq',
          ih hexec, and_assoc]

/-- Every move a run makes is one made after some first part of it. -/
theorem along_iff_forall_split {Q : Conf σ π → Label ε ι α → Prop} {ls : List (Label ε ι α)}
    {c : Conf σ π} :
    sys.Along Q c ls ↔ ∀ first l rest d d', ls = first ++ l :: rest → sys.exec c first = some d →
      sys.next d l = some d' → Q d l := by
  induction ls generalizing c with
  | nil => simp [Along]
  | cons l ls ih =>
      constructor
      · intro h first l' rest d d' hsplit hexec hnext
        cases first with
        | nil =>
            cases hsplit
            cases hexec
            exact (h d' hnext).1
        | cons l'' first =>
            cases hsplit
            simp only [exec] at hexec
            split at hexec
            · cases hexec
            · rename_i u hu
              exact ih.mp (h u hu).2 first l' rest d d' rfl hexec hnext
      · intro h c' hc'
        refine ⟨h [] l ls c c' rfl rfl hc', ih.mpr fun first l' rest d d' hsplit hexec hnext => ?_⟩
        apply h (l :: first) l' rest d d' (by rw [hsplit, List.cons_append]) ?_ hnext
        simp only [exec, hc']
        exact hexec

/-- What a marked move establishes and no move undoes holds where the run ends, once it has made
one. -/
theorem last_of_countMoves_pos {I P : Conf σ π → Prop} {mark : Conf σ π → Label ε ι α → Bool}
    (hmark : ∀ c l c', I c → mark c l = true → sys.next c l = some c' → P c')
    (hstable : ∀ c l c', I c → P c → sys.next c l = some c' → P c') :
    ∀ {ls : List (Label ε ι α)} {c : Conf σ π}, sys.Throughout I c ls →
      P c ∨ 0 < sys.countMoves mark c ls → P (sys.last c ls) := by
  intro ls
  induction ls with
  | nil =>
      rintro c - (hc | hpos)
      · exact hc
      · cases hpos
  | cons l ls ih =>
      intro c hI hor
      simp only [last]
      cases hnext : sys.next c l with
      | none =>
          rcases hor with hc | hpos
          · exact hc
          · simp only [countMoves, hnext] at hpos
            cases hpos
      | some c' =>
          apply ih (hI.2 c' hnext)
          rcases hor with hc | hpos
          · exact Or.inl (hstable c l c' hI.1 hc hnext)
          · simp only [countMoves, hnext] at hpos
            cases hmarked : mark c l with
            | true => exact Or.inl (hmark c l c' hI.1 hmarked hnext)
            | false =>
                rw [hmarked] at hpos
                exact Or.inr (by simpa using hpos)

end System

/-! ### Assertions about the processes

A step replaces one process in the list. What it does to a statement about all processes, to one
about at most one process, and to a count of processes. -/

section Procs

variable {procs : List π} {pid : Nat} {p p' : π}

theorem mem_of_getElem? (h : procs[pid]? = some p) : p ∈ procs :=
  List.mem_of_getElem? h

theorem forall_mem_set {P : π → Prop} (hall : ∀ q ∈ procs, P q) (hp : P p') :
    ∀ q ∈ procs.set pid p', P q := by
  intro q hq
  rcases List.mem_or_eq_of_mem_set hq with hmem | rfl
  · exact hall q hmem
  · exact hp

/-- As `forall_mem_set`, where the others are known to be others. -/
theorem forall_mem_set_of_ne {P : π → Prop}
    (hall : ∀ (i : Nat) (q : π), procs[i]? = some q → i ≠ pid → P q) (hp : P p') :
    ∀ q ∈ procs.set pid p', P q := by
  intro q hq
  obtain ⟨i, hi⟩ := List.getElem?_of_mem hq
  rw [List.getElem?_set] at hi
  split at hi
  · split at hi
    · cases hi
      exact hp
    · cases hi
  · rename_i hne
    exact hall i q hi fun heq => hne heq.symm

theorem exists_mem_set {P : π → Prop} (h : ∃ q ∈ procs, P q) (hpid : procs[pid]? = some p)
    (hp : P p → P p') :
    ∃ q ∈ procs.set pid p', P q := by
  obtain ⟨hlt, hget⟩ := List.getElem?_eq_some_iff.mp hpid
  obtain ⟨q, hq, hPq⟩ := h
  obtain ⟨i, hi⟩ := List.getElem?_of_mem hq
  by_cases heq : pid = i
  · subst heq
    rw [hpid] at hi
    cases hi
    exact ⟨p', List.mem_set hlt p', hp hPq⟩
  · refine ⟨q, ?_, hPq⟩
    apply List.mem_of_getElem? (i := i)
    rw [List.getElem?_set_ne heq]
    exact hi

theorem exists_mem_of_set {P : π → Prop} (h : ∃ q ∈ procs.set pid p', P q)
    (hpid : procs[pid]? = some p)
    (hp : P p' → P p) : ∃ q ∈ procs, P q := by
  obtain ⟨q, hq, hPq⟩ := h
  rcases List.mem_or_eq_of_mem_set hq with hold | rfl
  · exact ⟨q, hold, hPq⟩
  · exact ⟨p, mem_of_getElem? hpid, hp hPq⟩

theorem forall_mem_set_iff {P : π → Prop} (hall : ∀ q ∈ procs, P q) (hpid : procs[pid]? = some p) :
    (∀ q ∈ procs.set pid p', P q) ↔ P p' := by
  constructor
  · intro h
    obtain ⟨hlt, -⟩ := List.getElem?_eq_some_iff.mp hpid
    exact h p' (List.mem_set hlt p')
  · exact forall_mem_set hall

theorem forall_mem_append {P : π → Prop} (hall : ∀ q ∈ procs, P q) (hp : P p') :
    ∀ q ∈ procs ++ [p'], P q := by
  intro q hq
  rcases List.mem_append.mp hq with hmem | hmem
  · exact hall q hmem
  · rw [List.mem_singleton.mp hmem]
    exact hp

/-- At most one process, wherever it stands in the list, satisfies `P`. -/
def Exclusive (P : π → Prop) (procs : List π) : Prop :=
  ∀ (i j : Nat) (p q : π), procs[i]? = some p → procs[j]? = some q → P p → P q → i = j

theorem exclusive_nil (P : π → Prop) : Exclusive P ([] : List π) := by
  intro i j p q hi
  simp at hi

theorem Exclusive.append {P : π → Prop} (h : Exclusive P procs) (hp : ¬ P p') :
    Exclusive P (procs ++ [p']) := by
  have hold : ∀ (i : Nat) (q : π), (procs ++ [p'])[i]? = some q → P q → procs[i]? = some q := by
    intro i q hi hq
    rw [List.getElem?_append] at hi
    split at hi
    · exact hi
    · rw [List.getElem?_singleton] at hi
      split at hi
      · simp only [Option.some.injEq] at hi
        exact absurd (hi ▸ hq) hp
      · simp at hi
  intro i j p q hi hj hpp hqq
  exact h i j p q (hold i p hi hpp) (hold j q hj hqq) hpp hqq

theorem Exclusive.set {P : π → Prop} (h : Exclusive P procs) (hpid : procs[pid]? = some p)
    (hp : P p' → P p) : Exclusive P (procs.set pid p') := by
  have hold : ∀ (i : Nat) (q : π), (procs.set pid p')[i]? = some q → P q → ∃ q₀, procs[i]? = some q₀
      ∧ P q₀ := by
    intro i q hi hq
    rw [List.getElem?_set] at hi
    split at hi
    · rename_i heq
      subst heq
      split at hi
      · simp only [Option.some.injEq] at hi
        exact ⟨p, hpid, hp (hi ▸ hq)⟩
      · simp at hi
    · exact ⟨q, hi, hq⟩
  intro i j q₁ q₂ hi hj h₁ h₂
  obtain ⟨r₁, hr₁, hP₁⟩ := hold i q₁ hi h₁
  obtain ⟨r₂, hr₂, hP₂⟩ := hold j q₂ hj h₂
  exact h i j r₁ r₂ hr₁ hr₂ hP₁ hP₂

/-- A step that enters `P` while no process satisfies it makes it exclusive. -/
theorem Exclusive.of_none {P : π → Prop} (h : ∀ q ∈ procs, ¬ P q) :
    Exclusive P (procs.set pid p') := by
  have hat : ∀ (i : Nat) (q : π), (procs.set pid p')[i]? = some q → P q → i = pid := by
    intro i q hi hq
    rw [List.getElem?_set] at hi
    split at hi
    · rename_i heq
      exact heq.symm
    · exact absurd hq (h q (mem_of_getElem? hi))
  intro i j q₁ q₂ hi hj h₁ h₂
  rw [hat i q₁ hi h₁, hat j q₂ hj h₂]

/-- One step changes a count by the contribution of the process that moved. -/
theorem countP_set_add (P : π → Bool) (h : procs[pid]? = some p) (p' : π) :
    (procs.set pid p').countP P + (if P p then 1 else 0)
      = procs.countP P + (if P p' then 1 else 0) := by
  obtain ⟨hlt, rfl⟩ := List.getElem?_eq_some_iff.mp h
  rw [List.countP_set hlt]
  have hpos : P procs[pid] → 0 < procs.countP P := fun hp =>
    List.countP_pos_iff.mpr ⟨_, List.getElem_mem hlt, hp⟩
  by_cases hp : P procs[pid]
  · have := hpos hp
    simp only [hp, if_true]
    omega
  · simp [hp]

end Procs

end Interleaving
