import OnlinetLabs.Lib.Interleaving
import OnlinetLabs.Lib.Numbering
import OnlinetLabs.Progress.Concurrent

/-!
# Attempts at one step

`record_step_attempt` for one learner, lab and step, and the end of its transaction. The number is
read in the INSERT, from what was committed before it, and nothing is locked. The unique index makes
the INSERT wait for a transaction that has inserted the same number and turns it away if that one
commits. The foreign keys to the user and the lab are checked at the end of the INSERT, and what
they turn away is an `IntegrityError` too.
-/

namespace OnlinetLabs.Progress

open Interleaving
open Numbering (Gapless)

/-- The column `attempt_number` of the rows of one learner, lab and step. -/
structure AttemptTable where
  committed : List Nat
  /-- Of the transactions that are not over. -/
  uncommitted : List Nat := []
deriving Repr, DecidableEq

namespace AttemptTable

variable (s : AttemptTable)

/-- `coalesce(max(attempt_number), 0) + 1`. -/
def nextNumber : Nat := s.committed.max?.getD 0 + 1

def insert (number : Nat) : AttemptTable := { s with uncommitted := number :: s.uncommitted }

def rollback (number : Nat) : AttemptTable := { s with uncommitted := s.uncommitted.erase number }

def commit (number : Nat) : AttemptTable where
  committed := s.committed ++ [number]
  uncommitted := s.uncommitted.erase number

end AttemptTable

inductive AttemptPc where
  | called
  /-- The INSERT has read the next number. -/
  | numbered (number : Nat)
  /-- The row is in the unique index. -/
  | inserted (number : Nat)
  | returned (number : Nat)
  | committed
  | rolledBack
  /-- `error.progress.attempt_conflict`. -/
  | conflict
deriving Repr, DecidableEq

def attemptRetries : Nat := 3

structure AttemptCall where
  /-- How often an `IntegrityError` was caught. -/
  tries : Nat := 0
  /-- How often another transaction had taken the number. -/
  losses : Nat := 0
  pc : AttemptPc := .called
deriving Repr, DecidableEq

namespace AttemptCall

variable (p : AttemptCall)

def held : Option Nat :=
  match p.pc with
  | .inserted number | .returned number => some number
  | _ => none

/-- The `except` of the loop. -/
def integrityError (lost : Bool) : AttemptCall where
  tries := p.tries + 1
  losses := if lost then p.losses + 1 else p.losses
  pc := if p.tries + 1 < attemptRetries then .called else .conflict

/-- One statement, or the end of the transaction. It rolls back on any other error, and may after
the call. -/
def step (references : Bool) (s : AttemptTable) (a : DbAnswer) :
    Option (AttemptTable × AttemptCall) :=
  match p.pc, a with
  | .committed, _ | .rolledBack, _ | .conflict, _ => none
  | .called, .failed | .numbered _, .failed => some (s, { p with pc := .rolledBack })
  | .inserted number, .failed | .returned number, .failed =>
      some (s.rollback number, { p with pc := .rolledBack })
  | .called, .ok => some (s, { p with pc := .numbered s.nextNumber })
  | .numbered number, .ok =>
      -- waits for the transaction that has inserted it
      if number ∈ s.uncommitted then none
      -- `uq_step_attempts_number`
      else if number ∈ s.committed then some (s, p.integrityError true)
      else some (s.insert number, { p with pc := .inserted number })
  | .inserted number, .ok =>
      if references then some (s, { p with pc := .returned number })
      else some (s.rollback number, p.integrityError false)
  | .returned number, .ok => some (s.commit number, { p with pc := .committed })

end AttemptCall

/-- Any number of calls, where the rows of the user and of the lab are there or not. -/
def attempting (references : Bool) : System AttemptTable AttemptCall Empty Unit DbAnswer where
  env _ move := nomatch move
  spawn _ := {}
  step s p a := p.step references s a

def attempted (first : Nat) :
    Conf AttemptTable AttemptCall := ⟨{ committed := List.range' 1 first }, []⟩

/-- The committed numbers have no gap, there are as many as attempts were committed, and a call that
failed for a conflict has lost each time it tried. -/
structure AttemptsNumbered (first : Nat) (c : Conf AttemptTable AttemptCall) : Prop where
  gapless : Gapless c.shared.committed
  length_eq : c.shared.committed.length = first + c.procs.countP (·.pc = .committed)
  lost : ∀ p ∈ c.procs, p.pc = .conflict → p.losses = attemptRetries

variable {references : Bool} {first k number : Nat} {s s' : AttemptTable} {p p' : AttemptCall}
  {a : DbAnswer}
  {c c' : Conf AttemptTable AttemptCall} {l : Label Empty Unit DbAnswer} {pid : Nat}

namespace AttemptCall

/-- After an error the call is called again or gives up. -/
theorem integrityError_pc (lost : Bool) :
    (p.integrityError lost).held = none ∧ (p.integrityError lost).pc ≠ .committed
    ∧ ∀ number, (p.integrityError lost).pc ≠ .numbered number := by
  by_cases hlt : p.tries + 1 < attemptRetries
  · simp [integrityError, held, hlt]
  · simp [integrityError, held, hlt]

/-- A step leaves the table as it is, inserts a number, takes it back or commits it. -/
theorem step_cases (h : p.step references s a = some (s', p')) :
    (s' = s ∧ p'.held = p.held ∧ p.pc ≠ .committed ∧ p'.pc ≠ .committed
        ∧ ∀ number, p'.pc = .numbered number → number = s.nextNumber)
      ∨ (∃ number, p.pc = .numbered number ∧ number ∉ s.committed ∧ number ∉ s.uncommitted
        ∧ s' = s.insert number
          ∧ p' = { p with pc := .inserted number })
      ∨ (∃ number, p.held = some number ∧ s' = s.rollback number ∧ p'.held = none
        ∧ p'.pc ≠ .committed
          ∧ ∀ number, p'.pc ≠ .numbered number)
      ∨ ∃ number, p.pc = .returned number ∧ s' = s.commit number
        ∧ p' = { p with pc := .committed } := by
  obtain ⟨tries, losses, pc⟩ := p
  cases pc with
  | committed | rolledBack | conflict => cases h
  | called =>
      left
      cases a with
      | failed =>
          cases h
          exact ⟨rfl, rfl, by simp, by simp, by simp⟩
      | ok =>
          cases h
          exact ⟨rfl, rfl, by simp, by simp, fun number hpc => (AttemptPc.numbered.inj hpc).symm⟩
  | numbered number =>
      cases a with
      | failed =>
          cases h
          exact Or.inl ⟨rfl, rfl, by simp, by simp, by simp⟩
      | ok =>
          simp only [step] at h
          split_ifs at h with huncommitted hcommitted
          · cases h
            obtain ⟨hheld, hne, hnumbered⟩ := integrityError_pc true
            exact Or.inl ⟨rfl, hheld, by simp, hne, fun number hpc => absurd hpc (hnumbered number)⟩
          · cases h
            exact Or.inr (Or.inl ⟨number, rfl, hcommitted, huncommitted, rfl, rfl⟩)
  | inserted number =>
      cases a with
      | failed =>
          cases h
          exact Or.inr (Or.inr (Or.inl ⟨number, rfl, rfl, rfl, by simp, by simp⟩))
      | ok =>
          simp only [step] at h
          split_ifs at h
          · cases h
            exact Or.inl ⟨rfl, rfl, by simp, by simp, by simp⟩
          · cases h
            exact Or.inr (Or.inr (Or.inl ⟨number, rfl, rfl, integrityError_pc false⟩))
  | returned number =>
      cases a with
      | failed =>
          cases h
          exact Or.inr (Or.inr (Or.inl ⟨number, rfl, rfl, rfl, by simp, by simp⟩))
      | ok =>
          cases h
          exact Or.inr (Or.inr (Or.inr ⟨number, rfl, rfl, rfl⟩))

/-- A call gives up after its third error, and with both rows there each of them is a loss. -/
structure Counted (references : Bool) (p : AttemptCall) : Prop where
  tries_lt : p.pc ≠ .conflict → p.tries < attemptRetries
  tries_eq : p.pc = .conflict → p.tries = attemptRetries
  losses_eq : references = true → p.losses = p.tries

theorem Counted.integrityError {lost : Bool} (h : p.Counted references) (hpc : p.pc ≠ .conflict)
    (hlost : references = true → lost = true) : (p.integrityError lost).Counted references := by
  have hlt := h.tries_lt hpc
  have hend : p.tries + 1 = attemptRetries ∨ p.tries + 1 < attemptRetries := by omega
  rcases hend with hend | hend
  · have hconflict : (p.integrityError lost).pc = .conflict := if_neg (by omega)
    refine ⟨fun hne => absurd hconflict hne, fun _ => hend, fun hreferences => ?_⟩
    simp [AttemptCall.integrityError, hlost hreferences, h.losses_eq hreferences]
  · have hcalled : (p.integrityError lost).pc = .called := if_pos hend
    refine ⟨fun _ => hend, fun hconflict => ?_, fun hreferences => ?_⟩
    · rw [hcalled] at hconflict
      cases hconflict
    · simp [AttemptCall.integrityError, hlost hreferences, h.losses_eq hreferences]

theorem Counted.of_pc {pc : AttemptPc} (h : p.Counted references) (hpc : p.pc ≠ .conflict)
    (hpc' : pc ≠ .conflict) :
    ({ p with pc := pc } : AttemptCall).Counted references :=
  ⟨fun _ => h.tries_lt hpc, fun hconflict => absurd hconflict hpc', h.losses_eq⟩

theorem Counted.step (h : p.Counted references) (hstep : p.step references s a = some (s', p')) :
    p'.Counted references := by
  have hnot : p.pc ≠ .conflict := by
    intro hpc
    simp [AttemptCall.step, hpc] at hstep
  cases hpc : p.pc with
  | called | returned =>
      cases a with
      | ok | failed =>
          simp only [AttemptCall.step, hpc] at hstep
          cases hstep
          exact h.of_pc hnot (by simp)
  | numbered number =>
      cases a with
      | ok =>
          simp only [AttemptCall.step, hpc] at hstep
          split_ifs at hstep
          · cases hstep
            exact h.integrityError hnot fun _ => rfl
          · cases hstep
            exact h.of_pc hnot (by simp)
      | failed =>
          simp only [AttemptCall.step, hpc] at hstep
          cases hstep
          exact h.of_pc hnot (by simp)
  | inserted number =>
      cases a with
      | ok =>
          simp only [AttemptCall.step, hpc] at hstep
          split_ifs at hstep with hreferences
          · cases hstep
            exact h.of_pc hnot (by simp)
          · cases hstep
            exact h.integrityError hnot fun h => absurd h hreferences
      | failed =>
          simp only [AttemptCall.step, hpc] at hstep
          cases hstep
          exact h.of_pc hnot (by simp)
  | committed | rolledBack | conflict => simp [AttemptCall.step, hpc] at hstep

structure Fits (k : Nat) (p : AttemptCall) : Prop where
  numbered : ∀ number, p.pc = .numbered number → 1 ≤ number ∧ number ≤ k + 1
  held_eq : ∀ number, p.held = some number → number = k + 1

theorem Fits.succ (h : p.Fits k) (hfree : p.held = none) : p.Fits (k + 1) := by
  refine ⟨fun number hpc => ?_, fun number hheld => ?_⟩
  · have hnumber := h.numbered number hpc
    omega
  · rw [hfree] at hheld
    cases hheld

theorem Fits.of_none (hfree : p.held = none) (hpc : ∀ number, p.pc ≠ .numbered number) :
    p.Fits k := by
  refine ⟨fun number h => absurd h (hpc number), fun number hheld => ?_⟩
  rw [hfree] at hheld
  cases hheld

end AttemptCall

/-- At most one transaction has inserted a number, and it is the one after the last that was
committed. -/
structure OneAhead (references : Bool) (first : Nat)
    (c : Conf AttemptTable AttemptCall) : Prop where
  gapless : Gapless c.shared.committed
  length_eq : c.shared.committed.length = first + c.procs.countP (·.pc = .committed)
  uncommitted_eq : c.shared.uncommitted
    = List.replicate (c.procs.countP (·.held.isSome)) (c.shared.committed.length + 1)
  holders_le : c.procs.countP (·.held.isSome) ≤ 1
  fits : ∀ p ∈ c.procs, p.Fits c.shared.committed.length
  counted : ∀ p ∈ c.procs, p.Counted references

namespace OneAhead

theorem attempted (references : Bool) (first : Nat) :
    OneAhead references first (attempted first) where
  gapless := Gapless.range' first
  length_eq := List.length_range'
  uncommitted_eq := rfl
  holders_le := Nat.zero_le 1
  fits := fun _ hp => nomatch hp
  counted := fun _ hp => nomatch hp

theorem spawn (h : OneAhead references first c) :
    OneAhead references first { c with procs := c.procs ++ [{}] } where
  gapless := h.gapless
  length_eq := by
    rw [List.countP_append]
    exact h.length_eq
  uncommitted_eq := by
    rw [List.countP_append]
    exact h.uncommitted_eq
  holders_le := by
    rw [List.countP_append]
    exact h.holders_le
  fits := forall_mem_append h.fits (AttemptCall.Fits.of_none rfl (by simp))
  counted := forall_mem_append h.counted ⟨fun _ => by
    decide, fun hpc => (by cases hpc), fun _ => rfl⟩

/-- A step that leaves the table as it is. -/
theorem stay (h : OneAhead references first c) (hpid : c.procs[pid]? = some p)
    (hcounted : p'.Counted references)
    (hheld : p'.held = p.held) (hpc : p.pc ≠ .committed) (hpc' : p'.pc ≠ .committed)
    (hnumbered : ∀ number, p'.pc = .numbered number → number = c.shared.nextNumber) :
    OneAhead references first ⟨c.shared, c.procs.set pid p'⟩ := by
  have hcommits :
      (c.procs.set pid p').countP (·.pc = .committed) = c.procs.countP (·.pc = .committed) := by
    simpa [hpc, hpc'] using countP_set_add (·.pc = .committed) hpid p'
  have hholders : (c.procs.set pid p').countP (·.held.isSome) = c.procs.countP (·.held.isSome) := by
    simpa [hheld] using countP_set_add (·.held.isSome) hpid p'
  have hfits : p'.Fits c.shared.committed.length := by
    refine ⟨fun number hnumber => ?_, fun number hnumber => ?_⟩
    · rw [hnumbered number hnumber, AttemptTable.nextNumber, h.gapless.max?_getD]
      omega
    · rw [hheld] at hnumber
      exact (h.fits p (mem_of_getElem? hpid)).held_eq number hnumber
  exact {
    gapless := h.gapless
    length_eq := by rw [hcommits]; exact h.length_eq
    uncommitted_eq := by rw [hholders]; exact h.uncommitted_eq
    holders_le := by rw [hholders]; exact h.holders_le
    fits := forall_mem_set h.fits hfits
    counted := forall_mem_set h.counted hcounted }

/-- A number that nobody has is the next one, and no other transaction holds one. -/
theorem insert (h : OneAhead references first c) (hpid : c.procs[pid]? = some p)
    (hcounted : p'.Counted references)
    (hpc : p.pc = .numbered number) (hpc' : p'.pc = .inserted number)
    (hcommitted : number ∉ c.shared.committed)
    (huncommitted : number ∉ c.shared.uncommitted) :
    OneAhead references first ⟨c.shared.insert number, c.procs.set pid p'⟩ := by
  obtain ⟨hpos, hle⟩ := (h.fits p (mem_of_getElem? hpid)).numbered number hpc
  have hnumber := h.gapless.eq_of_not_mem hpos hle hcommitted
  have hnone : c.procs.countP (·.held.isSome) = 0 := by
    rw [h.uncommitted_eq, hnumber, List.mem_replicate] at huncommitted
    by_contra hne
    exact huncommitted ⟨hne, rfl⟩
  have hcommits :
      (c.procs.set pid p').countP (·.pc = .committed) = c.procs.countP (·.pc = .committed) := by
    simpa [hpc, hpc'] using countP_set_add (·.pc = .committed) hpid p'
  have hfree : p.held = none := by rw [AttemptCall.held, hpc]
  have hheld : p'.held = some number := by rw [AttemptCall.held, hpc']
  have hholders : (c.procs.set pid p').countP (·.held.isSome) = 1 := by
    simpa [hfree, hheld, hnone] using countP_set_add (·.held.isSome) hpid p'
  have hfits : p'.Fits c.shared.committed.length := by
    refine ⟨fun other hnumbered => ?_, fun other hother => ?_⟩
    · rw [hpc'] at hnumbered
      cases hnumbered
    · rw [hheld] at hother
      cases hother
      exact hnumber
  exact {
    gapless := h.gapless
    length_eq := by rw [hcommits]; exact h.length_eq
    uncommitted_eq := by
      rw [hholders]
      simp only [AttemptTable.insert, h.uncommitted_eq, hnone, hnumber]
      rfl
    holders_le := by rw [hholders]
    fits := forall_mem_set h.fits hfits
    counted := forall_mem_set h.counted hcounted }

/-- The one transaction that holds a number lets it go. -/
theorem released (h : OneAhead references first c) (hpid : c.procs[pid]? = some p)
    (hheld : p.held = some number)
    (hfree : p'.held = none) :
    number = c.shared.committed.length + 1 ∧ c.shared.uncommitted.erase number = []
      ∧ (c.procs.set pid p').countP (·.held.isSome) = 0 := by
  have hmem := mem_of_getElem? hpid
  have hnumber := (h.fits p hmem).held_eq number hheld
  have hpos : 0 < c.procs.countP (·.held.isSome) :=
    List.countP_pos_iff.mpr ⟨p, hmem, by rw [hheld]; rfl⟩
  have hone : c.procs.countP (·.held.isSome) = 1 := Nat.le_antisymm h.holders_le hpos
  have hmoved : (c.procs.set pid p').countP (·.held.isSome) + 1 = 0 + 1 := by
    simpa [hheld, hfree, hone] using countP_set_add (·.held.isSome) hpid p'
  refine ⟨hnumber, ?_, Nat.add_right_cancel hmoved⟩
  rw [h.uncommitted_eq, hone, hnumber]
  simp

theorem rollback (h : OneAhead references first c) (hpid : c.procs[pid]? = some p)
    (hcounted : p'.Counted references)
    (hheld : p.held = some number) (hfree : p'.held = none) (hpc' : p'.pc ≠ .committed)
    (hnumbered : ∀ number, p'.pc ≠ .numbered number) :
    OneAhead references first ⟨c.shared.rollback number, c.procs.set pid p'⟩ := by
  obtain ⟨-, herase, hholders⟩ := h.released hpid hheld hfree
  have hpc : p.pc ≠ .committed := by
    intro hpc
    simp [AttemptCall.held, hpc] at hheld
  have hcommits :
      (c.procs.set pid p').countP (·.pc = .committed) = c.procs.countP (·.pc = .committed) := by
    simpa [hpc, hpc'] using countP_set_add (·.pc = .committed) hpid p'
  exact {
    gapless := h.gapless
    length_eq := by rw [hcommits]; exact h.length_eq
    uncommitted_eq := by rw [hholders]; exact herase
    holders_le := by rw [hholders]; exact Nat.zero_le 1
    fits := forall_mem_set h.fits (AttemptCall.Fits.of_none hfree hnumbered)
    counted := forall_mem_set h.counted hcounted }

/-- The number that is committed is the next one, and nobody holds the one after it. -/
theorem commit (h : OneAhead references first c) (hpid : c.procs[pid]? = some p)
    (hcounted : p'.Counted references)
    (hpc : p.pc = .returned number) (hpc' : p'.pc = .committed) :
    OneAhead references first ⟨c.shared.commit number, c.procs.set pid p'⟩ := by
  have hfree : p'.held = none := by rw [AttemptCall.held, hpc']
  obtain ⟨hnumber, herase, hholders⟩ := h.released hpid (by rw [AttemptCall.held, hpc]) hfree
  have hcommits :
      (c.procs.set pid p').countP (·.pc = .committed) = c.procs.countP (·.pc = .committed) + 1 := by
    simpa [hpc, hpc'] using countP_set_add (·.pc = .committed) hpid p'
  have hlength : (c.shared.commit number).committed.length = c.shared.committed.length + 1 :=
    List.length_append
  exact {
    gapless := by
      simp only [AttemptTable.commit, hnumber]
      exact h.gapless.concat
    length_eq := by rw [hcommits, hlength, h.length_eq, Nat.add_assoc]
    uncommitted_eq := by rw [hholders]; exact herase
    holders_le := by rw [hholders]; exact Nat.zero_le 1
    fits := by
      intro q hq
      have hqfree : q.held = none := by
        have hnot := List.countP_eq_zero.mp hholders q hq
        simpa using hnot
      rw [hlength]
      rcases List.mem_or_eq_of_mem_set hq with hold | rfl
      · exact (h.fits q hold).succ hqfree
      · exact AttemptCall.Fits.of_none hfree (by simp [hpc'])
    counted := forall_mem_set h.counted hcounted }

theorem next (h : OneAhead references first c)
    (hnext : (attempting references).next c l = some c') :
    OneAhead references first c' := by
  rcases (attempting references).next_cases hnext with ⟨e, s, rfl, hs, rfl⟩ | ⟨i, rfl, rfl⟩
    | ⟨pid, a, p, s, p', rfl, hpid, hstep, rfl⟩
  · exact nomatch e
  · exact h.spawn
  · have hstep' : p.step references c.shared a = some (s, p') := hstep
    have hcounted : p'.Counted references := (h.counted p (mem_of_getElem? hpid)).step hstep'
    rcases AttemptCall.step_cases hstep' with ⟨rfl, hheld, hpc, hpc', hnumbered⟩
      | ⟨number, hpc, hcommitted, huncommitted, rfl, rfl⟩
      | ⟨number, hheld, rfl, hfree, hpc', hnumbered⟩
      | ⟨number, hpc, rfl, rfl⟩
    · exact h.stay hpid hcounted hheld hpc hpc' hnumbered
    · exact h.insert hpid hcounted hpc rfl hcommitted huncommitted
    · exact h.rollback hpid hcounted hheld hfree hpc' hnumbered
    · exact h.commit hpid hcounted hpc rfl

end OneAhead

theorem AttemptsNumbered.of_oneAhead (h : OneAhead true first c) : AttemptsNumbered first c where
  gapless := h.gapless
  length_eq := h.length_eq
  lost p hp hpc := ((h.counted p hp).losses_eq rfl).trans ((h.counted p hp).tries_eq hpc)

/-- Without the row of the lab, a call finds the next number free and is turned away. -/
theorem exec_unreferenced {committed : List Nat} (hgapless : Gapless committed)
    (hpc : p.pc = .called) :
    (attempting false).exec ⟨{ committed }, [p]⟩ (List.replicate 3 (.run 0 .ok))
      = some ⟨{ committed }, [p.integrityError false]⟩ := by
  have hnew : committed.length + 1 ∉ committed := by
    rw [hgapless.mem_iff]
    omega
  obtain ⟨tries, losses, pc⟩ := p
  cases hpc
  simp [List.replicate, System.exec, System.next, attempting, AttemptCall.step,
    AttemptTable.nextNumber, hgapless.max?_getD, hnew, AttemptTable.insert, AttemptTable.rollback,
    AttemptCall.integrityError]

/-- **When attempts are numbered without a gap and conflict only after three losses.** -/
theorem attemptsNumbered_iff (references : Bool) (first : Nat) :
    (∀ ls, (attempting references).Throughout (AttemptsNumbered first) (attempted first) ls)
      ↔ references = true := by
  constructor
  · intro h
    by_contra hreferences
    rw [Bool.not_eq_true] at hreferences
    subst hreferences
    have hgapless := Gapless.range' first
    let trial : List (Label Empty Unit DbAnswer) := List.replicate 3 (.run 0 .ok)
    have hrun : (attempting false).exec (attempted first) (.spawn () :: (trial ++ (trial ++ trial)))
        = some ⟨{ committed := List.range' 1 first },
          [{ tries := 3, losses := 0, pc := .conflict }]⟩ :=
      System.exec_append (attempting false) |>.mpr ⟨_, exec_unreferenced hgapless rfl,
        System.exec_append (attempting false) |>.mpr ⟨_, exec_unreferenced hgapless rfl,
          exec_unreferenced hgapless rfl⟩⟩
    have hlost := ((h _).exec _ hrun).lost _ (List.mem_singleton_self _) rfl
    cases hlost
  · rintro rfl ls
    apply System.Throughout.mono (attempting true) fun c => AttemptsNumbered.of_oneAhead
    apply (attempting true).throughout_of_preserved
    · exact fun c l c' h hnext => h.next hnext
    · exact OneAhead.attempted true first

def unknownLab : List (Label Empty Unit DbAnswer) := .spawn () :: List.replicate 9 (.run 0 .ok)

/-- **A conflict that nobody else took part in.** -/
theorem conflict_of_one : ∃ c, (attempting false).exec (attempted 0) unknownLab = some c
    ∧ c.procs = [{ tries := 3, losses := 0, pc := .conflict }]
    ∧ ¬ (attempting false).Throughout (AttemptsNumbered 0) (attempted 0) unknownLab := by
  have hrun : (attempting false).exec (attempted 0) unknownLab
      = some ⟨{ committed := [] }, [{ tries := 3, losses := 0, pc := .conflict }]⟩ := rfl
  refine ⟨_, hrun, rfl, fun hthrough => ?_⟩
  have hlost := (hthrough.exec _ hrun).lost _ (List.mem_singleton_self _) rfl
  cases hlost

end OnlinetLabs.Progress
