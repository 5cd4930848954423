import OnlinetLabs.Lib.Interleaving
import OnlinetLabs.Simulation.Student
import Mathlib.Data.List.Basic

/-!
# A cohort of simulated students

All students of a cohort are run side by side, as many at a time as the semaphore lets through. Each
has a generator of its own, acts in its own session and has its true mode recorded window by window.
Whatever fails, fails for that student alone.

What provisioning, the actor and the database answer is arbitrary; a student is its place in the
cohort.
-/

namespace OnlinetLabs.Simulation

open Interleaving

/-- A row of `record_truth`, and whose it is. -/
structure TruthRow where
  student : Nat
  sessionId : Nat
  windowIndex : Nat
  trueRegime : TrueRegime
deriving Repr, DecidableEq

/-- An entry of `per_student`. -/
structure StudentReport where
  student : Nat
  sessionId : Nat
  windows : Nat
deriving Repr, DecidableEq

structure RunReport where
  peakConcurrency : Nat := 0
  perStudent : List StudentReport := []
  failures : List Nat := []
deriving Repr, DecidableEq

/-- The semaphore, the students under way, what is reported and what is recorded. -/
structure Cohort where
  sem : Nat
  cur : Nat := 0
  report : RunReport := {}
  truth : List TruthRow := []
deriving Repr, DecidableEq

section Run

variable {ρ : Type} (rng : Random ρ) (sampleProfile : Int → StudentProfile) (seeded : Int → ρ)
  (baseSeed : Int)
  (maxSteps : Nat)

inductive StudentPc (ρ : Type) where
  | waiting
  | adding
  | provisioning
  | executing (sessionId window : Nat) (regime : TrueRegime) (state : StudentState) (g : ρ)
  | recording (sessionId window : Nat) (regime : TrueRegime) (state : StudentState) (g : ρ)
  | finalizing (sessionId windows : Nat)
  | reported
  | failed

def StudentPc.running : StudentPc ρ → Bool
  | .adding | .provisioning | .executing .. | .recording .. | .finalizing .. => true
  | .waiting | .reported | .failed => false

def StudentPc.ended : StudentPc ρ → Bool
  | .reported | .failed => true
  | .waiting | .adding | .provisioning | .executing .. | .recording .. | .finalizing .. => false

/-- `_run_one` -/
structure Student (ρ : Type) where
  i : Nat
  pc : StudentPc ρ := .waiting

inductive Answer where
  | go
  | session (sessionId : Nat)
  | raises
deriving Repr, DecidableEq

/-- The next window, where there is one. -/
def iterate (i sessionId window : Nat) (state : StudentState) (g : ρ) : StudentPc ρ :=
  if window < maxSteps then
    let (_, regime, state, g) := nextStep rng (sampleProfile (baseSeed + i)) state g
    .executing sessionId window regime state g
  else .finalizing sessionId window

namespace Cohort

def acquire (s : Cohort) : Cohort :=
  { s with
    sem := s.sem - 1
    cur := s.cur + 1
    report := { s.report with peakConcurrency := max s.report.peakConcurrency (s.cur + 1) } }

def release (s : Cohort) : Cohort := { s with sem := s.sem + 1, cur := s.cur - 1 }

def fail (s : Cohort) (i : Nat) : Cohort :=
  { s.release with report := { s.report with failures := s.report.failures ++ [i] } }

def complete (s : Cohort) (row : StudentReport) : Cohort :=
  { s.release with report := { s.report with perStudent := s.report.perStudent ++ [row] } }

end Cohort

def Student.step (s : Cohort) (p : Student ρ) (a : Answer) : Option (Cohort × Student ρ) :=
  match p.pc, a with
  | .waiting, .go => if 0 < s.sem then some (s.acquire, { p with pc := .adding }) else none
  | .adding, .go => some (s, { p with pc := .provisioning })
  | .provisioning, .session sessionId =>
      some (s, { p with
        pc := iterate rng sampleProfile baseSeed maxSteps p.i sessionId 0 {}
          (seeded (baseSeed + p.i)) })
  | .executing sessionId window regime state g, .go =>
      some (s, { p with pc := .recording sessionId window regime state g })
  | .recording sessionId window regime state g, .go =>
      some ({ s with truth := s.truth ++ [⟨p.i, sessionId, window, regime⟩] }, { p with
        pc :=
          if state.done then .finalizing sessionId (window + 1)
          else iterate rng sampleProfile baseSeed maxSteps p.i sessionId (window + 1) state g })
  | .finalizing sessionId windows, .go =>
      some (s.complete ⟨p.i, sessionId, windows⟩, { p with pc := .reported })
  | .adding, .raises | .provisioning, .raises | .executing .., .raises | .recording .., .raises
  | .finalizing .., .raises => some (s.fail p.i, { p with pc := .failed })
  | _, _ => none

/-- `run_cohort`, which starts all its students at once. -/
def runCohort : System Cohort (Student ρ) Empty Empty Answer where
  env _ e := nomatch e
  spawn i := nomatch i
  step := Student.step rng sampleProfile seeded baseSeed maxSteps

def runCohortInit (n concurrency : Nat) : Conf Cohort (Student ρ) :=
  ⟨{ sem := concurrency }, (List.range n).map fun i => { i }⟩

def solo (i : Nat) : List (Action × TrueRegime × StudentState) :=
  windows rng (sampleProfile (baseSeed + i)) maxSteps {} (seeded (baseSeed + i))

end Run

def truthRows (i sessionId : Nat) (ws : List (Action × TrueRegime × StudentState)) :
    List TruthRow :=
  ws.zipIdx.map fun w => ⟨i, sessionId, w.2, w.1.2.1⟩

/-! ### What is kept -/

namespace Cohort

def truthOf (s : Cohort) (i : Nat) : List TruthRow := s.truth.filter fun row => row.student = i

def reportsOf (s : Cohort) (i : Nat) : List StudentReport := s.report.perStudent.filter fun row =>
    row.student = i

/-- Nothing is recorded or reported of the student in between. -/
structure Same (s s' : Cohort) (i : Nat) : Prop where
  truth : s'.truthOf i = s.truthOf i
  reports : s'.reportsOf i = s.reportsOf i
  failures : s'.report.failures.count i = s.report.failures.count i

end Cohort

section Kept

variable {ρ : Type} (rng : Random ρ) (sampleProfile : Int → StudentProfile) (seeded : Int → ρ)
  (baseSeed : Int)
  (maxSteps : Nat)

/-- The window under way is the next of those the student would have alone, after those that are
recorded. -/
def Abreast (s : Cohort) (i sessionId window : Nat) (regime : TrueRegime) (state : StudentState)
    (g : ρ) : Prop :=
  ∃ past action, past.length = window ∧ s.truthOf i = truthRows i sessionId past ∧ window < maxSteps
    ∧ solo rng sampleProfile seeded baseSeed maxSteps i = past ++ (action, regime, state)
      :: if state.done then [] else windows rng (sampleProfile (baseSeed + i))
        (maxSteps - (window + 1)) state g

structure StudentKept (s : Cohort) (p : Student ρ) : Prop where
  truth : match p.pc with
    | .waiting | .adding | .provisioning => s.truthOf p.i = []
    | .executing sessionId window regime state g | .recording sessionId window regime state g =>
        Abreast rng sampleProfile seeded baseSeed maxSteps s p.i sessionId window regime state g
    | .finalizing sessionId m =>
        s.truthOf p.i
          = truthRows p.i sessionId (solo rng sampleProfile seeded baseSeed maxSteps p.i)
          ∧ (solo rng sampleProfile seeded baseSeed maxSteps p.i).length = m
    | .reported => ∃ sessionId,
        s.truthOf p.i
          = truthRows p.i sessionId (solo rng sampleProfile seeded baseSeed maxSteps p.i)
          ∧ s.reportsOf p.i
            = [⟨p.i, sessionId, (solo rng sampleProfile seeded baseSeed maxSteps p.i).length⟩]
    | .failed => ∃ sessionId past, past <+: solo rng sampleProfile seeded baseSeed maxSteps p.i
        ∧ s.truthOf p.i = truthRows p.i sessionId past ∧ s.reportsOf p.i = []
  reports : p.pc.ended = false → s.reportsOf p.i = []
  counted : (s.reportsOf p.i).length + s.report.failures.count p.i = if p.pc.ended then 1 else 0

structure Kept (concurrency : Nat) (conf : Conf Cohort (Student ρ)) : Prop where
  index : ∀ (i : Nat) (p : Student ρ), conf.procs[i]? = some p → p.i = i
  students : ∀ p ∈ conf.procs, StudentKept rng sampleProfile seeded baseSeed maxSteps conf.shared p
  sem : conf.shared.sem + conf.shared.cur = concurrency
  cur : conf.shared.cur = conf.procs.countP fun p => p.pc.running
  peak : conf.shared.cur ≤ conf.shared.report.peakConcurrency
    ∧ conf.shared.report.peakConcurrency ≤ concurrency
  ended : conf.shared.report.perStudent.length + conf.shared.report.failures.length
    = conf.procs.countP fun p => p.pc.ended

variable {rng sampleProfile seeded baseSeed maxSteps} {s s' : Cohort} {p p' : Student ρ} {i : Nat}
  {a : Answer}

theorem StudentKept.same (h : StudentKept rng sampleProfile seeded baseSeed maxSteps s p)
    (hsame : s.Same s' p.i) :
    StudentKept rng sampleProfile seeded baseSeed maxSteps s' p := by
  obtain ⟨htruth, hreports, hfailures⟩ := hsame
  refine ⟨?_, fun hpc => hreports.trans (h.reports hpc), by
    rw [hreports, hfailures]; exact h.counted⟩
  have hbefore := h.truth
  revert hbefore
  unfold Abreast
  cases p.pc <;> dsimp only <;> rw [htruth] <;> first | exact id | (rw [hreports]; exact id)

/-! ### What a step does -/

/-- What a step of a student changes: the student under way, what is counted, and nothing of the
others. -/
structure StudentStep (s s' : Cohort) (p p' : Student ρ) : Prop where
  i : p'.i = p.i
  sem : (p.pc.running = true → 0 < s.cur) → s'.sem + s'.cur = s.sem + s.cur
  cur : (p.pc.running = true → 0 < s.cur) →
    s'.cur + (if p.pc.running then 1 else 0) = s.cur + if p'.pc.running then 1 else 0
  peak : s.cur ≤ s.report.peakConcurrency →
    s'.cur ≤ s'.report.peakConcurrency
      ∧ s'.report.peakConcurrency ≤ max s.report.peakConcurrency s'.cur
  ended : s'.report.perStudent.length + s'.report.failures.length + (if p.pc.ended then 1 else 0)
    = s.report.perStudent.length + s.report.failures.length + if p'.pc.ended then 1 else 0
  others : ∀ other, other ≠ p.i → s.Same s' other

theorem iterate_frame (i sessionId window : Nat) (state : StudentState) (g : ρ) :
    (iterate rng sampleProfile baseSeed maxSteps i sessionId window state g).running = true
      ∧ (iterate rng sampleProfile baseSeed maxSteps i sessionId window state g).ended = false := by
  unfold iterate
  split <;> exact ⟨rfl, rfl⟩

theorem studentStep_fail {pc : StudentPc ρ} (hrunning : pc.running = true)
    (hended : pc.ended = false) :
    StudentStep s (s.fail i) ⟨i, pc⟩ ⟨i, .failed⟩ where
  i := rfl
  sem hpos := by
    have hcur := hpos hrunning
    dsimp only [Cohort.fail, Cohort.release]
    omega
  cur hpos := by
    have hcur := hpos hrunning
    rw [if_pos hrunning]
    change s.cur - 1 + 1 = s.cur + 0
    omega
  peak hpeak := ⟨Nat.le_trans (Nat.sub_le _ _) hpeak, Nat.le_max_left _ _⟩
  ended := by
    rw [if_neg (by rw [hended]; decide)]
    change s.report.perStudent.length + (s.report.failures ++ [i]).length + 0 = _ + 1
    rw [List.length_append, List.length_singleton]
    omega
  others other hne := ⟨rfl, rfl, by simp [Cohort.fail, List.count_append, Ne.symm hne]⟩

theorem studentStep_complete {pc : StudentPc ρ} {sessionId windows : Nat}
    (hrunning : pc.running = true)
    (hended : pc.ended = false) :
    StudentStep s (s.complete ⟨i, sessionId, windows⟩) ⟨i, pc⟩ ⟨i, .reported⟩ where
  i := rfl
  sem hpos := by
    have hcur := hpos hrunning
    dsimp only [Cohort.complete, Cohort.release]
    omega
  cur hpos := by
    have hcur := hpos hrunning
    rw [if_pos hrunning]
    change s.cur - 1 + 1 = s.cur + 0
    omega
  peak hpeak := ⟨Nat.le_trans (Nat.sub_le _ _) hpeak, Nat.le_max_left _ _⟩
  ended := by
    rw [if_neg (by rw [hended]; decide)]
    change (s.report.perStudent ++ [_]).length + s.report.failures.length + 0 = _ + 1
    rw [List.length_append, List.length_singleton]
    omega
  others other hne :=
    ⟨rfl, by simp [Cohort.reportsOf, Cohort.complete, List.filter_append, Ne.symm hne], rfl⟩

/-- A student that stays under way, and may have had something recorded. -/
theorem studentStep_on {pc pc' : StudentPc ρ} (hrunning : pc.running = true)
    (hended : pc.ended = false)
    (hafter : pc'.running = true ∧ pc'.ended = false) {truth : List TruthRow}
    (htruth : ∀ row ∈ truth, row.student = i) (heq : s' = { s with truth := s.truth ++ truth }) :
    StudentStep s s' ⟨i, pc⟩ ⟨i, pc'⟩ := by
  subst heq
  refine ⟨rfl, fun _ => rfl, fun _ => by
    rw [hrunning, hafter.1], fun hpeak => ⟨hpeak, Nat.le_max_left _ _⟩, by
    rw [hended, hafter.2], fun other hne => ⟨?_, rfl, rfl⟩⟩
  have hnone : truth.filter (fun row => row.student = other) = [] := by
    rw [List.filter_eq_nil_iff]
    intro row hrow
    rw [htruth row hrow]
    simpa using Ne.symm hne
  unfold Cohort.truthOf
  rw [List.filter_append, hnone, List.append_nil]

theorem truthRows_append (i sessionId : Nat) (past : List (Action × TrueRegime × StudentState))
    (w : Action × TrueRegime × StudentState) :
    truthRows i sessionId (past ++ [w]) = truthRows i sessionId past
      ++ [⟨i, sessionId, past.length, w.2.1⟩] := by
  simp [truthRows, List.zipIdx_append]

/-- After the windows that are recorded, the next is under way, or all are recorded. -/
theorem iterate_kept {sessionId window : Nat} {state : StudentState} {g : ρ}
    (past : List (Action × TrueRegime × StudentState)) (hlength : past.length = window)
    (hwindow : window ≤ maxSteps)
    (htruth : s.truthOf i = truthRows i sessionId past) (hreports : s.reportsOf i = [])
    (hcounted : s.report.failures.count i = 0)
    (hsolo : solo rng sampleProfile seeded baseSeed maxSteps i
      = past ++ windows rng (sampleProfile (baseSeed + i)) (maxSteps - window) state g) :
    StudentKept rng sampleProfile seeded baseSeed maxSteps s
      ⟨i, iterate rng sampleProfile baseSeed maxSteps i sessionId window state g⟩ := by
  have hended :
      (iterate rng sampleProfile baseSeed maxSteps i sessionId window state g).ended = false :=
    (iterate_frame i sessionId window state g).2
  refine ⟨?_, fun _ => hreports, ?_⟩
  · by_cases hlt : window < maxSteps
    · have hnext : iterate rng sampleProfile baseSeed maxSteps i sessionId window state g
          = .executing sessionId window (nextStep rng (sampleProfile (baseSeed + i)) state g).2.1
            (nextStep rng (sampleProfile (baseSeed + i)) state g).2.2.1
            (nextStep rng (sampleProfile (baseSeed + i)) state g).2.2.2 := if_pos hlt
      rw [hnext]
      obtain ⟨rest, hrest⟩ : ∃ rest, maxSteps - window = rest + 1 :=
        ⟨maxSteps - (window + 1), by omega⟩
      refine ⟨past, (nextStep rng (sampleProfile (baseSeed + i)) state g).1, hlength,
        htruth, hlt, ?_⟩
      have hrest' : maxSteps - (window + 1) = rest := by omega
      rw [hsolo, hrest, hrest']
      rfl
    · have hnext : iterate rng sampleProfile baseSeed maxSteps i sessionId window state g
          = .finalizing sessionId window := if_neg hlt
      rw [hnext]
      have hrest : maxSteps - window = 0 := by omega
      rw [hrest] at hsolo
      have hall : solo rng sampleProfile seeded baseSeed maxSteps i = past :=
        hsolo.trans (List.append_nil _)
      exact ⟨by rw [hall]; exact htruth, by rw [hall]; exact hlength⟩
  · dsimp only
    rw [hreports, hcounted, hended]
    rfl

theorem Student.step_spec (h : StudentKept rng sampleProfile seeded baseSeed maxSteps s p)
    (hstep : p.step rng sampleProfile seeded baseSeed maxSteps s a = some (s', p')) :
    StudentStep s s' p p' ∧ StudentKept rng sampleProfile seeded baseSeed maxSteps s' p' := by
  obtain ⟨i, pc⟩ := p
  obtain ⟨htruth, hreports, hcounted⟩ := h
  have hfail : ∀ sessionId past, past <+: solo rng sampleProfile seeded baseSeed maxSteps i →
      s.truthOf i = truthRows i sessionId past → s.reportsOf i = [] →
        s.report.failures.count i = 0 →
      StudentKept rng sampleProfile seeded baseSeed maxSteps (s.fail i) ⟨i, .failed⟩ := by
    intro sessionId past hpast htruth hreports hcounted
    refine ⟨⟨sessionId, past, hpast, htruth, hreports⟩, fun hended => (by cases hended), ?_⟩
    change (s.reportsOf i).length + (s.report.failures ++ [i]).count i = 1
    rw [hreports, List.count_append, hcounted, List.count_singleton_self]
    rfl
  have hquiet : pc.ended = false → s.reportsOf i = [] ∧ s.report.failures.count i = 0 := by
    intro hended
    have hnone := hreports hended
    dsimp only at hnone hcounted
    rw [hnone, hended] at hcounted
    exact ⟨hnone, by simpa using hcounted⟩
  cases pc with
  | waiting =>
      cases a with
      | go =>
          simp only [Student.step] at hstep
          split at hstep <;> cases hstep
          rename_i hfree
          refine ⟨⟨rfl, fun _ => ?_, fun _ => rfl, fun hpeak => ?_, rfl, fun _ _ =>
            ⟨rfl, rfl, rfl⟩⟩, htruth, fun _ => hreports rfl, hcounted⟩
          · dsimp only [Cohort.acquire]
            omega
          · dsimp only [Cohort.acquire]
            exact ⟨Nat.le_max_right _ _, Nat.le_refl _⟩
      | session | raises => cases hstep
  | adding =>
      cases a with
      | go =>
          cases hstep
          exact ⟨studentStep_on rfl rfl ⟨rfl, rfl⟩ (fun _ hrow => absurd hrow List.not_mem_nil)
            (by rw [List.append_nil]), htruth, fun _ => hreports rfl, hcounted⟩
      | raises =>
          cases hstep
          obtain ⟨hnone, hcount⟩ := hquiet rfl
          exact ⟨studentStep_fail rfl rfl, hfail 0 [] List.nil_prefix htruth hnone hcount⟩
      | session => cases hstep
  | provisioning =>
      obtain ⟨hnone, hcount⟩ := hquiet rfl
      cases a with
      | session sessionId =>
          cases hstep
          refine ⟨studentStep_on rfl rfl (iterate_frame _ _ _ _ _)
            (fun _ hrow => absurd hrow List.not_mem_nil) (by rw [List.append_nil]), ?_⟩
          exact iterate_kept [] rfl (Nat.zero_le _) htruth hnone hcount rfl
      | raises =>
          cases hstep
          exact ⟨studentStep_fail rfl rfl, hfail 0 [] List.nil_prefix htruth hnone hcount⟩
      | go => cases hstep
  | executing sessionId window regime state g =>
      cases a with
      | go =>
          cases hstep
          exact ⟨studentStep_on rfl rfl ⟨rfl, rfl⟩ (fun _ hrow => absurd hrow List.not_mem_nil)
            (by rw [List.append_nil]), htruth, fun _ => hreports rfl, hcounted⟩
      | raises =>
          cases hstep
          obtain ⟨hnone, hcount⟩ := hquiet rfl
          obtain ⟨past, action, hlength, hrows, hlt, hsolo⟩ := htruth
          exact ⟨studentStep_fail rfl rfl, hfail _ past ⟨_, hsolo.symm⟩ hrows hnone hcount⟩
      | session => cases hstep
  | recording sessionId window regime state g =>
      obtain ⟨hnone, hcount⟩ := hquiet rfl
      obtain ⟨past, action, hlength, hrows, hlt, hsolo⟩ := htruth
      cases a with
      | go =>
          cases hstep
          have hrecorded :
              Cohort.truthOf { s with truth := s.truth ++ [⟨i, sessionId, window, regime⟩] } i
              = truthRows i sessionId (past ++ [(action, regime, state)]) := by
            rw [truthRows_append, ← hrows, hlength]
            simp [Cohort.truthOf, List.filter_append]
          have hrow : ∀ row ∈ [(⟨i, sessionId, window, regime⟩ : TruthRow)],
              row.student = i := by simp
          split
          · rename_i hdone
            rw [if_pos hdone] at hsolo
            refine ⟨studentStep_on rfl rfl ⟨rfl, rfl⟩ hrow rfl, ⟨?_, ?_⟩, fun _ => hnone, hcounted⟩
            · dsimp only
              rw [hrecorded, hsolo]
            · dsimp only
              rw [hsolo, List.length_append, hlength]
              rfl
          · rename_i hmore
            rw [if_neg hmore, List.append_cons] at hsolo
            refine ⟨studentStep_on rfl rfl (iterate_frame _ _ _ _ _) hrow rfl, ?_⟩
            exact iterate_kept _ (by rw [List.length_append, hlength]; rfl) hlt hrecorded hnone
              hcount hsolo
      | raises =>
          cases hstep
          exact ⟨studentStep_fail rfl rfl, hfail _ past ⟨_, hsolo.symm⟩ hrows hnone hcount⟩
      | session => cases hstep
  | finalizing sessionId windows =>
      obtain ⟨hnone, hcount⟩ := hquiet rfl
      cases a with
      | go =>
          cases hstep
          have hreported :
              (s.complete ⟨i, sessionId, windows⟩).reportsOf i = [⟨i, sessionId, windows⟩] := by
            unfold Cohort.reportsOf Cohort.complete
            dsimp only
            rw [List.filter_append]
            exact congrArg₂ _ hnone (by simp)
          refine ⟨studentStep_complete rfl rfl, ⟨sessionId, htruth.1, ?_⟩, fun hended =>
            (by cases hended), ?_⟩
          · dsimp only
            rw [hreported, htruth.2]
          · dsimp only
            rw [hreported]
            exact congrArg (1 + ·) hcount
      | raises =>
          cases hstep
          exact ⟨studentStep_fail rfl rfl, hfail _ _ List.prefix_rfl htruth.1 hnone hcount⟩
      | session => cases hstep
  | reported | failed => cases a <;> cases hstep

/-! ### The cohort -/

theorem kept_init (n concurrency : Nat) :
    Kept rng sampleProfile seeded baseSeed maxSteps concurrency (runCohortInit n concurrency) := by
  have hwaiting : ∀ p ∈ (runCohortInit (ρ := ρ) n concurrency).procs, p.pc = .waiting := by
    intro p hp
    obtain ⟨i, -, rfl⟩ := List.mem_map.mp hp
    rfl
  have hnone : ∀ f : StudentPc ρ → Bool, f .waiting = false →
      0 = (runCohortInit (ρ := ρ) n concurrency).procs.countP fun p => f p.pc := by
    intro f hf
    refine (List.countP_eq_zero.mpr fun p hp => ?_).symm
    rw [hwaiting p hp, hf]
    decide
  refine ⟨fun i p hi => ?_, fun p hp => ?_, rfl, hnone _ rfl, ⟨Nat.le_refl 0, Nat.zero_le _⟩,
    hnone _ rfl⟩
  · unfold runCohortInit at hi
    dsimp only at hi
    rw [List.getElem?_map] at hi
    obtain ⟨j, hj, rfl⟩ := Option.map_eq_some_iff.mp hi
    obtain ⟨hlt, heq⟩ := List.getElem?_eq_some_iff.mp hj
    exact heq.symm.trans (List.getElem_range hlt)
  · obtain ⟨i, -, rfl⟩ := List.mem_map.mp hp
    exact ⟨rfl, fun _ => rfl, rfl⟩

theorem kept_next {concurrency : Nat} {conf conf' : Conf Cohort (Student ρ)}
    {l : Label Empty Empty Answer}
    (h : Kept rng sampleProfile seeded baseSeed maxSteps concurrency conf)
    (hnext : (runCohort rng sampleProfile seeded baseSeed maxSteps).next conf l = some conf') :
    Kept rng sampleProfile seeded baseSeed maxSteps concurrency conf' := by
  rcases System.next_cases _ hnext with ⟨e, _⟩ | ⟨e, _⟩ | ⟨pid, a, p, s', p', rfl, hpid, hstep, rfl⟩
  · exact nomatch e
  · exact nomatch e
  obtain ⟨hmove, hkept⟩ := Student.step_spec (h.students p (mem_of_getElem? hpid)) hstep
  have hpos : p.pc.running = true → 0 < conf.shared.cur := by
    intro hrunning
    rw [h.cur]
    exact List.countP_pos_iff.mpr ⟨p, mem_of_getElem? hpid, hrunning⟩
  have hsem := hmove.sem hpos
  have hcur := hmove.cur hpos
  obtain ⟨hpeak, hmax⟩ := hmove.peak h.peak.1
  refine ⟨fun i q hq => ?_, ?_, hsem.trans h.sem, ?_, ⟨hpeak, ?_⟩, ?_⟩
  · dsimp only at hq
    rw [List.getElem?_set] at hq
    split at hq
    · rename_i heq
      subst heq
      split at hq <;> cases hq
      exact hmove.i.trans (h.index _ p hpid)
    · exact h.index i q hq
  · refine forall_mem_set_of_ne (fun i q hq hne => ?_) hkept
    refine (h.students q (mem_of_getElem? hq)).same (hmove.others q.i ?_)
    rw [h.index i q hq, h.index pid p hpid]
    exact hne
  · have hcount := countP_set_add (fun q : Student ρ => q.pc.running) hpid p'
    have hbefore := h.cur
    dsimp only at hcount ⊢
    omega
  · have hle := h.peak.2
    have hbalance := h.sem
    dsimp only
    omega
  · have hcount := countP_set_add (fun q : Student ρ => q.pc.ended) hpid p'
    have hbefore := h.ended
    have hended := hmove.ended
    dsimp only at hcount ⊢
    omega

variable (rng sampleProfile seeded baseSeed maxSteps)

/-- **A cohort is its students, each as if alone.** Whatever the order in which the students move
and whatever fails: no more of them are under way than the semaphore lets through; each that has
ended is reported once, as completed or as failed, and no other is; and what is recorded of a
student is window by window what it would have done alone, all of it once it is reported as
completed. -/
theorem cohort_throughout (n concurrency : Nat) (ls : List (Label Empty Empty Answer)) :
    (runCohort rng sampleProfile seeded baseSeed maxSteps).Throughout (fun conf =>
      (conf.procs.countP fun p => p.pc.running) ≤ conf.shared.report.peakConcurrency
      ∧ conf.shared.report.peakConcurrency ≤ concurrency
      ∧ conf.shared.report.perStudent.length + conf.shared.report.failures.length
        = conf.procs.countP (fun p => p.pc.ended)
      ∧ ∀ (i : Nat) (p : Student ρ), conf.procs[i]? = some p →
          (conf.shared.reportsOf i).length + conf.shared.report.failures.count i
            = (if p.pc.ended then 1 else 0)
          ∧ ∃ sessionId past, past <+: solo rng sampleProfile seeded baseSeed maxSteps i
            ∧ conf.shared.truthOf i = truthRows i sessionId past
            ∧ ∀ row ∈ conf.shared.reportsOf i, row.sessionId = sessionId ∧ row.windows = past.length
              ∧ past = solo rng sampleProfile seeded baseSeed maxSteps i)
                (runCohortInit n concurrency) ls := by
  have hkept : (runCohort rng sampleProfile seeded baseSeed maxSteps).Throughout
      (Kept rng sampleProfile seeded baseSeed maxSteps concurrency)
        (runCohortInit n concurrency) ls :=
    (runCohort rng sampleProfile seeded baseSeed maxSteps).throughout_of_preserved
      (fun conf l conf' h hnext => kept_next h hnext) (kept_init n concurrency)
  refine hkept.mono _ fun conf h => ⟨h.cur ▸ h.peak.1, h.peak.2, h.ended, fun i p hi => ?_⟩
  have hstudent := h.students p (mem_of_getElem? hi)
  have hindex := h.index i p hi
  subst hindex
  refine ⟨hstudent.counted, ?_⟩
  have htruth := hstudent.truth
  have hreports := hstudent.reports
  cases hpc : p.pc with
  | waiting | adding | provisioning =>
      rw [hpc] at htruth hreports
      refine ⟨0, [], List.nil_prefix, htruth, fun row hrow => ?_⟩
      rw [hreports rfl] at hrow
      cases hrow
  | executing sessionId window regime state g | recording sessionId window regime state g =>
      rw [hpc] at htruth hreports
      obtain ⟨past, action, -, hrows, -, hsolo⟩ := htruth
      refine ⟨sessionId, past, ⟨_, hsolo.symm⟩, hrows, fun row hrow => ?_⟩
      rw [hreports rfl] at hrow
      cases hrow
  | finalizing sessionId windows =>
      rw [hpc] at htruth hreports
      refine ⟨sessionId, _, List.prefix_rfl, htruth.1, fun row hrow => ?_⟩
      rw [hreports rfl] at hrow
      cases hrow
  | reported =>
      rw [hpc] at htruth
      obtain ⟨sessionId, hrows, hreported⟩ := htruth
      refine ⟨sessionId, _, List.prefix_rfl, hrows, fun row hrow => ?_⟩
      rw [hreported, List.mem_singleton] at hrow
      subst hrow
      exact ⟨rfl, rfl, rfl⟩
  | failed =>
      rw [hpc] at htruth
      obtain ⟨sessionId, past, hpast, hrows, hnone⟩ := htruth
      refine ⟨sessionId, past, hpast, hrows, fun row hrow => ?_⟩
      rw [hnone] at hrow
      cases hrow

end Kept

end OnlinetLabs.Simulation
