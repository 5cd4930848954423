import Mathlib.Algebra.GroupWithZero.Nat
import OnlinetLabs.Lib.Interleaving
import OnlinetLabs.Progress.Service

/-!
# Validation runs recorded at once

`record_lab_validation` as a transaction of its own: a select, the assignments to the loaded object,
a commit and a refresh. Nothing is locked, so any number of them for one learner and lab interleave
at these awaits. A commit writes the columns whose value differs from the loaded one over whatever
was committed since, and the unique constraint turns away the second of two inserts.
-/

namespace OnlinetLabs.Progress

open Interleaving

variable {S : Type} [LinearOrder S] [Zero S]

def flushColumn {α : Type} [DecidableEq α] (loaded assigned current : α) : α :=
  if assigned = loaded then current else assigned

def LabProgress.flush (loaded assigned current : LabProgress S) : LabProgress S where
  status := flushColumn loaded.status assigned.status current.status
  score := flushColumn loaded.score assigned.score current.score
  currentStep := flushColumn loaded.currentStep assigned.currentStep current.currentStep
  startedAt := flushColumn loaded.startedAt assigned.startedAt current.startedAt
  completedAt := flushColumn loaded.completedAt assigned.completedAt current.completedAt

structure ProgressTable (S : Type) where
  /-- Every version committed so far, the newest first. -/
  versions : List (LabProgress S) := []
  /-- The runs whose transactions have committed. -/
  recorded : List (List StepRecord) := []

namespace ProgressTable

variable (s : ProgressTable S)

def row : Option (LabProgress S) := s.versions.head?

def commit (run : List StepRecord) (version : LabProgress S) : ProgressTable S where
  versions := version :: s.versions
  recorded := run :: s.recorded

end ProgressTable

inductive RecordPc (S : Type) where
  | called
  | selected (row : Option (LabProgress S))
  | committed
  | returned
  | raised
deriving Repr, DecidableEq

structure RecordCall (S : Type) where
  steps : List StepRecord
  now : Nat
  pc : RecordPc S := .called
deriving Repr, DecidableEq

inductive DbAnswer where
  | ok
  | failed
deriving Repr, DecidableEq

def RecordCall.step (share : Nat → Nat → S) (s : ProgressTable S) (p : RecordCall S)
    (a : DbAnswer) :
    Option (ProgressTable S × RecordCall S) :=
  match p.pc, a with
  | .returned, _ => none
  | .raised, _ => none
  | _, .failed => some (s, { p with pc := .raised })
  | .called, .ok => some (s, { p with pc := .selected s.row })
  | .selected none, .ok =>
      match s.row with
      | none =>
          some (s.commit p.steps (recordLabValidation share p.steps p.now none),
            { p with pc := .committed })
      -- `uq_lab_progress_user_lab`
      | some _ => some (s, { p with pc := .raised })
  | .selected (some loaded), .ok =>
      match s.row with
      | none => some (s, { p with pc := .raised })
      | some current =>
          let assigned := recordLabValidation share p.steps p.now (some loaded)
          some (s.commit p.steps (loaded.flush assigned current), { p with pc := .committed })
  | .committed, .ok => some (s, { p with pc := .returned })

def recording (share : Nat → Nat → S) :
    System (ProgressTable S) (RecordCall S) Empty (List StepRecord × Nat) DbAnswer where
  env _ move := nomatch move
  spawn run := { steps := run.1, now := run.2 }
  step s p a := p.step share s a

def scoreOf (row : Option (LabProgress S)) : S := (row.map (·.best)).getD 0

def bestScore (share : Nat → Nat → S) (first : S) (runs : List (List StepRecord)) : S :=
  runs.foldr (fun run best => max (scoreFromSteps share run).1 best) first

/-- Progress never went back, and the row has the best score of all recorded runs. -/
structure ProgressKept (share : Nat → Nat → S) (first : Option (LabProgress S))
    (s : ProgressTable S) :
    Prop where
  scores : s.versions.Pairwise fun newer older => older.best ≤ newer.best
  completions : s.versions.Pairwise fun newer older => older.status = .completed →
    newer.status = .completed
  reflected : scoreOf s.row = bestScore share (scoreOf first) s.recorded

/-- The commit of a run that beats the score it loaded, where a better one than it writes was
committed since, or of a run that did not pass and loaded a row nobody had started, where the lab
was completed since. -/
def RecordCall.goesBack (share : Nat → Nat → S) (s : ProgressTable S) (p : RecordCall S) : Bool :=
  match p.pc, s.row with
  | .selected (some loaded), some current =>
      let (score, passed) := scoreFromSteps share p.steps
      (loaded.score.all (· < score) && decide (max loaded.best score < current.best))
        || (!passed && loaded.status = .notStarted && current.status = .completed)
  | _, _ => false

def goesBack (share : Nat → Nat → S) (c : Conf (ProgressTable S) (RecordCall S)) :
    Label Empty (List StepRecord × Nat) DbAnswer → Bool
  | .run pid .ok => (c.procs[pid]?).any (·.goesBack share c.shared)
  | _ => false

variable {share : Nat → Nat → S} {first : Option (LabProgress S)} {s s' : ProgressTable S}
  {p p' : RecordCall S} {a : DbAnswer} {steps : List StepRecord} {now : Nat}
  {loaded assigned current version : LabProgress S}

@[simp] theorem flushColumn_self {α : Type} [DecidableEq α] (loaded assigned : α) :
    flushColumn loaded assigned loaded = assigned := by
  unfold flushColumn
  split
  · rename_i heq
    exact heq.symm
  · rfl

omit [Zero S] in
/-- A transaction that nobody interrupts is the function of the source. -/
theorem LabProgress.flush_self (loaded assigned : LabProgress S) :
    loaded.flush assigned loaded = assigned := by
  apply LabProgress.ext <;> exact flushColumn_self _ _

namespace LabProgress

/-- A run writes a score where it beats the loaded one or there was none. -/
theorem best_flush : (loaded.flush (loaded.withRun share steps now) current).best
    = if loaded.score.all (· < (scoreFromSteps share steps).1)
        then max loaded.best (scoreFromSteps share steps).1 else current.best := by
  simp only [best, flush, flushColumn, score_withRun]
  cases hscore : loaded.score with
  | none => simp
  | some score =>
      by_cases hlt : score < (scoreFromSteps share steps).1
      · have hne : (scoreFromSteps share steps).1 ≠ score := ne_of_gt hlt
        simp [hlt, max_eq_right hlt.le, hne]
      · have hmax : max score (scoreFromSteps share steps).1 = score := max_eq_left (not_lt.mp hlt)
        simp [hlt, hmax]

theorem status_flush (hcompleted : current.status = .completed) :
    (loaded.flush (loaded.withRun share steps now) current).status = .completed
      ↔ ¬ (allPassed steps = false ∧ loaded.status = .notStarted) := by
  simp only [flush, flushColumn, status_withRun, hcompleted]
  cases loaded.status <;> cases allPassed steps <;> simp

end LabProgress

theorem bestScore_cons (base : S) (run : List StepRecord) (runs : List (List StepRecord)) :
    bestScore share base (run :: runs)
      = max (scoreFromSteps share run).1 (bestScore share base runs) := rfl

omit [Zero S] in
/-- Writing the greater of an old score and a run's own is right unless a better one came in
between. -/
theorem max_kept_iff {old score best : S} (hold : old ≤ best) :
    (best ≤ max old score ∧ max old score = max score best) ↔ ¬ max old score < best := by
  rw [not_lt]
  constructor
  · exact fun h => h.1
  · intro hle
    refine ⟨hle, le_antisymm ?_ ?_⟩
    · exact max_le (hold.trans (le_max_right _ _)) (le_max_left _ _)
    · exact max_le (le_max_right _ _) hle

namespace ProgressKept

theorem behind_row (h : ProgressKept share first s) (hrow : s.row = some current)
    (hversion : version ∈ s.versions) :
    version.best ≤ current.best ∧ (version.status = .completed → current.status = .completed) := by
  obtain ⟨older, hversions⟩ := List.head?_eq_some_iff.mp hrow
  have hscores := h.scores
  have hcompletions := h.completions
  rw [hversions] at hversion hscores hcompletions
  rcases List.mem_cons.mp hversion with rfl | holder
  · exact ⟨le_refl _, fun hstatus => hstatus⟩
  · exact ⟨List.rel_of_pairwise_cons hscores holder, List.rel_of_pairwise_cons hcompletions holder⟩

/-- What a commit over the newest version has to bring. -/
theorem commit_iff (h : ProgressKept share first s) (hrow : s.row = some current) :
    ProgressKept share first (s.commit steps version)
      ↔ current.best ≤ version.best
        ∧ version.best = max (scoreFromSteps share steps).1 current.best
        ∧ (current.status = .completed → version.status = .completed) := by
  have hmem : current ∈ s.versions := List.mem_of_mem_head? hrow
  have hbest : bestScore share (scoreOf first) s.recorded = current.best := by
    rw [← h.reflected, hrow]
    rfl
  constructor
  · intro h'
    refine ⟨List.rel_of_pairwise_cons h'.scores hmem, ?_,
      List.rel_of_pairwise_cons h'.completions hmem⟩
    have hreflected : version.best = bestScore share (scoreOf first) (steps :: s.recorded) :=
      h'.reflected
    rw [hreflected, bestScore_cons, hbest]
  · rintro ⟨hscore, hreflected, hstatus⟩
    refine ⟨?_, ?_, ?_⟩
    · exact List.pairwise_cons.mpr
        ⟨fun v hv => (h.behind_row hrow hv).1.trans hscore, h.scores⟩
    · exact List.pairwise_cons.mpr
        ⟨fun v hv hcompleted => hstatus ((h.behind_row hrow hv).2 hcompleted), h.completions⟩
    · change version.best = bestScore share (scoreOf first) (steps :: s.recorded)
      rw [bestScore_cons, hbest, hreflected]

theorem insert (h : ProgressKept share first s) (hrow : s.row = none) :
    ProgressKept share first (s.commit steps (recordLabValidation share steps now none)) := by
  have hversions : s.versions = [] := List.head?_eq_none_iff.mp hrow
  have hbest : bestScore share (scoreOf first) s.recorded = 0 := by
    rw [← h.reflected, hrow]
    rfl
  refine ⟨?_, ?_, ?_⟩
  · rw [ProgressTable.commit, hversions]
    exact List.pairwise_singleton _ _
  · rw [ProgressTable.commit, hversions]
    exact List.pairwise_singleton _ _
  · change (recordLabValidation share steps now none).best
      = bestScore share (scoreOf first) (steps :: s.recorded)
    rw [bestScore_cons, hbest, recordLabValidation, LabProgress.best_withRun, max_comm]
    rfl

/-- **The commit of a run over what was committed since its select.** -/
theorem update_iff (h : ProgressKept share first s) (hrow : s.row = some current)
    (hpc : p.pc = .selected (some loaded)) (hloaded : loaded ∈ s.versions) :
    ProgressKept share first
        (s.commit p.steps
          (loaded.flush (recordLabValidation share p.steps p.now (some loaded)) current))
      ↔ p.goesBack share s = false := by
  have hold : loaded.best ≤ current.best := (h.behind_row hrow hloaded).1
  have hscore : (current.best ≤ (loaded.flush (loaded.withRun share p.steps p.now) current).best
        ∧ (loaded.flush (loaded.withRun share p.steps p.now) current).best
          = max (scoreFromSteps share p.steps).1 current.best)
      ↔ ¬ (loaded.score.all (· < (scoreFromSteps share p.steps).1) = true
          ∧ max loaded.best (scoreFromSteps share p.steps).1 < current.best) := by
    rw [LabProgress.best_flush]
    split
    · rename_i hbeats
      rw [max_kept_iff hold]
      simp [hbeats]
    · rename_i hbeaten
      have hle : (scoreFromSteps share p.steps).1 ≤ current.best := by
        cases hscore : loaded.score with
        | none => simp [hscore] at hbeaten
        | some score =>
            have hle : (scoreFromSteps share p.steps).1 ≤ score := by simpa [hscore] using hbeaten
            have hbest : loaded.best = score := by simp [LabProgress.best, hscore]
            exact hle.trans (hbest ▸ hold)
      simp [hbeaten, max_eq_right hle]
  have hstatus : (current.status = .completed →
        (loaded.flush (loaded.withRun share p.steps p.now) current).status = .completed)
      ↔ ¬ ((allPassed p.steps = false ∧ loaded.status = .notStarted)
        ∧ current.status = .completed) := by
    rw [not_and']
    exact forall_congr' fun hcompleted => LabProgress.status_flush hcompleted
  have hassigned : recordLabValidation share p.steps p.now (some loaded)
      = loaded.withRun share p.steps p.now := rfl
  rw [hassigned, h.commit_iff hrow, ← and_assoc, hscore, hstatus]
  simp [RecordCall.goesBack, hpc, hrow, scoreFromSteps]

end ProgressKept

/-- A transaction sees a version that was committed. -/
def RecordCall.Loaded (s : ProgressTable S) (p : RecordCall S) : Prop :=
  ∀ loaded, p.pc = .selected (some loaded) → loaded ∈ s.versions

omit [LinearOrder S] [Zero S] in
theorem RecordCall.loaded_of_ne (h : ∀ row, p.pc ≠ .selected row) : p.Loaded s :=
  fun loaded hpc => absurd hpc (h (some loaded))

omit [LinearOrder S] [Zero S] in
theorem RecordCall.Loaded.commit {version : LabProgress S} (h : p.Loaded s) :
    p.Loaded (s.commit steps version) :=
  fun loaded hpc => List.mem_cons_of_mem _ (h loaded hpc)

/-- A step of a transaction: it commits the first row, a new version over the newest, or nothing. -/
theorem RecordCall.step_cases (hp : p.Loaded s) (hstep : p.step share s a = some (s', p')) :
    (s' = s ∧ p'.Loaded s ∧ (a = .ok → p.goesBack share s = false))
      ∨ (s.row = none ∧ a = .ok ∧ p.goesBack share s = false ∧ p'.pc = .committed
          ∧ s' = s.commit p.steps (recordLabValidation share p.steps p.now none))
      ∨ ∃ loaded current, p.pc = .selected (some loaded) ∧ s.row = some current ∧ a = .ok
          ∧ p'.pc = .committed ∧ s' = s.commit p.steps
            (loaded.flush (recordLabValidation share p.steps p.now (some loaded)) current) := by
  obtain ⟨steps, now, pc⟩ := p
  cases a with
  | failed =>
      left
      cases pc with
      | returned | raised => cases hstep
      | called | selected | committed =>
          cases hstep
          refine ⟨rfl, loaded_of_ne (by simp), ?_⟩
          intro hok
          cases hok
  | ok =>
      cases pc with
      | returned | raised => cases hstep
      | called =>
          left
          cases hstep
          refine ⟨rfl, ?_, fun _ => rfl⟩
          intro loaded hpc
          exact List.mem_of_mem_head? (RecordPc.selected.inj hpc)
      | committed =>
          left
          cases hstep
          exact ⟨rfl, loaded_of_ne (by simp), fun _ => rfl⟩
      | selected found =>
          cases hrow : s.row with
          | none =>
              cases found with
              | none =>
                  simp only [step, hrow, Option.some.injEq, Prod.mk.injEq] at hstep
                  obtain ⟨rfl, rfl⟩ := hstep
                  exact Or.inr (Or.inl ⟨rfl, rfl, rfl, rfl, rfl⟩)
              | some loaded =>
                  simp only [step, hrow, Option.some.injEq, Prod.mk.injEq] at hstep
                  obtain ⟨rfl, rfl⟩ := hstep
                  exact Or.inl ⟨rfl, loaded_of_ne (by simp), fun _ => by
                    simp [RecordCall.goesBack, hrow]⟩
          | some current =>
              cases found with
              | none =>
                  simp only [step, hrow, Option.some.injEq, Prod.mk.injEq] at hstep
                  obtain ⟨rfl, rfl⟩ := hstep
                  exact Or.inl ⟨rfl, loaded_of_ne (by simp), fun _ => rfl⟩
              | some loaded =>
                  simp only [step, hrow, Option.some.injEq, Prod.mk.injEq] at hstep
                  obtain ⟨rfl, rfl⟩ := hstep
                  exact Or.inr (Or.inr ⟨loaded, current, rfl, rfl, rfl, rfl, rfl⟩)

def AllLoaded (c : Conf (ProgressTable S) (RecordCall S)) : Prop := ∀ p ∈ c.procs, p.Loaded c.shared

variable {c c' : Conf (ProgressTable S) (RecordCall S)}
  {l : Label Empty (List StepRecord × Nat) DbAnswer}

theorem AllLoaded.next (h : AllLoaded c) (hnext : (recording share).next c l = some c') :
    AllLoaded c' := by
  rcases (recording share).next_cases hnext with ⟨e, s, rfl, hs, rfl⟩ | ⟨run, rfl, rfl⟩
    | ⟨pid, a, p, s, p', rfl, hpid, hstep, rfl⟩
  · exact nomatch e
  · apply forall_mem_append h
    intro loaded hpc
    cases hpc
  · have hstep' : p.step share c.shared a = some (s, p') := hstep
    rcases RecordCall.step_cases (h p (mem_of_getElem? hpid)) hstep' with ⟨rfl, hp', -⟩
      | ⟨-, -, -, hpc, rfl⟩ | ⟨loaded, current, -, -, -, hpc, rfl⟩
    · exact forall_mem_set h hp'
    · apply forall_mem_set fun q hq => (h q hq).commit
      intro loaded hselected
      rw [hpc] at hselected
      cases hselected
    · apply forall_mem_set fun q hq => (h q hq).commit
      intro loaded hselected
      rw [hpc] at hselected
      cases hselected

theorem progressKept_next_iff (hloaded : AllLoaded c) (h : ProgressKept share first c.shared)
    (hnext : (recording share).next c l = some c') :
    ProgressKept share first c'.shared ↔ goesBack share c l = false := by
  rcases (recording share).next_cases hnext with ⟨e, s, rfl, hs, rfl⟩ | ⟨run, rfl, rfl⟩
    | ⟨pid, a, p, s, p', rfl, hpid, hstep, rfl⟩
  · exact nomatch e
  · exact iff_of_true h rfl
  · have hp := hloaded p (mem_of_getElem? hpid)
    have hstep' : p.step share c.shared a = some (s, p') := hstep
    have hmove : goesBack share c (.run pid .ok) = p.goesBack share c.shared := by
      simp [goesBack, hpid]
    rcases RecordCall.step_cases hp hstep' with ⟨rfl, -, hkept⟩ | ⟨hrow, rfl, hkept, -, rfl⟩
      | ⟨loaded, current, hpc, hrow, rfl, -, rfl⟩
    · apply iff_of_true h
      cases a with
      | ok => exact hmove.trans (hkept rfl)
      | failed => rfl
    · exact iff_of_true (h.insert hrow) (hmove.trans hkept)
    · rw [hmove]
      exact h.update_iff hrow hpc (hp loaded hpc)

def before (first : Option (LabProgress S)) : Conf (ProgressTable S) (RecordCall S) :=
  ⟨{ versions := first.toList }, []⟩

/-- **When progress is kept**: exactly in the runs without a commit that goes back. -/
theorem progress_kept_iff (share : Nat → Nat → S) (first : Option (LabProgress S))
    (ls : List (Label Empty (List StepRecord × Nat) DbAnswer)) :
    (recording share).Throughout (fun c => ProgressKept share first c.shared) (before first) ls
      ↔ (recording share).Along (fun c l => goesBack share c l = false) (before first) ls := by
  apply (recording share).throughout_iff_along (I := AllLoaded)
  · exact fun c l c' h hnext => h.next hnext
  · exact fun c l c' hloaded h hnext => progressKept_next_iff hloaded h hnext
  · intro p hp
    cases hp
  · cases first with
    | none => exact ⟨List.Pairwise.nil, List.Pairwise.nil, rfl⟩
    | some lp => exact ⟨List.pairwise_singleton _ _, List.pairwise_singleton _ _, rfl⟩

/-- Transactions that do not overlap keep it. -/
theorem goesBack_of_unchanged (hrow : s.row = some loaded) (hpc : p.pc = .selected (some loaded)) :
    p.goesBack share s = false := by
  have hscore : ¬ max loaded.best (scoreFromSteps share p.steps).1 < loaded.best :=
    not_lt.mpr (le_max_left _ _)
  simp only [RecordCall.goesBack, hpc, hrow, hscore, decide_false, Bool.and_false, Bool.false_or]
  cases loaded.status with
  | notStarted | inProgress | completed => simp

def tenths (part whole : Nat) : Nat := 1000 * part / whole

/-- A first run passes a quarter of the checks. Two more are recorded at once, one of which passes
the lab and one half of it. -/
def twoTabs : List (Label Empty (List StepRecord × Nat) DbAnswer) :=
  [.spawn ([⟨false, [true, false, false, false]⟩], 1), .run 0 .ok, .run 0 .ok, .run 0 .ok,
    .spawn ([⟨true, [true, true, true, true]⟩], 2),
      .spawn ([⟨false, [true, true, false, false]⟩], 3),
    .run 1 .ok, .run 2 .ok, .run 1 .ok, .run 1 .ok, .run 2 .ok, .run 2 .ok]

/-- **A later run lowers the score.** Every transaction has returned, the lab is completed, and the
score is that of the run that passed half of it. -/
theorem later_run_lowers_score :
    ∃ c, (recording tenths).exec (before none) twoTabs = some c ∧ (∀ p ∈ c.procs, p.pc = .returned)
      ∧ c.shared.versions.map (fun version => (version.score, version.status))
          = [(some 500, .completed), (some 1000, .completed), (some 250, .inProgress)]
      ∧ ¬ ProgressKept tenths none c.shared := by
  have hrun : ((recording tenths).exec (before none) twoTabs).map (fun c =>
      (c.procs.all fun p => decide (p.pc = .returned),
        c.shared.versions.map (fun version => (version.score, version.status)),
        scoreOf c.shared.row, bestScore tenths (scoreOf none) c.shared.recorded))
      = some (true, [(some 500, .completed), (some 1000, .completed), (some 250, .inProgress)], 500,
        1000) := by
    decide +kernel
  obtain ⟨c, hexec, hlast⟩ := Option.map_eq_some_iff.mp hrun
  rw [Prod.mk.injEq, Prod.mk.injEq, Prod.mk.injEq, List.all_eq_true] at hlast
  obtain ⟨hdone, hversions, hscore, hbest⟩ := hlast
  refine ⟨c, hexec, fun p hp => of_decide_eq_true (hdone p hp), hversions, ?_⟩
  intro hkept
  have hreflected := hkept.reflected
  rw [hscore, hbest] at hreflected
  cases hreflected

end OnlinetLabs.Progress
