import Mathlib.Data.Rat.Floor
import OnlinetLabs.Analytics.Cohort.Metrics
import OnlinetLabs.Experiment.Arms
import OnlinetLabs.Lib.Grouping
import OnlinetLabs.Lib.Paging
import OnlinetLabs.Lib.Rounding

/-!
# Records of learners

`compute_cohort_metrics` reads three tables without an order and joins them through dictionaries.
The metrics of a learner's lab are those of the first row read, so a lab that was tried again is
reported as one of its attempts, and which one is left to the order of the rows. So is the sum of
the active time, which is one of floats. The other arithmetic is on counts and on sorted durations.
-/

namespace OnlinetLabs.Analytics.Cohort

open Experiment (ExperimentMetrics Lab skillTag)
open Sessions (LearningSession Slug UserId)
open Grouping
open Rounding

/-- The row with the columns that tell whose it is and of which lab, and its last change. -/
structure LabProgress (S : Type) extends Progress.LabProgress S where
  userId : UserId
  labSlug : Slug
  updatedAt : Nat
deriving Repr, DecidableEq

variable {K S : Type}

/-- What the three selects return. -/
structure Rows (S : Type) where
  progresses : List (LabProgress S)
  sessions : List LearningSession
  metrics : List (ExperimentMetrics S)

/-! ### The code -/

def skillOf (labs : List Lab) (labSlug : Slug) :
    Option String := (labs.find? (·.slug = labSlug)).bind skillTag

def sessionKey (labs : List Lab) (s : LearningSession) : Option (UserId × String) :=
  (skillOf labs s.labSlug).map fun skill => (s.userId, skill)

def indexSessionsBySkill (labs : List Lab) (sessions : List LearningSession) :
    Dict (UserId × String) (List LearningSession) := group (sessionKey labs) sessions

def emByUserLab (metrics : List (ExperimentMetrics S)) :
    Dict (UserId × Slug) (ExperimentMetrics S) :=
  firstOf (fun m => (m.userId, m.labSlug)) metrics

def progressKey (labs : List Lab) (lp : LabProgress S) : Option (UserId × String) :=
  (truthy (skillOf labs lp.labSlug)).map fun skill => (lp.userId, skill)

/-- `x.started_at or x.updated_at`. -/
def started (lp : LabProgress S) : Nat := lp.startedAt.getD lp.updatedAt

def labsSorted (labs : List (LabProgress S)) : List (LabProgress S) :=
  labs.mergeSort fun a b => decide (started a ≤ started b)

def passed (m : ExperimentMetrics S) : Bool := m.l2UnassistedPass = some true

/-- `l2_lp`. -/
def l2Progress (em : Dict (UserId × Slug) (ExperimentMetrics S)) (userId : UserId)
    (l1 : LabProgress S)
    (labsSorted : List (LabProgress S)) : Option (LabProgress S) :=
  labsSorted.find? fun lp => decide (lp.labSlug ≠ l1.labSlug)
    && (em.get? (userId, lp.labSlug)).any passed

def relSessions (l2Time : Option Nat) (userSkillSessions : List LearningSession) :
    List LearningSession :=
  userSkillSessions.filter fun s => l2Time.all fun time => decide (s.startedAt ≤ time)

section Records

variable [Field K] [LinearOrder K] [IsStrictOrderedRing K] [FloorRing K]

/-- `(later - earlier).total_seconds()`. -/
def totalSeconds (later earlier : Nat) : K := binary64 (seconds later earlier)

def durations (K : Type) [Field K] [LinearOrder K] [IsStrictOrderedRing K] [FloorRing K]
    (sessions : List LearningSession) : List K :=
  sessions.filterMap fun s => s.endedAt.map fun ended => totalSeconds ended s.startedAt

/-- The record of a learner and a skill, from its first lab, the one in which competence is shown,
the metrics of the two and the learner's sessions. -/
def learnerOutcome (userId : UserId) (skill : String) (l1 : LabProgress S)
    (l2Lp : Option (LabProgress S))
    (emL1 emL2 : Option (ExperimentMetrics S)) (userSkillSessions : List LearningSession) :
    LearnerOutcome K :=
  let reached := l2Lp.isSome
  let l2Time := l2Lp.bind (·.completedAt)
  let relSessions := relSessions l2Time userSkillSessions
  let activeSec := floatSum (durations K relSessions)
  let lastEnd := (userSkillSessions.filterMap (·.endedAt)).max?
  -- `updated_at` is never missing, so `l1_start` is not reached.
  let obsRef := lastEnd.getD (l1.completedAt.getD l1.updatedAt)
  { userId := userId
    skill := skill
    arm := (truthy (emL1.bind (·.baseArm))).or (emL2.bind (·.baseArm))
    reachedL2 := reached
    timeToL2Seconds := l1.startedAt.bind fun l1Start => l2Time.map fun time =>
      totalSeconds time l1Start
    activeSeconds := if activeSec = 0 then none else some activeSec
    sessionsToL2 := if reached then some relSessions.length else none
    l1Interventions := (emL1.map (·.interventionsReceived)).getD 0
    l2Interventions := emL2.map (·.interventionsReceived)
    l1Escalations := (emL1.map (·.escalations)).getD 0
    l2Escalations := emL2.map (·.escalations)
    l1RepeatedErrors := (emL1.map (·.repeatedErrors)).getD 0
    l2RepeatedErrors := emL2.map (·.repeatedErrors)
    observationSeconds := (l1.startedAt.map fun l1Start => totalSeconds obsRef l1Start).getD 0
    censored := !reached }

/-- One turn of the loop over the groups. No group is empty. -/
def groupOutcome (em : Dict (UserId × Slug) (ExperimentMetrics S))
    (sessionsBySkill : Dict (UserId × String) (List LearningSession)) (key : UserId × String)
    (labs : List (LabProgress S)) : Option (LearnerOutcome K) :=
  (labsSorted labs).head?.map fun l1 =>
    let l2Lp := l2Progress em key.1 l1 (labsSorted labs)
    learnerOutcome key.1 key.2 l1 l2Lp (em.get? (key.1, l1.labSlug))
      (l2Lp.bind fun lp => em.get? (key.1, lp.labSlug))
      ((sessionsBySkill.get? key).getD [])

def records (K : Type) [Field K] [LinearOrder K] [IsStrictOrderedRing K] [FloorRing K]
    (labs : List Lab)
    (rows : Rows S) : List (LearnerOutcome K) :=
  (group (progressKey labs) rows.progresses).entries.filterMap fun entry =>
    groupOutcome (emByUserLab rows.metrics) (indexSessionsBySkill labs rows.sessions)
      entry.1 entry.2

def computeCohortMetrics (labs : List Lab) (rows : Rows S) (horizonSeconds : K) (byArm : Bool) :
    CohortMetrics K :=
  aggregateCohort (records K labs rows) horizonSeconds byArm

end Records

/-! ### What it is for -/

structure Rows.Perm (rows rows' : Rows S) : Prop where
  progresses : rows.progresses.Perm rows'.progresses
  sessions : rows.sessions.Perm rows'.sessions
  metrics : rows.metrics.Perm rows'.metrics

/-- The lab of a skill that a learner started first. -/
structure FirstStarted (labs : List Lab) (rows : Rows S) (userId : UserId) (skill : String)
    (l1 : LabProgress S) :
    Prop where
  mem : l1 ∈ members (progressKey labs) rows.progresses (userId, skill)
  first : ∀ lp ∈ members (progressKey labs) rows.progresses (userId, skill), started l1 ≤ started lp

def Passed (labs : List Lab) (rows : Rows S) (userId : UserId) (skill : String)
    (l1 : LabProgress S) : Prop :=
  ∃ m ∈ rows.metrics, m.userId = userId ∧ skillOf labs m.labSlug = some skill
    ∧ m.labSlug ≠ l1.labSlug ∧
    passed m = true

/-- Cohort indicators are a function of the data. -/
structure Indicates (K : Type) [Field K] [LinearOrder K] [IsStrictOrderedRing K] [FloorRing K]
    (labs : List Lab)
    (rows : Rows S) : Prop where
  order : ∀ rows', rows.Perm rows' → ∀ (horizon : K) (byArm : Bool),
    computeCohortMetrics labs rows' horizon byArm = computeCohortMetrics labs rows horizon byArm
  reached : ∀ r ∈ records K labs rows, ∀ l1, FirstStarted labs rows r.userId r.skill l1 →
    (r.reachedL2 = true ↔ Passed labs rows r.userId r.skill l1)

/-! ### When it is -/

variable {labs : List Lab} {rows rows' : Rows S} {metrics metrics' : List (ExperimentMetrics S)}
  {userId : UserId}
  {skill : String} {slug : Slug} {l1 lp : LabProgress S} {sorted : List (LabProgress S)}

/-- The metrics rows of a learner's lab agree on what is read. -/
def Agree {β : Type} (read : ExperimentMetrics S → β) (metrics : List (ExperimentMetrics S))
    (userId : UserId)
    (slug : Slug) : Prop :=
  ∀ m ∈ metrics, (m.userId, m.labSlug) = (userId, slug) → ∀ m' ∈ metrics,
    (m'.userId, m'.labSlug) = (userId, slug) →
    read m = read m'

def counts (m : ExperimentMetrics S) :
    Nat × Nat × Nat := (m.interventionsReceived, m.escalations, m.repeatedErrors)

def candidates (metrics : List (ExperimentMetrics S)) (userId : UserId) (slug : Slug) :
    List (Option (ExperimentMetrics S)) :=
  match metrics.filter fun m => decide ((m.userId, m.labSlug) = (userId, slug)) with
  | [] => [none]
  | m :: ms => (m :: ms).map some

/-- The arm of a record: that of the first lab if it is named there, else that of the second. -/
def armOf (emL1 emL2 : Option (ExperimentMetrics S)) : Option String :=
  truthy ((truthy (emL1.bind (·.baseArm))).or (emL2.bind (·.baseArm)))

/-- The first lab after `l1` that some attempt passed. -/
def secondPassed (metrics : List (ExperimentMetrics S)) (userId : UserId) (l1 : LabProgress S)
    (sorted : List (LabProgress S)) : Option (LabProgress S) :=
  sorted.find? fun lp => decide (lp.labSlug ≠ l1.labSlug) &&
    metrics.any fun m => decide ((m.userId, m.labSlug) = (userId, lp.labSlug)) && passed m

def labsOf (labs : List Lab) (rows : Rows S) (userId : UserId) (skill : String) :
    List (LabProgress S) :=
  labsSorted (members (progressKey labs) rows.progresses (userId, skill))

/-- What may be read for the lab in which competence is shown. -/
def secondCandidates (labs : List Lab) (rows : Rows S) (userId : UserId) (skill : String)
    (l1 : LabProgress S) :
    List (Option (ExperimentMetrics S)) :=
  match secondPassed rows.metrics userId l1 (labsOf labs rows userId skill) with
  | none => [none]
  | some lp => candidates rows.metrics userId lp.labSlug

/-- No choice is left to the order of the rows: the labs of a skill have an order, the attempts at
its first lab agree in the counts, so do those at the first other one that was passed, and they were
all passed; whichever are read, the arm is the same; the active time up to the pass adds up; and a
lab that was passed has a progress row. -/
structure Determined (K : Type) [Field K] [LinearOrder K] [IsStrictOrderedRing K] [FloorRing K]
    (labs : List Lab)
    (rows : Rows S) : Prop where
  ordered : ∀ userId skill, ∀ lp ∈ members (progressKey labs) rows.progresses (userId, skill),
    ∀ lp' ∈ members (progressKey labs) rows.progresses (userId, skill),
      started lp = started lp' → lp = lp'
  first : ∀ userId skill l1, FirstStarted labs rows userId skill l1 →
    Agree counts rows.metrics userId l1.labSlug
  second : ∀ userId skill l1 lp, FirstStarted labs rows userId skill l1 →
    secondPassed rows.metrics userId l1 (labsOf labs rows userId skill) = some lp →
      Agree counts rows.metrics userId lp.labSlug ∧ Agree passed rows.metrics userId lp.labSlug
  arm : ∀ userId skill l1, FirstStarted labs rows userId skill l1 →
    ∀ emL1 ∈ candidates rows.metrics userId l1.labSlug,
      ∀ emL1' ∈ candidates rows.metrics userId l1.labSlug,
    ∀ emL2 ∈ secondCandidates labs rows userId skill l1,
      ∀ emL2' ∈ secondCandidates labs rows userId skill l1,
      armOf emL1 emL2 = armOf emL1' emL2'
  active : ∀ userId skill l1 lp, FirstStarted labs rows userId skill l1 →
    secondPassed rows.metrics userId l1 (labsOf labs rows userId skill) = some lp →
      AddsUp (durations K
        (relSessions lp.completedAt (members (sessionKey labs) rows.sessions (userId, skill))))
  recorded : ∀ userId skill l1, FirstStarted labs rows userId skill l1 →
    Passed labs rows userId skill l1 →
    (secondPassed rows.metrics userId l1 (labsOf labs rows userId skill)).isSome = true

theorem get?_emByUserLab :
    (emByUserLab metrics).get? (userId, slug)
      = metrics.find? fun m => decide ((m.userId, m.labSlug) = (userId, slug)) := get?_firstOf

theorem listing_labsOf :
    Paging.Listing started (members (progressKey labs) rows.progresses (userId, skill))
    (labsOf labs rows userId skill) := (Paging.OrderBy.sorted started).listing _

theorem mem_labsOf :
    lp ∈ labsOf labs rows userId skill
      ↔ lp ∈ members (progressKey labs) rows.progresses (userId, skill) :=
  listing_labsOf.perm.mem_iff

theorem firstStarted_of_head? (h : (labsOf labs rows userId skill).head? = some l1) :
    FirstStarted labs rows userId skill l1 := by
  obtain ⟨rest, hlabs⟩ := List.head?_eq_some_iff.mp h
  have hsorted : (labsOf labs rows userId skill).Pairwise fun a b => started a ≤ started b :=
    listing_labsOf.sorted
  rw [hlabs] at hsorted
  refine ⟨mem_labsOf.mp (hlabs ▸ List.mem_cons_self), fun lp hlp => ?_⟩
  have hmem : lp ∈ l1 :: rest := hlabs ▸ mem_labsOf.mpr hlp
  rcases List.mem_cons.mp hmem with rfl | hmem
  · exact le_rfl
  · exact (List.pairwise_cons.mp hsorted).1 lp hmem

theorem l2Progress_eq (hperm : metrics.Perm metrics')
    (h : ∀ lp, secondPassed metrics userId l1 sorted = some lp →
      Agree passed metrics userId lp.labSlug) :
    l2Progress (emByUserLab metrics') userId l1 sorted = secondPassed metrics userId l1 sorted := by
  unfold l2Progress
  simp only [get?_emByUserLab]
  apply find?_eq_of_first
  · intro lp _ hQ
    by_contra hP
    rw [Bool.not_eq_false, Bool.and_eq_true, Option.any_eq_true] at hP
    obtain ⟨hother, m, hfind, hpassed⟩ := hP
    have hmem : m ∈ metrics := hperm.mem_iff.mpr (List.mem_of_find?_eq_some hfind)
    have hany : (metrics.any fun m => decide ((m.userId, m.labSlug) = (userId, lp.labSlug))
        && passed m) = true :=
      List.any_eq_true.mpr ⟨m, hmem, by rw [List.find?_some hfind, hpassed]; rfl⟩
    rw [hother, hany] at hQ
    cases hQ
  · intro lp hQ
    have hagree := h lp hQ
    have htaken := List.find?_some hQ
    rw [Bool.and_eq_true, List.any_eq_true] at htaken
    obtain ⟨hother, m, hmem, hm⟩ := htaken
    rw [Bool.and_eq_true, decide_eq_true_eq] at hm
    have hfound :
        (metrics'.find? fun m => decide ((m.userId, m.labSlug) = (userId, lp.labSlug))).isSome :=
      List.find?_isSome.mpr ⟨m, hperm.mem_iff.mp hmem, by simpa using hm.1⟩
    obtain ⟨m', hm'⟩ := Option.isSome_iff_exists.mp hfound
    have hmem' : m' ∈ metrics := hperm.mem_iff.mpr (List.mem_of_find?_eq_some hm')
    have hpassed : passed m' = true :=
      (hagree m hmem hm.1 m' hmem' (by simpa using List.find?_some hm')) ▸ hm.2
    rw [hother, hm', Option.any_some, hpassed]
    rfl

/-- Whatever the order of the rows, what is read is one of the candidates. -/
theorem get?_mem_candidates (hperm : metrics.Perm metrics') :
    (emByUserLab metrics').get? (userId, slug) ∈ candidates metrics userId slug := by
  have hrows := hperm.filter fun m => decide ((m.userId, m.labSlug) = (userId, slug))
  rw [get?_emByUserLab, ← List.head?_filter]
  unfold candidates
  cases hown : metrics.filter fun m => decide ((m.userId, m.labSlug) = (userId, slug)) with
  | nil =>
    rw [hown] at hrows
    rw [hrows.symm.eq_nil]
    exact List.mem_singleton_self _
  | cons m ms =>
    rw [hown] at hrows
    cases hothers : metrics'.filter fun m => decide ((m.userId, m.labSlug) = (userId, slug)) with
    | nil =>
      rw [hothers] at hrows
      exact absurd hrows.eq_nil (List.cons_ne_nil m ms)
    | cons m' ms' =>
      rw [hothers] at hrows
      exact List.mem_map_of_mem (hrows.mem_iff.mpr List.mem_cons_self)

theorem max?_perm {l l' : List Nat} (h : l.Perm l') : l.max? = l'.max? := by
  apply Option.ext
  intro a
  rw [List.max?_eq_some_iff, List.max?_eq_some_iff, h.mem_iff]
  simp only [h.mem_iff]

section Outcome

variable [Field K] [LinearOrder K] [IsStrictOrderedRing K] [FloorRing K]
  {l2Lp : Option (LabProgress S)}
  {emL1 emL1' emL2 emL2' : Option (ExperimentMetrics S)} {sessions sessions' : List LearningSession}

theorem labsOf_perm (hperm : rows.Perm rows') (h : Determined K labs rows) :
    labsOf labs rows' userId skill = labsOf labs rows userId skill :=
  (listing_labsOf.unique listing_labsOf (members_perm hperm.progresses)
    (h.ordered userId skill)).symm

theorem eq_of_map_counts (h : emL1.map counts = emL1'.map counts) :
    emL1.map (·.interventionsReceived) = emL1'.map (·.interventionsReceived)
      ∧ emL1.map (·.escalations) = emL1'.map (·.escalations)
      ∧ emL1.map (·.repeatedErrors) = emL1'.map (·.repeatedErrors) := by
  cases emL1 with
  | none =>
    cases emL1' with
    | none => simp
    | some m' => cases h
  | some m =>
    cases emL1' with
    | none => cases h
    | some m' => simpa [counts] using h

/-- What is read of a record depends on the counts, the arm, and which sessions there were. -/
theorem read_learnerOutcome_congr (hL1 : emL1.map counts = emL1'.map counts)
    (hL2 : emL2.map counts = emL2'.map counts)
    (harm : armOf emL1 emL2 = armOf emL1' emL2') (hsessions : sessions'.Perm sessions)
    (hactive : ∀ lp, l2Lp = some lp → AddsUp (durations K (relSessions lp.completedAt sessions))) :
    (learnerOutcome userId skill l1 l2Lp emL1 emL2 sessions : LearnerOutcome K).read
      = (learnerOutcome userId skill l1 l2Lp emL1' emL2' sessions').read := by
  obtain ⟨hinterventions, hescalations, herrors⟩ := eq_of_map_counts hL1
  obtain ⟨hinterventions', hescalations', herrors'⟩ := eq_of_map_counts hL2
  have hrel : (relSessions (l2Lp.bind (·.completedAt)) sessions').Perm
      (relSessions (l2Lp.bind (·.completedAt)) sessions) := hsessions.filter _
  have hsum : l2Lp.isSome = true →
      floatSum (durations K (relSessions (l2Lp.bind (·.completedAt)) sessions))
      = floatSum (durations K (relSessions (l2Lp.bind (·.completedAt)) sessions')) := by
    intro hreached
    obtain ⟨lp, rfl⟩ := Option.isSome_iff_exists.mp hreached
    exact (hactive lp rfl _ (hrel.filterMap _)).symm
  have hlast := max?_perm (hsessions.filterMap (·.endedAt))
  unfold armOf at harm
  simp only [learnerOutcome, LearnerOutcome.read, harm, hinterventions, hescalations, herrors,
    hinterventions', hescalations', herrors', hrel.length_eq, hlast]
  cases hreached : l2Lp.isSome with
  | false => rfl
  | true => rw [hsum hreached]

theorem counts_perm (hperm : metrics.Perm metrics') (h : Agree counts metrics userId slug) :
    ((emByUserLab metrics').get? (userId, slug)).map counts
      = ((emByUserLab metrics).get? (userId, slug)).map counts := by
  rw [get?_emByUserLab, get?_emByUserLab]
  apply (map_find?_perm hperm ?_).symm
  intro m hm hkey m' hm' hkey'
  exact h m hm (of_decide_eq_true hkey) m' hm' (of_decide_eq_true hkey')

theorem read_groupOutcome_perm (hperm : rows.Perm rows') (h : Determined K labs rows) :
    (groupOutcome (emByUserLab rows'.metrics) (indexSessionsBySkill labs rows'.sessions)
      (userId, skill)
        (members (progressKey labs) rows'.progresses (userId, skill)) : Option
          (LearnerOutcome K)).map
        LearnerOutcome.read
      = (groupOutcome (emByUserLab rows.metrics) (indexSessionsBySkill labs rows.sessions)
        (userId, skill) (members (progressKey labs) rows.progresses (userId, skill))).map
          LearnerOutcome.read := by
  have hlabs : labsOf labs rows' userId skill = labsOf labs rows userId skill := labsOf_perm hperm h
  unfold labsOf at hlabs
  unfold groupOutcome
  rw [hlabs]
  cases hhead : (labsSorted (members (progressKey labs) rows.progresses (userId, skill))).head? with
  | none => rfl
  | some l1 =>
    have hfirst : FirstStarted labs rows userId skill l1 := firstStarted_of_head? hhead
    have hsecond := h.second userId skill l1
    have hl2 := l2Progress_eq hperm.metrics fun lp hlp => (hsecond lp hfirst hlp).2
    have hl2' := l2Progress_eq (List.Perm.refl rows.metrics) fun lp hlp => (hsecond lp hfirst hlp).2
    have harm := h.arm userId skill l1 hfirst _ (get?_mem_candidates hperm.metrics) _
      (get?_mem_candidates (List.Perm.refl rows.metrics))
    have hactive := fun lp => h.active userId skill l1 lp hfirst
    unfold secondCandidates at harm
    unfold labsOf at hl2 hl2' harm hactive hsecond
    simp only [Option.map_some, hl2, hl2', Option.some.injEq]
    unfold indexSessionsBySkill
    rw [getD_group, getD_group]
    have hsessions : (members (sessionKey labs) rows.sessions (userId, skill)).Perm
        (members (sessionKey labs) rows'.sessions (userId, skill)) := members_perm hperm.sessions
    refine (read_learnerOutcome_congr
      (counts_perm hperm.metrics (h.first userId skill l1 hfirst)).symm ?_ ?_ hsessions.symm
      hactive).symm
    · cases hlp : secondPassed rows.metrics userId l1
          (labsSorted (members (progressKey labs) rows.progresses (userId, skill))) with
      | none => rfl
      | some lp => exact (counts_perm hperm.metrics (hsecond lp hfirst hlp).1).symm
    · cases hlp : secondPassed rows.metrics userId l1
          (labsSorted (members (progressKey labs) rows.progresses (userId, skill))) with
      | none =>
        rw [hlp] at harm
        exact (harm none (List.mem_singleton_self _) none (List.mem_singleton_self _)).symm
      | some lp =>
        rw [hlp] at harm
        exact (harm _ (get?_mem_candidates hperm.metrics) _
          (get?_mem_candidates (List.Perm.refl rows.metrics))).symm

theorem read_records_perm (hperm : rows.Perm rows') (h : Determined K labs rows) :
    ((records K labs rows').map LearnerOutcome.read).Perm
      ((records K labs rows).map LearnerOutcome.read) := by
  let outcome (rows : Rows S) (key : UserId × String)
      (own : List (LabProgress S)) : Option (LearnerOutcome K) :=
    (groupOutcome (emByUserLab rows.metrics) (indexSessionsBySkill labs rows.sessions) key own).map
      LearnerOutcome.read
  have hgroups : ∀ k ∈ (group (progressKey labs) rows.progresses).keys,
      outcome rows k (members (progressKey labs) rows.progresses k)
        = outcome rows' k (members (progressKey labs) rows'.progresses k) :=
    fun _ _ => (read_groupOutcome_perm hperm h).symm
  have hsome := ((map_group_perm hperm.progresses hgroups).filterMap id).symm
  rw [List.filterMap_map, List.filterMap_map] at hsome
  unfold records
  rw [List.map_filterMap, List.map_filterMap]
  exact hsome

theorem learnerOutcome_of_mem {r : LearnerOutcome K} (hr : r ∈ records K labs rows) :
    ∃ l1, (labsOf labs rows r.userId r.skill).head? = some l1 ∧
      r.reachedL2 = (l2Progress (emByUserLab rows.metrics) r.userId l1
        (labsOf labs rows r.userId r.skill)).isSome := by
  obtain ⟨entry, hentry, hr⟩ := List.mem_filterMap.mp hr
  rw [entries_group, List.mem_map] at hentry
  obtain ⟨⟨userId, skill⟩, -, rfl⟩ := hentry
  obtain ⟨l1, hhead, rfl⟩ := Option.map_eq_some_iff.mp hr
  exact ⟨l1, hhead, rfl⟩

theorem passed_of_secondPassed
    (h : secondPassed rows.metrics userId l1 (labsOf labs rows userId skill) = some lp) :
    Passed labs rows userId skill l1 := by
  have htaken := List.find?_some h
  rw [Bool.and_eq_true, decide_eq_true_eq, List.any_eq_true] at htaken
  obtain ⟨hother, m, hmem, hm⟩ := htaken
  rw [Bool.and_eq_true, decide_eq_true_eq, Prod.mk.injEq] at hm
  obtain ⟨⟨huser, hlab⟩, hpassed⟩ := hm
  obtain ⟨-, hkey⟩ := mem_members.mp (mem_labsOf.mp (List.mem_of_find?_eq_some h))
  obtain ⟨skill', hskill', heq⟩ := Option.map_eq_some_iff.mp hkey
  rw [Prod.mk.injEq] at heq
  have hskill : skillOf labs lp.labSlug = some skill := by
    rw [← heq.2]
    exact (Option.filter_eq_some_iff.mp hskill').1
  exact ⟨m, hmem, huser, hlab ▸ hskill, hlab ▸ hother, hpassed⟩

theorem reachedL2_iff (h : Determined K labs rows) {r : LearnerOutcome K}
    (hr : r ∈ records K labs rows)
    (hfirst : FirstStarted labs rows r.userId r.skill l1) :
    r.reachedL2 = true ↔ Passed labs rows r.userId r.skill l1 := by
  obtain ⟨head, hhead, hreached⟩ := learnerOutcome_of_mem hr
  have hhead' := firstStarted_of_head? hhead
  have hsame : head = l1 := by
    apply h.ordered r.userId r.skill head hhead'.mem l1 hfirst.mem
    exact le_antisymm (hhead'.first l1 hfirst.mem) (hfirst.first head hhead'.mem)
  subst hsame
  have hl2 := l2Progress_eq (List.Perm.refl rows.metrics) fun lp hlp =>
    (h.second r.userId r.skill head lp hfirst hlp).2
  rw [hreached, hl2]
  constructor
  · intro hsome
    obtain ⟨lp, hlp⟩ := Option.isSome_iff_exists.mp hsome
    exact passed_of_secondPassed hlp
  · exact h.recorded r.userId r.skill head hfirst

/-- **The indicators are a function of the data** wherever no choice is left to the order of the
rows. -/
theorem indicates (h : Determined K labs rows) : Indicates K labs rows where
  order rows' hperm horizon byArm := by
    unfold computeCohortMetrics
    rw [← aggregateCohort_read, ← aggregateCohort_read (records K labs rows)]
    exact aggregateCohort_perm (read_records_perm hperm h) byArm
  reached _ hr _ hfirst := reachedL2_iff h hr hfirst

end Outcome

/-! ### A lab that is tried again -/

def vlanLabs : List Lab := [⟨"access", some ⟨some "vlan"⟩⟩, ⟨"trunk", some ⟨some "vlan"⟩⟩]

def attempt (sessionId : Nat) (labSlug : Slug) (baseArm : Option String) (passed : Option Bool) :
    ExperimentMetrics Nat where
  sessionId := sessionId
  userId := "ann"
  labSlug := labSlug
  experimentGroup := "A"
  agentBackend := none
  totalTime := 600
  stepsCompleted := 3
  totalErrors := 0
  repeatedErrors := 0
  uniqueErrorTypes := 0
  interventionsReceived := 0
  interventionsSucceeded := 0
  interventionsFailed := 0
  interventionsAccepted := 0
  finalScore := 1
  completed := true
  completedAt := none
  controlArm := none
  baseArm := baseArm
  escalations := 0
  wouldInterventions := 0
  l1Interventions := 0
  l2UnassistedPass := passed

def progressOf (labSlug : Slug) (startedAt : Nat) : LabProgress Nat where
  status := .completed
  startedAt := some (startedAt * 1000000)
  completedAt := some ((startedAt + 50) * 1000000)
  userId := "ann"
  labSlug := labSlug
  updatedAt := (startedAt + 50) * 1000000

def sessionOf (id : Nat) (labSlug : Slug) (startedAt endedAt : Nat) : LearningSession where
  id := id
  userId := "ann"
  labSlug := labSlug
  status := .ended
  startedAt := startedAt * 1000000
  endedAt := some (endedAt * 1000000)
  expiresAt := none
  metaJson := none

def twoLabs : List (LabProgress Nat) := [progressOf "access" 100, progressOf "trunk" 200]

def twoSessions :
    List LearningSession := [sessionOf 1 "access" 100 120, sessionOf 2 "trunk" 200 240]

def triedAgain (metrics : List (ExperimentMetrics Nat)) :
    Rows Nat := ⟨twoLabs, twoSessions, metrics⟩

def failedAndPassed : List (ExperimentMetrics Nat) :=
  [attempt 1 "access" none none, attempt 2 "trunk" none (some false),
    attempt 3 "trunk" none (some true)]

def passedAndFailed : List (ExperimentMetrics Nat) :=
  [attempt 1 "access" none none, attempt 3 "trunk" none (some true),
    attempt 2 "trunk" none (some false)]

def pooledCensored (metrics : List (ExperimentMetrics Nat)) : Nat :=
  (computeCohortMetrics vlanLabs (triedAgain metrics)
    (1000 : ℚ) false).pooled.timeToCompetence.censored

theorem pooledCensored_eq (metrics : List (ExperimentMetrics Nat)) :
    pooledCensored metrics
      = if (l2Progress (emByUserLab metrics) "ann" (progressOf "access" 100) twoLabs).isSome then 0
        else 1 := by
  have hsorted : labsSorted twoLabs = twoLabs := by
    apply List.mergeSort_of_pairwise
    decide
  have hgroup : (group (progressKey vlanLabs) (triedAgain metrics).progresses).entries
      = [(("ann", "vlan"), twoLabs)] :=
    rfl
  have hhead : twoLabs.head? = some (progressOf "access" 100) := rfl
  have hcensored : pooledCensored metrics
      = (records ℚ vlanLabs (triedAgain metrics)).countP fun r => !r.reachedL2 := rfl
  rw [hcensored, records, hgroup]
  simp only [List.filterMap_cons, List.filterMap_nil, groupOutcome, hsorted, hhead, Option.map_some]
  cases hl2 : l2Progress (emByUserLab metrics) "ann" (progressOf "access" 100) twoLabs with
  | none => simp [learnerOutcome, triedAgain, hl2]
  | some lp => simp [learnerOutcome, triedAgain, hl2]

/-- A first attempt failed and the second passed: the learner has reached L2 if the second is read
first. -/
theorem not_indicates_triedAgain : ¬ Indicates ℚ vlanLabs (triedAgain failedAndPassed) := by
  intro h
  have hperm : (triedAgain failedAndPassed).Perm (triedAgain passedAndFailed) :=
    ⟨List.Perm.refl _, List.Perm.refl _, (List.Perm.swap _ _ _).cons _⟩
  have hsame : pooledCensored passedAndFailed = pooledCensored failedAndPassed :=
    congrArg (fun m : CohortMetrics ℚ => m.pooled.timeToCompetence.censored)
      (h.order _ hperm 1000 false)
  have hno : (l2Progress (emByUserLab failedAndPassed) "ann" (progressOf "access" 100)
      twoLabs).isSome = false :=
    rfl
  have hyes : (l2Progress (emByUserLab passedAndFailed) "ann" (progressOf "access" 100)
      twoLabs).isSome = true :=
    rfl
  rw [pooledCensored_eq, pooledCensored_eq, hno, hyes] at hsame
  cases hsame

/-- The arm is named by the first lab, so that the attempts at the second may differ in it. -/
def passedTwice : List (ExperimentMetrics Nat) :=
  [attempt 1 "access" (some "closed") none, attempt 2 "trunk" none (some true),
    attempt 3 "trunk" (some "open") (some true)]

theorem firstStarted_triedAgain {l : LabProgress Nat} {metrics : List (ExperimentMetrics Nat)}
    (h : FirstStarted vlanLabs (triedAgain metrics) userId skill l) :
    l = progressOf "access" 100 ∧ userId = "ann" ∧ skill = "vlan" := by
  obtain ⟨hmem, hkey⟩ := mem_members.mp h.mem
  have hkeys : ∀ lp ∈ twoLabs, progressKey vlanLabs lp = some ("ann", "vlan") := by decide
  rw [hkeys l hmem, Option.some.injEq, Prod.mk.injEq] at hkey
  obtain ⟨rfl, rfl⟩ := hkey
  have haccess : progressOf "access" 100 ∈ twoLabs := List.mem_cons_self
  have hle := h.first _ (mem_members.mpr ⟨haccess, hkeys _ haccess⟩)
  rcases List.mem_cons.mp hmem with rfl | hmem
  · exact ⟨rfl, rfl, rfl⟩
  · rw [List.mem_singleton] at hmem
    subst hmem
    exact absurd hle (by decide)

theorem candidates_access {em : Option (ExperimentMetrics Nat)}
    (h : em ∈ candidates passedTwice "ann" "access") :
    em = some (attempt 1 "access" (some "closed") none) := by
  have hone : candidates passedTwice "ann" "access"
      = [some (attempt 1 "access" (some "closed") none)] :=
    rfl
  rw [hone] at h
  exact List.mem_singleton.mp h

/-- Twenty and forty seconds add up. -/
theorem addsUp_twoSessions {sessions : List LearningSession} (h : sessions.Sublist twoSessions) :
    AddsUp (durations ℚ sessions) := by
  have hall : durations ℚ twoSessions = [20, 40] := by decide +kernel
  have hsub : (durations ℚ sessions).Sublist [20, 40] := hall ▸ h.filterMap _
  apply addsUp_of_natCast
  · intro x hx
    rcases List.mem_cons.mp (hsub.subset hx) with rfl | hx
    · exact ⟨20, rfl⟩
    · exact ⟨40, List.mem_singleton.mp hx⟩
  · have hle := hsub.sum_le_sum (by norm_num)
    exact hle.trans_lt (by norm_num)

theorem indicates_passedTwice : Indicates ℚ vlanLabs (triedAgain passedTwice) := by
  have hagree : ∀ m ∈ passedTwice, ∀ m' ∈ passedTwice,
      (m.userId, m.labSlug) = (m'.userId, m'.labSlug) →
      counts m = counts m' ∧ passed m = passed m' := by decide +kernel
  apply indicates
  constructor
  · have hstarted : ∀ lp ∈ twoLabs, ∀ lp' ∈ twoLabs, started lp = started lp' →
        lp = lp' := by decide
    intro _ _ lp hlp lp' hlp'
    exact hstarted lp (mem_members.mp hlp).1 lp' (mem_members.mp hlp').1
  · intro _ _ _ _ m hm hkey m' hm' hkey'
    exact (hagree m hm m' hm' (hkey.trans hkey'.symm)).1
  · intro _ _ _ _ _ _
    refine ⟨?_, ?_⟩
    · intro m hm hkey m' hm' hkey'
      exact (hagree m hm m' hm' (hkey.trans hkey'.symm)).1
    · intro m hm hkey m' hm' hkey'
      exact (hagree m hm m' hm' (hkey.trans hkey'.symm)).2
  · intro userId skill l1 hfirst emL1 hL1 emL1' hL1' emL2 _ emL2' _
    obtain ⟨rfl, rfl, rfl⟩ := firstStarted_triedAgain hfirst
    rw [candidates_access hL1, candidates_access hL1']
    rfl
  · intro _ _ _ lp _ _
    exact addsUp_twoSessions (List.filter_sublist.trans List.filter_sublist)
  · intro userId skill l1 hfirst _
    obtain ⟨rfl, rfl, rfl⟩ := firstStarted_triedAgain hfirst
    have htrunk : progressOf "trunk" 200 ∈ twoLabs := List.mem_cons_of_mem _ List.mem_cons_self
    have hmem : progressOf "trunk" 200 ∈ labsOf vlanLabs (triedAgain passedTwice) "ann" "vlan" :=
      mem_labsOf.mpr (mem_members.mpr ⟨htrunk, rfl⟩)
    exact List.find?_isSome.mpr ⟨_, hmem, rfl⟩

end OnlinetLabs.Analytics.Cohort
