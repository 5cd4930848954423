import OnlinetLabs.Analytics.Spells
import OnlinetLabs.Lib.Interleaving

/-!
# The outcome of a decision

A decision point gets its outcome later: `subsequent_exit_ts` when its spell closes, or `censored`
when the session ends before that. The monitor knows the rows of the spell from a list in memory,
which it clears before it stamps them and which a restart forgets. Censoring marks whatever has no
exit.

Which spell is current is a matter of the regimes that the cycles find, not of what a monitor
remembers. So a cycle that finds another regime than was found last has to stamp every row without
an exit, up to the commit of `ended_at`, and nobody may touch the rows between that commit and the
censoring.
-/

namespace OnlinetLabs.Analytics

open Eff Interleaving
open Sessions (SessionId)

variable {K : Type} {m : SessionMonitor K} {io : CycleInput K} {w w' w₀ : World K} {sid : SessionId}

/-! ### The spells of a learner -/

/-- The regime that a cycle found, and the rows it decided in it. -/
structure Observation where
  regime : ProcessRegime
  decided : List Nat
deriving Repr, DecidableEq

/-- The rows decided since the regime last changed. The newest observation comes first. -/
def currentSpell : List Observation → List Nat
  | [] => []
  | newest :: earlier =>
      newest.decided ++ (earlier.takeWhile fun o => o.regime = newest.regime).flatMap (·.decided)

theorem mem_currentSpell_cons {newest : Observation} {earlier : List Observation} {id : Nat}
    (hsame : earlier.head?.map (·.regime) = some newest.regime) (h : id ∈ currentSpell earlier) :
    id ∈ currentSpell (newest :: earlier) := by
  cases earlier with
  | nil => cases hsame
  | cons o rest =>
      have hregime : o.regime = newest.regime := Option.some.inj hsame
      apply List.mem_append_right
      simp only [List.takeWhile_cons, hregime, decide_true, if_true, List.flatMap_cons]
      rw [← hregime]
      exact h

/-! ### The cycle -/

/-- The part of a cycle leaves the tracker, the spell, its list and the rows. -/
structure TrialFrame (w w' : World K) : Prop where
  dwell : w'.dwell = w.dwell
  spellId : w'.spellId = w.spellId
  openDecisionIds : w'.openDecisionIds = w.openDecisionIds
  decisions : w'.decisions = w.decisions

instance : SideSteps (TrialFrame (K := K)) fun _ => True where
  refl _ := ⟨rfl, rfl, rfl, rfl⟩
  trans _ _ _ h h' := ⟨h'.dwell.trans h.dwell, h'.spellId.trans h.spellId,
    h'.openDecisionIds.trans h.openDecisionIds, h'.decisions.trans h.decisions⟩
  reads _ _ _ := ⟨rfl, rfl, rfl, rfl⟩
  note _ _ _ := ⟨rfl, rfl, rfl, rfl⟩
  event _ _ := ⟨rfl, rfl, rfl, rfl⟩
  withheld _ _ _ := ⟨rfl, rfl, rfl, rfl⟩
  intervened _ _ := ⟨rfl, rfl, rfl, rfl⟩
  acted _ _ := ⟨rfl, rfl, rfl, rfl⟩
  audited _ _ _ := ⟨rfl, rfl, rfl, rfl⟩

/-- The update of `_mrt_close_spell`, row by row. -/
def stampExit (ids : List Nat) (now : Nat) (row : InterventionDecision K) :
    InterventionDecision K :=
  if ids.contains row.id then { row with subsequentExitTs := some now } else row

theorem stampExit_nil (now : Nat) (row : InterventionDecision K) : stampExit [] now row = row := rfl

theorem stampExit_cases (ids : List Nat) (now : Nat) (row : InterventionDecision K) :
    (stampExit ids now row).sessionId = row.sessionId ∧ (stampExit ids now row).id = row.id
      ∧ (stampExit ids now row).censored = row.censored
      ∧ ((stampExit ids now row).subsequentExitTs = none →
          row.subsequentExitTs = none ∧ row.id ∉ ids) := by
  unfold stampExit
  split
  · exact ⟨rfl, rfl, rfl, fun hopen => nomatch hopen⟩
  · rename_i hout
    exact ⟨rfl, rfl, rfl, fun hopen => ⟨hopen, fun hmem => hout (List.contains_iff_mem.mpr hmem)⟩⟩

def Listed (w : World K) : Prop := w.spellId = none → w.openDecisionIds = []

section Cycle

variable [Field K] [LinearOrder K] [FloorRing K]

def observedRegime (m : SessionMonitor K) (w : World K) (io : CycleInput K) :
    Option ProcessRegime :=
  let events := currentEvents m { w with events := io.elsewhere w.events }
  if io.outcome .load = .completes ∧ events ≠ [] then
    (assess m (m.clock w.reads) events).map fun assessed => analysisToRegime assessed.2
  else none

/-- A cycle that finds a change stamps the rows of its list: it is in the trial, and neither the
sample nor the update is lost. -/
def stampsExits (m : SessionMonitor K) (io : CycleInput K) : Bool :=
  m.cfg.mrtEnabled && io.outcome .sample = .completes
    && !decide (io.outcome .spellExit = .raisesBefore)

/-- A cycle of the trial that finds a bad regime, or stands in a spell, comes to the rows, unless
its sample is lost. -/
def touchesRows (m : SessionMonitor K) (w : World K) (io : CycleInput K) : Bool :=
  m.cfg.mrtEnabled && io.outcome .sample = .completes
    && (observedRegime m w io).any fun regime => isBad regime || w.spellId.isSome

/-- What a cycle has done to the rows so far: some that were there are stamped, all of the list if
the regime has changed, and those that are new come last. -/
structure Turns (m : SessionMonitor K) (io : CycleInput K) (w₀ w : World K) : Prop where
  tracked : w.dwell.regime = (observedRegime m w₀ io).or w₀.dwell.regime
  listed : Listed w
  untouched : touchesRows m w₀ io = false → w.decisions = w₀.decisions ∧ w.spellId = w₀.spellId
  decided : ∃ ids now new, w.decisions = w₀.decisions.map (stampExit ids now) ++ new
    ∧ (∀ row ∈ new, row.censored = false) ∧ (observedRegime m w₀ io = none → new = [])
    ∧ (stampsExits m io = true → ∀ regime, observedRegime m w₀ io = some regime →
      w₀.dwell.regime ≠ some regime → ∀ id ∈ w₀.openDecisionIds, id ∈ ids)

/-- The tracker has moved to the regime, and a change of it has just been reported. -/
structure Finds (m : SessionMonitor K) (io : CycleInput K) (w₀ : World K) (regime : ProcessRegime)
    (dwell : K)
    (w : World K) : Prop where
  found : observedRegime m w₀ io = some regime
  sampled : io.outcome .sample = .completes
  tracked : w.dwell.regime = some regime
  spellId : w.spellId = w₀.spellId
  openDecisionIds : w.openDecisionIds = w₀.openDecisionIds
  decisions : w.decisions = w₀.decisions
  changed : dwell ≠ 0 → w₀.dwell.regime = some regime

variable {regime : ProcessRegime} {now : Nat} {dwell : K} {analysis : AnalyticsResult K}
  {features : SessionFeatures K}

theorem Turns.frame (h : Turns m io w₀ w) (hw : TrialFrame w w') : Turns m io w₀ w' := by
  obtain ⟨htracked, hlisted, huntouched, hdecided⟩ := h
  refine ⟨hw.dwell ▸ htracked, ?_, ?_, ?_⟩
  · unfold Listed
    rw [hw.spellId, hw.openDecisionIds]
    exact hlisted
  · rw [hw.decisions, hw.spellId]
    exact huntouched
  · rw [hw.decisions]
    exact hdecided

theorem Finds.frame (h : Finds m io w₀ regime dwell w) (hw : TrialFrame w w') :
    Finds m io w₀ regime dwell w' :=
  ⟨h.found, h.sampled, hw.dwell ▸ h.tracked, hw.spellId.trans h.spellId,
    hw.openDecisionIds.trans h.openDecisionIds, hw.decisions.trans h.decisions, h.changed⟩

/-- Where no row has been touched, the cycle must not have had to stamp any. -/
theorem turns_of_decisions (htracked : w.dwell.regime = (observedRegime m w₀ io).or w₀.dwell.regime)
    (hlisted : Listed w) (hdecisions : w.decisions = w₀.decisions) (hspell : w.spellId = w₀.spellId)
    (hstamps : stampsExits m io = true → ∀ regime, observedRegime m w₀ io = some regime →
      w₀.dwell.regime ≠ some regime → w₀.openDecisionIds = []) : Turns m io w₀ w := by
  refine ⟨htracked, hlisted, fun _ => ⟨hdecisions, hspell⟩, [], 0, [], ?_,
    (fun _ hrow => nomatch hrow), fun _ => rfl, ?_⟩
  · rw [hdecisions, List.append_nil, List.map_congr_left fun row _ => stampExit_nil 0 row,
      List.map_id']
  · intro hyes regime hfound hchange id hid
    rw [hstamps hyes regime hfound hchange] at hid
    cases hid

theorem turns_of_nothing (hlisted : Listed w₀) (hnone : observedRegime m w₀ io = none)
    (hw : TrialFrame w₀ w) :
    Turns m io w₀ w := by
  apply turns_of_decisions _ _ hw.decisions hw.spellId
  · intro _ _ hsome
    rw [hnone] at hsome
    cases hsome
  · rw [hnone]
    exact congrArg DwellTracker.regime hw.dwell
  · unfold Listed
    rw [hw.spellId, hw.openDecisionIds]
    exact hlisted

theorem Finds.tracked_or (h : Finds m io w₀ regime dwell w) :
    w.dwell.regime = (observedRegime m w₀ io).or w₀.dwell.regime := by
  rw [h.found]
  exact h.tracked

theorem Finds.listed (h : Finds m io w₀ regime dwell w) (hlisted : Listed w₀) : Listed w := by
  unfold Listed
  rw [h.spellId, h.openDecisionIds]
  exact hlisted

theorem mrtCloseSpell_turns (h : Finds m io w₀ regime dwell w)
    (htouches : touchesRows m w₀ io = true) :
    Ends (mrtCloseSpell io now) w (fun _ => Turns m io w₀) fun _ => Turns m io w₀ := by
  have hstamped : ∀ ids now, (io.outcome .spellExit ≠ .raisesBefore → ids = w₀.openDecisionIds) →
      Turns m io w₀ { w with
        spellId := none, spellTK := none, openDecisionIds := []
        decisions := w.decisions.map (stampExit ids now) } := by
    intro ids now hids
    refine ⟨h.tracked_or, fun _ => rfl, fun hno => ?_, ids, now, [], ?_,
      (fun _ hrow => nomatch hrow), fun _ => rfl, ?_⟩
    · rw [htouches] at hno
      cases hno
    · rw [h.decisions, List.append_nil]
    · intro hyes _ _ _ id hid
      unfold stampsExits at hyes
      rw [Bool.and_eq_true, Bool.not_eq_true', decide_eq_false_iff_not] at hyes
      rw [hids hyes.2]
      exact hid
  unfold mrtCloseSpell
  simp only [ends_bind, ends_get, ends_modify, ends_when]
  constructor
  · intro _
    have hdone := hstamped w.openDecisionIds now fun _ => h.openDecisionIds
    unfold await
    split
    · exact hdone
    · rename_i hlost
      have hkept := hstamped [] now fun hno => absurd hlost hno
      rw [List.map_congr_left fun row _ => stampExit_nil now row, List.map_id'] at hkept
      exact hkept
    · exact hdone
  · intro hempty
    rw [Bool.not_eq_false', List.isEmpty_iff] at hempty
    have hkept := hstamped [] now fun _ => hempty.symm.trans h.openDecisionIds
    rw [List.map_congr_left fun row _ => stampExit_nil now row, List.map_id'] at hkept
    exact hkept

theorem mrtOpenSpell_turns (h : Turns m io w₀ w) (htouches : touchesRows m w₀ io = true) :
    Ends (mrtOpenSpell m io regime) w (fun _ => Turns m io w₀) fun _ => Turns m io w₀ := by
  unfold mrtOpenSpell
  simp only [ends_bind, ends_uuid4, ends_modify]
  refine ⟨h.tracked, fun hnone => (by cases hnone), fun hno => ?_, h.decided⟩
  rw [htouches] at hno
  cases hno

theorem mrtTurnSpell_turns (h : Finds m io w₀ regime dwell w) (hlisted : Listed w₀)
    (hmrt : m.cfg.mrtEnabled = true) :
    Ends (mrtTurnSpell m io regime dwell now) w (fun _ => Turns m io w₀) fun _ =>
      Turns m io w₀ := by
  have hopens : ∀ w' : World K, Turns m io w₀ w' →
      Ends (when (isBad regime) (mrtOpenSpell m io regime)) w' (fun _ => Turns m io w₀) fun _ =>
        Turns m io w₀ := by
    intro w' h'
    rw [ends_when]
    refine ⟨fun hbad => mrtOpenSpell_turns h' ?_, fun _ => h'⟩
    simp [touchesRows, hmrt, h.sampled, h.found, hbad]
  unfold mrtTurnSpell
  rw [ends_when]
  constructor
  · intro _
    rw [ends_bind, ends_get, ends_bind, ends_when]
    constructor
    · intro hspell
      refine (mrtCloseSpell_turns h ?_).mono (fun _ => hopens) fun _ _ hdone => hdone
      simp [touchesRows, hmrt, h.sampled, h.found, ← h.spellId, hspell]
    · intro hnone
      apply hopens w
      apply turns_of_decisions h.tracked_or (h.listed hlisted) h.decisions h.spellId
      intro _ _ _ _
      apply hlisted
      rw [← h.spellId]
      simpa using hnone
  · intro hdwell
    apply turns_of_decisions h.tracked_or (h.listed hlisted) h.decisions h.spellId
    intro _ other hfound hchange
    rw [h.found] at hfound
    cases hfound
    exact absurd (h.changed (by simpa using hdwell)) hchange

/-- A decision point adds its row after those that are there. -/
theorem mrtRecordDecision_turns {spellId : Nat} {tK : K} {assignment : Assignment}
    (h : Turns m io w₀ w) (hmrt : m.cfg.mrtEnabled = true)
    (hsampled : io.outcome .sample = .completes) (hfound : observedRegime m w₀ io ≠ none)
    (hspell : w.spellId = some spellId) :
    Ends (mrtRecordDecision m io spellId regime dwell tK assignment now) w
      (fun _ => Turns m io w₀) fun _ => Turns m io w₀ := by
  have hsome : ∀ {P : Prop}, w.spellId = none → P := by
    intro P hnone
    rw [hspell] at hnone
    cases hnone
  have htouches : touchesRows m w₀ io = true := by
    by_contra hno
    rw [Bool.not_eq_true] at hno
    obtain ⟨found, hsome⟩ := Option.ne_none_iff_exists'.mp hfound
    have hstood : w₀.spellId = some spellId := (h.untouched hno).2.symm.trans hspell
    simp [touchesRows, hmrt, hsampled, hsome, hstood] at hno
  obtain ⟨ids, at_, new, hdecisions, huncensored, -, hstamps⟩ := h.decided
  unfold mrtRecordDecision
  simp only [ends_bind, ends_uuid4, ends_modify]
  have hrecorded : Turns m io w₀ { w with
      uuids := w.uuids + 1, openDecisionIds := w.openDecisionIds ++ [w.uuids]
      decisions := w.decisions ++ [decisionRow m w.uuids spellId regime dwell tK assignment now]
      journal := w.journal ++
        [.decided (decisionRow m w.uuids spellId regime dwell tK assignment now)] } := by
    refine ⟨h.tracked, fun hnone => hsome hnone, fun hno => ?_, ids, at_,
      new ++ [decisionRow m w.uuids spellId regime dwell tK assignment now], ?_, ?_,
      fun hnone => absurd hnone hfound, hstamps⟩
    · rw [htouches] at hno
      cases hno
    · rw [← List.append_assoc, ← hdecisions]
    · intro row hrow
      rcases List.mem_append.mp hrow with hold | hnew
      · exact huncensored row hold
      · rw [List.mem_singleton.mp hnew]
        rfl
  exact ends_await (fun _ => hrecorded) fun _ =>
    ⟨⟨h.tracked, fun hnone => hsome hnone, h.untouched, h.decided⟩, hrecorded⟩

theorem mrtDecisionPoint_turns (h : Turns m io w₀ w) (hmrt : m.cfg.mrtEnabled = true)
    (hsampled : io.outcome .sample = .completes) (hfound : observedRegime m w₀ io ≠ none) :
    Ends (mrtDecisionPoint m io analysis features regime dwell now) w (fun _ => Turns m io w₀)
      fun _ => Turns m io w₀ := by
  have tail {body : Loop K PUnit} (hbody : Within TrialFrame body) (w' : World K)
      (h' : Turns m io w₀ w') :
      Ends body w' (fun _ => Turns m io w₀) fun _ => Turns m io w₀ :=
    (hbody.ends w').mono (fun _ _ hw => h'.frame hw) fun _ _ hw => h'.frame hw
  unfold mrtDecisionPoint
  rw [ends_bind, ends_get]
  split
  · rename_i spellId tK hspell _
    dsimp only
    split
    · exact h
    · refine Ends.bind (mrtRecordDecision_turns h hmrt hsampled hfound hspell) fun _ w' h' => tail ?_ w' h'
      exact within_bind (logWouldIntervene_frame fun _ => trivial) fun _ => stamp_frame
    · refine Ends.bind (mrtRecordDecision_turns h hmrt hsampled hfound hspell) fun _ w' h' => tail ?_ w' h'
      refine within_bind decideIntervention_frame fun pending => ?_
      cases pending with
      | none => exact within_pure
      | some pending =>
        exact within_bind (dispatchIntervention_frame fun _ _ => trivial) fun _ =>
          within_bind persistIntervention_frame fun _ => stamp_frame
  · exact h

/-- Where the sample is lost, the tracker has moved and nothing else is done. -/
theorem logProcessState_finds (hw : TrialFrame w₀ w) (hlisted : Listed w₀)
    (hfound : observedRegime m w₀ io = some (analysisToRegime analysis)) :
    Ends (logProcessState m io analysis now) w (fun result w' => Finds m io w₀ result.1 result.2 w')
      fun _ => Turns m io w₀ := by
  unfold logProcessState
  simp only [ends_bind, ends_get, ends_modify, ends_pure]
  have htracked : (w.dwell.observe (K := K) (analysisToRegime analysis) now).1.regime
      = some (analysisToRegime analysis) := DwellTracker.observe_regime
  refine ends_await (fun hsampled => ?_) fun hlost => ?_
  · refine ⟨hfound, hsampled, htracked, hw.spellId, hw.openDecisionIds, hw.decisions, fun hdwell => ?_⟩
    rw [← hw.dwell]
    exact observe_same hdwell
  · have hturns : ∀ w' : World K, w'.dwell.regime = some (analysisToRegime analysis) →
        w'.spellId = w₀.spellId →
        w'.openDecisionIds = w₀.openDecisionIds → w'.decisions = w₀.decisions →
          Turns m io w₀ w' := by
      intro w' htracked hspell hopen hdecisions
      refine turns_of_decisions (by rw [hfound]; exact htracked) ?_ hdecisions hspell fun hyes => ?_
      · unfold Listed
        rw [hspell, hopen]
        exact hlisted
      · unfold stampsExits at hyes
        rw [Bool.and_eq_true, Bool.and_eq_true, decide_eq_true_eq] at hyes
        exact absurd hyes.1.2 hlost
    exact ⟨hturns _ htracked hw.spellId hw.openDecisionIds hw.decisions,
      hturns _ htracked hw.spellId hw.openDecisionIds hw.decisions⟩

theorem runOn_turns {events : List BehavioralEvent} (hw : TrialFrame w₀ w) (hlisted : Listed w₀)
    (hfound : observedRegime m w₀ io
      = (assess m (m.clock w.reads) events).map fun assessed => analysisToRegime assessed.2) :
    Ends (runOn m io events) w (fun _ => Turns m io w₀) fun _ => Turns m io w₀ := by
  have hread : ∀ w' : World K, TrialFrame w' { w' with reads := w'.reads + 1 } := fun _ =>
      ⟨rfl, rfl, rfl, rfl⟩
  unfold runOn
  rw [ends_bind, ends_readClock]
  split
  · rename_i hnone
    rw [hnone] at hfound
    rw [ends_throw]
    exact turns_of_nothing hlisted hfound (IsTrans.trans _ _ _ hw (hread w))
  · rename_i features analysis hassess
    rw [hassess] at hfound
    rw [ends_bind, ends_readClock]
    have hloaded := IsTrans.trans _ _ _ hw (IsTrans.trans _ _ _ (hread w) (hread _))
    refine Ends.bind (logProcessState_finds hloaded hlisted hfound) fun result w₁ h₁ => ?_
    obtain ⟨regime, dwell⟩ := result
    refine Ends.bind (R := fun _ w' => Finds m io w₀ regime dwell w')
      (escalate_spec.mono ?_ fun _ _ hfalse => hfalse.elim) fun _ w₂ h₂ => ?_
    · rintro _ _ ⟨flag, events, rfl⟩
      exact h₁.frame ⟨rfl, rfl, rfl, rfl⟩
    · rw [ends_bind, ends_readClock]
      have hnow := h₂.frame (hread w₂)
      split
      · rename_i hmrt
        refine Ends.bind (mrtTurnSpell_turns hnow hlisted hmrt) fun _ w₃ h₃ => ?_
        exact mrtDecisionPoint_turns h₃ hmrt h₁.sampled (by rw [hfound]; exact nofun)
      · rename_i hmrt
        have hturns : Turns m io w₀ { w₂ with reads := w₂.reads + 1 } := by
          apply turns_of_decisions hnow.tracked_or (hnow.listed hlisted) hnow.decisions hnow.spellId
          intro hyes
          unfold stampsExits at hyes
          rw [Bool.and_eq_true, Bool.and_eq_true] at hyes
          exact absurd hyes.1.1 hmrt
        have hframe :
            Within TrialFrame (thresholdStep m io analysis features regime dwell
              (m.clock w₂.reads)) :=
          thresholdStep_frame fun _ _ => trivial
        exact (hframe.ends _).mono (fun _ _ hw => hturns.frame hw) fun _ _ hw => hturns.frame hw

/-- **What a cycle does to the rows.** -/
theorem cycle_turns (m : SessionMonitor K) (io : CycleInput K) (hlisted : Listed w) :
    Turns m io w (cycle m w io) := by
  have hends : Ends (runAnalysis m io) { w with events := io.elsewhere w.events }
      (fun _ => Turns m io w)
      fun _ => Turns m io w := by
    unfold runAnalysis
    rw [ends_bind]
    refine ends_await (fun hload => ?_) fun hload => ?_
    · simp only [id, ends_bind, ends_get, ends_modify, ends_when]
      obtain ⟨lastEventAt, lastEvents, hadvance⟩ :=
        advance_eq (m := m) (w := { w with events := io.elsewhere w.events })
      rw [hadvance]
      constructor
      · intro hevents
        refine runOn_turns ⟨rfl, rfl, rfl, rfl⟩ hlisted ?_
        unfold observedRegime
        rw [if_pos ⟨hload, by simpa using hevents⟩]
      · intro hempty
        refine turns_of_nothing hlisted ?_ ⟨rfl, rfl, rfl, rfl⟩
        unfold observedRegime
        rw [if_neg fun h => h.2 (by simpa using hempty)]
    · have hnone : observedRegime m w io = none := by
        unfold observedRegime
        rw [if_neg fun h => hload h.1]
      exact ⟨turns_of_nothing hlisted hnone ⟨rfl, rfl, rfl, rfl⟩,
        turns_of_nothing hlisted hnone ⟨rfl, rfl, rfl, rfl⟩⟩
  exact hends.state

end Cycle

/-! ### The session and its terminators -/

/-- The trial of one session: its monitor, and whether its row has `ended_at`. -/
structure Trial (K : Type) where
  world : World K := {}
  /-- What the registry holds for the session. -/
  monitor : Option (SessionMonitor K) := none
  ended : Bool := false
  /-- What the cycles of all its monitors have found, the last first. -/
  observations : List Observation := []
  /-- The rows of the spell that was current when `ended_at` was committed. -/
  spellAtEnd : List Nat := []

/-- The callers of `_mark_ended_and_finalize`. -/
inductive Terminator where
  | endSession
  | endLab
  | sweep
  | reaper
deriving Repr, DecidableEq

/-- Where a terminator stands. A row loaded before an await is a copy: `loaded` is whether it has
`ended_at`. -/
inductive TerminatorPc where
  | called (terminator : Terminator)
  | stopping (loaded : Bool)
  | reloading
  | asking (loaded : Bool)
  | committing
  | censoring
  | done
deriving Repr, DecidableEq

/-- How an await of a terminator comes back. `lost` is a request that fails, is cancelled or goes
with its process. -/
inductive Reply where
  | ok
  | notFound
  | lost
deriving Repr, DecidableEq

/-- The guard of `_mark_ended_and_finalize`. -/
def markEndedAndFinalize (loaded : Bool) : TerminatorPc := if loaded then .done else .committing

def censorOpenDecisions (sid : SessionId) (w : World K) : World K := { w with
  decisions := w.decisions.map fun row =>
    if row.sessionId = sid && row.subsequentExitTs.isNone
      then { row with censored := true } else row }

/-- From one await of a terminator to the next. The metrics between the commit and the censoring
touch nothing of the trial. -/
def TerminatorPc.step (sid : SessionId) (s : Trial K) : TerminatorPc → Reply →
    Option (Trial K × TerminatorPc)
  | .done, _ => none
  | _, .lost => some (s, .done)
  | .called .endSession, _ => some (s, markEndedAndFinalize s.ended)
  | .called .endLab, _ => some (s, .stopping s.ended)
  | .called .sweep, _ => some (s, .asking s.ended)
  | .called .reaper, _ => some ({ s with monitor := none }, .reloading)
  | .stopping loaded, _ => some ({ s with monitor := none }, markEndedAndFinalize loaded)
  | .reloading, _ => some (s, markEndedAndFinalize s.ended)
  | .asking loaded, .notFound => some (s, markEndedAndFinalize loaded)
  | .asking _, _ => some (s, .done)
  | .committing, _ =>
      some ({ s with
        ended := true
        spellAtEnd := if s.ended then s.spellAtEnd else currentSpell s.observations }, .censoring)
  | .censoring, _ => some ({ s with world := censorOpenDecisions sid s.world }, .done)

/-- What happens to the monitor: a cycle, its end with the process or by a stop, and its start by a
launch or by `restore_session_monitors`. A stop cancels the cycle it falls into. What that cycle had
in memory is gone with the monitor, so it is one whose remaining awaits all raise, before the
stop. -/
inductive MonitorMove (K : Type) where
  | cycle (io : CycleInput K)
  | stop
  | start (m : SessionMonitor K)

section System

variable [Field K] [LinearOrder K] [FloorRing K]

/-- What there is to be seen of a cycle from without: its regime and the rows that are new. -/
def Trial.observe (m : SessionMonitor K) (s : Trial K) (io : CycleInput K) : List Observation :=
  match observedRegime m s.world io with
  | none => s.observations
  | some regime =>
      ⟨regime, ((cycle m s.world io).decisions.drop s.world.decisions.length).map (·.id)⟩
        :: s.observations

def Trial.move (sid : SessionId) (s : Trial K) : MonitorMove K → Option (Trial K)
  | .cycle io => s.monitor.map fun m => { s with
      world := cycle m s.world io, observations := s.observe m io }
  | .stop => some { s with monitor := none }
  | .start m =>
      if s.monitor.isNone && m.sessionId = sid then
        some { s with world := startSession m s.world, monitor := some m }
      else none

def trial (sid : SessionId) : System (Trial K) TerminatorPc (MonitorMove K) Terminator Reply where
  env := Trial.move sid
  spawn := .called
  step := TerminatorPc.step sid

end System

abbrev TrialRun (K : Type) := Conf (Trial K) TerminatorPc

abbrev TrialMove (K : Type) := Label (MonitorMove K) Terminator Reply

/-- Whether the row is of the session and has neither an exit nor the mark of censoring. -/
def waits (sid : SessionId) (row : InterventionDecision K) : Bool :=
  row.sessionId = sid && row.subsequentExitTs.isNone && !row.censored

def unsettled (sid : SessionId) (w : World K) : Bool := w.decisions.any (waits sid)

/-- Whether the terminator is past its guard, and so will censor unless it is lost. -/
def TerminatorPc.settles : TerminatorPc → Bool
  | .committing | .censoring => true
  | _ => false

/-- A row that waits for its outcome is not in the list of the monitor: it was decided before a
restart, or the list was cleared by a stamp that was lost. -/
def forgotten (sid : SessionId) (w : World K) : Bool :=
  w.decisions.any fun row => waits sid row && !w.openDecisionIds.contains row.id

section Condition

variable [Field K] [LinearOrder K] [FloorRing K]

def Trial.changes (m : SessionMonitor K) (s : Trial K) (io : CycleInput K) : Bool :=
  (observedRegime m s.world io).any fun regime => s.observations.head?.map (·.regime) ≠ some regime

/-- The next move leaves a row with the wrong outcome, or with none: a cycle that comes to the rows
after the end; before it, a change of the regime that is not stamped on a row that waits for its
outcome; after it, the loss of the last terminator that would censor one. -/
def losesOutcome (sid : SessionId) (c : TrialRun K) : TrialMove K → Bool
  | .env (.cycle io) => c.shared.monitor.any fun m =>
      if c.shared.ended then touchesRows m c.shared.world io
      else c.shared.changes m io && (if stampsExits m io then forgotten sid c.shared.world
        else unsettled sid c.shared.world)
  | .run pid .lost =>
      c.shared.ended && unsettled sid c.shared.world && c.procs.countP TerminatorPc.settles ≤ 1
        && (c.procs[pid]?).any TerminatorPc.settles
  | _ => false

end Condition

/-- Exactly one of the two columns is set, and `censored` only for rows of the spell that was
current at the end. -/
structure Settled (sid : SessionId) (s : Trial K) : Prop where
  one : ∀ row ∈ s.world.decisions, row.sessionId = sid → row.subsequentExitTs.isSome = !row.censored
  current : ∀ row ∈ s.world.decisions, row.sessionId = sid → row.censored = true →
    row.id ∈ s.spellAtEnd

instance decidableSettled {s : Trial K} : Decidable (Settled sid s) :=
  decidable_of_iff (∀ row ∈ s.world.decisions, row.sessionId = sid →
      row.subsequentExitTs.isSome = !row.censored ∧ (row.censored = true → row.id ∈ s.spellAtEnd))
    ⟨fun h => ⟨fun row hrow hsid => (h row hrow hsid).1, fun row hrow hsid => (h row hrow hsid).2⟩,
      fun h row hrow hsid => ⟨h.one row hrow hsid, h.current row hrow hsid⟩⟩

/-! ### What every move keeps -/

section Invariant

variable {s s' : Trial K} {pc pc' : TerminatorPc} {reply : Reply} {c c' : TrialRun K}

theorem not_censoring_of_guard (loaded : Bool) : markEndedAndFinalize loaded ≠ .censoring := by
  cases loaded <;> decide

/-- Of the steps of a terminator one ends the session and one writes the rows. -/
theorem TerminatorPc.step_cases (h : pc.step sid s reply = some (s', pc')) :
    (s'.world = s.world ∧ s'.ended = s.ended ∧ s'.spellAtEnd = s.spellAtEnd
      ∧ s'.observations = s.observations
        ∧ (s'.monitor = s.monitor ∨ s'.monitor = none) ∧ pc' ≠ .censoring
        ∧ (pc.settles = true → reply = .lost))
      ∨ (pc = .committing ∧ pc' = .censoring ∧ s' = { s with
          ended := true
          spellAtEnd := if s.ended then s.spellAtEnd else currentSpell s.observations })
      ∨ (pc = .censoring ∧ pc' = .done
        ∧ s' = { s with world := censorOpenDecisions sid s.world }) := by
  cases pc with
  | done => cases h
  | committing =>
      cases reply with
      | lost =>
          cases h
          exact Or.inl ⟨rfl, rfl, rfl, rfl, Or.inl rfl, by decide, fun _ => rfl⟩
      | ok | notFound =>
          cases h
          exact Or.inr (Or.inl ⟨rfl, rfl, rfl⟩)
  | censoring =>
      cases reply with
      | lost =>
          cases h
          exact Or.inl ⟨rfl, rfl, rfl, rfl, Or.inl rfl, by decide, fun _ => rfl⟩
      | ok | notFound =>
          cases h
          exact Or.inr (Or.inr ⟨rfl, rfl, rfl⟩)
  | called terminator =>
      left
      cases reply <;> cases terminator <;> cases h
      all_goals
        refine ⟨rfl, rfl, rfl, rfl, ?_, ?_, fun hno => nomatch hno⟩
        · first
            | exact Or.inl rfl
            | exact Or.inr rfl
        · first
            | exact not_censoring_of_guard _
            | exact fun heq => nomatch heq
  | stopping loaded | reloading | asking loaded =>
      left
      cases reply <;> cases h
      all_goals
        refine ⟨rfl, rfl, rfl, rfl, ?_, ?_, fun hno => nomatch hno⟩
        · first
            | exact Or.inl rfl
            | exact Or.inr rfl
        · first
            | exact not_censoring_of_guard _
            | exact fun heq => nomatch heq

theorem mem_censorOpenDecisions {row : InterventionDecision K}
    (hrow : row ∈ (censorOpenDecisions sid w).decisions) (hsid : row.sessionId = sid) :
    ∃ old ∈ w.decisions, old.sessionId = sid ∧ old.subsequentExitTs = row.subsequentExitTs
      ∧ old.id = row.id
      ∧ row.censored = if row.subsequentExitTs = none then true else old.censored := by
  obtain ⟨old, hold, rfl⟩ := List.mem_map.mp hrow
  refine ⟨old, hold, ?_⟩
  by_cases hmark : (old.sessionId = sid && old.subsequentExitTs.isNone) = true
  · rw [if_pos hmark] at hsid ⊢
    simp only [Bool.and_eq_true, Option.isNone_iff_eq_none] at hmark
    exact ⟨hsid, rfl, rfl, (if_pos hmark.2).symm⟩
  · rw [if_neg hmark] at hsid ⊢
    have hexit : old.subsequentExitTs ≠ none := by
      simpa [hsid] using hmark
    exact ⟨hsid, rfl, rfl, (if_neg hexit).symm⟩

theorem unsettled_censorOpenDecisions : unsettled sid (censorOpenDecisions sid w) = false := by
  rw [unsettled, List.any_eq_false]
  intro row hrow
  by_cases hsid : row.sessionId = sid
  · obtain ⟨old, -, -, -, -, hcensored⟩ := mem_censorOpenDecisions hrow hsid
    cases hexit : row.subsequentExitTs with
    | none =>
        rw [if_pos hexit] at hcensored
        simp [waits, hcensored]
    | some ts => simp [waits, hexit]
  · simp [waits, hsid]

/-- What holds up to the end: a row without an exit is of the current spell, and the tracker of the
monitor stands at the regime that was found last. -/
structure Awaiting (sid : SessionId) (s : Trial K) : Prop where
  current : ∀ row ∈ s.world.decisions, row.sessionId = sid → row.subsequentExitTs = none →
    row.id ∈ currentSpell s.observations
  uncensored : ∀ row ∈ s.world.decisions, row.sessionId = sid → row.censored = false
  tracked : s.monitor ≠ none → ∀ regime, s.world.dwell.regime = some regime →
    s.observations.head?.map (·.regime) = some regime

/-- What the rows of the session look like, before and after its end. -/
structure RowsKept (sid : SessionId) (s : Trial K) : Prop where
  monitor : ∀ m, s.monitor = some m → m.sessionId = sid
  listed : ∀ m, s.monitor = some m → Listed s.world
  before : s.ended = false → Awaiting sid s
  after : s.ended = true → ∀ row ∈ s.world.decisions, row.sessionId = sid →
    (row.censored = true → row.subsequentExitTs = none)
      ∧ (row.subsequentExitTs = none → row.id ∈ s.spellAtEnd)

/-- The rows are kept, and after the end somebody is still going to censor what has no outcome. -/
structure OutcomesKept (sid : SessionId) (c : TrialRun K) : Prop where
  rows : RowsKept sid c.shared
  censoring : ∀ pc ∈ c.procs, pc = .censoring → c.shared.ended = true
  owed : c.shared.ended = true → unsettled sid c.shared.world = true →
    0 < c.procs.countP TerminatorPc.settles

theorem Awaiting.congr (h : Awaiting sid s) (hworld : s'.world = s.world)
    (hobservations : s'.observations = s.observations)
    (hmonitor : s'.monitor = s.monitor ∨ s'.monitor = none) :
    Awaiting sid s' := by
  have hsome : s'.monitor ≠ none → s.monitor ≠ none := by
    rcases hmonitor with hsame | hnone
    · exact fun hne => hsame ▸ hne
    · exact fun hne => absurd hnone hne
  constructor
  · rw [hworld, hobservations]
    exact h.current
  · rw [hworld]
    exact h.uncensored
  · rw [hworld, hobservations]
    exact fun hne => h.tracked (hsome hne)

theorem RowsKept.step (h : RowsKept sid s) (hcensoring : pc = .censoring → s.ended = true)
    (hstep : pc.step sid s reply = some (s', pc')) : RowsKept sid s' := by
  rcases TerminatorPc.step_cases hstep with
    ⟨hworld, hended, hspell, hobservations, hmonitor, -, -⟩ | ⟨rfl, -, rfl⟩ | ⟨rfl, -, rfl⟩
  · have hmonitor' : ∀ m, s'.monitor = some m → s.monitor = some m := by
      intro m hm
      rcases hmonitor with hsame | hnone
      · exact hsame ▸ hm
      · rw [hnone] at hm
        cases hm
    refine ⟨fun m hm => h.monitor m (hmonitor' m hm), fun m hm => ?_, ?_, ?_⟩
    · rw [hworld]
      exact h.listed m (hmonitor' m hm)
    · rw [hended]
      exact fun hopen => (h.before hopen).congr hworld hobservations hmonitor
    · rw [hended, hworld, hspell]
      exact h.after
  · refine ⟨h.monitor, h.listed, fun hfalse => (nomatch hfalse), ?_⟩
    intro _ row hrow hsid
    cases hended : s.ended with
    | true => exact h.after hended row hrow hsid
    | false =>
        have hawaiting := h.before hended
        refine ⟨?_, fun hopen => hawaiting.current row hrow hsid hopen⟩
        rw [hawaiting.uncensored row hrow hsid]
        exact fun hyes => nomatch hyes
  · have hended := hcensoring rfl
    refine ⟨h.monitor, h.listed, ?_, ?_⟩
    · intro hfalse
      exact absurd (hended.symm.trans hfalse) (by decide)
    · intro _ row hrow hsid
      obtain ⟨old, hold, holdSid, hexit, hid, hcensored⟩ := mem_censorOpenDecisions hrow hsid
      obtain ⟨holdCensored, holdCurrent⟩ := h.after hended old hold holdSid
      rw [hexit, hid] at holdCurrent
      refine ⟨?_, holdCurrent⟩
      intro hyes
      by_contra hopen
      rw [hyes, if_neg hopen] at hcensored
      exact hopen (hexit ▸ holdCensored hcensored.symm)

/-- A new monitor has an empty list and has found nothing. -/
theorem RowsKept.start (h : RowsKept sid s) (hsid : m.sessionId = sid) :
    RowsKept sid { s with world := startSession m s.world, monitor := some m } := by
  refine ⟨?_, fun _ _ _ => rfl, fun hended => ?_, h.after⟩
  · intro m' hm'
    cases hm'
    exact hsid
  · have hawaiting := h.before hended
    exact ⟨hawaiting.current, hawaiting.uncensored, fun _ _ hnone => nomatch hnone⟩

variable [Field K] [LinearOrder K] [FloorRing K]

/-- A move of a terminator that is not the loss of the last one leaves one to censor. -/
theorem OutcomesKept.owed_step {pid : Nat} (h : OutcomesKept sid c) (hpid : c.procs[pid]? = some pc)
    (hstep : pc.step sid c.shared reply = some (s', pc'))
    (hkeeps : losesOutcome sid c (.run pid reply) = false) (hended : s'.ended = true)
    (hunsettled : unsettled sid s'.world = true) :
    0 < (c.procs.set pid pc').countP TerminatorPc.settles := by
  have hmoved := countP_set_add TerminatorPc.settles hpid pc'
  rcases TerminatorPc.step_cases hstep with
    ⟨hworld, hsame, -, -, -, -, hlost⟩ | ⟨rfl, rfl, rfl⟩ | ⟨rfl, -, rfl⟩
  · rw [hsame] at hended
    rw [hworld] at hunsettled
    have howed := h.owed hended hunsettled
    cases hsettles : pc.settles with
    | false =>
        rw [hsettles, if_neg Bool.false_ne_true] at hmoved
        omega
    | true =>
        obtain rfl := hlost hsettles
        have hmore : ¬ c.procs.countP TerminatorPc.settles ≤ 1 := by
          simpa [losesOutcome, hended, hunsettled, hpid, hsettles] using hkeeps
        rw [hsettles, if_pos rfl] at hmoved
        omega
  · have hlast : TerminatorPc.settles .censoring = true := rfl
    have hfirst : TerminatorPc.settles .committing = true := rfl
    rw [hlast, hfirst, if_pos rfl] at hmoved
    have hmem := mem_of_getElem? hpid
    have hpos : 0 < c.procs.countP TerminatorPc.settles := List.countP_pos_iff.mpr ⟨_, hmem, rfl⟩
    omega
  · rw [show unsettled sid (censorOpenDecisions sid c.shared.world) = false from
      unsettled_censorOpenDecisions] at hunsettled
    cases hunsettled

/-- A cycle that finds no change, or stamps it on all that waits, leaves what waits to the current
spell. -/
theorem Awaiting.after_cycle {io : CycleInput K} (h : Awaiting sid s)
    (hmonitor : s.monitor = some m)
    (hlisted : Listed s.world)
    (hkeeps : (s.changes m io && (if stampsExits m io then forgotten sid s.world
      else unsettled sid s.world)) = false) :
    Awaiting sid { s with world := cycle m s.world io, observations := s.observe m io } := by
  have hsome : s.monitor ≠ none := by
    rw [hmonitor]
    exact nofun
  have hturns := cycle_turns m io hlisted
  obtain ⟨ids, now, new, hdecisions, huncensored, hnew, hstamps⟩ := hturns.decided
  have hdrop : (cycle m s.world io).decisions.drop s.world.decisions.length = new := by
    rw [hdecisions, List.drop_append_of_le_length (by rw [List.length_map]), List.drop_eq_nil_of_le
      (by rw [List.length_map]), List.nil_append]
  have hold : ∀ row ∈ s.world.decisions.map (stampExit ids now), ∃ old ∈ s.world.decisions,
      row = stampExit ids now old := by
    intro row hrow
    obtain ⟨old, hmem, rfl⟩ := List.mem_map.mp hrow
    exact ⟨old, hmem, rfl⟩
  refine ⟨fun row hrow hsid hopen => ?_, fun row hrow hsid => ?_, fun _ regime hregime => ?_⟩
  · dsimp only at hrow ⊢
    unfold Trial.observe
    rw [hdrop]
    rw [hdecisions] at hrow
    cases hfound : observedRegime m s.world io with
    | none =>
        rw [hnew hfound, List.append_nil] at hrow
        obtain ⟨old, hmem, rfl⟩ := hold row hrow
        obtain ⟨hsame, hid, -, hexit⟩ := stampExit_cases ids now old
        rw [hid]
        exact h.current old hmem (hsame.symm.trans hsid) (hexit hopen).1
    | some regime =>
        rcases List.mem_append.mp hrow with hstamped | hadded
        · obtain ⟨old, hmem, rfl⟩ := hold row hstamped
          obtain ⟨hsame, hid, -, hexit⟩ := stampExit_cases ids now old
          obtain ⟨hwaits, hout⟩ := hexit hopen
          have holdSid := hsame.symm.trans hsid
          rw [hid]
          by_cases hlast : s.observations.head?.map (·.regime) = some regime
          · exact mem_currentSpell_cons hlast (h.current old hmem holdSid hwaits)
          · -- The regime has changed, so that the row would have been stamped.
            have hchanges : s.changes m io = true := by
              unfold Trial.changes
              rw [hfound]
              exact decide_eq_true hlast
            have htracker : s.world.dwell.regime ≠ some regime := fun heq =>
                hlast (h.tracked hsome regime heq)
            rw [hchanges, Bool.true_and] at hkeeps
            have hwaiting : waits sid old = true := by
              simp [waits, holdSid, hwaits, h.uncensored old hmem holdSid]
            split at hkeeps
            · rename_i hyes
              have hlisted := List.any_eq_false.mp hkeeps old hmem
              rw [hwaiting, Bool.true_and, Bool.not_eq_true, Bool.not_eq_false',
                List.contains_iff_mem] at hlisted
              exact absurd (hstamps hyes regime hfound htracker _ hlisted) hout
            · exact absurd hwaiting (List.any_eq_false.mp hkeeps old hmem)
        · apply List.mem_append_left
          exact List.mem_map_of_mem hadded
  · dsimp only at hrow
    rw [hdecisions] at hrow
    rcases List.mem_append.mp hrow with hstamped | hadded
    · obtain ⟨old, hmem, rfl⟩ := hold row hstamped
      obtain ⟨hsame, -, hcensored, -⟩ := stampExit_cases ids now old
      rw [hcensored]
      exact h.uncensored old hmem (hsame.symm.trans hsid)
    · exact huncensored row hadded
  · have htracked := hturns.tracked
    dsimp only at hregime ⊢
    rw [hregime] at htracked
    unfold Trial.observe
    cases hfound : observedRegime m s.world io with
    | none =>
        rw [hfound, Option.none_or] at htracked
        exact h.tracked hsome regime htracked.symm
    | some found =>
        rw [hfound, Option.some_or] at htracked
        exact htracked.symm

theorem RowsKept.after_cycle {io : CycleInput K} (h : RowsKept sid s)
    (hmonitor : s.monitor = some m)
    (hkeeps : (if s.ended then touchesRows m s.world io
      else s.changes m io && (if stampsExits m io then forgotten sid s.world
        else unsettled sid s.world)) = false) :
    RowsKept sid { s with world := cycle m s.world io, observations := s.observe m io }
      ∧ (s.ended = true → (cycle m s.world io).decisions = s.world.decisions) := by
  have hlisted := h.listed m hmonitor
  have hturns := cycle_turns m io hlisted
  by_cases hended : s.ended = true
  · rw [if_pos hended] at hkeeps
    obtain ⟨hsame, -⟩ := hturns.untouched hkeeps
    refine ⟨⟨h.monitor, fun _ _ => hturns.listed, fun hno => absurd (hended.symm.trans hno)
      (by decide), fun _ => ?_⟩, fun _ => hsame⟩
    dsimp only
    rw [hsame]
    exact h.after hended
  · rw [if_neg hended] at hkeeps
    refine ⟨⟨h.monitor, fun _ _ => hturns.listed, fun hopen => ?_, fun hyes => absurd hyes hended⟩,
      fun hyes => absurd hyes hended⟩
    exact (h.before hopen).after_cycle hmonitor hlisted hkeeps

theorem OutcomesKept.next {l : TrialMove K} (h : OutcomesKept sid c)
    (hkeeps : losesOutcome sid c l = false) (hnext : (trial sid).next c l = some c') :
    OutcomesKept sid c' := by
  rcases (trial sid).next_cases hnext with ⟨e, s, rfl, hs, rfl⟩ | ⟨terminator, rfl, rfl⟩
    | ⟨pid, reply, pc, s, pc', rfl, hpid, hstep, rfl⟩
  · cases e with
    | cycle io =>
        obtain ⟨m, hmonitor, rfl⟩ := Option.map_eq_some_iff.mp hs
        simp only [losesOutcome, hmonitor, Option.any_some] at hkeeps
        obtain ⟨hrows, hsame⟩ := h.rows.after_cycle hmonitor hkeeps
        refine ⟨hrows, h.censoring, ?_⟩
        intro hended hunsettled
        apply h.owed hended
        rw [unsettled, ← hsame hended]
        exact hunsettled
    | stop =>
        cases hs
        refine ⟨⟨fun m hm => (nomatch hm), fun m hm => (nomatch hm), fun hopen => ?_, h.rows.after⟩,
          h.censoring, h.owed⟩
        exact (h.rows.before hopen).congr rfl rfl (Or.inr rfl)
    | start m =>
        simp only [trial, Trial.move] at hs
        split at hs
        · rename_i hfree
          cases hs
          simp only [Bool.and_eq_true, decide_eq_true_eq] at hfree
          exact ⟨h.rows.start hfree.2, h.censoring, h.owed⟩
        · cases hs
  · refine ⟨h.rows, forall_mem_append h.censoring fun heq => (nomatch heq), ?_⟩
    intro hended hunsettled
    rw [List.countP_append]
    have howed := h.owed hended hunsettled
    omega
  · have hstep' : pc.step sid c.shared reply = some (s, pc') := hstep
    have hmem := mem_of_getElem? hpid
    refine ⟨h.rows.step (h.censoring pc hmem) hstep', ?_,
      fun hended hunsettled => h.owed_step hpid hstep' hkeeps hended hunsettled⟩
    rcases TerminatorPc.step_cases hstep' with
      ⟨-, hsame, -, -, -, hne, -⟩ | ⟨rfl, rfl, rfl⟩ | ⟨rfl, rfl, rfl⟩
    · exact forall_mem_set (fun q hq heq => hsame.trans (h.censoring q hq heq)) fun heq =>
        absurd heq hne
    · exact fun _ _ _ => rfl
    · exact fun _ _ _ => h.censoring .censoring hmem rfl

end Invariant

theorem OutcomesKept.settled {c : TrialRun K} (h : OutcomesKept sid c)
    (hended : c.shared.ended = true) (hidle : ∀ pc ∈ c.procs, pc = .done) :
    Settled sid c.shared := by
  have hnobody : c.procs.countP TerminatorPc.settles = 0 := by
    rw [List.countP_eq_zero]
    intro pc hpc
    rw [hidle pc hpc]
    exact Bool.false_ne_true
  have hno : unsettled sid c.shared.world = false := by
    by_contra hyes
    have howed := h.owed hended (by simpa using hyes)
    omega
  constructor
  · intro row hrow hsid
    have hrow' := List.any_eq_false.mp hno row hrow
    obtain ⟨hcensored, -⟩ := h.rows.after hended row hrow hsid
    cases hmark : row.censored with
    | true => simp [hcensored hmark]
    | false =>
        simp only [waits, hsid, hmark, decide_true, Bool.true_and, Bool.not_false, Bool.and_true,
          Option.isNone_iff_eq_none] at hrow'
        exact Option.isSome_iff_ne_none.mpr hrow'
  · intro row hrow hsid hmark
    obtain ⟨hcensored, hcurrent⟩ := h.rows.after hended row hrow hsid
    exact hcurrent (hcensored hmark)

section Runs

variable [Field K] [LinearOrder K] [FloorRing K]

def untried (w : World K) : TrialRun K := ⟨{ world := w }, []⟩

/-- **Every decision gets its outcome.** In a run no move of which loses an outcome, once the
session has ended and no terminator is at work, every decision row of it has its exit or is
censored, not both, and is censored only in the spell that was current at the end. -/
theorem outcomes_settled (sid : SessionId) (w : World K) (moves : List (TrialMove K))
    (hnew : ∀ row ∈ w.decisions, row.sessionId ≠ sid)
    (hkeeps : (trial sid).Along (fun c l => losesOutcome sid c l = false) (untried w) moves) :
    (trial sid).Throughout (fun c => c.shared.ended = true → (∀ pc ∈ c.procs, pc = .done) →
      Settled sid c.shared) (untried w) moves := by
  have hstart : OutcomesKept sid (untried w) := by
    refine ⟨⟨fun m hm => (nomatch hm), fun m hm => (nomatch hm), fun _ => ⟨?_, ?_, ?_⟩,
      fun hended => (nomatch hended)⟩, fun pc hpc => (nomatch hpc), fun hended => (nomatch hended)⟩
    · exact fun row hrow hsid => absurd hsid (hnew row hrow)
    · exact fun row hrow hsid => absurd hsid (hnew row hrow)
    · exact fun hne => absurd rfl hne
  have hall := (trial sid).throughout_of_along (fun c l c' h hkeeps hnext => h.next hkeeps hnext)
    hstart hkeeps
  exact System.Throughout.mono _ (fun c h hended hidle => h.settled hended hidle) hall

end Runs

/-- A decision about a stuck learner, its exit, a decision about a repeated error, and the end. -/
def decidedTwice : List (TrialMove ℚ) :=
  [.env (.start (trialMonitor .closed)), .env (.cycle (trialCycle stuckRows)),
    .env (.cycle (trialCycle repeatedRows)), .env (.cycle (trialCycle [])),
    .spawn .endLab, .run 0 .ok, .run 0 .ok, .run 0 .ok, .run 0 .ok]

theorem outcomes_settled_decidedTwice :
    (trial 0).Throughout (fun c => c.shared.ended = true → (∀ pc ∈ c.procs, pc = .done) →
      Settled 0 c.shared) (untried {}) decidedTwice :=
  outcomes_settled 0 {} decidedTwice (fun row hrow => nomatch hrow) (by decide +kernel)

example : ((trial 0).exec (untried {}) decidedTwice).map
    (fun c => c.shared.world.decisions.map fun row =>
      (row.spellId, row.subsequentExitTs.isSome, row.censored))
    = some [(0, true, false), (2, false, true), (2, false, true)] := by decide +kernel

/-- A restart alone loses nothing, as long as the learner is stuck up to the end. -/
example : ((trial 0).exec (untried {}) [.env (.start (trialMonitor .closed)),
      .env (.cycle (trialCycle stuckRows)), .env .stop, .env (.start (trialMonitor .closed)),
      .spawn .endLab, .run 0 .ok, .run 0 .ok, .run 0 .ok, .run 0 .ok]).map
    (fun c => decide (Settled 0 c.shared)) = some true := by decide +kernel

/-- The process restarts between the decision about a stuck learner and the next regime. -/
def restartedInSpell : List (TrialMove ℚ) :=
  [.env (.start (trialMonitor .closed)), .env (.cycle (trialCycle stuckRows)), .env .stop,
    .env (.start (trialMonitor .closed)), .env (.cycle (trialCycle repeatedRows)),
    .spawn .endLab, .run 0 .ok, .run 0 .ok, .run 0 .ok, .run 0 .ok]

/-- The stamp of the first spell does not reach the table. -/
def stampLost : List (TrialMove ℚ) :=
  [.env (.start (trialMonitor .closed)), .env (.cycle (trialCycle stuckRows)),
    .env (.cycle (failingCycle .spellExit repeatedRows)),
    .spawn .endLab, .run 0 .ok, .run 0 .ok, .run 0 .ok, .run 0 .ok]

/-- The sample of the cycle that finds the next regime is lost, and the tracker has moved. -/
def sampleLost : List (TrialMove ℚ) :=
  [.env (.start (trialMonitor .closed)), .env (.cycle (trialCycle stuckRows)),
    .env (.cycle (failingCycle .sample repeatedRows)), .env (.cycle (trialCycle [])),
    .spawn .endLab, .run 0 .ok, .run 0 .ok, .run 0 .ok, .run 0 .ok]

/-- The sweep ends the session, and the monitor goes on. -/
def sweptInSpell : List (TrialMove ℚ) :=
  [.env (.start (trialMonitor .closed)), .env (.cycle (trialCycle stuckRows)),
    .spawn .sweep, .run 0 .ok, .run 0 .notFound, .run 0 .ok, .run 0 .ok,
    .env (.cycle (trialCycle repeatedRows))]

/-- The run ends with the session ended, nobody at work, and a row with the wrong outcome. -/
def LosesAnOutcome (moves : List (TrialMove ℚ)) : Prop :=
  ∃ c, (trial 0).exec (untried {}) moves = some c ∧ c.shared.ended = true
    ∧ (∀ pc ∈ c.procs, pc = .done) ∧ ¬ Settled 0 c.shared

theorem losesAnOutcome_of_exec {moves : List (TrialMove ℚ)}
    (hrun : ((trial 0).exec (untried {}) moves).map
        (fun c => (c.shared.ended, c.procs, decide (Settled 0 c.shared)))
          = some (true, [.done], false)) :
    LosesAnOutcome moves := by
  obtain ⟨c, hexec, hlast⟩ := Option.map_eq_some_iff.mp hrun
  rw [Prod.mk.injEq, Prod.mk.injEq, decide_eq_false_iff_not] at hlast
  obtain ⟨hended, hprocs, hlost⟩ := hlast
  refine ⟨c, hexec, hended, ?_, hlost⟩
  rw [hprocs]
  exact fun pc hpc => List.mem_singleton.mp hpc

/-- **Outcomes are lost**, in each of the four ways. -/
theorem outcome_lost :
    LosesAnOutcome restartedInSpell ∧ LosesAnOutcome stampLost ∧ LosesAnOutcome sampleLost
      ∧ LosesAnOutcome sweptInSpell :=
  ⟨losesAnOutcome_of_exec (by decide +kernel), losesAnOutcome_of_exec (by decide +kernel),
    losesAnOutcome_of_exec (by decide +kernel), losesAnOutcome_of_exec (by decide +kernel)⟩

end OnlinetLabs.Analytics
