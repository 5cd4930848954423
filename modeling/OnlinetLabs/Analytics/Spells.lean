import OnlinetLabs.Analytics.Frames
import OnlinetLabs.Analytics.SelfObservation
import OnlinetLabs.Lib.Journal

/-!
# A spell is one run of one bad regime

A spell is opened in the cycle that first sees a bad regime, and closed in the cycle that first sees
another. Both rest on `dwell == 0.0`, which the tracker reports in that one cycle only. The tracker
moves before the sample of the cycle is committed. When the commit raises, the cycle that would have
turned the spell is over, and the next one no longer looks like a change.

So the rows of one spell come from one run of cycles in one bad regime, provided no cycle that moves
the tracker to a bad regime while a spell is open fails at its sample: `spells_are_runs`. A failure
anywhere else is harmless, since the spell is closed before its rows are stamped and is opened
without an await.
-/

namespace OnlinetLabs.Analytics

open Eff

variable {K : Type}

def Entry.regime? : Entry K → Option ProcessRegime
  | .observed regime => some regime
  | .opened _ _ _ | .decided _ | .withheld _ | .authorized _ _ | .intervened _
  | .ungrounded _ | .sent
  | .audited _ => none

def Entry.openedId? : Entry K → Option Nat
  | .opened spellId _ _ => some spellId
  | .observed _ | .decided _ | .withheld _ | .authorized _ _ | .intervened _ | .ungrounded _ | .sent
  | .audited _ => none

def lastObserved (journal : List (Entry K)) : Option ProcessRegime :=
  (journal.filterMap Entry.regime?).getLast?

/-- The rows of a spell come from one run of cycles in which the tracker reported one bad regime,
and carry the threshold that was drawn for it. -/
structure SpellsAreRuns (journal : List (Entry K)) : Prop where
  observed : ∀ before row after, journal = before ++ Entry.decided row :: after →
    isBad row.regime = true ∧ lastObserved before = some row.regime
  drawn : ∀ before row after, journal = before ++ Entry.decided row :: after →
    Entry.opened row.spellId row.tKApplied row.regime ∈ before ∧
      ∀ tK regime, Entry.opened row.spellId tK regime ∈ journal →
        tK = row.tKApplied ∧ regime = row.regime
  together : ∀ before row mid row' after,
    journal = before ++ Entry.decided row :: mid ++ Entry.decided row' :: after →
      row'.spellId = row.spellId →
        row'.regime = row.regime ∧ row'.tKApplied = row.tKApplied ∧
          ∀ regime, Entry.observed regime ∈ mid → regime = row.regime

/-! ### From one row to all -/

/-- The spell was opened, and since then only its regime was observed. -/
def OpenSince (journal : List (Entry K)) (spellId : Nat) (tK : K) (regime : ProcessRegime) : Prop :=
  ∃ before since, journal = before ++ Entry.opened spellId tK regime :: since ∧
    ∀ observed, Entry.observed observed ∈ since → observed = regime

def Owned (before : List (Entry K)) : Entry K → Prop
  | .decided row => isBad row.regime = true ∧ lastObserved before = some row.regime ∧
      OpenSince before row.spellId row.tKApplied row.regime
  | .observed _ | .opened _ _ _ | .withheld _ | .authorized _ _ | .intervened _
  | .ungrounded _ | .sent
  | .audited _ => True

section Journal

variable {journal added : List (Entry K)} {spellId : Nat} {tK : K} {regime : ProcessRegime}

theorem OpenSince.mem (h : OpenSince journal spellId tK regime) :
    .opened spellId tK regime ∈ journal := by
  obtain ⟨before, since, rfl, -⟩ := h
  simp

theorem OpenSince.append (h : OpenSince journal spellId tK regime)
    (hadded : ∀ observed, .observed observed ∈ added → observed = regime) :
    OpenSince (journal ++ added) spellId tK regime := by
  obtain ⟨before, since, rfl, hsince⟩ := h
  refine ⟨before, since ++ added, by simp, fun observed hmem => ?_⟩
  rcases List.mem_append.mp hmem with hmem | hmem
  · exact hsince observed hmem
  · exact hadded observed hmem

theorem openSince_concat : OpenSince (journal ++ [.opened spellId tK regime]) spellId tK regime :=
  ⟨journal, [], rfl, fun _ hmem => nomatch hmem⟩

theorem filterMap_regime_append (h : ∀ e ∈ added, ¬ e.ofSpell) :
    (journal ++ added).filterMap Entry.regime? = journal.filterMap Entry.regime? := by
  have hnil : added.filterMap Entry.regime? = [] := by
    rw [List.filterMap_eq_nil_iff]
    intro e hmem
    have := h e hmem
    cases e <;> simp_all [Entry.regime?, Entry.ofSpell]
  rw [List.filterMap_append, hnil, List.append_nil]

theorem filterMap_openedId_append (h : ∀ e ∈ added, ¬ e.ofSpell) :
    (journal ++ added).filterMap Entry.openedId? = journal.filterMap Entry.openedId? := by
  have hnil : added.filterMap Entry.openedId? = [] := by
    rw [List.filterMap_eq_nil_iff]
    intro e hmem
    have := h e hmem
    cases e <;> simp_all [Entry.openedId?, Entry.ofSpell]
  rw [List.filterMap_append, hnil, List.append_nil]

/-- Identifiers are drawn once, so what is owned row by row is one run. -/
theorem spellsAreRuns_of_owned (howned : Justified Owned journal)
    (hids : (journal.filterMap Entry.openedId?).Nodup) : SpellsAreRuns journal where
  observed before row after heq :=
    ⟨(howned before _ after heq).1, (howned before _ after heq).2.1⟩
  drawn before row after heq := by
    have hopen := (howned before _ after heq).2.2
    refine ⟨hopen.mem, fun tK regime hmem => ?_⟩
    obtain ⟨first, since, hfirst, -⟩ := hopen
    obtain ⟨left, right, hsplit⟩ := List.append_of_mem hmem
    have hfirst : journal = first ++ .opened row.spellId row.tKApplied row.regime ::
        (since ++ .decided row :: after) := by
      rw [heq, hfirst, List.append_assoc, List.cons_append]
    obtain ⟨-, hentry, -⟩ := split_unique hids hfirst hsplit rfl rfl
    simp only [Entry.opened.injEq, true_and] at hentry
    exact ⟨hentry.1.symm, hentry.2.symm⟩
  together before row mid row' after heq hid := by
    obtain ⟨first, since, hfirst, -⟩ :=
      (howned before (.decided row) (mid ++ .decided row' :: after) (by simp [heq])).2.2
    obtain ⟨first', since', hfirst', hsince'⟩ := (howned _ (.decided row') after heq).2.2
    have hleft : journal = first ++ .opened row.spellId row.tKApplied row.regime ::
        (since ++ .decided row :: mid ++ .decided row' :: after) := by
      rw [heq, hfirst]
      simp
    have hright : journal = first' ++ .opened row'.spellId row'.tKApplied row'.regime ::
        (since' ++ .decided row' :: after) := by
      rw [heq, hfirst']
      simp
    obtain ⟨-, hentry, hafter⟩ :=
      split_unique hids hleft hright rfl (congrArg some hid)
    simp only [Entry.opened.injEq] at hentry
    refine ⟨hentry.2.2.symm, hentry.2.1.symm, fun regime hmem => ?_⟩
    rw [hentry.2.2]
    apply hsince'
    rw [← List.append_cancel_right hafter]
    simp [hmem]

end Journal

/-! ### The invariant of the monitor -/

section Invariant

variable {m : SessionMonitor K} {w w' : World K} {regime : ProcessRegime}

structure Booked (m : SessionMonitor K) (w : World K) : Prop where
  owned : Justified Owned w.journal
  ids : (w.journal.filterMap Entry.openedId?).Nodup
  fresh : ∀ id ∈ w.journal.filterMap Entry.openedId?, id < w.uuids
  observed : lastObserved w.journal = w.dwell.regime
  idle : m.cfg.mrtEnabled = false → w.spellId = none

/-- An open spell is that of the regime, if the regime is bad. -/
def Current (w : World K) (regime : ProcessRegime) : Prop :=
  isBad regime = true → ∀ spellId tK, w.spellId = some spellId → w.spellTK = some tK →
    OpenSince w.journal spellId tK regime

/-- Between cycles. A spell left open in a productive regime decides nothing before it is closed. -/
structure SpellInv (m : SessionMonitor K) (w : World K) : Prop where
  booked : Booked m w
  current : w.spellId.isSome = true → ∃ regime, w.dwell.regime = some regime ∧ Current w regime

structure Turned (m : SessionMonitor K) (regime : ProcessRegime) (w : World K) : Prop where
  booked : Booked m w
  tracked : w.dwell.regime = some regime
  current : Current w regime

theorem Turned.inv (h : Turned m regime w) : SpellInv m w :=
  ⟨h.booked, fun _ => ⟨regime, h.tracked, h.current⟩⟩

/-! What is kept by the parts that leave the spell alone. -/

theorem Booked.frame (h : Booked m w) (hw : SpellFrame (fun e => ¬ e.ofSpell) w w') :
    Booked m w' := by
  obtain ⟨added, hj, hadded⟩ := hw.emits
  constructor
  · rw [hj]
    apply h.owned.append
    intro e hmem before
    have := hadded e hmem
    cases e <;> first | trivial | exact absurd trivial this
  · rw [hj, filterMap_openedId_append hadded]
    exact h.ids
  · rw [hj, filterMap_openedId_append hadded, hw.uuids]
    exact h.fresh
  · unfold lastObserved
    rw [hj, filterMap_regime_append hadded, hw.dwell]
    exact h.observed
  · rw [hw.spellId]
    exact h.idle

theorem Current.frame (h : Current w regime) (hw : SpellFrame (fun e => ¬ e.ofSpell) w w') :
    Current w' regime := by
  intro hbad spellId tK hid htk
  obtain ⟨added, hj, hadded⟩ := hw.emits
  rw [hj]
  refine (h hbad spellId tK (hw.spellId ▸ hid) (hw.spellTK ▸ htk)).append fun observed hmem => ?_
  exact absurd trivial (hadded _ hmem)

theorem SpellInv.frame (h : SpellInv m w) (hw : SpellFrame (fun e => ¬ e.ofSpell) w w') :
    SpellInv m w' := by
  refine ⟨h.booked.frame hw, fun hsome => ?_⟩
  obtain ⟨regime, hregime, hcurrent⟩ := h.current (hw.spellId ▸ hsome)
  exact ⟨regime, hw.dwell ▸ hregime, hcurrent.frame hw⟩

theorem Turned.frame (h : Turned m regime w) (hw : SpellFrame (fun e => ¬ e.ofSpell) w w') :
    Turned m regime w' :=
  ⟨h.booked.frame hw, hw.dwell ▸ h.tracked, h.current.frame hw⟩

/-! What the three entries about a spell do. -/

theorem Booked.observe (h : Booked m w) {tracker : DwellTracker}
    (htracker : tracker.regime = some regime) :
    Booked m { w with dwell := tracker, journal := w.journal ++ [.observed regime] } := by
  refine ⟨h.owned.concat trivial, ?_, ?_, ?_, h.idle⟩
  · simpa [List.filterMap_cons, Entry.openedId?] using h.ids
  · simpa [Entry.openedId?] using h.fresh
  · simp [lastObserved, Entry.regime?, htracker]

theorem Booked.open (h : Booked m w) (hmrt : m.cfg.mrtEnabled = true) {tK : K} {ids : List Nat} :
    Booked m { w with
      uuids := w.uuids + 1
      spellTK := some tK
      spellId := some w.uuids
      openDecisionIds := ids
      journal := w.journal ++ [.opened w.uuids tK regime] } := by
  refine ⟨h.owned.concat trivial, ?_, ?_, ?_, fun hoff => absurd hmrt (by simp [hoff])⟩
  · have hnew : w.uuids ∉ w.journal.filterMap Entry.openedId? :=
      fun hmem => absurd (h.fresh _ hmem) (by omega)
    have hids := List.Nodup.concat hnew h.ids
    rw [List.concat_eq_append] at hids
    rw [List.filterMap_append]
    exact hids
  · intro id hmem
    rw [List.filterMap_append] at hmem
    rcases List.mem_append.mp hmem with hmem | hmem
    · exact Nat.lt_succ_of_lt (h.fresh id hmem)
    · rw [List.mem_singleton.mp hmem]
      exact Nat.lt_succ_self w.uuids
  · simpa [lastObserved, Entry.regime?] using h.observed

theorem Turned.decide (h : Turned m regime w) (hbad : isBad regime = true)
    {row : InterventionDecision K} {decisions : List (InterventionDecision K)}
    (hregime : row.regime = regime) (hid : w.spellId = some row.spellId)
    (htk : w.spellTK = some row.tKApplied) :
    Turned m regime { w with
      decisions := decisions
      journal := w.journal ++ [.decided row] } := by
  have hopen := h.current hbad row.spellId row.tKApplied hid htk
  refine ⟨⟨h.booked.owned.concat ?_, ?_, ?_, ?_, h.booked.idle⟩, h.tracked, ?_⟩
  · refine ⟨hregime ▸ hbad, ?_, hregime ▸ hopen⟩
    rw [h.booked.observed, h.tracked, hregime]
  · simpa [List.filterMap_cons, Entry.openedId?] using h.booked.ids
  · simpa [Entry.openedId?] using h.booked.fresh
  · simpa [lastObserved, Entry.regime?] using h.booked.observed
  · intro hbad spellId tK hid' htk'
    refine (h.current hbad spellId tK hid' htk').append fun observed hmem => ?_
    simp at hmem

/-! ### The parts of a cycle -/

/-- The tracker has moved to the regime. What is open is of this regime, unless the change has just
been reported. -/
structure Observed [Zero K] (m : SessionMonitor K) (regime : ProcessRegime) (dwell : K)
    (w : World K) : Prop where
  booked : Booked m w
  tracked : w.dwell.regime = some regime
  current : dwell ≠ 0 → Current w regime

theorem Observed.frame [Zero K] {dwell : K} (h : Observed m regime dwell w)
    (hw : SpellFrame (fun e => ¬ e.ofSpell) w w') : Observed m regime dwell w' :=
  ⟨h.booked.frame hw, hw.dwell ▸ h.tracked, fun hdwell => (h.current hdwell).frame hw⟩

theorem Current.observe (h : Current w regime) {tracker : DwellTracker} :
    Current { w with dwell := tracker, journal := w.journal ++ [.observed regime] } regime := by
  intro hbad spellId tK hid htk
  refine (h hbad spellId tK hid htk).append fun observed hmem => ?_
  simpa using hmem

theorem current_of_closed (h : w.spellId = none) : Current w regime := by
  intro _ spellId tK hid
  rw [h] at hid
  exact nomatch hid

theorem SpellInv.current_of_tracked (h : SpellInv m w) (hsame : w.dwell.regime = some regime) :
    Current w regime := by
  intro hbad spellId tK hid
  obtain ⟨tracked, htracked, hcurrent⟩ := h.current (by rw [hid]; rfl)
  rw [hsame] at htracked
  cases htracked
  exact hcurrent hbad spellId tK hid

theorem Turned.draw (h : Turned m regime w) {ids : List Nat} :
    Turned m regime { w with uuids := w.uuids + 1, openDecisionIds := ids } :=
  ⟨⟨h.booked.owned, h.booked.ids, fun id hmem => Nat.lt_succ_of_lt (h.booked.fresh id hmem),
    h.booked.observed, h.booked.idle⟩, h.tracked, h.current⟩

variable {io : CycleInput K} {analysis : AnalyticsResult K} {features : SessionFeatures K}
  {dwell : K} {now : Nat}

theorem mrtCloseSpell_spec (h : Booked m w) (htracked : w.dwell.regime = some regime) :
    Ends (mrtCloseSpell io now) w (fun _ => Turned m regime) fun _ => SpellInv m := by
  have hclosed : Turned m regime
      { w with spellId := none, spellTK := none, openDecisionIds := [] } :=
    ⟨⟨h.owned, h.ids, h.fresh, h.observed, fun _ => rfl⟩, htracked, current_of_closed rfl⟩
  have hstamped (decisions : List (InterventionDecision K)) : Turned m regime
      { w with spellId := none, spellTK := none, openDecisionIds := [], decisions := decisions } :=
    hclosed.frame ⟨rfl, rfl, rfl, rfl, by simp, emits_nothing rfl⟩
  unfold mrtCloseSpell
  simp only [ends_bind, ends_get, ends_modify, ends_when]
  refine ⟨fun _ => ends_await (fun _ => hstamped _) fun _ => ⟨hclosed.inv, (hstamped _).inv⟩,
    fun _ => hclosed⟩

theorem mrtRecordDecision_spec {spellId : Nat} {tK : K} {assignment : Assignment}
    (h : Turned m regime w) (hbad : isBad regime = true) (hid : w.spellId = some spellId)
    (htk : w.spellTK = some tK) :
    Ends (mrtRecordDecision m io spellId regime dwell tK assignment now) w
      (fun _ => Turned m regime) fun _ => Turned m regime := by
  unfold mrtRecordDecision
  simp only [ends_bind, ends_uuid4, ends_modify]
  have hdrawn : Turned m regime { w with
      uuids := w.uuids + 1, openDecisionIds := w.openDecisionIds ++ [w.uuids] } := h.draw
  exact ends_await (fun _ => hdrawn.decide hbad rfl hid htk) fun _ =>
    ⟨hdrawn, hdrawn.decide hbad rfl hid htk⟩

variable [Field K]

theorem mrtOpenSpell_spec (h : Booked m w) (htracked : w.dwell.regime = some regime)
    (hmrt : m.cfg.mrtEnabled = true) :
    Ends (mrtOpenSpell m io regime) w (fun _ => Turned m regime) fun _ => SpellInv m := by
  unfold mrtOpenSpell
  simp only [ends_bind, ends_uuid4, ends_modify]
  refine ⟨h.open hmrt, htracked, fun _ spellId tK hid htk => ?_⟩
  cases hid
  cases htk
  exact openSince_concat

/-- A change of the regime is reported as a dwell of zero. -/
theorem observe_same {tracker : DwellTracker} (h : (tracker.observe (K := K) regime now).2 ≠ 0) :
    tracker.regime = some regime := by
  unfold DwellTracker.observe at h
  split at h
  · exact Eq.symm ‹_›
  · exact absurd rfl h

/-- Where the sample is lost, the spell must not need turning. -/
theorem logProcessState_spec (h : SpellInv m w)
    (hsample : w.spellId.isSome = true → isBad (analysisToRegime analysis) = true →
      w.dwell.regime ≠ some (analysisToRegime analysis) → io.outcome .sample = .completes) :
    Ends (logProcessState m io analysis now) w
      (fun result w' => result.1 = analysisToRegime analysis ∧ Observed m result.1 result.2 w')
      fun _ => SpellInv m := by
  unfold logProcessState
  simp only [ends_bind, ends_get, ends_modify, ends_pure]
  have hbooked : Booked m { w with
      dwell := (w.dwell.observe (K := K) (analysisToRegime analysis) now).1
      journal := w.journal ++ [.observed (analysisToRegime analysis)] } :=
    h.booked.observe DwellTracker.observe_regime
  refine ends_await (fun _ => ⟨trivial, Observed.frame (w := { w with
      dwell := (w.dwell.observe (K := K) (analysisToRegime analysis) now).1
      journal := w.journal ++ [.observed (analysisToRegime analysis)] }) ?_
      ⟨rfl, rfl, rfl, rfl, by simp, emits_nothing rfl⟩⟩) fun hraises => ?_
  · exact ⟨hbooked, DwellTracker.observe_regime, fun hdwell =>
      (h.current_of_tracked (observe_same hdwell)).observe⟩
  · have hinv : SpellInv m { w with
        dwell := (w.dwell.observe (K := K) (analysisToRegime analysis) now).1
        journal := w.journal ++ [.observed (analysisToRegime analysis)] } := by
      refine ⟨hbooked, fun hsome => ⟨_, DwellTracker.observe_regime, fun hbad => ?_⟩⟩
      by_cases hsame : w.dwell.regime = some (analysisToRegime analysis)
      · exact (h.current_of_tracked hsame).observe hbad
      · exact absurd (hsample hsome hbad hsame) hraises
    exact ⟨hinv, hinv.frame ⟨rfl, rfl, rfl, rfl, by simp, emits_nothing rfl⟩⟩

variable [LinearOrder K]

theorem mrtTurnSpell_spec (h : Observed m regime dwell w) (hmrt : m.cfg.mrtEnabled = true) :
    Ends (mrtTurnSpell m io regime dwell now) w (fun _ => Turned m regime)
      fun _ => SpellInv m := by
  unfold mrtTurnSpell
  rw [ends_when]
  refine ⟨fun _ => ?_, fun hdwell => ⟨h.booked, h.tracked, h.current (by simpa using hdwell)⟩⟩
  simp only [ends_bind, ends_get, ends_when]
  have hopen (w' : World K) (h' : Turned m regime w') :
      (isBad regime = true → Ends (mrtOpenSpell m io regime) w' (fun _ => Turned m regime)
        fun _ => SpellInv m) ∧ (isBad regime = false → Turned m regime w') :=
    ⟨fun _ => mrtOpenSpell_spec h'.booked h'.tracked hmrt, fun _ => h'⟩
  refine ⟨fun _ => (mrtCloseSpell_spec h.booked h.tracked).mono (fun _ => hopen) fun _ _ he => he,
    fun hnone => hopen w ⟨h.booked, h.tracked, current_of_closed (by simpa using hnone)⟩⟩

/-- A delivery under the trial, from the decision on. -/
theorem mrtDecisionPoint_spec (h : Turned m regime w) :
    Ends (mrtDecisionPoint m io analysis features regime dwell now) w (fun _ => SpellInv m)
      fun _ => SpellInv m := by
  have tail {body : Loop K PUnit} (hbody : Within (SpellFrame fun e => ¬ e.ofSpell) body)
      (w' : World K) (h' : Turned m regime w') :
      Ends body w' (fun _ => SpellInv m) fun _ => SpellInv m :=
    (hbody.ends w').mono (fun _ _ hw => (h'.frame hw).inv) fun _ _ hw => (h'.frame hw).inv
  unfold mrtDecisionPoint
  rw [ends_bind, ends_get]
  split
  · rename_i spellId tK hid htk
    dsimp only
    split
    · exact h.inv
    · rename_i haction
      have hbad := (eligible_of_not_skip (by rw [haction]; decide)).bad
      refine Ends.bind ((mrtRecordDecision_spec h hbad hid htk).mono (fun _ _ hq => hq)
        fun _ _ he => he.inv) fun _ w' h' => tail ?_ w' h'
      exact within_bind (logWouldIntervene_frame fun _ => id) fun _ => stamp_frame
    · rename_i haction
      have hbad := (eligible_of_not_skip (by rw [haction]; decide)).bad
      refine Ends.bind ((mrtRecordDecision_spec h hbad hid htk).mono (fun _ _ hq => hq)
        fun _ _ he => he.inv) fun _ w' h' => tail ?_ w' h'
      refine within_bind decideIntervention_frame fun pending => ?_
      cases pending with
      | none => exact within_pure
      | some pending =>
        refine within_bind (dispatchIntervention_frame fun e he => ?_) fun _ =>
          within_bind persistIntervention_frame fun _ => stamp_frame
        cases e <;> first | exact id | exact absurd he id
  · exact h.inv

variable [FloorRing K]

/-- The cycle does not lose a turn of the spell: where it moves the tracker to a bad regime while a
spell is open, its sample is committed. -/
def KeepsTurn (m : SessionMonitor K) (w : World K) (io : CycleInput K) : Prop :=
  ∀ features analysis,
    assess m (m.clock w.reads) (currentEvents m { w with events := io.elsewhere w.events })
      = some (features, analysis) →
    io.outcome .load = .completes →
    w.spellId.isSome = true → isBad (analysisToRegime analysis) = true →
    w.dwell.regime ≠ some (analysisToRegime analysis) → io.outcome .sample = .completes

theorem runOn_spec {events : List BehavioralEvent} (h : SpellInv m w)
    (hsample : ∀ features analysis, assess m (m.clock w.reads) events = some (features, analysis) →
      w.spellId.isSome = true → isBad (analysisToRegime analysis) = true →
      w.dwell.regime ≠ some (analysisToRegime analysis) → io.outcome .sample = .completes) :
    Ends (runOn m io events) w (fun _ => SpellInv m) fun _ => SpellInv m := by
  have hread (w : World K) (h : SpellInv m w) : SpellInv m { w with reads := w.reads + 1 } :=
    h.frame ⟨rfl, rfl, rfl, rfl, by simp, emits_nothing rfl⟩
  unfold runOn
  rw [ends_bind, ends_readClock]
  split
  · exact hread w h
  · rename_i features analysis hassess
    rw [ends_bind, ends_readClock]
    refine Ends.bind (logProcessState_spec (hread _ (hread w h))
      (hsample features analysis hassess))
      fun result w' hw' => ?_
    obtain ⟨regime, dwell⟩ := result
    obtain ⟨-, hobserved⟩ := hw'
    refine Ends.bind (escalate_frame.mono (fun _ _ hw => hobserved.frame hw)
      fun _ _ hfalse => hfalse.elim) fun _ w'' hw'' => ?_
    rw [ends_bind, ends_readClock]
    have hnow : Observed m regime dwell { w'' with reads := w''.reads + 1 } :=
      hw''.frame ⟨rfl, rfl, rfl, rfl, by simp, emits_nothing rfl⟩
    split
    · rename_i hmrt
      exact Ends.bind (mrtTurnSpell_spec hnow hmrt) fun _ _ hturned => mrtDecisionPoint_spec hturned
    · rename_i hmrt
      have hturned : Turned m _ { w'' with reads := w''.reads + 1 } :=
        ⟨hnow.booked, hnow.tracked, current_of_closed (hnow.booked.idle (by simpa using hmrt))⟩
      have hframe : Within (SpellFrame fun e => ¬ e.ofSpell)
          (thresholdStep m io analysis features regime dwell (m.clock w''.reads)) :=
        thresholdStep_frame fun _ he => he
      exact (hframe.ends _).mono (fun _ _ hw => (hturned.frame hw).inv)
        fun _ _ hw => (hturned.frame hw).inv

theorem cycle_spellInv (h : SpellInv m w) (hturn : KeepsTurn m w io) :
    SpellInv m (cycle m w io) := by
  have hloaded : SpellInv m { w with events := io.elsewhere w.events } :=
    h.frame ⟨rfl, rfl, rfl, rfl, by simp, emits_nothing rfl⟩
  have hends : Ends (runAnalysis m io) { w with events := io.elsewhere w.events }
      (fun _ => SpellInv m) fun _ => SpellInv m := by
    unfold runAnalysis
    rw [ends_bind]
    refine ends_await (fun hload => ?_) fun _ => ⟨hloaded, hloaded⟩
    simp only [id, ends_bind, ends_get, ends_modify, ends_when]
    obtain ⟨lastEventAt, lastEvents, hadvance⟩ :=
      advance_eq (m := m) (w := { w with events := io.elsewhere w.events })
    rw [hadvance]
    have hadvanced : SpellInv m { w with
        events := io.elsewhere w.events, lastEventAt := lastEventAt, lastEvents := lastEvents } :=
      hloaded.frame ⟨rfl, rfl, rfl, rfl, le_rfl, emits_nothing rfl⟩
    exact ⟨fun _ => runOn_spec hadvanced fun features analysis hassess =>
      hturn features analysis hassess hload, fun _ => hadvanced⟩
  exact hends.state

omit [Field K] [LinearOrder K] [FloorRing K] in
theorem startSession_spellInv (m : SessionMonitor K) (w : World K) :
    SpellInv m (startSession m w) := by
  refine ⟨⟨justified_nil, ?_, ?_, rfl, fun _ => rfl⟩, fun hsome => nomatch hsome⟩
  · exact List.nodup_nil
  · exact fun id hmem => nomatch hmem

/-- **Spells under failures.** Whatever else fails, the rows of one spell come from one run of
cycles in one bad regime. -/
theorem spells_are_runs (m : SessionMonitor K) (w : World K) (ios : List (CycleInput K))
    (hturn : Everywhere (cycle m) (KeepsTurn m) (startSession m w) ios) :
    SpellsAreRuns (ios.foldl (cycle m) (startSession m w)).journal := by
  have hinv := hturn.foldl (SpellInv m) (startSession_spellInv m w) fun _ _ => cycle_spellInv
  exact spellsAreRuns_of_owned hinv.booked.owned hinv.booked.ids

end Invariant

theorem SpellsAreRuns.opened {journal : List (Entry K)} (h : SpellsAreRuns journal)
    {row : InterventionDecision K} (hmem : .decided row ∈ journal) :
    .opened row.spellId row.tKApplied row.regime ∈ journal := by
  obtain ⟨before, after, heq⟩ := List.append_of_mem hmem
  rw [heq]
  exact List.mem_append_left _ (h.drawn before row after heq).1

/-! ### A learner in the trial -/

/-- Its clock runs half a minute from one reading to the next. -/
def trialMonitor (arm : ControlArm) : SessionMonitor ℚ where
  cfg := { LearningAnalyticsConfig.default with mrtEnabled := true }
  sessionId := 0
  userId := "ann"
  labSlug := "vlan"
  controlArm := arm
  gateway := true
  controlInterface := some .default
  log2 := log2AtHalfAndTwo
  jsonNumber := fun _ => "0.7"
  clock := fun n => 90000000 + n * 30000000

theorem trialMonitor_clock (arm : ControlArm) : StrictMono (trialMonitor arm).clock := by
  intro a b hab
  change 90000000 + a * 30000000 < 90000000 + b * 30000000
  omega

def trialCycle (arrivals : List BehavioralEvent) : CycleInput ℚ where
  elsewhere := fun rows => rows ++ arrivals
  sessions := ⟨[]⟩
  consents := []
  draw := 9 / 10
  uniform := fun _ _ => 1
  response := ⟨true, none, []⟩
  outcome := fun _ => .completes

def failingCycle (point : Await) (arrivals : List BehavioralEvent) : CycleInput ℚ :=
  { trialCycle arrivals with outcome := fun p => if p = point then .raisesBefore else .completes }

def repeatedRows : List BehavioralEvent :=
  [checkFailing 200000000 "ospf", checkFailing 210000000 "ospf", checkFailing 220000000 "ospf"]

/-- A change of the regime in a cycle whose delivery fails. -/
def failedDelivery : List (CycleInput ℚ) :=
  [trialCycle stuckRows, failingCycle .intervene repeatedRows, trialCycle []]

theorem spells_are_runs_failedDelivery :
    SpellsAreRuns (failedDelivery.foldl (cycle (trialMonitor .closed))
      (startSession (trialMonitor .closed) {})).journal :=
  spells_are_runs (trialMonitor .closed) {} failedDelivery (by
    have hsample : ∀ io ∈ failedDelivery, io.outcome .sample = .completes := by
      simp [failedDelivery, trialCycle, failingCycle]
    intro before io after heq _ _ _ _ _ _ _
    exact hsample io (by rw [heq]; simp))

/-- The same change in a cycle whose sample is lost. -/
def lostSample : List (CycleInput ℚ) :=
  [trialCycle stuckRows, failingCycle .sample repeatedRows, trialCycle []]

def lateRow : InterventionDecision ℚ where
  id := 2
  sessionId := 0
  userId := "ann"
  labSlug := "vlan"
  spellId := 0
  ts := 330000000
  regime := .repeatingErrors
  dwellSeconds := 60
  tKApplied := 0
  assignment := .withhold
  subsequentExitTs := none

/-- The row carries the spell of the stuck learner and the regime of the repeated error. -/
theorem lost_sample_mixes_spells :
    ¬ ∀ (m : SessionMonitor ℚ) (w : World ℚ) (ios : List (CycleInput ℚ)), StrictMono m.clock →
      SpellsAreRuns (ios.foldl (cycle m) (startSession m w)).journal := by
  intro h
  have hruns := h (trialMonitor .open_) {} lostSample (trialMonitor_clock .open_)
  have hmem : .decided lateRow ∈ (lostSample.foldl (cycle (trialMonitor .open_))
      (startSession (trialMonitor .open_) {})).journal := by
    decide +kernel
  have hopened : .opened 0 0 .repeatingErrors ∉ (lostSample.foldl (cycle (trialMonitor .open_))
      (startSession (trialMonitor .open_) {})).journal := by
    decide +kernel
  exact hopened (hruns.opened hmem)

end OnlinetLabs.Analytics
