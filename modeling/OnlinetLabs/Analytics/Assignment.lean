import OnlinetLabs.Analytics.Spells

/-!
# The assignment is the treatment

Under the trial a decision is recorded before it is carried out, and carrying it out asks for the
struggle and the cooldown again, by a later reading of the clock. While no await fails the second
answer is the first: a bad regime comes from a detected struggle, and a cooldown that has elapsed
stays elapsed. So every row is followed by what it says, and `_last_intervention_at` ends the cycle
at the time of the row. That is the invariant by which two rows are a cooldown apart:
`assignment_is_treatment`.
-/

namespace OnlinetLabs.Analytics

open Eff

variable {K : Type}

def Entry.row? : Entry K → Option (InterventionDecision K)
  | .decided row => some row
  | .observed _ | .opened _ _ _ | .withheld _ | .authorized _ _ | .intervened _
  | .ungrounded _ | .sent
  | .audited _ => none

/-- A decision, or one of the two ways to carry it out. -/
def Entry.ofAssignment : Entry K → Prop
  | .decided _ | .withheld _ | .intervened _ => True
  | .observed _ | .opened _ _ _ | .authorized _ _ | .ungrounded _ | .sent | .audited _ => False

def added (w w' : World K) : List (Entry K) := w'.journal.drop w.journal.length

theorem added_eq {w w' : World K} {entries : List (Entry K)}
    (h : w'.journal = w.journal ++ entries) : added w w' = entries := by
  unfold added
  rw [h, List.drop_left]

def Completes (io : CycleInput K) : Prop := ∀ point, io.outcome point = .completes

section Parts

variable {m : SessionMonitor K} {io : CycleInput K} {w w' : World K} {analysis : AnalyticsResult K}
  {pending : PendingIntervention K}

theorem logWouldIntervene_completes (h : Completes io) {reason : String} :
    Ends (logWouldIntervene m io analysis reason) w
      (fun _ w' => ∃ row, SpellFrame (fun e => e = .withheld row) w w' ∧
        w'.journal = w.journal ++ [.withheld row]) fun _ _ => False := by
  unfold logWouldIntervene
  simp only [await_of_completes (h _), ends_attempt, ends_bind, ends_readClock, ends_modify]
  exact ⟨_, ⟨rfl, rfl, rfl, rfl, by simp, emits_one rfl rfl⟩, rfl⟩

theorem persistIntervention_completes (h : Completes io) :
    Ends (persistIntervention m io pending) w
      (fun _ w' => SpellFrame (fun _ => False) w w') fun _ _ => False := by
  unfold persistIntervention
  simp only [await_of_completes (h _), ends_attempt, ends_bind, ends_readClock, ends_modify, id]
  exact ⟨rfl, rfl, rfl, rfl, by simp, emits_nothing rfl⟩

theorem maybeGroundingAblation_completes (h : Completes io) :
    Ends (maybeGroundingAblation m io pending) w
      (fun _ w' => SpellFrame (fun e => ¬ e.ofAssignment) w w') fun _ _ => False := by
  unfold maybeGroundingAblation
  simp only [await_of_completes (h _), ends_attempt, ends_bind, ends_modify, ends_when, id]
  exact ⟨fun _ => ⟨rfl, rfl, rfl, rfl, le_rfl, emits_one rfl fun h => h⟩,
    fun _ => ⟨rfl, rfl, rfl, rfl, le_rfl, emits_nothing rfl⟩⟩

/-- A delivery is one call of the agent, and what follows from it. -/
theorem dispatchIntervention_completes (h : Completes io) :
    Ends (dispatchIntervention m io pending) w
      (fun _ w' => SpellFrame (fun e => ¬ e.ofAssignment) (w.note (.intervened pending.payload)) w')
      fun _ _ => False := by
  unfold dispatchIntervention
  simp only [await_of_completes (h _), ends_bind, ends_readClock, ends_modify, ends_when, id]
  have htail (w' : World K)
      (hw' : SpellFrame (fun e => ¬ e.ofAssignment) (w.note (.intervened pending.payload)) w') :
      Ends (maybeGroundingAblation m io pending) w'
        (fun _ w'' => SpellFrame (fun e => ¬ e.ofAssignment)
          (w.note (.intervened pending.payload)) w'') fun _ _ => False :=
    (maybeGroundingAblation_completes h).mono (fun _ _ hw => IsTrans.trans _ _ _ hw' hw)
      fun _ _ hfalse => hfalse
  refine ⟨fun _ => htail _ ?_, fun _ => htail _ ?_⟩
  · exact ⟨rfl, rfl, rfl, rfl, by simp [World.note], emits_one rfl fun h => h⟩
  · exact ⟨rfl, rfl, rfl, rfl, by simp [World.note], emits_nothing rfl⟩

variable [Field K] [LinearOrder K] [IsStrictOrderedRing K] {features : SessionFeatures K} {n : Nat}

/-- The second look at the cooldown agrees with the first. -/
theorem shouldTriggerIntervention_returns (hclock : StrictMono m.clock)
    (henabled : m.cfg.enabled = true) (hn : n < w.reads)
    (hcooled : coolingDown m.cfg w.lastInterventionAt (m.clock n) = false) :
    Ends (shouldTriggerIntervention m) w
      (fun ready w' => ready = true ∧ ∃ reads, w.reads ≤ reads ∧ w' = { w with reads := reads })
      fun _ _ => False := by
  unfold shouldTriggerIntervention
  rw [ends_bind, ends_get, henabled]
  split
  · contradiction
  · split
    · exact ⟨rfl, w.reads, le_rfl, rfl⟩
    · rw [ends_bind, ends_readClock]
      refine ⟨?_, w.reads + 1, Nat.le_succ _, rfl⟩
      rw [coolingDown_later hcooled (hclock hn).le]
      rfl

theorem decideIntervention_returns (h : Completes io) (hclock : StrictMono m.clock)
    (hstruggle : analysis.struggleDetected = true) (henabled : m.cfg.enabled = true)
    (hn : n < w.reads) (hcooled : coolingDown m.cfg w.lastInterventionAt (m.clock n) = false) :
    Ends (decideIntervention m io analysis features) w
      (fun pending w' => pending.isSome = true ∧
        ∃ reads, w.reads ≤ reads ∧ w' = { w with reads := reads }) fun _ _ => False := by
  unfold decideIntervention
  rw [hstruggle]
  split
  · contradiction
  · refine Ends.bind (shouldTriggerIntervention_returns hclock henabled hn hcooled)
      fun ready w' hready => ?_
    obtain ⟨rfl, hw'⟩ := hready
    simp only [await_of_completes (h _)]
    exact ⟨rfl, hw'⟩

/-! ### The decision point -/

/-- A decision point that was not skipped, from its row to the end of the cycle. -/
structure CarriedOut (m : SessionMonitor K) (regime : ProcessRegime) (now : Nat)
    (row : InterventionDecision K) (rest : List (Entry K)) (w w' : World K) : Prop where
  journal : w'.journal = w.journal ++ .decided row :: rest
  regime : row.regime = regime
  ts : row.ts = now
  eligible : Eligible row.regime row.dwellSeconds row.tKApplied w.lastInterventionAt m.cfg now
  spellId : w'.spellId = some row.spellId
  spellTK : w'.spellTK = some row.tKApplied
  last : w'.lastInterventionAt = some now
  reads : w.reads ≤ w'.reads
  carried : (row.assignment = .withhold ∧ ∃ event, rest = [.withheld event]) ∨
    (row.assignment = .intervene ∧ m.controlArm = .closed ∧ ∃ payload tail,
      rest = .intervened payload :: tail ∧ ∀ e ∈ tail, ¬ e.ofAssignment)

omit [Field K] [LinearOrder K] [IsStrictOrderedRing K] in
theorem mrtRecordDecision_completes (h : Completes io) {spellId : Nat} {regime : ProcessRegime}
    {dwell tK : K} {assignment : Assignment} {now : Nat} :
    Ends (mrtRecordDecision m io spellId regime dwell tK assignment now) w
      (fun _ w' => ∃ id uuids ids decisions, w' = { w with
        uuids := uuids
        openDecisionIds := ids
        decisions := decisions
        journal := w.journal ++
          [.decided (decisionRow m id spellId regime dwell tK assignment now)] })
      fun _ _ => False := by
  unfold mrtRecordDecision
  simp only [await_of_completes (h _), ends_bind, ends_uuid4, ends_modify]
  exact ⟨w.uuids, w.uuids + 1, _, _, rfl⟩

theorem mrtDecisionPoint_completes {regime : ProcessRegime} {dwell : K} (h : Completes io)
    (hclock : StrictMono m.clock)
    (hstruggle : isBad regime = true → analysis.struggleDetected = true) (hn : n < w.reads) :
    Ends (mrtDecisionPoint m io analysis features regime dwell (m.clock n)) w
      (fun _ w' => w' = w ∨ ∃ row rest, CarriedOut m regime (m.clock n) row rest w w')
      fun _ _ => False := by
  unfold mrtDecisionPoint
  rw [ends_bind, ends_get]
  split
  · rename_i spellId tK hid htk
    dsimp only
    split
    · exact Or.inl rfl
    · rename_i haction
      have heligible := eligible_of_not_skip (by rw [haction]; decide)
      refine Ends.bind (mrtRecordDecision_completes h) fun _ w₁ hw₁ => ?_
      obtain ⟨id, uuids, ids, decisions, rfl⟩ := hw₁
      refine Ends.bind (logWouldIntervene_completes h) fun _ w₂ hw₂ => ?_
      obtain ⟨event, hframe, hjournal⟩ := hw₂
      refine ends_modify.mpr
        (Or.inr ⟨decisionRow m id spellId regime dwell tK .withhold (m.clock n), [.withheld event],
          ?_, rfl, rfl, heligible,
        ?_, ?_, rfl, hframe.reads, Or.inl ⟨rfl, event, rfl⟩⟩)
      · change w₂.journal = _
        rw [hjournal, List.append_assoc]
        rfl
      · exact hframe.spellId.trans hid
      · exact hframe.spellTK.trans htk
    · rename_i haction
      have heligible := eligible_of_not_skip (by rw [haction]; decide)
      have hclosed := arm_of_intervene haction
      refine Ends.bind (mrtRecordDecision_completes h) fun _ w₁ hw₁ => ?_
      obtain ⟨id, uuids, ids, decisions, rfl⟩ := hw₁
      refine Ends.bind (decideIntervention_returns h hclock (hstruggle heligible.bad)
        heligible.enabled hn heligible.cooled) fun pending w₂ hw₂ => ?_
      obtain ⟨hsome, reads, hreads, rfl⟩ := hw₂
      obtain ⟨pending, rfl⟩ := Option.isSome_iff_exists.mp hsome
      refine Ends.bind (dispatchIntervention_completes h) fun _ w₃ hw₃ => ?_
      refine Ends.bind (persistIntervention_completes h) fun _ w₄ hw₄ => ?_
      obtain ⟨tail, hjournal, htail⟩ := hw₃.emits
      obtain ⟨nothing, hjournal', hnothing⟩ := hw₄.emits
      obtain rfl := List.eq_nil_iff_forall_not_mem.mpr hnothing
      refine ends_modify.mpr
        (Or.inr ⟨decisionRow m id spellId regime dwell tK .intervene (m.clock n),
          .intervened pending.payload :: tail, ?_, rfl, rfl, heligible, ?_, ?_, rfl,
        hreads.trans (hw₃.reads.trans hw₄.reads),
        Or.inr ⟨rfl, hclosed, pending.payload, tail, rfl, htail⟩⟩)
      · change w₄.journal = _
        rw [hjournal', hjournal]
        simp [World.note]
      · exact hw₄.spellId.trans (hw₃.spellId.trans hid)
      · exact hw₄.spellTK.trans (hw₃.spellTK.trans htk)
  · exact Or.inl rfl

/-! ### The cycle up to there -/

structure Prelude (w w' : World K) : Prop where
  emits : Emits (fun e => ¬ e.ofAssignment) w w'
  last : w'.lastInterventionAt = w.lastInterventionAt
  reads : w.reads ≤ w'.reads

omit [Field K] [LinearOrder K] [IsStrictOrderedRing K] in
theorem Prelude.trans {w'' : World K} (h : Prelude w w') (h' : Prelude w' w'') : Prelude w w'' :=
  ⟨h.emits.trans h'.emits, h'.last.trans h.last, h.reads.trans h'.reads⟩

omit [IsStrictOrderedRing K] in
theorem mrtTurnSpell_completes {regime : ProcessRegime} {dwell : K} {now : Nat} (h : Completes io) :
    Ends (mrtTurnSpell m io regime dwell now) w (fun _ w' => Prelude w w') fun _ _ => False := by
  have hopen (w₁ : World K) (h₁ : Prelude w w₁) :
      (isBad regime = true → Ends (mrtOpenSpell m io regime) w₁ (fun _ w' => Prelude w w')
        fun _ _ => False) ∧ (isBad regime = false → Prelude w w₁) := by
    refine ⟨fun _ => h₁.trans ⟨emits_one rfl fun h => h, rfl, le_rfl⟩, fun _ => h₁⟩
  unfold mrtTurnSpell mrtCloseSpell
  simp only [await_of_completes (h _), ends_bind, ends_get, ends_modify, ends_when]
  have hsame (w₁ : World K) (hj : w₁.journal = w.journal)
      (hl : w₁.lastInterventionAt = w.lastInterventionAt) (hr : w₁.reads = w.reads) :
      Prelude w w₁ := ⟨emits_nothing hj, hl, hr.ge⟩
  refine ⟨fun _ => ⟨fun _ => ⟨fun _ => hopen _ (hsame _ rfl rfl rfl),
    fun _ => hopen _ (hsame _ rfl rfl rfl)⟩, fun _ => hopen _ (hsame _ rfl rfl rfl)⟩,
    fun _ => hsame _ rfl rfl rfl⟩

omit [LinearOrder K] [IsStrictOrderedRing K] in
theorem logProcessState_completes {now : Nat} (h : Completes io) :
    Ends (logProcessState m io analysis now) w
      (fun result w' => result.1 = analysisToRegime analysis ∧
        Prelude { w with journal := w.journal ++ [.observed result.1] } w') fun _ _ => False := by
  unfold logProcessState
  simp only [await_of_completes (h _), ends_bind, ends_get, ends_modify, ends_pure]
  exact ⟨trivial, emits_nothing rfl, rfl, le_rfl⟩

variable [FloorRing K]

/-- A cycle ends before a decision, or takes one in the regime it observed and carries it out. -/
def CycleEnds (m : SessionMonitor K) (w w' : World K) : Prop :=
  ∃ w₁, Prelude w w₁ ∧ (w' = w₁ ∨ ∃ regime n row rest, w.reads ≤ n ∧ n < w₁.reads ∧
    .observed regime ∈ added w w₁ ∧ CarriedOut m regime (m.clock n) row rest w₁ w')

theorem runOn_completes {events : List BehavioralEvent} (h : Completes io)
    (hclock : StrictMono m.clock) (hmrt : m.cfg.mrtEnabled = true) :
    Ends (runOn m io events) w (fun _ => CycleEnds m w) fun _ => CycleEnds m w := by
  have hread (w₁ : World K) : Prelude w₁ { w₁ with reads := w₁.reads + 1 } :=
    ⟨emits_nothing rfl, rfl, Nat.le_succ _⟩
  unfold runOn
  rw [ends_bind, ends_readClock]
  split
  · exact ⟨_, hread w, Or.inl rfl⟩
  · rename_i features analysis hassess
    rw [ends_bind, ends_readClock]
    refine Ends.bind ((logProcessState_completes h).mono (fun _ _ hq => hq)
      fun _ _ hfalse => hfalse.elim) fun result w₂ hw₂ => ?_
    obtain ⟨regime, dwell⟩ := result
    obtain ⟨rfl, hw₂⟩ := hw₂
    refine Ends.bind (escalate_spec.mono (fun _ _ hq => hq) fun _ _ hfalse => hfalse.elim)
      fun _ w₃ hw₃ => ?_
    obtain ⟨flag, events', rfl⟩ := hw₃
    obtain ⟨reads, hreads⟩ : ∃ reads, reads = w₂.reads +
        (escalates m (analysisToRegime analysis) dwell w₂.escalatedInSpell).toNat := ⟨_, rfl⟩
    rw [← hreads]
    rw [ends_bind, ends_readClock, if_pos hmrt]
    refine Ends.bind ((mrtTurnSpell_completes h).mono (fun _ _ hq => hq)
      fun _ _ hfalse => hfalse.elim) fun _ w₄ hw₄ => ?_
    obtain ⟨added₂, hj₂, hadded₂⟩ := hw₂.emits
    obtain ⟨added₄, hj₄, hadded₄⟩ := hw₄.emits
    have hjournal : w₄.journal
        = w.journal ++ (.observed (analysisToRegime analysis) :: added₂ ++ added₄) := by
      rw [hj₄]
      change w₂.journal ++ added₄ = _
      rw [hj₂]
      simp
    have hprelude : Prelude w w₄ := by
      refine ⟨⟨_, hjournal, ?_⟩, hw₄.last.trans hw₂.last, ?_⟩
      · intro e hmem
        simp only [List.mem_append, List.mem_cons] at hmem
        rcases hmem with (rfl | hmem) | hmem
        · exact fun h => h
        · exact hadded₂ e hmem
        · exact hadded₄ e hmem
      · have h₂ := hw₂.reads
        have h₄ := hw₄.reads
        dsimp only at h₂ h₄
        omega
    refine (mrtDecisionPoint_completes h hclock struggleDetected_of_isBad
      (hw₄.reads.trans_lt' (Nat.lt_succ_self reads))).mono (fun _ w' hw' => ⟨w₄, hprelude, ?_⟩)
      fun _ _ hfalse => hfalse.elim
    rcases hw' with rfl | ⟨row, rest, hcarried⟩
    · exact Or.inl rfl
    · refine Or.inr ⟨_, reads, row, rest, ?_, hw₄.reads, ?_, hcarried⟩
      · have h₂ := hw₂.reads
        dsimp only at h₂
        omega
      · rw [added_eq hjournal]
        simp

theorem cycle_completes (h : Completes io) (hclock : StrictMono m.clock)
    (hmrt : m.cfg.mrtEnabled = true) : CycleEnds m w (cycle m w io) := by
  have hends : Ends (runAnalysis m io) { w with events := io.elsewhere w.events }
      (fun _ => CycleEnds m w) fun _ => CycleEnds m w := by
    unfold runAnalysis
    simp only [await_of_completes (h _), ends_bind, ends_get, ends_modify, ends_when, id]
    obtain ⟨lastEventAt, lastEvents, hadvance⟩ :=
      advance_eq (m := m) (w := { w with events := io.elsewhere w.events })
    rw [hadvance]
    have hfrom {w' : World K} (hw' : CycleEnds m { w with
        events := io.elsewhere w.events
        lastEventAt := lastEventAt, lastEvents := lastEvents } w') :
        CycleEnds m w w' := by
      obtain ⟨w₁, hprelude, hend⟩ := hw'
      exact ⟨w₁, ⟨hprelude.emits, hprelude.last, hprelude.reads⟩, hend⟩
    exact ⟨fun _ => (runOn_completes h hclock hmrt).mono (fun _ _ => hfrom) fun _ _ => hfrom,
      fun _ => hfrom ⟨_, ⟨emits_nothing rfl, rfl, le_rfl⟩, Or.inl rfl⟩⟩
  exact hends.state

/-! ### Every cycle, and any two rows -/

omit [Field K] [LinearOrder K] [IsStrictOrderedRing K] [FloorRing K] in
theorem filterMap_row_eq_nil {entries : List (Entry K)} (h : ∀ e ∈ entries, ¬ e.ofAssignment) :
    entries.filterMap Entry.row? = [] := by
  rw [List.filterMap_eq_nil_iff]
  intro e hmem
  have := h e hmem
  cases e <;> first | rfl | exact absurd trivial this

omit [IsStrictOrderedRing K] [FloorRing K] in
/-- The one row of a cycle that decides. -/
theorem CarriedOut.filterMap_row {regime : ProcessRegime} {now : Nat}
    {row : InterventionDecision K} {entries rest : List (Entry K)}
    (h : CarriedOut m regime now row rest w w') (hentries : ∀ e ∈ entries, ¬ e.ofAssignment) :
    (entries ++ .decided row :: rest).filterMap Entry.row? = [row] := by
  have hrest : rest.filterMap Entry.row? = [] := by
    rcases h.carried with ⟨-, event, rfl⟩ | ⟨-, -, payload, tail, rfl, htail⟩
    · rfl
    · exact (List.filterMap_cons_none rfl).trans (filterMap_row_eq_nil htail)
  calc (entries ++ .decided row :: rest).filterMap Entry.row?
      = entries.filterMap Entry.row? ++ row :: rest.filterMap Entry.row? := by
        rw [List.filterMap_append]
        rfl
    _ = [row] := by rw [filterMap_row_eq_nil hentries, hrest, List.nil_append]

/-- What the cycle records is what it does. -/
structure AssignsAsTreats (m : SessionMonitor K) (w : World K) (io : CycleInput K) : Prop where
  once : ((added w (cycle m w io)).filterMap Entry.row?).length ≤ 1
  eligible : ∀ row, .decided row ∈ added w (cycle m w io) →
    .observed row.regime ∈ added w (cycle m w io) ∧
      Eligible row.regime row.dwellSeconds row.tKApplied w.lastInterventionAt m.cfg row.ts ∧
      (cycle m w io).spellId = some row.spellId ∧ (cycle m w io).spellTK = some row.tKApplied
  intervenes : (∃ row, .decided row ∈ added w (cycle m w io) ∧ row.assignment = .intervene) ↔
    ∃ payload, .intervened payload ∈ added w (cycle m w io)
  withholds : (∃ row, .decided row ∈ added w (cycle m w io) ∧ row.assignment = .withhold) ↔
    ∃ event, .withheld event ∈ added w (cycle m w io)
  openArm : m.controlArm = .open_ →
    ∀ row, .decided row ∈ added w (cycle m w io) → row.assignment ≠ .intervene

theorem assignsAsTreats_of_completes (h : Completes io) (hclock : StrictMono m.clock)
    (hmrt : m.cfg.mrtEnabled = true) : AssignsAsTreats m w io := by
  obtain ⟨w₁, hprelude, hend⟩ := cycle_completes (w := w) h hclock hmrt
  obtain ⟨entries, hjournal, hentries⟩ := hprelude.emits
  have hno (e : Entry K) (he : e.ofAssignment) : e ∉ entries := fun hmem => hentries e hmem he
  rcases hend with heq | ⟨regime, n, row, rest, -, -, hobserved, hcarried⟩
  · have hadded : added w (cycle m w io) = entries := added_eq (heq ▸ hjournal)
    constructor
    · rw [hadded, filterMap_row_eq_nil hentries]
      exact Nat.zero_le 1
    all_goals rw [hadded]
    · exact fun row hmem => absurd hmem (hno _ trivial)
    · exact ⟨fun ⟨row, hmem, _⟩ => absurd hmem (hno _ trivial),
        fun ⟨payload, hmem⟩ => absurd hmem (hno _ trivial)⟩
    · exact ⟨fun ⟨row, hmem, _⟩ => absurd hmem (hno _ trivial),
        fun ⟨event, hmem⟩ => absurd hmem (hno _ trivial)⟩
    · exact fun _ row hmem => absurd hmem (hno _ trivial)
  · have hadded : added w (cycle m w io) = entries ++ .decided row :: rest := by
      refine added_eq ?_
      rw [hcarried.journal, hjournal, List.append_assoc]
    have hrow (row' : InterventionDecision K) (hmem : .decided row' ∈ added w (cycle m w io)) :
        row' = row := by
      have hmem' : row' ∈ (added w (cycle m w io)).filterMap Entry.row? :=
        List.mem_filterMap.mpr ⟨_, hmem, rfl⟩
      rw [hadded, hcarried.filterMap_row hentries] at hmem'
      exact List.mem_singleton.mp hmem'
    have hmemRow : .decided row ∈ added w (cycle m w io) := by
      rw [hadded]
      simp
    have hintervened (payload : InterventionInput) :
        .intervened payload ∈ added w (cycle m w io) ↔ .intervened payload ∈ rest := by
      rw [hadded]
      simp [hno (.intervened payload) trivial]
    have hwithheld (event : BehavioralEvent) :
        .withheld event ∈ added w (cycle m w io) ↔ .withheld event ∈ rest := by
      rw [hadded]
      simp [hno (.withheld event) trivial]
    refine ⟨?_, fun row' hmem => ?_, ?_, ?_, fun hopen row' hmem => ?_⟩
    · rw [hadded, hcarried.filterMap_row hentries]
      exact le_rfl
    · obtain rfl := hrow row' hmem
      refine ⟨?_, ?_, hcarried.spellId, hcarried.spellTK⟩
      · rw [added_eq hjournal] at hobserved
        rw [hadded, hcarried.regime]
        exact List.mem_append_left _ hobserved
      · rw [hcarried.ts, ← hprelude.last]
        exact hcarried.eligible
    · constructor
      · rintro ⟨row', hmem, hassignment⟩
        obtain rfl := hrow row' hmem
        rcases hcarried.carried with ⟨hwithhold, -⟩ | ⟨-, -, payload, tail, rfl, -⟩
        · rw [hwithhold] at hassignment
          exact nomatch hassignment
        · exact ⟨payload, (hintervened payload).mpr (by simp)⟩
      · rintro ⟨payload, hmem⟩
        rw [hintervened] at hmem
        rcases hcarried.carried with ⟨-, event, rfl⟩ | ⟨hintervene, -⟩
        · simp at hmem
        · exact ⟨row, hmemRow, hintervene⟩
    · constructor
      · rintro ⟨row', hmem, hassignment⟩
        obtain rfl := hrow row' hmem
        rcases hcarried.carried with ⟨-, event, rfl⟩ | ⟨hintervene, -⟩
        · exact ⟨event, (hwithheld event).mpr (by simp)⟩
        · rw [hintervene] at hassignment
          exact nomatch hassignment
      · rintro ⟨event, hmem⟩
        rw [hwithheld] at hmem
        rcases hcarried.carried with ⟨hwithhold, -⟩ | ⟨-, -, payload, tail, rfl, htail⟩
        · exact ⟨row, hmemRow, hwithhold⟩
        · rcases List.mem_cons.mp hmem with heq | hmem
          · exact nomatch heq
          · exact absurd trivial (htail _ hmem)
    · obtain rfl := hrow row' hmem
      rcases hcarried.carried with ⟨hwithhold, -⟩ | ⟨-, hclosed, -⟩
      · rw [hwithhold]
        decide
      · rw [hclosed] at hopen
        exact nomatch hopen

def rowsOf (journal : List (Entry K)) : List (InterventionDecision K) :=
  journal.filterMap Entry.row?

/-- The rows are a cooldown apart, and none is later than the last intervention. -/
structure Paced (m : SessionMonitor K) (w : World K) : Prop where
  apart : (rowsOf w.journal).Pairwise fun row row' =>
    m.cfg.cooldownPeriod ≤ seconds row'.ts row.ts
  last : ∀ row ∈ rowsOf w.journal, ∃ instant, w.lastInterventionAt = some instant ∧
    row.ts ≤ instant
  past : ∀ instant, w.lastInterventionAt = some instant → ∃ n < w.reads, m.clock n = instant

theorem cycle_paced (h : Completes io) (hclock : StrictMono m.clock)
    (hmrt : m.cfg.mrtEnabled = true) (hw : Paced m w) : Paced m (cycle m w io) := by
  obtain ⟨w₁, hprelude, hend⟩ := cycle_completes (w := w) h hclock hmrt
  obtain ⟨entries, hjournal, hentries⟩ := hprelude.emits
  have hpast (instant : Nat) (hlast : w₁.lastInterventionAt = some instant) :
      ∃ n < w.reads, m.clock n = instant := hw.past instant (hprelude.last ▸ hlast)
  rcases hend with heq | ⟨regime, n, row, rest, hn, hn', -, hcarried⟩
  · have hrows : rowsOf w₁.journal = rowsOf w.journal := by
      unfold rowsOf
      rw [hjournal, List.filterMap_append, filterMap_row_eq_nil hentries, List.append_nil]
    rw [heq]
    refine ⟨hrows ▸ hw.apart, ?_, fun instant hlast => ?_⟩
    · rw [hrows, hprelude.last]
      exact hw.last
    · obtain ⟨k, hk, rfl⟩ := hpast instant hlast
      exact ⟨k, hk.trans_le hprelude.reads, rfl⟩
  · have hrows : rowsOf (cycle m w io).journal = rowsOf w.journal ++ [row] := by
      unfold rowsOf
      rw [hcarried.journal, hjournal, List.append_assoc, List.filterMap_append,
        hcarried.filterMap_row hentries]
    have hbefore (row' : InterventionDecision K) (hmem : row' ∈ rowsOf w.journal) :
        m.cfg.cooldownPeriod ≤ seconds row.ts row'.ts ∧ row'.ts ≤ row.ts := by
      obtain ⟨instant, hlast, hle⟩ := hw.last row' hmem
      rw [← hprelude.last] at hlast
      obtain ⟨k, hk, rfl⟩ := hpast instant hlast
      rw [hcarried.ts]
      exact ⟨cooldown_le_of_not_coolingDown hcarried.eligible.cooled hlast hle,
        hle.trans (hclock (hk.trans_le hn)).le⟩
    refine ⟨?_, fun row' hmem => ⟨m.clock n, hcarried.last, ?_⟩, fun instant hlast => ?_⟩
    · rw [hrows]
      refine List.pairwise_append.mpr ⟨hw.apart, List.pairwise_singleton _ _, ?_⟩
      intro row' hmem row'' hmem'
      rw [List.mem_singleton.mp hmem']
      exact (hbefore row' hmem).1
    · rw [hrows] at hmem
      rcases List.mem_append.mp hmem with hmem | hmem
      · exact hcarried.ts ▸ (hbefore row' hmem).2
      · rw [List.mem_singleton.mp hmem, hcarried.ts]
    · rw [hcarried.last] at hlast
      cases hlast
      exact ⟨n, hn'.trans_le hcarried.reads, rfl⟩

/-- **The assignment is the treatment**, and the rows of a session are a cooldown apart. -/
theorem assignment_is_treatment (m : SessionMonitor K) (w : World K) (ios : List (CycleInput K))
    (hmrt : m.cfg.mrtEnabled = true) (hclock : StrictMono m.clock)
    (hios : ∀ io ∈ ios, Completes io) :
    Everywhere (cycle m) (AssignsAsTreats m) (startSession m w) ios ∧
      (rowsOf (ios.foldl (cycle m) (startSession m w)).journal).Pairwise fun row row' =>
        m.cfg.cooldownPeriod ≤ seconds row'.ts row.ts := by
  have hcompletes : Everywhere (cycle m) (fun _ io => Completes io) (startSession m w) ios := by
    intro before io after heq
    exact hios io (by rw [heq]; simp)
  refine ⟨hcompletes.mono fun w io h => assignsAsTreats_of_completes h hclock hmrt, ?_⟩
  have hinit : Paced m (startSession m w) := by
    exact ⟨List.Pairwise.nil, fun row hmem => (nomatch hmem), fun instant hlast => nomatch hlast⟩
  exact (hcompletes.foldl (Paced m) hinit fun w io hw h => cycle_paced h hclock hmrt hw).apart

end Parts

/-- Two decisions of the trial, and what is left of them. -/
theorem assignment_is_treatment_twoDecisions :
    (Everywhere (cycle (trialMonitor .closed)) (AssignsAsTreats (trialMonitor .closed))
        (startSession (trialMonitor .closed) {}) [trialCycle stuckRows, trialCycle []] ∧
      (rowsOf ([trialCycle stuckRows, trialCycle []].foldl (cycle (trialMonitor .closed))
        (startSession (trialMonitor .closed) {})).journal).Pairwise fun row row' =>
          (trialMonitor .closed).cfg.cooldownPeriod ≤ seconds row'.ts row.ts) ∧
    (rowsOf ([trialCycle stuckRows, trialCycle []].foldl (cycle (trialMonitor .closed))
      (startSession (trialMonitor .closed) {})).journal).map (·.assignment)
        = [.intervene, .intervene] :=
  ⟨assignment_is_treatment (trialMonitor .closed) {} [trialCycle stuckRows, trialCycle []] rfl
    (trialMonitor_clock .closed) (by simp [Completes, trialCycle]), by decide +kernel⟩

end OnlinetLabs.Analytics
