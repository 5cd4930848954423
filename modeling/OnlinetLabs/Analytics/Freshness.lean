import OnlinetLabs.Analytics.Spells

/-!
# The age of the window

A monitor loads its window when the newest row of the session is stamped later than its cursor, and
works on the last window it loaded otherwise. The cursor starts at the newest row of the session,
and the last window starts empty. So what a monitor has for known is the rows of the session at its
start, and from its first load on the rows of its last load.
-/

namespace OnlinetLabs.Analytics

open Eff

variable {K : Type}

/-! ### The law -/

def World.found (w : World K) (io : CycleInput K) :
    World K := { w with events := io.elsewhere w.events }

/-- The rows of the session that are no interventions, when the cycle loads its window. -/
def SessionMonitor.present (m : SessionMonitor K) (w : World K) (io : CycleInput K) :
    List BehavioralEvent :=
  analysed (w.found io).events m.sessionId

/-- A cycle that can read the table works on the newest 500 rows, and is skipped only when there are
none. -/
structure SessionMonitor.WorksOnNewest (m : SessionMonitor K) (w : World K)
    (io : CycleInput K) : Prop where
  newest : io.outcome .load = .completes →
    Newest.IsNewest 500 BehavioralEvent.timestamp (m.present w io) (currentEvents m (w.found io))
  skipped : io.outcome .load = .completes → currentEvents m (w.found io) = [] → m.present w io = []

/-! ### The condition -/

/-- Since when a monitor has what it works on. -/
inductive Basis where
  /-- It was started over these rows, and has loaded nothing. -/
  | started (rows : List BehavioralEvent)
  /-- It has loaded its window from these rows. -/
  | loaded (rows : List BehavioralEvent)

variable (m : SessionMonitor K)

def SessionMonitor.known : Basis → List BehavioralEvent
  | .started rows => rows.filter (·.sessionId == m.sessionId)
  | .loaded rows => analysed rows m.sessionId

def SessionMonitor.kept : Basis → List BehavioralEvent
  | .started _ => []
  | .loaded rows => analysisWindow rows m.sessionId

/-- One of the rows is stamped later than all that the monitor has for known. -/
def SessionMonitor.Notices (b : Basis) (rows : List BehavioralEvent) : Prop :=
  ∃ e ∈ analysed rows m.sessionId, ∀ o ∈ m.known b, o.timestamp < e.timestamp

instance (b : Basis) (rows : List BehavioralEvent) : Decidable (m.Notices b rows) :=
  inferInstanceAs (Decidable (∃ e ∈ _, _))

section Law

variable [Field K] [LinearOrder K] [FloorRing K]

def SessionMonitor.follow (s : World K × Basis) (io : CycleInput K) : World K × Basis :=
  (cycle m s.1 io,
    if io.outcome .load = .completes ∧ m.Notices s.2 (s.1.found io).events then
      .loaded (s.1.found io).events
    else s.2)

/-- Where a cycle notices nothing, what the monitor works on is still the newest 500 rows. -/
def SessionMonitor.StaysNewest (s : World K × Basis) (io : CycleInput K) : Prop :=
  io.outcome .load = .completes → ¬ m.Notices s.2 (s.1.found io).events →
    Newest.IsNewest 500 BehavioralEvent.timestamp (m.present s.1 io) (m.kept s.2)

/-- Every cycle of a monitor that is started over the tables works on the newest rows. -/
def SessionMonitor.WindowCurrent (w : World K) (inputs : List (CycleInput K)) : Prop :=
  Everywhere (cycle m) m.WorksOnNewest (startSession m w) inputs

end Law

/-! ### The load -/

variable {m : SessionMonitor K} {w : World K} {io : CycleInput K} {rows : List BehavioralEvent}
  {b : Basis}

/-- The cursor and the last window are what the monitor has for known. -/
structure Follows (m : SessionMonitor K) (w : World K) (b : Basis) : Prop where
  cursor : w.lastEventAt = ((m.known b).map (·.timestamp)).max?
  kept : w.lastEvents = m.kept b

theorem notices_iff {latest : Nat}
    (hmax : ((analysed rows m.sessionId).map (·.timestamp)).max? = some latest) :
    m.Notices b rows ↔ ∀ o ∈ m.known b, o.timestamp < latest := by
  obtain ⟨hmem, hle⟩ := List.max?_eq_some_iff.mp hmax
  constructor
  · rintro ⟨e, he, hlater⟩ o ho
    exact Nat.lt_of_lt_of_le (hlater o ho) (hle _ (List.mem_map_of_mem he))
  · intro hlater
    obtain ⟨e, he, rfl⟩ := List.mem_map.mp hmem
    exact ⟨e, he, hlater⟩

theorem loadNewEvents_known : loadNewEvents rows m.sessionId ((m.known b).map (·.timestamp)).max?
    = if m.Notices b rows then analysisWindow rows m.sessionId else [] := by
  unfold loadNewEvents
  cases hmax : ((analysed rows m.sessionId).map (·.timestamp)).max? with
  | none =>
      rw [List.max?_eq_none_iff, List.map_eq_nil_iff] at hmax
      have hquiet : ¬ m.Notices b rows := by
        rintro ⟨e, he, -⟩
        rw [hmax] at he
        cases he
      rw [if_neg hquiet]
  | some latest =>
      have hpast : (((m.known b).map (·.timestamp)).max?.any (latest ≤ ·)) = true
          ↔ ¬ m.Notices b rows := by
        rw [notices_iff hmax, ← Newest.forall_max?_lt_iff]
        cases ((m.known b).map BehavioralEvent.timestamp).max? <;> simp
      dsimp only
      by_cases hnotices : m.Notices b rows
      · rw [if_pos hnotices, if_neg (mt hpast.mp (not_not_intro hnotices))]
      · rw [if_neg hnotices, if_pos (hpast.mpr hnotices)]

/-- **The window.** -/
theorem isNewest_analysisWindow : Newest.IsNewest 500 BehavioralEvent.timestamp
    (analysed rows m.sessionId) (analysisWindow rows m.sessionId) :=
  Newest.isNewest_take 500 (analysed rows m.sessionId)

theorem analysisWindow_ne_nil (h : m.Notices b rows) : analysisWindow rows m.sessionId ≠ [] := by
  obtain ⟨e, he, -⟩ := h
  intro hnil
  rw [(isNewest_analysisWindow.eq_nil_iff (by decide)).mp hnil] at he
  cases he

/-- **What a cycle works on.** -/
theorem Follows.currentEvents_eq (h : Follows m w b) : currentEvents m w
    = if m.Notices b w.events then analysisWindow w.events m.sessionId else m.kept b := by
  unfold currentEvents
  rw [h.cursor, h.kept, loadNewEvents_known]
  by_cases hnotices : m.Notices b w.events
  · have hsome : (analysisWindow w.events m.sessionId).isEmpty = false :=
      List.isEmpty_eq_false_iff.mpr (analysisWindow_ne_nil hnotices)
    simp [hnotices, hsome]
  · simp [hnotices]

theorem Follows.advance (h : Follows m w b) :
    Follows m (w.advance m) (if m.Notices b w.events then .loaded w.events else b) := by
  unfold World.advance
  rw [h.cursor, loadNewEvents_known]
  by_cases hnotices : m.Notices b w.events
  · rw [if_pos hnotices, if_pos hnotices]
    dsimp only
    obtain ⟨newest, hlast⟩ : ∃ newest,
        (analysisWindow w.events m.sessionId).getLast? = some newest :=
      Option.ne_none_iff_exists'.mp
        (mt List.getLast?_eq_none_iff.mp (analysisWindow_ne_nil hnotices))
    rw [hlast]
    refine ⟨?_, rfl⟩
    rw [SessionMonitor.known, max?_analysed, hlast]
    rfl
  · rw [if_neg hnotices, if_neg hnotices]
    exact ⟨h.cursor, h.kept⟩

theorem follows_start : Follows m (startSession m w) (.started w.events) := ⟨rfl, rfl⟩

/-- **What a cycle owes.** -/
theorem worksOnNewest_iff {s : World K × Basis} (h : Follows m s.1 s.2) :
    m.WorksOnNewest s.1 io ↔ m.StaysNewest s io := by
  have hfound : Follows m (s.1.found io) s.2 := ⟨h.cursor, h.kept⟩
  have heq : currentEvents m (s.1.found io) = if m.Notices s.2 (s.1.found io).events then
      analysisWindow (s.1.found io).events m.sessionId else m.kept s.2 := hfound.currentEvents_eq
  constructor
  · intro hworks hload hquiet
    have hnewest := hworks.newest hload
    rwa [heq, if_neg hquiet] at hnewest
  · intro hstays
    have hnewest : io.outcome .load = .completes → Newest.IsNewest 500 BehavioralEvent.timestamp
        (m.present s.1 io) (currentEvents m (s.1.found io)) := by
      intro hload
      rw [heq]
      split
      · exact isNewest_analysisWindow
      · rename_i hquiet
        exact hstays hload hquiet
    exact ⟨hnewest, fun hload hnil => ((hnewest hload).eq_nil_iff (by decide)).mp hnil⟩

/-! ### The rest of the cycle -/

structure SameWindow (w w' : World K) : Prop where
  lastEventAt : w'.lastEventAt = w.lastEventAt
  lastEvents : w'.lastEvents = w.lastEvents

instance : Std.Refl (SameWindow (K := K)) where
  refl _ := ⟨rfl, rfl⟩

instance : IsTrans (World K) SameWindow where
  trans _ _ _ h h' := ⟨h'.lastEventAt.trans h.lastEventAt, h'.lastEvents.trans h.lastEvents⟩

instance : SideSteps (SameWindow (K := K)) fun _ => True where
  reads _ _ _ := ⟨rfl, rfl⟩
  note _ _ _ := ⟨rfl, rfl⟩
  event _ _ := ⟨rfl, rfl⟩
  withheld _ _ _ := ⟨rfl, rfl⟩
  intervened _ _ := ⟨rfl, rfl⟩
  acted _ _ := ⟨rfl, rfl⟩
  audited _ _ _ := ⟨rfl, rfl⟩

theorem SameWindow.follows {w' : World K} (h : SameWindow w w') (hfollows : Follows m w b) :
    Follows m w' b :=
  ⟨h.lastEventAt.trans hfollows.cursor, h.lastEvents.trans hfollows.kept⟩

variable {regime : ProcessRegime} {dwell tK : K} {now : Nat} {analysis : AnalyticsResult K}
  {features : SessionFeatures K} {events : List BehavioralEvent}

theorem mrtCloseSpell_sameWindow : Within SameWindow (mrtCloseSpell io now : Loop K PUnit) := by
  unfold mrtCloseSpell
  refine within_bind within_get fun w => within_bind (within_modify fun _ => ⟨rfl, rfl⟩) fun _ => ?_
  exact within_when (within_await fun _ => ⟨rfl, rfl⟩)

theorem mrtRecordDecision_sameWindow {spellId : Nat} {assignment : Assignment} :
    Within SameWindow (mrtRecordDecision m io spellId regime dwell tK assignment now) := by
  unfold mrtRecordDecision
  refine within_bind (fun _ => ⟨rfl, rfl⟩) fun id => ?_
  exact within_bind (within_modify fun _ => ⟨rfl, rfl⟩) fun _ => within_await fun _ => ⟨rfl, rfl⟩

theorem escalate_sameWindow [LinearOrder K] : Within SameWindow (escalate m io regime dwell) := by
  intro w
  exact (escalate_spec.mono (fun _ _ ⟨_, _, heq⟩ => heq ▸ ⟨rfl, rfl⟩) fun _ _ h => h.elim).state

section Cycle

variable [Field K]

theorem mrtOpenSpell_sameWindow : Within SameWindow (mrtOpenSpell m io regime) := by
  unfold mrtOpenSpell
  exact within_bind (fun _ => ⟨rfl, rfl⟩) fun _ => within_modify fun _ => ⟨rfl, rfl⟩

theorem logProcessState_sameWindow : Within SameWindow (logProcessState m io analysis now) := by
  unfold logProcessState
  refine within_bind within_get fun w => within_bind (within_modify fun _ => ⟨rfl, rfl⟩) fun _ => ?_
  exact within_bind (within_await fun _ => ⟨rfl, rfl⟩) fun _ => within_pure

variable [LinearOrder K]

theorem mrtTurnSpell_sameWindow : Within SameWindow (mrtTurnSpell m io regime dwell now) := by
  unfold mrtTurnSpell
  refine within_when (within_bind within_get fun w => ?_)
  exact within_bind (within_when mrtCloseSpell_sameWindow) fun _ =>
    within_when mrtOpenSpell_sameWindow

theorem mrtDecisionPoint_sameWindow :
    Within SameWindow (mrtDecisionPoint m io analysis features regime dwell now) := by
  unfold mrtDecisionPoint
  refine within_bind within_get fun w => ?_
  split
  · dsimp only
    split
    · exact within_pure
    · refine within_bind mrtRecordDecision_sameWindow fun _ => ?_
      exact within_bind (logWouldIntervene_frame fun _ => trivial) fun _ => stamp_frame
    · refine within_bind mrtRecordDecision_sameWindow fun _ =>
        within_bind decideIntervention_frame fun pending => ?_
      cases pending with
      | none => exact within_pure
      | some pending =>
          refine within_bind (dispatchIntervention_frame fun _ _ => trivial) fun _ => ?_
          exact within_bind persistIntervention_frame fun _ => stamp_frame
  · exact within_pure

variable [FloorRing K]

theorem runOn_sameWindow : Within SameWindow (runOn m io events) := by
  unfold runOn
  refine within_bind readClock_frame fun computedAt => ?_
  split
  · exact within_throw
  · refine within_bind readClock_frame fun _ => within_bind logProcessState_sameWindow fun _ => ?_
    refine within_bind escalate_sameWindow fun _ => within_bind readClock_frame fun _ =>
      within_ite ?_ ?_
    · exact within_bind mrtTurnSpell_sameWindow fun _ => mrtDecisionPoint_sameWindow
    · exact thresholdStep_frame fun _ _ => trivial

theorem cycle_sameWindow_of_completes (h : io.outcome .load = .completes) :
    SameWindow ((w.found io).advance m) (cycle m w io) := by
  have hends : Ends (runAnalysis m io) (w.found io) (fun _ => SameWindow ((w.found io).advance m))
      fun _ => SameWindow ((w.found io).advance m) := by
    unfold runAnalysis
    rw [await_of_completes h, ends_bind, ends_modify, ends_bind, ends_get]
    dsimp only
    rw [ends_bind, ends_modify]
    exact (within_when runOn_sameWindow).ends _
  exact hends.state

theorem cycle_sameWindow_of_fails (h : io.outcome .load ≠ .completes) :
    SameWindow w (cycle m w io) := by
  have hends : Ends (runAnalysis m io) (w.found io) (fun _ => SameWindow w) fun _ =>
      SameWindow w := by
    unfold runAnalysis
    rw [ends_bind]
    exact ends_await (fun hcompletes => absurd hcompletes h) fun _ => ⟨⟨rfl, rfl⟩, ⟨rfl, rfl⟩⟩
  exact hends.state

/-! ### All runs -/

theorem follows_follow {s : World K × Basis} (h : Follows m s.1 s.2) :
    Follows m (m.follow s io).1 (m.follow s io).2 := by
  unfold SessionMonitor.follow
  dsimp only
  by_cases hload : io.outcome .load = .completes
  · have hfound : Follows m (s.1.found io) s.2 := ⟨h.cursor, h.kept⟩
    simp only [hload, true_and]
    exact (cycle_sameWindow_of_completes hload).follows hfound.advance
  · simp only [hload, false_and, if_false]
    exact (cycle_sameWindow_of_fails hload).follows h

/-- **When the window is current**: exactly where in every cycle a row is stamped later than all
that the monitor has for known, or what it has from its last load is still the newest 500 rows. -/
theorem window_current_iff (m : SessionMonitor K) (w : World K) (inputs : List (CycleInput K)) :
    m.WindowCurrent w inputs
      ↔ Everywhere m.follow m.StaysNewest (startSession m w, .started w.events) inputs := by
  have hworld : m.WindowCurrent w inputs ↔ Everywhere m.follow (fun s io => m.WorksOnNewest s.1 io)
      (startSession m w, .started w.events) inputs :=
    everywhere_map (f := Prod.fst) (t := (startSession m w, Basis.started w.events)) fun _ _ => rfl
  rw [hworld]
  exact everywhere_congr (fun s => Follows m s.1 s.2) follows_start (fun _ _ h => follows_follow h)
    fun _ _ h => worksOnNewest_iff h

end Cycle

/-- **A restart is blind.** A monitor is started where a check has failed three times. Its first
cycle is skipped. -/
theorem restart_skips : ¬ (trialMonitor .closed).WindowCurrent { events := stuckRows }
    [trialCycle []] := by
  intro h
  have hworks := h [] (trialCycle []) [] rfl
  have hskipped := hworks.skipped rfl (by decide +kernel)
  revert hskipped
  decide +kernel

end OnlinetLabs.Analytics
