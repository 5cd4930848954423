import OnlinetLabs.Analytics.Monitor

/-!
# What the parts of a cycle leave alone

Most of a cycle neither observes a regime nor touches the spell. `SpellFrame p` says so of a part,
and that the entries it adds to the journal are among `p`. It holds of a part whether it returns or
raises, so it needs no case for each await.

The parts outside the spell are gone through once, for any relation that tolerates the few updates
they are made of: `SideSteps`.
-/

namespace OnlinetLabs.Analytics

open Eff

variable {K : Type} {p q : Entry K → Prop}

/-! ### Entries of the journal -/

def Entry.ofSpell : Entry K → Prop
  | .observed _ | .opened _ _ _ | .decided _ => True
  | .withheld _ | .authorized _ _ | .intervened _ | .ungrounded _ | .sent | .audited _ => False

def Entry.ofDelivery : Entry K → Prop
  | .intervened _ | .ungrounded _ | .sent => True
  | .observed _ | .opened _ _ _ | .decided _ | .withheld _ | .authorized _ _ | .audited _ => False

def Entry.ofInterface : Entry K → Prop
  | .authorized _ _ | .audited _ => True
  | .observed _ | .opened _ _ _ | .decided _ | .withheld _ | .intervened _
  | .ungrounded _ | .sent =>
      False

/-- The step adds to the journal, and only entries in `p`. -/
def Emits (p : Entry K → Prop) (w w' : World K) : Prop :=
  ∃ added, w'.journal = w.journal ++ added ∧ ∀ e ∈ added, p e

theorem emits_nothing {w w' : World K} (h : w'.journal = w.journal) : Emits p w w' :=
  ⟨[], by rw [h, List.append_nil], fun _ hmem => nomatch hmem⟩

theorem emits_one {w w' : World K} {e : Entry K} (h : w'.journal = w.journal ++ [e]) (he : p e) :
    Emits p w w' :=
  ⟨[e], h, fun _ hmem => List.mem_singleton.mp hmem ▸ he⟩

theorem Emits.trans {w w' w'' : World K} (h : Emits p w w') (h' : Emits p w' w'') :
    Emits p w w'' := by
  obtain ⟨added, hj, hadded⟩ := h
  obtain ⟨added', hj', hadded'⟩ := h'
  refine ⟨added ++ added', by rw [hj', hj, List.append_assoc], fun e hmem => ?_⟩
  rcases List.mem_append.mp hmem with hmem | hmem
  · exact hadded e hmem
  · exact hadded' e hmem

/-! ### The frame -/

structure SpellFrame (p : Entry K → Prop) (w w' : World K) : Prop where
  dwell : w'.dwell = w.dwell
  spellId : w'.spellId = w.spellId
  spellTK : w'.spellTK = w.spellTK
  uuids : w'.uuids = w.uuids
  reads : w.reads ≤ w'.reads
  emits : Emits p w w'

instance : Std.Refl (SpellFrame (K := K) p) where
  refl _ := ⟨rfl, rfl, rfl, rfl, le_rfl, emits_nothing rfl⟩

instance : IsTrans (World K) (SpellFrame p) where
  trans _ _ _ h h' := ⟨h'.dwell.trans h.dwell, h'.spellId.trans h.spellId,
    h'.spellTK.trans h.spellTK, h'.uuids.trans h.uuids, h.reads.trans h'.reads,
      h.emits.trans h'.emits⟩

/-- The relation tolerates what the parts outside the spell do, with entries of the journal in
`p`. -/
class SideSteps (R : World K → World K → Prop) (p : outParam (Entry K → Prop)) : Prop
    extends Std.Refl R, IsTrans (World K) R where
  reads : ∀ w n, w.reads ≤ n → R w { w with reads := n }
  note : ∀ w e, p e → R w (w.note e)
  event : ∀ w row, R w { w with events := w.events ++ [row] }
  withheld : ∀ w row, p (.withheld row) →
    R w { w with events := w.events ++ [row], journal := w.journal ++ [.withheld row] }
  intervened : ∀ w last, R w { w with lastInterventionAt := last }
  acted : ∀ w acts, R w { w with lastActTs := acts }
  audited : ∀ w row, p (.audited row) →
    R w { w with audits := w.audits ++ [row], journal := w.journal ++ [.audited row] }

instance : SideSteps (SpellFrame (K := K) p) p where
  reads _ _ hn := ⟨rfl, rfl, rfl, rfl, hn, emits_nothing rfl⟩
  note _ _ he := ⟨rfl, rfl, rfl, rfl, le_rfl, emits_one rfl he⟩
  event _ _ := ⟨rfl, rfl, rfl, rfl, le_rfl, emits_nothing rfl⟩
  withheld _ _ he := ⟨rfl, rfl, rfl, rfl, le_rfl, emits_one rfl he⟩
  intervened _ _ := ⟨rfl, rfl, rfl, rfl, le_rfl, emits_nothing rfl⟩
  acted _ _ := ⟨rfl, rfl, rfl, rfl, le_rfl, emits_nothing rfl⟩
  audited _ _ he := ⟨rfl, rfl, rfl, rfl, le_rfl, emits_one rfl he⟩

def OnlyReads (w w' : World K) : Prop := ∃ reads, w.reads ≤ reads ∧ w' = { w with reads := reads }

instance : Std.Refl (OnlyReads (K := K)) where
  refl w := ⟨w.reads, le_rfl, rfl⟩

instance : IsTrans (World K) OnlyReads where
  trans := by
    rintro w _ _ ⟨reads, hreads, rfl⟩ ⟨reads', hreads', rfl⟩
    exact ⟨reads', hreads.trans hreads', rfl⟩

section Parts

variable {m : SessionMonitor K} {io : CycleInput K} {R : World K → World K → Prop}

theorem OnlyReads.frame [SideSteps R p] {w w' : World K} (h : OnlyReads w w') : R w w' := by
  obtain ⟨reads, hreads, rfl⟩ := h
  exact SideSteps.reads w reads hreads

theorem OnlyReads.emits {w w' : World K} (h : OnlyReads w w') : Emits p w w' := by
  obtain ⟨reads, -, rfl⟩ := h
  exact emits_nothing rfl

theorem readClock_frame [SideSteps R p] : Within R (readClock m) :=
  within_readClock fun w => SideSteps.reads w _ (Nat.le_succ _)

theorem await_id_frame [SideSteps R p] {point : Await} : Within R (await io point id) :=
  within_await fun w => Std.Refl.refl w

theorem note_frame [SideSteps R p] {e : Entry K} (he : p e) :
    Within R (modify (World.note e) : Loop K PUnit) :=
  within_modify fun w => SideSteps.note w e he

theorem stamp_frame [SideSteps R p] {last : Option Nat} :
    Within R (modify fun w => { w with lastInterventionAt := last } : Loop K PUnit) :=
  within_modify fun w => SideSteps.intervened w last

theorem advance_eq {w : World K} : ∃ lastEventAt lastEvents,
    w.advance m = { w with lastEventAt := lastEventAt, lastEvents := lastEvents } := by
  unfold World.advance
  dsimp only
  split
  · exact ⟨w.lastEventAt, w.lastEvents, rfl⟩
  · exact ⟨_, _, rfl⟩

theorem audit_frame [SideSteps R p] {point : Await} {tool : String} {success : Bool}
    {error : Option String}
    (hp : ∀ row, p (.audited row)) : Within R (audit m io point tool success error) := by
  unfold audit
  exact within_bind readClock_frame fun _ => within_await fun w => SideSteps.audited w _ (hp _)

theorem recordAct_frame [SideSteps R p] {tool : String} {success : Bool}
    (hp : ∀ row, p (.audited row)) :
    Within R (recordAct m io tool success) := by
  unfold recordAct
  refine within_bind readClock_frame fun _ => ?_
  refine within_bind (within_modify fun w => SideSteps.acted w _) fun _ => ?_
  exact audit_frame hp

theorem recordDispatch_frame [SideSteps R p] (hp : ∀ row, p (.audited row)) :
    Within R (recordDispatch m io) := by
  unfold recordDispatch
  split
  · exact within_pure
  · exact within_attempt (recordAct_frame hp)

variable {analysis : AnalyticsResult K} {pending : PendingIntervention K}

theorem logWouldIntervene_frame [SideSteps R p] {reason : String}
    (hp : ∀ row, p (.withheld row)) :
    Within R (logWouldIntervene m io analysis reason) := by
  unfold logWouldIntervene
  refine within_attempt (within_bind readClock_frame fun _ => ?_)
  exact within_await fun w => SideSteps.withheld w _ (hp _)

theorem persistIntervention_frame [SideSteps R p] :
    Within R (persistIntervention m io pending) := by
  unfold persistIntervention
  refine within_bind await_id_frame fun _ => ?_
  exact within_attempt (within_bind readClock_frame fun _ => within_await fun w =>
    SideSteps.event w _)

theorem deny_frame [SideSteps R p] {tool : String} {denial : Denial}
    (hp : ∀ row, p (.audited row)) :
    Within R (deny m io tool denial) := by
  unfold deny
  exact within_bind (audit_frame hp) fun _ => within_throw

theorem maybeGroundingAblation_frame [SideSteps R p] (hp : ∀ payload, p (.ungrounded payload)) :
    Within R (maybeGroundingAblation m io pending) := by
  unfold maybeGroundingAblation
  refine within_when (within_attempt ?_)
  exact within_bind (note_frame (hp _)) fun _ => await_id_frame

theorem dispatchIntervention_frame [SideSteps R p] (hp : ∀ e : Entry K, e.ofDelivery → p e) :
    Within R (dispatchIntervention m io pending) := by
  unfold dispatchIntervention
  refine within_bind (note_frame (hp _ trivial)) fun _ => within_bind await_id_frame fun _ => ?_
  refine within_bind readClock_frame fun _ => within_bind stamp_frame fun _ => ?_
  refine within_bind (within_when ?_) fun _ =>
    maybeGroundingAblation_frame fun _ => hp _ trivial
  exact within_bind (note_frame (hp _ trivial)) fun _ => await_id_frame

variable [LinearOrder K] {regime : ProcessRegime} {dwell : K}

/-- Whether the cycle escalates, and so reads the clock once more. -/
def escalates (m : SessionMonitor K) (regime : ProcessRegime) (dwell : K) (escalated : Bool) :
    Bool :=
  isBad regime && (decide (m.cfg.escalationMaxDwell ≤ dwell) && !escalated)

/-- What an escalation raises is caught, so the cycle always goes on. -/
theorem escalate_spec {w : World K} : Ends (escalate m io regime dwell) w
    (fun _ w' => ∃ flag events, w' = { w with
      escalatedInSpell := flag
      reads := w.reads + (escalates m regime dwell w.escalatedInSpell).toNat
      events := events }) fun _ _ => False := by
  unfold escalate escalates
  cases isBad regime
  · exact ends_modify.mpr ⟨false, w.events, rfl⟩
  · simp only [Bool.true_and, if_true, ends_bind, ends_get, ends_when, ends_modify, ends_attempt,
      ends_readClock]
    refine ⟨fun hc => ?_, fun hc => ⟨w.escalatedInSpell, w.events, by rw [hc]; rfl⟩⟩
    rw [hc]
    exact ends_await (fun _ => ⟨true, _, rfl⟩) fun _ => ⟨⟨true, w.events, rfl⟩, ⟨true, _, rfl⟩⟩

theorem escalate_frame {w : World K} : Ends (escalate m io regime dwell) w
    (fun _ w' => SpellFrame p w w') fun _ _ => False := by
  refine escalate_spec.mono ?_ fun _ _ h => h
  rintro _ _ ⟨flag, events, rfl⟩
  exact ⟨rfl, rfl, rfl, rfl, Nat.le_add_right _ _, emits_nothing rfl⟩

variable [Field K] {cfg : LearningAnalyticsConfig K} {features : SessionFeatures K}

theorem shouldTriggerIntervention_onlyReads : Within OnlyReads (shouldTriggerIntervention m) := by
  unfold shouldTriggerIntervention
  refine within_bind within_get fun _ => within_ite within_pure (within_ite within_pure ?_)
  exact within_bind (within_readClock fun w => ⟨w.reads + 1, Nat.le_succ _, rfl⟩) fun _ =>
    within_pure

theorem decideIntervention_onlyReads :
    Within OnlyReads (decideIntervention m io analysis features) := by
  unfold decideIntervention
  refine within_ite within_pure (within_bind shouldTriggerIntervention_onlyReads fun _ => ?_)
  refine within_ite within_pure (within_bind ?_ fun _ => within_bind ?_ fun _ => within_pure)
  all_goals exact within_await fun w => ⟨w.reads, le_rfl, rfl⟩

theorem decideIntervention_frame [SideSteps R p] :
    Within R (decideIntervention m io analysis features) :=
  decideIntervention_onlyReads.mono fun _ _ h => h.frame

theorem authorizeAct_frame [SideSteps R p] {tool : String} (hp : ∀ row, p (.audited row))
    (hp' : ∀ instant, p (.authorized tool instant)) :
    Within R (authorizeAct m cfg io tool) := by
  have gate (c : Bool) (denial : Denial) : Within R (when c (deny m io tool denial)) :=
    within_when (deny_frame hp)
  unfold authorizeAct
  refine within_bind (gate _ _) fun _ => within_bind await_id_frame fun _ => ?_
  refine within_bind (gate _ _) fun _ => within_bind await_id_frame fun _ => ?_
  refine within_bind (gate _ _) fun _ => within_bind (gate _ _) fun _ => ?_
  refine within_bind readClock_frame fun _ => within_bind within_get fun _ => ?_
  exact within_bind (gate _ _) fun _ => note_frame (hp' _)

theorem authorizeDispatch_frame [SideSteps R p] (hp : ∀ e : Entry K, e.ofInterface → p e) :
    Within R (authorizeDispatch m io) := by
  unfold authorizeDispatch
  split
  · exact within_pure
  · refine within_tryCatch (within_bind ?_ fun _ => within_pure) fun _ => within_pure
    exact authorizeAct_frame (fun _ => hp _ trivial) fun _ => hp _ trivial

theorem thresholdStep_frame [SideSteps R p] {now : Nat} (hp : ∀ e : Entry K, ¬ e.ofSpell → p e) :
    Within R (thresholdStep m io analysis features regime dwell now) := by
  unfold thresholdStep
  refine within_bind within_get fun w => ?_
  dsimp only
  split
  · exact within_pure
  · exact within_bind (logWouldIntervene_frame fun _ => hp _ id) fun _ => stamp_frame
  · refine within_bind decideIntervention_frame fun pending => ?_
    cases pending with
    | none => exact within_pure
    | some pending =>
      refine within_bind (authorizeDispatch_frame fun e he => hp e ?_) fun authorized =>
        within_when (within_bind (dispatchIntervention_frame fun e he => hp e ?_) fun _ =>
          within_bind persistIntervention_frame fun _ => recordDispatch_frame fun _ => hp _ id)
      all_goals cases e <;> first | exact id | exact absurd he id

end Parts

end OnlinetLabs.Analytics
