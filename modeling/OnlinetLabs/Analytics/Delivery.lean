import OnlinetLabs.Analytics.Assignment

/-!
# What reaches a learner has passed the gates

The threshold branch of a cycle asks the control interface before it delivers and has the delivery
audited afterwards. The branch of the trial does neither. And where the gateway, the session for the
record or the audit itself raises after the delivery, nothing is audited, and no rate window opens.

Away from these, every delivery was authorized in its own cycle, under a consent that stood and
outside the rate window, and is audited: `deliveries_are_governed`.
-/

namespace OnlinetLabs.Analytics

open Eff
open Sessions (getOwnedSession)
open Consents (hasConsent)

variable {K : Type}

/-- Every delivery in the entries was authorized before the call that led to it, at an instant in
`allowed`, and is audited after it. -/
def GovernedEntries (allowed : Nat → Prop) (entries : List (Entry K)) : Prop :=
  ∀ before after, entries = before ++ Entry.sent :: after →
    (∃ earlier payload mid instant, before = earlier ++ Entry.intervened payload :: mid ∧
      (∀ payload', Entry.intervened payload' ∉ mid) ∧
      Entry.authorized "intervention" instant ∈ earlier ∧ allowed instant) ∧
    ∃ row, Entry.audited row ∈ after ∧ row.tool = "intervention" ∧ row.kind = "act" ∧
      row.error = none

theorem governedEntries_of_not_sent {allowed : Nat → Prop} {entries : List (Entry K)}
    (h : ∀ e ∈ entries, e ≠ .sent) : GovernedEntries allowed entries := by
  rintro before after rfl
  exact absurd rfl (h .sent (by simp))

/-- What a cycle did before does not matter if it did not deliver. -/
theorem GovernedEntries.prepend {allowed : Nat → Prop} {entries first : List (Entry K)}
    (h : GovernedEntries allowed entries) (hfirst : ∀ e ∈ first, e ≠ .sent) :
    GovernedEntries allowed (first ++ entries) := by
  intro before after heq
  rcases List.append_eq_append_iff.mp heq with ⟨mid, rfl, hmid⟩ | ⟨mid, rfl, hmid⟩
  · obtain ⟨⟨earlier, payload, mid', instant, rfl, hmid', hauthorized, hallowed⟩, haudit⟩ :=
      h mid after hmid
    exact ⟨⟨first ++ earlier, payload, mid', instant, by simp, hmid',
      List.mem_append_right _ hauthorized, hallowed⟩, haudit⟩
  · cases mid with
    | nil =>
      obtain ⟨⟨earlier, payload, mid', instant, hbefore, -⟩, -⟩ := h [] after hmid.symm
      simp at hbefore
    | cons e mid =>
      cases hmid
      exact absurd rfl (hfirst .sent (by simp))

theorem governedEntries_delivery {allowed : Nat → Prop} {instant : Nat}
    {payload : InterventionInput} {rest : List (Entry K)} {row : MCPAudit}
    (hallowed : allowed instant) (hrest : ∀ e ∈ rest, e ≠ .sent)
    (hrow : row.tool = "intervention" ∧ row.kind = "act" ∧ row.error = none) :
    GovernedEntries allowed (.authorized "intervention" instant :: .intervened payload :: .sent ::
      (rest ++ [.audited row])) := by
  intro before after heq
  match before with
  | [] | [_] => simp at heq
  | [_, _] =>
    simp only [List.cons_append, List.nil_append, List.cons.injEq] at heq
    obtain ⟨rfl, rfl, -, rfl⟩ := heq
    exact ⟨⟨[.authorized "intervention" instant], payload, [], instant, rfl, by simp, by simp,
      hallowed⟩, row, by simp, hrow⟩
  | _ :: _ :: _ :: before =>
    simp only [List.cons_append, List.cons.injEq] at heq
    have hmem : .sent ∈ rest ++ [Entry.audited row] := by
      rw [heq.2.2.2]
      simp
    rcases List.mem_append.mp hmem with hmem | hmem
    · exact absurd rfl (hrest .sent hmem)
    · simp at hmem

section Parts

variable {m : SessionMonitor K} {io : CycleInput K} {w w' : World K}
  {pending : PendingIntervention K}

/-! ### The gates -/

theorem deny_raises {tool : String} {denial : Denial} :
    Ends (deny m io tool denial) w (fun _ _ => False)
      fun _ w' => SpellFrame (fun e => e ≠ .sent) w w' := by
  unfold deny
  refine Ends.bind ((audit_frame fun row => by simp).ends w) fun _ w' hw' => ends_throw.mpr hw'

theorem gate {c : Bool} {tool : String} {denial : Denial} :
    Ends (when c (deny m io tool denial)) w (fun _ w' => c = false ∧ w' = w)
      fun _ w' => SpellFrame (fun e => e ≠ .sent) w w' := by
  rw [ends_when]
  exact ⟨fun _ => deny_raises.mono (fun _ _ hfalse => hfalse.elim) fun _ _ h => h,
    fun hc => ⟨hc, rfl⟩⟩

theorem await_id_spec {point : Await} :
    Ends (await io point id) w (fun _ w' => w' = w)
      fun _ w' => SpellFrame (fun e => e ≠ .sent) w w' :=
  ends_await (fun _ => rfl) fun _ => ⟨Std.Refl.refl w, Std.Refl.refl w⟩

variable [Field K] [LinearOrder K]

/-- What `authorize_act` has checked when it returns. -/
structure Allowed (m : SessionMonitor K) (cfg : LearningAnalyticsConfig K) (io : CycleInput K)
    (w : World K) (instant : Nat) : Prop where
  owned : (getOwnedSession io.sessions m.sessionId m.userId).isSome = true
  consented : hasConsent io.consents m.userId .act = true
  closed : m.controlArm = .closed
  spaced : coolingDown cfg (w.lastActTs m.sessionId) instant = false

theorem authorizeAct_spec {cfg : LearningAnalyticsConfig K} {tool : String} :
    Ends (authorizeAct m cfg io tool) w
      (fun _ w' => classify tool = some .act ∧ ∃ instant, Allowed m cfg io w instant ∧
        w'.journal = w.journal ++ [.authorized tool instant])
      fun _ w' => SpellFrame (fun e => e ≠ .sent) w w' := by
  unfold authorizeAct
  refine Ends.bind gate fun _ w₁ h₁ => ?_
  obtain ⟨hclassified, rfl⟩ := h₁
  refine Ends.bind await_id_spec fun _ w₂ h₂ => ?_
  subst h₂
  refine Ends.bind gate fun _ w₃ h₃ => ?_
  obtain ⟨howned, rfl⟩ := h₃
  refine Ends.bind await_id_spec fun _ w₄ h₄ => ?_
  subst h₄
  refine Ends.bind gate fun _ w₅ h₅ => ?_
  obtain ⟨hconsented, rfl⟩ := h₅
  refine Ends.bind gate fun _ w₆ h₆ => ?_
  obtain ⟨hclosed, rfl⟩ := h₆
  rw [ends_bind, ends_readClock, ends_bind, ends_get]
  refine Ends.bind (gate.mono (fun _ _ h => h) fun _ _ hframe => ?_) fun _ w₇ h₇ => ?_
  · exact IsTrans.trans w₆ { w₆ with reads := w₆.reads + 1 } _
      ⟨rfl, rfl, rfl, rfl, by simp, emits_nothing rfl⟩ hframe
  · obtain ⟨hspaced, rfl⟩ := h₇
    refine ends_modify.mpr ⟨by simpa using hclassified, _, ⟨?_, ?_, ?_, hspaced⟩, rfl⟩
    · cases howner : getOwnedSession io.sessions m.sessionId m.userId with
      | none => simp [howner] at howned
      | some _ => rfl
    · simpa using hconsented
    · cases harm : m.controlArm with
      | closed => rfl
      | open_ => simp [harm] at hclosed

theorem authorizeDispatch_spec {cfg : LearningAnalyticsConfig K}
    (hinterface : m.controlInterface = some cfg) :
    Ends (authorizeDispatch m io) w
      (fun authorized w' => if authorized then ∃ instant, Allowed m cfg io w instant ∧
          w'.journal = w.journal ++ [.authorized "intervention" instant]
        else SpellFrame (fun e => e ≠ .sent) w w') fun _ _ => False := by
  unfold authorizeDispatch
  rw [hinterface]
  dsimp only
  rw [ends_tryCatch, ends_bind]
  exact authorizeAct_spec.mono (fun _ _ h => h.2) fun _ _ h => h

/-! ### The delivery -/

/-- The call of the agent comes back with something to send, and there is a gateway. -/
def Sends (m : SessionMonitor K) (io : CycleInput K) : Prop :=
  io.response.success = true ∧ m.gateway = true ∧ io.outcome .intervene = .completes

omit [Field K] [LinearOrder K] in
theorem maybeGroundingAblation_returns :
    Ends (maybeGroundingAblation m io pending) w
      (fun _ w' => SpellFrame (fun e => e ≠ .sent) w w') fun _ _ => False := by
  have hreturns : Ends (maybeGroundingAblation m io pending) w (fun _ _ => True)
      fun _ _ => False := by
    unfold maybeGroundingAblation
    rw [ends_when]
    exact ⟨fun _ => attempt_returns, fun _ => trivial⟩
  exact (((maybeGroundingAblation_frame fun payload => by simp).ends w).and hreturns).mono
    (fun _ _ h => h.1) fun _ _ h => h.2

omit [Field K] [LinearOrder K] in
theorem dispatchIntervention_sends (h : Sends m io) (hsend : io.outcome .send = .completes) :
    Ends (dispatchIntervention m io pending) w
      (fun _ w' => ∃ rest, w'.journal = w.journal ++ .intervened pending.payload :: .sent :: rest ∧
        ∀ e ∈ rest, e ≠ .sent) fun _ _ => False := by
  unfold dispatchIntervention
  rw [await_of_completes h.2.2, h.1, h.2.1]
  simp only [ends_bind, ends_readClock, ends_modify, ends_when, await_of_completes hsend, id,
    Bool.and_self]
  refine ⟨fun _ => maybeGroundingAblation_returns.mono (fun _ w' hw' => ?_) fun _ _ h => h,
    fun hfalse => Bool.noConfusion hfalse⟩
  obtain ⟨rest, hjournal, hrest⟩ := hw'.emits
  exact ⟨rest, by rw [hjournal]; simp [World.note], hrest⟩

omit [Field K] [LinearOrder K] in
theorem dispatchIntervention_quiet (h : ¬ Sends m io) :
    Ends (dispatchIntervention m io pending) w
      (fun _ w' => SpellFrame (fun e => e ≠ .sent) w w')
      fun _ w' => SpellFrame (fun e => e ≠ .sent) w w' := by
  have hnoted : SpellFrame (fun e => e ≠ .sent) w (w.note (.intervened pending.payload)) :=
    ⟨rfl, rfl, rfl, rfl, le_rfl, emits_one rfl (by simp)⟩
  unfold dispatchIntervention
  rw [ends_bind, ends_modify, ends_bind]
  refine ends_await (fun hintervene => ?_) fun _ => ⟨hnoted, hnoted⟩
  have hnothing : (io.response.success && m.gateway) = false := by
    rw [Bool.and_eq_false_iff]
    by_contra hboth
    rw [not_or, Bool.not_eq_false, Bool.not_eq_false] at hboth
    exact h ⟨hboth.1, hboth.2, hintervene⟩
  rw [hnothing]
  simp only [ends_bind, ends_readClock, ends_modify, ends_when, id]
  refine ⟨fun hfalse => absurd hfalse Bool.false_ne_true, fun _ =>
    maybeGroundingAblation_returns.mono (fun _ w' hw' => ?_) fun _ _ hfalse => hfalse.elim⟩
  refine IsTrans.trans _ _ _ ?_ hw'
  exact ⟨rfl, rfl, rfl, rfl, by simp [World.note], emits_one rfl (by simp)⟩

omit [Field K] [LinearOrder K] in
theorem recordDispatch_audits {cfg : LearningAnalyticsConfig K}
    (hinterface : m.controlInterface = some cfg) (haudit : io.outcome .actAudit = .completes) :
    Ends (recordDispatch m io) w
      (fun _ w' => ∃ row, w'.journal = w.journal ++ [.audited row] ∧ row.tool = "intervention" ∧
        row.kind = "act" ∧ row.error = none) fun _ _ => False := by
  unfold recordDispatch
  rw [hinterface]
  dsimp only
  unfold recordAct audit
  simp only [ends_attempt, ends_bind, ends_readClock, ends_modify, await_of_completes haudit]
  exact ⟨_, rfl, rfl, rfl, rfl⟩

/-! ### The threshold branch -/

/-- A delivery of the threshold branch that is not audited: something raises between the two. -/
def LosesAudit (m : SessionMonitor K) (io : CycleInput K) : Prop :=
  Sends m io ∧ ∃ point ∈ [Await.send, .persist, .actAudit], io.outcome point ≠ .completes

omit [Field K] [LinearOrder K] in
theorem persistIntervention_returns (h : io.outcome .persist = .completes) :
    Ends (persistIntervention m io pending) w
      (fun _ w' => SpellFrame (fun _ => False) w w') fun _ _ => False := by
  unfold persistIntervention
  rw [await_of_completes h, ends_bind, ends_modify, ends_attempt, ends_bind, ends_readClock]
  exact ends_await (fun _ => ⟨rfl, rfl, rfl, rfl, Nat.le_succ _, emits_nothing rfl⟩) fun _ =>
    ⟨⟨rfl, rfl, rfl, rfl, Nat.le_succ _, emits_nothing rfl⟩,
      ⟨rfl, rfl, rfl, rfl, Nat.le_succ _, emits_nothing rfl⟩⟩

def Governs (m : SessionMonitor K) (cfg : LearningAnalyticsConfig K) (io : CycleInput K)
    (w w' : World K) : Prop :=
  ∃ entries, w'.journal = w.journal ++ entries ∧ GovernedEntries (Allowed m cfg io w) entries

theorem governs_of_emits {cfg : LearningAnalyticsConfig K}
    (h : Emits (fun e => e ≠ .sent) w w') : Governs m cfg io w w' := by
  obtain ⟨entries, hjournal, hentries⟩ := h
  exact ⟨entries, hjournal, governedEntries_of_not_sent hentries⟩

variable {cfg : LearningAnalyticsConfig K} {analysis : AnalyticsResult K}
  {features : SessionFeatures K} {regime : ProcessRegime} {dwell : K} {now : Nat}

/-- From the authorization on. -/
theorem deliver_governs (hinterface : m.controlInterface = some cfg) (haudit : ¬ LosesAudit m io)
    {instant : Nat} (hallowed : Allowed m cfg io w instant)
    (hw' : w'.journal = w.journal ++ [.authorized "intervention" instant]) :
    Ends (do
        dispatchIntervention m io pending
        persistIntervention m io pending
        recordDispatch m io) w'
      (fun _ => Governs m cfg io w) fun _ => Governs m cfg io w := by
  by_cases hsends : Sends m io
  · have hcompletes (point : Await) (hmem : point ∈ [Await.send, .persist, .actAudit]) :
        io.outcome point = .completes := by
      by_contra hraises
      exact haudit ⟨hsends, point, hmem, hraises⟩
    refine Ends.bind ((dispatchIntervention_sends hsends (hcompletes .send (by simp))).mono
      (fun _ _ h => h) fun _ _ h => h.elim) fun _ w₁ h₁ => ?_
    obtain ⟨rest, hj₁, hrest⟩ := h₁
    refine Ends.bind ((persistIntervention_returns (hcompletes .persist (by simp))).mono
      (fun _ _ h => h) fun _ _ h => h.elim) fun _ w₂ h₂ => ?_
    obtain ⟨nothing, hj₂, hnothing⟩ := h₂.emits
    obtain rfl := List.eq_nil_iff_forall_not_mem.mpr hnothing
    refine (recordDispatch_audits hinterface (hcompletes .actAudit (by simp))).mono
      (fun _ w₃ h₃ => ?_) fun _ _ h => h.elim
    obtain ⟨row, hj₃, htool, hkind, herror⟩ := h₃
    refine ⟨.authorized "intervention" instant :: .intervened pending.payload :: .sent ::
      (rest ++ [.audited row]), ?_, ?_⟩
    · rw [hj₃, hj₂, hj₁, hw']
      simp
    · exact governedEntries_delivery hallowed hrest ⟨htool, hkind, herror⟩
  · have hquiet : Within (SpellFrame fun e : Entry K => e ≠ .sent) (do
        persistIntervention m io pending
        recordDispatch m io) :=
      within_bind persistIntervention_frame fun _ => recordDispatch_frame fun row => by simp
    have hemits {w₁ : World K} (h₁ : SpellFrame (fun e => e ≠ .sent) w' w₁) :
        Governs m cfg io w w₁ :=
      governs_of_emits (Emits.trans (emits_one hw' (by simp)) h₁.emits)
    refine Ends.bind ((dispatchIntervention_quiet hsends).mono (fun _ _ h => h)
      fun _ _ h => hemits h) fun _ w₁ h₁ => ?_
    exact (hquiet.ends w₁).mono (fun _ _ h => hemits (IsTrans.trans _ _ _ h₁ h))
      fun _ _ h => hemits (IsTrans.trans _ _ _ h₁ h)

theorem thresholdStep_governs (hinterface : m.controlInterface = some cfg)
    (haudit : ¬ LosesAudit m io) :
    Ends (thresholdStep m io analysis features regime dwell now) w
      (fun _ => Governs m cfg io w) fun _ => Governs m cfg io w := by
  have hemits {w' : World K} (h : SpellFrame (fun e => e ≠ .sent) w w') : Governs m cfg io w w' :=
    governs_of_emits h.emits
  have hsame : Governs m cfg io w w := hemits (Std.Refl.refl w)
  unfold thresholdStep
  rw [ends_bind, ends_get]
  dsimp only
  split
  · exact hsame
  · have hwithhold : Within (SpellFrame fun e : Entry K => e ≠ .sent) (do
        logWouldIntervene m io analysis (shouldIntervene regime dwell m.controlArm
          w.lastInterventionAt m.cfg now none none).reason
        modify fun w => { w with lastInterventionAt := some now }) :=
      within_bind (logWouldIntervene_frame fun row => by simp) fun _ => stamp_frame
    exact (hwithhold.ends w).mono (fun _ _ => hemits) fun _ _ => hemits
  · refine Ends.bind ((decideIntervention_onlyReads.ends w).mono (fun _ _ h => h)
      fun _ _ h => hemits h.frame) fun pending w₁ h₁ => ?_
    obtain ⟨reads, hreads, rfl⟩ := h₁
    cases pending with
    | none => exact hemits ⟨rfl, rfl, rfl, rfl, hreads, emits_nothing rfl⟩
    | some pending =>
      refine Ends.bind ((authorizeDispatch_spec hinterface).mono (fun _ _ h => h)
        fun _ _ h => h.elim) fun authorized w₂ h₂ => ?_
      rw [ends_when]
      constructor
      · rintro rfl
        obtain ⟨instant, hallowed, hw₂⟩ := h₂
        exact deliver_governs hinterface haudit
          ⟨hallowed.owned, hallowed.consented, hallowed.closed, hallowed.spaced⟩ hw₂
      · rintro rfl
        refine hemits (IsTrans.trans _ _ _ ?_ h₂)
        exact ⟨rfl, rfl, rfl, rfl, hreads, emits_nothing rfl⟩

/-! ### The branch of the trial -/

theorem decideIntervention_awaits :
    Ends (decideIntervention m io analysis features) w
      (fun pending _ => pending.isSome = true →
        io.outcome .locale = .completes ∧ io.outcome .context = .completes) fun _ _ => True := by
  unfold decideIntervention
  split
  · rintro ⟨⟩
  · rw [ends_bind]
    refine (ends_true (s := w)).mono (fun ready w' _ => ?_) fun _ _ _ => trivial
    split
    · rintro ⟨⟩
    · rw [ends_bind]
      refine ends_await (fun hlocale => ?_) fun _ => ⟨trivial, trivial⟩
      rw [ends_bind]
      exact ends_await (fun hcontext _ => ⟨hlocale, hcontext⟩) fun _ => ⟨trivial, trivial⟩

/-- The law answers `intervene` with the threshold of the spell, and what stands between the answer
and the learner goes through. -/
def MrtDelivers (m : SessionMonitor K) (io : CycleInput K) (regime : ProcessRegime)
    (dwell tK : K) (last : Option Nat) (now : Nat) : Prop :=
  (shouldIntervene regime dwell m.controlArm last m.cfg now (some tK) (some io.draw)).action
      = .intervene ∧
    (∀ point ∈ [Await.decision, .locale, .context], io.outcome point = .completes) ∧ Sends m io

theorem mrtDecisionPoint_quiet
    (h : ∀ tK, w.spellTK = some tK →
      ¬ MrtDelivers m io regime dwell tK w.lastInterventionAt now) :
    Ends (mrtDecisionPoint m io analysis features regime dwell now) w
      (fun _ w' => Emits (fun e => e ≠ .sent) w w')
      fun _ w' => Emits (fun e => e ≠ .sent) w w' := by
  have hrecord (spellId : Nat) (tK : K) (assignment : Assignment) :
      Ends (mrtRecordDecision m io spellId regime dwell tK assignment now) w
        (fun _ w' => io.outcome .decision = .completes ∧ Emits (fun e => e ≠ .sent) w w')
        fun _ w' => Emits (fun e => e ≠ .sent) w w' := by
    unfold mrtRecordDecision
    simp only [ends_bind, ends_uuid4, ends_modify]
    exact ends_await (fun hdecision => ⟨hdecision, emits_one rfl (by simp)⟩) fun _ =>
      ⟨emits_nothing rfl, emits_one rfl (by simp)⟩
  have tail {body : Loop K PUnit} (hbody : Within (SpellFrame fun e => e ≠ .sent) body)
      {w₁ : World K} (h₁ : Emits (fun e => e ≠ .sent) w w₁) :
      Ends body w₁ (fun _ w' => Emits (fun e => e ≠ .sent) w w')
        fun _ w' => Emits (fun e => e ≠ .sent) w w' :=
    (hbody.ends w₁).mono (fun _ _ hw => h₁.trans hw.emits) fun _ _ hw => h₁.trans hw.emits
  unfold mrtDecisionPoint
  rw [ends_bind, ends_get]
  split
  · rename_i spellId tK hid htk
    dsimp only
    split
    · exact emits_nothing rfl
    · refine Ends.bind (hrecord spellId tK .withhold) fun _ w₁ h₁ => tail ?_ h₁.2
      exact within_bind (logWouldIntervene_frame fun row => by simp) fun _ => stamp_frame
    · rename_i haction
      refine Ends.bind (hrecord spellId tK .intervene) fun _ w₁ h₁ => ?_
      obtain ⟨hdecision, h₁⟩ := h₁
      refine Ends.bind (((decideIntervention_onlyReads.ends w₁).and
        decideIntervention_awaits).mono (fun _ _ h => h)
        fun _ _ h => h₁.trans h.1.emits) fun pending w₂ h₂ => ?_
      obtain ⟨hreads, hawaits⟩ := h₂
      have h₂ : Emits (fun e => e ≠ .sent) w w₂ := h₁.trans hreads.emits
      cases pending with
      | none => exact h₂
      | some pending =>
        have hsends : ¬ Sends m io := by
          intro hsends
          obtain ⟨hlocale, hcontext⟩ := hawaits rfl
          exact h tK htk ⟨haction, by simp [hdecision, hlocale, hcontext], hsends⟩
        refine Ends.bind ((dispatchIntervention_quiet hsends).mono (fun _ _ h => h)
          fun _ _ h => h₂.trans h.emits) fun _ w₃ h₃ => ?_
        exact tail (within_bind persistIntervention_frame fun _ => stamp_frame) (h₂.trans h₃.emits)
  · exact emits_nothing rfl

def turnedTK (m : SessionMonitor K) (io : CycleInput K) (regime : ProcessRegime) (dwell : K)
    (spellTK : Option K) : Option K :=
  if dwell = 0 then
    some (dwellThreshold m.cfg regime *
      io.uniform (1 - m.cfg.mrtTKJitterFrac) (1 + m.cfg.mrtTKJitterFrac))
  else spellTK

theorem mrtTurnSpell_quiet :
    Ends (mrtTurnSpell m io regime dwell now) w
      (fun _ w' => Emits (fun e => e ≠ .sent) w w' ∧ w'.lastInterventionAt = w.lastInterventionAt ∧
        (isBad regime = true → w'.spellTK = turnedTK m io regime dwell w.spellTK))
      fun _ w' => Emits (fun e => e ≠ .sent) w w' := by
  unfold mrtTurnSpell turnedTK
  rw [ends_when]
  refine ⟨fun hdwell => ?_, fun hdwell => ⟨emits_nothing rfl, rfl, fun _ => ?_⟩⟩
  · rw [if_pos (by simpa using hdwell), ends_bind, ends_get]
    have hclosed : Ends (when w.spellId.isSome (mrtCloseSpell io now)) w
        (fun _ w' => Emits (fun e => e ≠ .sent) w w' ∧
          w'.lastInterventionAt = w.lastInterventionAt)
        fun _ w' => Emits (fun e => e ≠ .sent) w w' := by
      unfold mrtCloseSpell
      simp only [ends_when, ends_bind, ends_get, ends_modify]
      exact ⟨fun _ => ⟨fun _ => ends_await (fun _ => ⟨emits_nothing rfl, rfl⟩) fun _ =>
        ⟨emits_nothing rfl, emits_nothing rfl⟩, fun _ => ⟨emits_nothing rfl, trivial⟩⟩,
        fun _ => ⟨emits_nothing rfl, trivial⟩⟩
    refine Ends.bind hclosed fun _ w₁ h₁ => ?_
    rw [ends_when]
    refine ⟨fun _ => ?_, fun hgood => ⟨h₁.1, h₁.2, fun hbad => ?_⟩⟩
    · unfold mrtOpenSpell
      simp only [ends_bind, ends_uuid4, ends_modify]
      exact ⟨h₁.1.trans (emits_one rfl (by simp)), h₁.2, fun _ => trivial⟩
    · rw [hgood] at hbad
      cases hbad
  · rw [if_neg (by simpa using hdwell)]

omit [LinearOrder K] in
theorem logProcessState_quiet :
    Ends (logProcessState m io analysis now) w
      (fun result w' => io.outcome .sample = .completes ∧ result = (analysisToRegime analysis,
          (w.dwell.observe (analysisToRegime analysis) now).2) ∧
        ∃ tracker samples, w' = { w with
          dwell := tracker
          samples := samples
          journal := w.journal ++ [.observed (analysisToRegime analysis)] })
      fun _ w' => Emits (fun e => e ≠ .sent) w w' := by
  unfold logProcessState
  simp only [ends_bind, ends_get, ends_modify, ends_pure]
  exact ends_await (fun hsample => ⟨hsample, trivial, _, _, rfl⟩) fun _ =>
    ⟨emits_one rfl (by simp), emits_one rfl (by simp)⟩

variable [FloorRing K]

/-- The cycle delivers under the trial, and so past the gates. -/
def PassesGates (m : SessionMonitor K) (w : World K) (io : CycleInput K) : Prop :=
  (∀ point ∈ [Await.load, .sample], io.outcome point = .completes) ∧
  ∃ features analysis tK,
    assess m (m.clock w.reads) (currentEvents m { w with events := io.elsewhere w.events })
      = some (features, analysis) ∧
    let regime := analysisToRegime analysis
    let dwell := (w.dwell.observe (K := K) regime (m.clock (w.reads + 1))).2
    turnedTK m io regime dwell w.spellTK = some tK ∧
    MrtDelivers m io regime dwell tK w.lastInterventionAt
      (m.clock (w.reads + 2 + (escalates m regime dwell w.escalatedInSpell).toNat))

def Ungoverned (m : SessionMonitor K) (w : World K) (io : CycleInput K) : Prop :=
  if m.cfg.mrtEnabled then PassesGates m w io else LosesAudit m io

omit [FloorRing K] in
theorem Governs.after {w₁ : World K} (h : Governs m cfg io w₁ w')
    (hlast : w₁.lastActTs = w.lastActTs) (hemits : Emits (fun e => e ≠ .sent) w w₁) :
    Governs m cfg io w w' := by
  obtain ⟨first, hj₁, hfirst⟩ := hemits
  obtain ⟨entries, hj, hentries⟩ := h
  refine ⟨first ++ entries, by rw [hj, hj₁, List.append_assoc], ?_⟩
  refine GovernedEntries.prepend (fun before after heq => ?_) hfirst
  obtain ⟨⟨earlier, payload, mid, instant, hbefore, hmid, hauthorized, hallowed⟩, haudit⟩ :=
    hentries before after heq
  exact ⟨⟨earlier, payload, mid, instant, hbefore, hmid, hauthorized,
    ⟨hallowed.owned, hallowed.consented, hallowed.closed, hlast ▸ hallowed.spaced⟩⟩, haudit⟩

theorem runOn_governs {events : List BehavioralEvent} (hinterface : m.controlInterface = some cfg)
    (hmrt : m.cfg.mrtEnabled = true → ∀ features analysis tK,
      assess m (m.clock w.reads) events = some (features, analysis) →
      io.outcome .sample = .completes →
      turnedTK m io (analysisToRegime analysis)
        (w.dwell.observe (analysisToRegime analysis) (m.clock (w.reads + 1))).2 w.spellTK
          = some tK →
      ¬ MrtDelivers m io (analysisToRegime analysis)
        (w.dwell.observe (analysisToRegime analysis) (m.clock (w.reads + 1))).2 tK
        w.lastInterventionAt (m.clock (w.reads + 2 + (escalates m (analysisToRegime analysis)
          (w.dwell.observe (K := K) (analysisToRegime analysis) (m.clock (w.reads + 1))).2
          w.escalatedInSpell).toNat)))
    (haudit : m.cfg.mrtEnabled = false → ¬ LosesAudit m io) :
    Ends (runOn m io events) w (fun _ => Governs m cfg io w) fun _ => Governs m cfg io w := by
  unfold runOn
  rw [ends_bind, ends_readClock]
  split
  · exact governs_of_emits (emits_nothing rfl)
  · rename_i features analysis hassess
    rw [ends_bind, ends_readClock]
    refine Ends.bind (logProcessState_quiet.mono (fun _ _ h => h)
      fun _ _ h => governs_of_emits h) fun result w₁ h₁ => ?_
    obtain ⟨hsample, rfl, tracker, samples, rfl⟩ := h₁
    refine Ends.bind (escalate_spec.mono (fun _ _ h => h) fun _ _ h => h.elim) fun _ w₂ h₂ => ?_
    obtain ⟨flag, events', rfl⟩ := h₂
    rw [ends_bind, ends_readClock]
    have hstep : Emits (fun e : Entry K => e ≠ .sent) w { w with
        journal := w.journal ++ [.observed (analysisToRegime analysis)] } :=
      emits_one rfl (by simp)
    split
    · rename_i henabled
      refine Ends.bind (mrtTurnSpell_quiet.mono (fun _ _ h => h)
        fun _ _ h => governs_of_emits (hstep.trans h)) fun _ w₃ h₃ => ?_
      obtain ⟨hemits, hlast, hturned⟩ := h₃
      refine (mrtDecisionPoint_quiet fun tK htk hdelivers => ?_).mono
        (fun _ _ h => governs_of_emits (hstep.trans (hemits.trans h)))
        fun _ _ h => governs_of_emits (hstep.trans (hemits.trans h))
      have hbad := (eligible_of_not_skip (by rw [hdelivers.1]; decide)).bad
      rw [hturned hbad] at htk
      rw [hlast] at hdelivers
      exact hmrt henabled features analysis tK hassess hsample htk hdelivers
    · rename_i hdisabled
      refine (thresholdStep_governs hinterface (haudit (by simpa using hdisabled))).mono
        (fun _ _ h => h.after rfl ?_) fun _ _ h => h.after rfl ?_
      all_goals exact emits_one rfl (by simp)

/-! ### The cycle -/

/-- Every delivery of the cycle passed the gates in it, and is audited. -/
def Governed (m : SessionMonitor K) (cfg : LearningAnalyticsConfig K) (w : World K)
    (io : CycleInput K) : Prop :=
  GovernedEntries (Allowed m cfg io w) (added w (cycle m w io))

theorem governed_of_not_ungoverned (hinterface : m.controlInterface = some cfg)
    (h : ¬ Ungoverned m w io) : Governed m cfg w io := by
  have hends : Ends (runAnalysis m io) { w with events := io.elsewhere w.events }
      (fun _ => Governs m cfg io w) fun _ => Governs m cfg io w := by
    unfold runAnalysis
    rw [ends_bind]
    refine ends_await (fun hload => ?_) fun _ =>
      ⟨governs_of_emits (emits_nothing rfl), governs_of_emits (emits_nothing rfl)⟩
    simp only [id, ends_bind, ends_get, ends_modify, ends_when]
    obtain ⟨lastEventAt, lastEvents, hadvance⟩ :=
      advance_eq (m := m) (w := { w with events := io.elsewhere w.events })
    rw [hadvance]
    have hfrom {w' : World K} (hw' : Governs m cfg io { w with
        events := io.elsewhere w.events
        lastEventAt := lastEventAt, lastEvents := lastEvents } w') :
        Governs m cfg io w w' :=
      hw'.after rfl (emits_nothing rfl)
    refine ⟨fun _ => (runOn_governs hinterface ?_ ?_).mono (fun _ _ => hfrom) fun _ _ => hfrom,
      fun _ => governs_of_emits (emits_nothing rfl)⟩
    · intro hmrt features analysis tK hassess hsample htk hdelivers
      refine h ?_
      unfold Ungoverned
      rw [if_pos hmrt]
      exact ⟨by simp [hload, hsample], features, analysis, tK, hassess, htk, hdelivers⟩
    · intro hmrt
      unfold Ungoverned at h
      rwa [if_neg (by simp [hmrt])] at h
  obtain ⟨entries, hjournal, hentries⟩ := hends.state
  have hadded : added w (cycle m w io) = entries := added_eq hjournal
  unfold Governed
  rw [hadded]
  exact hentries

/-- **No delivery past the gates**, in every cycle of every run that stays clear of the two gaps. -/
theorem deliveries_are_governed (m : SessionMonitor K) (cfg : LearningAnalyticsConfig K)
    (w : World K) (ios : List (CycleInput K)) (hinterface : m.controlInterface = some cfg)
    (h : Everywhere (cycle m) (fun w io => ¬ Ungoverned m w io) w ios) :
    Everywhere (cycle m) (Governed m cfg) w ios :=
  h.mono fun _ _ => governed_of_not_ungoverned hinterface

end Parts

/-! ### Two learners -/

def thresholdMonitor : SessionMonitor ℚ :=
  { trialMonitor .closed with cfg := LearningAnalyticsConfig.default }

def consentedCycle (arrivals : List BehavioralEvent) : CycleInput ℚ :=
  { trialCycle arrivals with
    sessions := ⟨[some {
      id := 0
      userId := "ann"
      labSlug := "vlan"
      status := .active
      startedAt := 0
      endedAt := none
      expiresAt := none
      metaJson := none }]⟩
    consents := [{
      userId := "ann"
      scope := Consents.studyScope
      decision := .granted
      policyVersion := Consents.currentPolicyVersion
      observe := true
      act := true
      grantedAt := 0
      revokedAt := none
      dataPolicy := none }] }

/-- A stuck learner who agreed is helped. -/
theorem deliveries_are_governed_consented :
    Everywhere (cycle thresholdMonitor) (Governed thresholdMonitor .default)
      (startSession thresholdMonitor {}) [consentedCycle stuckRows, consentedCycle []] ∧
    .sent ∈ ([consentedCycle stuckRows, consentedCycle []].foldl (cycle thresholdMonitor)
      (startSession thresholdMonitor {})).journal := by
  refine ⟨deliveries_are_governed thresholdMonitor .default (startSession thresholdMonitor {})
    [consentedCycle stuckRows, consentedCycle []] rfl ?_, by decide +kernel⟩
  have hcompletes : ∀ io ∈ [consentedCycle stuckRows, consentedCycle []],
      ∀ point, io.outcome point = .completes := by
    simp [consentedCycle, trialCycle]
  rintro before io after heq ⟨-, point, -, hraises⟩
  exact hraises (hcompletes io (by rw [heq]; simp) point)

/-- Under the trial a stuck learner who never agreed is helped all the same. -/
theorem trial_delivers_without_consent :
    ¬ ∀ (m : SessionMonitor ℚ) (cfg : LearningAnalyticsConfig ℚ) (w : World ℚ)
        (ios : List (CycleInput ℚ)), m.controlInterface = some cfg →
      Everywhere (cycle m) (Governed m cfg) (startSession m w) ios := by
  intro h
  have hgoverned := h (trialMonitor .closed) .default {} [trialCycle stuckRows] rfl []
    (trialCycle stuckRows) [] rfl
  have hsent : added (startSession (trialMonitor .closed) {}) (cycle (trialMonitor .closed)
      (startSession (trialMonitor .closed) {}) (trialCycle stuckRows))
      = (added (startSession (trialMonitor .closed) {}) (cycle (trialMonitor .closed)
          (startSession (trialMonitor .closed) {}) (trialCycle stuckRows))).take 4
        ++ .sent :: [] := by
    decide +kernel
  obtain ⟨⟨-, -, -, instant, -, -, -, hallowed⟩, -⟩ := hgoverned _ _ hsent
  have hconsented : hasConsent (trialCycle stuckRows).consents "ann" .act = true :=
    hallowed.consented
  exact absurd hconsented (by decide)

end OnlinetLabs.Analytics
