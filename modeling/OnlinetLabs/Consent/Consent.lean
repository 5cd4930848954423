import OnlinetLabs.Lib.Newest
import OnlinetLabs.Sessions.Models

/-!
# Consent

Answers are appended and never changed, except that a revocation stamps all unrevoked ones of its
scope. Two questions are asked about them. The collection path asks for the newest unrevoked answer
to the current wording. The gates of the loop ask whether any unrevoked answer is a grant, whatever
came after it and whatever wording it answered.

On the answers since the last revocation the two agree exactly when there is no grant among them, or
when the last one to the current wording is one: `gates_agree_iff`.
-/

namespace OnlinetLabs.Consents

open Sessions (UserId)

inductive ToolKind where
  | observe
  | act
deriving Repr, DecidableEq

inductive Decision where
  | granted
  | declined
deriving Repr, DecidableEq

structure Consent where
  userId : UserId
  /-- `study` or `product`, but the column takes any text. -/
  scope : String
  decision : Decision
  policyVersion : String
  observe : Bool
  act : Bool
  /-- Both in microseconds. -/
  grantedAt : Nat
  revokedAt : Option Nat
  dataPolicy : Option String
deriving Repr, DecidableEq

def currentPolicyVersion : String := "1"

def studyScope : String := "study"

def productScope : String := "product"

def Consent.granular (c : Consent) : ToolKind → Bool
  | .observe => c.observe
  | .act => c.act

def hasConsent (db : List Consent) (userId : UserId) (kind : ToolKind) : Bool :=
  db.any fun c => c.userId == userId && c.revokedAt.isNone && c.decision == .granted
    && (c.scope == studyScope || (c.scope == productScope && c.granular kind))

def studyDecision (db : List Consent) (userId : UserId) : Option Decision :=
  (newest Consent.grantedAt (db.filter fun c => c.userId == userId && c.scope == studyScope
    && c.policyVersion == currentPolicyVersion && c.revokedAt.isNone)).map (·.decision)

def mayCollect (db : List Consent) (userId : UserId) : Bool :=
  studyDecision db userId == some .granted

structure Answer where
  observe : Bool
  act : Bool
  dataPolicy : Option String
  decision : Decision
  policyVersion : String
deriving Repr, DecidableEq

def record (db : List Consent) (now : Nat) (userId : UserId) (scope : String) (answer : Answer) :
    List Consent :=
  db ++ [{
    userId, scope
    decision := answer.decision
    policyVersion := answer.policyVersion
    observe := answer.observe && answer.decision == .granted
    act := answer.act && answer.decision == .granted
    grantedAt := now
    revokedAt := none
    dataPolicy := answer.dataPolicy }]

def revoke (db : List Consent) (now : Nat) (userId : UserId) (scope : String) : List Consent :=
  db.map fun c =>
    if c.userId == userId && c.scope == scope && c.revokedAt.isNone then
      { c with revokedAt := some now }
    else c

/-! ### The history of one learner -/

inductive Op where
  | record (answer : Answer)
  | revoke
deriving Repr, DecidableEq

def Op.apply (db : List Consent) (now : Nat) (userId : UserId) : Op → List Consent
  | .record answer => Consents.record db now userId studyScope answer
  | .revoke => Consents.revoke db now userId studyScope

/-- The table after a history. Each operation comes with the time that passed since the last one,
over one microsecond, so that the times of the answers strictly increase. -/
def replay (userId : UserId) : Nat → List Consent → List (Nat × Op) → List Consent
  | _, db, [] => db
  | now, db, (delay, op) :: history =>
      replay userId (now + delay + 1) (op.apply db (now + delay + 1) userId) history

/-- The answers given since the last revocation, oldest first. -/
def standingAnswers : List Answer → List (Nat × Op) → List Answer
  | answers, [] => answers
  | answers, (_, .record answer) :: history => standingAnswers (answers ++ [answer]) history
  | _, (_, .revoke) :: history => standingAnswers [] history

/-- Since the last revocation there is no grant, or the last answer to the current wording is
one. -/
def gatesAgree (history : List (Nat × Op)) : Prop :=
  (∀ answer ∈ standingAnswers [] history, answer.decision = .declined)
    ∨ ((standingAnswers [] history).filter (·.policyVersion == currentPolicyVersion)).getLast?.map
        (·.decision) = some .granted

/-! ### What the table says about the history -/

variable {db : List Consent} {userId : UserId} {now : Nat} {answers : List Answer} {answer : Answer}
  {kind : ToolKind} {history : List (Nat × Op)}

def Consent.verdict (c : Consent) : Decision × String := (c.decision, c.policyVersion)

def standing (db : List Consent) (userId : UserId) : List Consent :=
  db.filter fun c => c.userId == userId && c.revokedAt.isNone

/-- The unrevoked rows of the learner are the answers, all in the study scope and in the order of
their times. -/
structure Tracks (userId : UserId) (now : Nat) (db : List Consent) (answers : List Answer) :
    Prop where
  answers : (standing db userId).map Consent.verdict
    = answers.map fun a => (a.decision, a.policyVersion)
  study : ∀ c ∈ db, c.userId = userId → c.scope = studyScope
  past : ∀ c ∈ standing db userId, c.grantedAt ≤ now
  sorted : (standing db userId).Pairwise fun c d => c.grantedAt < d.grantedAt

theorem Tracks.mono {later : Nat} (h : Tracks userId now db answers) (hle : now ≤ later) :
    Tracks userId later db answers :=
  ⟨h.answers, h.study, fun c hc => Nat.le_trans (h.past c hc) hle, h.sorted⟩

theorem standing_record : standing (record db now userId studyScope answer) userId
    = standing db userId ++ record [] now userId studyScope answer := by
  simp [standing, record]

theorem Tracks.record (h : Tracks userId now db answers) (delay : Nat) :
    Tracks userId (now + delay + 1) (record db (now + delay + 1) userId studyScope answer)
      (answers ++ [answer]) := by
  refine ⟨?_, ?_, ?_, ?_⟩
  · rw [standing_record, List.map_append, List.map_append, h.answers]
    rfl
  · intro c hc huser
    rcases List.mem_append.mp hc with hold | hnew
    · exact h.study c hold huser
    · rw [List.mem_singleton.mp hnew]
  · intro c hc
    rw [standing_record] at hc
    rcases List.mem_append.mp hc with hold | hnew
    · have := h.past c hold
      omega
    · rw [List.mem_singleton.mp hnew]
  · rw [standing_record]
    refine List.pairwise_append.mpr ⟨h.sorted, List.pairwise_singleton _ _, fun c hc d hd => ?_⟩
    rw [List.mem_singleton.mp hd]
    have := h.past c hc
    show c.grantedAt < now + delay + 1
    omega

theorem Tracks.revoke (h : Tracks userId now db answers) (at' : Nat) :
    Tracks userId now (revoke db at' userId studyScope) [] := by
  have hnone : standing (Consents.revoke db at' userId studyScope) userId = [] := by
    refine List.filter_eq_nil_iff.mpr fun c hc => ?_
    obtain ⟨d, hd, rfl⟩ := List.mem_map.mp hc
    by_cases huser : d.userId = userId
    · have hscope := h.study d hd huser
      cases hrevoked : d.revokedAt <;> simp [huser, hscope, hrevoked]
    · simp [huser]
  refine ⟨by rw [hnone]; rfl, ?_, by simp [hnone], by simp [hnone]⟩
  intro c hc huser
  obtain ⟨d, hd, rfl⟩ := List.mem_map.mp hc
  split at huser
  · rename_i hcond
    rw [if_pos hcond]
    exact h.study d hd huser
  · rename_i hcond
    rw [if_neg hcond]
    exact h.study d hd huser

/-- The table tracks the standing answers through every history. -/
theorem Tracks.replay (h : Tracks userId now db answers) :
    ∃ later, Tracks userId later (replay userId now db history)
      (standingAnswers answers history) := by
  induction history generalizing now db answers with
  | nil => exact ⟨now, h⟩
  | cons step history ih =>
      obtain ⟨delay, op⟩ := step
      cases op with
      | record answer => exact ih (h.record delay)
      | revoke => exact ih ((h.revoke _).mono (by omega))

/-- A gate sees a grant anywhere among the standing answers. -/
theorem Tracks.hasConsent_iff (h : Tracks userId now db answers) :
    hasConsent db userId kind = true ↔ ∃ answer ∈ answers, answer.decision = .granted := by
  have hmap : ∀ decision : Decision, (∃ c ∈ standing db userId, c.decision = decision)
      ↔ ∃ answer ∈ answers, answer.decision = decision := by
    intro decision
    have hmem := congrArg (fun l => decision ∈ l.map Prod.fst) h.answers
    simpa [Consent.verdict] using hmem
  rw [← hmap .granted]
  unfold hasConsent
  rw [List.any_eq_true]
  constructor
  · rintro ⟨c, hc, hall⟩
    simp only [Bool.and_eq_true, beq_iff_eq] at hall
    obtain ⟨⟨⟨huser, hopen⟩, hgranted⟩, -⟩ := hall
    exact ⟨c, List.mem_filter.mpr ⟨hc, by simp [huser, hopen]⟩, hgranted⟩
  · rintro ⟨c, hc, hgranted⟩
    obtain ⟨hmem, hcond⟩ := List.mem_filter.mp hc
    simp only [Bool.and_eq_true, beq_iff_eq] at hcond
    exact ⟨c, hmem, by simp [hcond.1, hcond.2, hgranted, h.study c hmem hcond.1]⟩

/-- The collection path sees the last standing answer to the current wording. -/
theorem Tracks.studyDecision_eq (h : Tracks userId now db answers) :
    studyDecision db userId
      = (answers.filter (·.policyVersion == currentPolicyVersion)).getLast?.map (·.decision) := by
  have hfilter : (db.filter fun c => c.userId == userId && c.scope == studyScope
      && c.policyVersion == currentPolicyVersion && c.revokedAt.isNone)
      = (standing db userId).filter (·.policyVersion == currentPolicyVersion) := by
    unfold standing
    rw [List.filter_filter]
    refine List.filter_congr fun c hc => ?_
    by_cases huser : c.userId = userId
    · simp [huser, h.study c hc huser]
    · have hne : (c.userId == userId) = false := by simpa using huser
      simp only [hne, Bool.false_and, Bool.and_false]
  have hanswers : ((standing db userId).filter (·.policyVersion == currentPolicyVersion)).map
      Consent.verdict = (answers.filter (·.policyVersion == currentPolicyVersion)).map
        fun a => (a.decision, a.policyVersion) := by
    have hcong := congrArg (List.filter fun x : Decision × String => x.2 == currentPolicyVersion)
      h.answers
    rwa [List.filter_map, List.filter_map] at hcong
  unfold studyDecision
  rw [hfilter, Newest.newest_of_pairwise (h.sorted.filter _)]
  have hlast := congrArg (fun l => (l.map Prod.fst).getLast?) hanswers
  simpa [List.getLast?_map, Consent.verdict, Function.comp_def] using hlast

/-- **When the gates agree.** For every history of one learner's answers and revocations, over a
table that holds other learners' rows only, both gates are closed wherever collection is not allowed
exactly when there is no standing grant or the last standing answer to the current wording is a
grant. -/
theorem gates_agree_iff (userId : UserId) (now : Nat) (others : List Consent)
    (history : List (Nat × Op)) (hothers : ∀ c ∈ others, c.userId ≠ userId) :
    (∀ kind : ToolKind, hasConsent (replay userId now others history) userId kind = true →
        mayCollect (replay userId now others history) userId = true)
      ↔ gatesAgree history := by
  have hinit : Tracks userId now others [] := by
    have hnone : standing others userId = [] :=
      List.filter_eq_nil_iff.mpr fun c hc => by simp [hothers c hc]
    exact ⟨by rw [hnone]; rfl, fun c hc huser => absurd huser (hothers c hc), by simp [hnone],
      by simp [hnone]⟩
  obtain ⟨later, htracks⟩ : ∃ later,
      Tracks userId later (replay userId now others history) (standingAnswers [] history) :=
    hinit.replay
  simp only [htracks.hasConsent_iff, mayCollect, htracks.studyDecision_eq, beq_iff_eq, gatesAgree]
  constructor
  · intro h
    by_cases hgrant : ∃ answer ∈ standingAnswers [] history, answer.decision = .granted
    · exact Or.inr (h .observe hgrant)
    · refine Or.inl fun answer hanswer => ?_
      cases hdecision : answer.decision with
      | granted => exact absurd ⟨answer, hanswer, hdecision⟩ hgrant
      | declined => rfl
  · rintro (hdeclined | hlast) kind ⟨answer, hanswer, hgranted⟩
    · exact nomatch (hdeclined answer hanswer).symm.trans hgranted
    · exact hlast

/-- A learner who refuses, revokes and then agrees. -/
theorem gates_agree_declined_revoked_granted :
    gatesAgree [(0, .record ⟨false, false, none, .declined, "1"⟩), (5, .revoke),
        (3, .record ⟨true, true, none, .granted, "1"⟩)]
      ∧ ∀ kind : ToolKind,
        hasConsent (replay "ann" 0 [] [(0, .record ⟨false, false, none, .declined, "1"⟩),
            (5, .revoke), (3, .record ⟨true, true, none, .granted, "1"⟩)]) "ann" kind = true →
          mayCollect (replay "ann" 0 [] [(0, .record ⟨false, false, none, .declined, "1"⟩),
            (5, .revoke), (3, .record ⟨true, true, none, .granted, "1"⟩)]) "ann" = true := by
  have hagree : gatesAgree [(0, .record ⟨false, false, none, .declined, "1"⟩), (5, .revoke),
      (3, .record ⟨true, true, none, .granted, "1"⟩)] := Or.inr (by decide)
  exact ⟨hagree, (gates_agree_iff "ann" 0 [] _ (fun _ hc => absurd hc List.not_mem_nil)).mpr hagree⟩

/-- A learner agrees and then refuses: nothing may be collected, and the gates are still open. -/
theorem later_refusal_leaves_gates_open :
    ¬ ∀ (userId : UserId) (now : Nat) (others : List Consent) (history : List (Nat × Op)),
      (∀ c ∈ others, c.userId ≠ userId) → ∀ kind : ToolKind,
        hasConsent (replay userId now others history) userId kind = true →
          mayCollect (replay userId now others history) userId = true := by
  intro h
  have := h "ann" 0 [] [(0, .record ⟨true, true, none, .granted, "1"⟩),
    (0, .record ⟨false, false, none, .declined, "1"⟩)] (fun _ hc => absurd hc List.not_mem_nil)
    .act (by decide)
  exact nomatch (show mayCollect _ _ = false by decide).symm.trans this

end OnlinetLabs.Consents
