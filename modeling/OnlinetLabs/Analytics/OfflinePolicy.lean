import Mathlib.Data.Rat.Floor
import OnlinetLabs.Analytics.ControlLaw

/-!
# The offline policy

`thresholds.py` derives the dwell thresholds from recorded samples, and to do so writes the control
law a second time. The two differ in one default: a bad regime without a threshold is not regulated
offline, and regulated with the threshold zero by the loop. They also round differently: the loop
takes the seconds of a difference, the offline policy the difference of two floats.

Both are walks over the samples that fire where a sample qualifies and the last firing is not too
recent; the general facts are about such a walk.
-/

namespace OnlinetLabs.Analytics.OfflinePolicy

open Rounding

variable {K : Type}

structure Sample (K : Type) where
  ts : Nat
  regime : ProcessRegime
  dwell : K
deriving Repr, DecidableEq

/-! ### Walks that cool down -/

/-- The instants of the samples that qualify while the last firing is not too recent. -/
def fireWhere (cooling : Option Nat → Nat → Bool) (qualifies : Sample K → Bool) :
    Option Nat → List (Sample K) → List Nat
  | _, [] => []
  | last, s :: rest =>
      if qualifies s && !cooling last s.ts then s.ts :: fireWhere cooling qualifies (some s.ts) rest
      else fireWhere cooling qualifies last rest

section Walks

variable {cooling : Option Nat → Nat → Bool} {qualifies : Sample K → Bool} {last : Option Nat}
  {s : Sample K}
  {samples rest : List (Sample K)} {instants : List Nat} {t : Nat}

theorem fireWhere_fires (hq : qualifies s = true) (hcool : cooling last s.ts = false) :
    fireWhere cooling qualifies last (s :: rest)
      = s.ts :: fireWhere cooling qualifies (some s.ts) rest := by
  simp [fireWhere, hq, hcool]

theorem fireWhere_skips (h : qualifies s = false ∨ cooling last s.ts = true) :
    fireWhere cooling qualifies last (s :: rest) = fireWhere cooling qualifies last rest := by
  rcases h with h | h
  · simp [fireWhere, h]
  · simp [fireWhere, h]

/-- Either a sample fires, or it leaves the walk as it is. -/
theorem fires_or_skips (cooling : Option Nat → Nat → Bool) (qualifies : Sample K → Bool)
    (last : Option Nat)
    (s : Sample K) : qualifies s = true ∧ cooling last s.ts = false
      ∨ (qualifies s = false ∨ cooling last s.ts = true) := by
  cases qualifies s <;> cases cooling last s.ts <;> simp

theorem exists_of_mem_fireWhere (h : t ∈ fireWhere cooling qualifies last samples) :
    ∃ s ∈ samples, s.ts = t ∧ qualifies s = true := by
  induction samples generalizing last with
  | nil => cases h
  | cons s rest ih =>
    rcases fires_or_skips cooling qualifies last s with hfires | hskips
    · rw [fireWhere_fires hfires.1 hfires.2] at h
      rcases List.mem_cons.mp h with rfl | h
      · exact ⟨s, List.mem_cons_self, rfl, hfires.1⟩
      · obtain ⟨s', hs', hts⟩ := ih h
        exact ⟨s', List.mem_cons_of_mem _ hs', hts⟩
    · rw [fireWhere_skips hskips] at h
      obtain ⟨s', hs', hts⟩ := ih h
      exact ⟨s', List.mem_cons_of_mem _ hs', hts⟩

/-- The first to fire is past the cooldown of what has fired before. -/
theorem cooled_of_fireWhere_eq_cons (h : fireWhere cooling qualifies last samples = t :: instants) :
    cooling last t = false := by
  induction samples with
  | nil => cases h
  | cons s rest ih =>
    rcases fires_or_skips cooling qualifies last s with hfires | hskips
    · rw [fireWhere_fires hfires.1 hfires.2] at h
      cases h
      exact hfires.2
    · rw [fireWhere_skips hskips] at h
      exact ih h

def Ascending (samples : List (Sample K)) : Prop := samples.Pairwise fun s later => s.ts ≤ later.ts

/-- Where nothing cools down, all that qualify fire. -/
theorem fireWhere_of_cooled (hcool : ∀ instant t, instant ≤ t → cooling (some instant) t = false)
    (hnone : ∀ t, cooling none t = false) (hsorted : Ascending samples)
    (hlast : ∀ instant ∈ last, ∀ s ∈ samples, instant ≤ s.ts) :
    fireWhere cooling qualifies last samples = (samples.filter qualifies).map (·.ts) := by
  induction samples generalizing last with
  | nil => rfl
  | cons s rest ih =>
    obtain ⟨hfirst, hrest⟩ := List.pairwise_cons.mp hsorted
    have hcooled : cooling last s.ts = false := by
      cases last with
      | none => exact hnone s.ts
      | some instant => exact hcool instant s.ts (hlast instant rfl s List.mem_cons_self)
    cases hq : qualifies s with
    | true =>
      rw [fireWhere_fires hq hcooled, List.filter_cons_of_pos hq, List.map_cons, ih hrest]
      intro instant hinstant
      cases hinstant
      exact hfirst
    | false =>
      rw [fireWhere_skips (Or.inl hq), List.filter_cons_of_neg (by simp [hq])]
      exact ih hrest fun instant hinstant s' hs' =>
        hlast instant hinstant s' (List.mem_cons_of_mem _ hs')

end Walks

/-! ### The two policies -/

variable [Field K] [LinearOrder K]

def badRegimes : List ProcessRegime := [.stuckOnStep, .repeatingErrors, .idle, .trialAndError]

def isBadRegime (regime : ProcessRegime) : Bool := decide (regime ∈ badRegimes)

/-- `_to_sec` of an instant, where `fl` is what a float operation makes of its exact result. -/
def toSec (fl : K → K) (ts : Nat) : K := fl ((ts : K) / 1000000)

/-- The loop of `simulate_interventions`, from what it has fired last. -/
def simulateFrom (fl : K → K) (dwellThresholds : ProcessRegime → Option K) (cooldownSeconds : K) :
    Option K → List (Sample K) → List K
  | _, [] => []
  | lastFireTs, s :: rest =>
      if !isBadRegime s.regime then simulateFrom fl dwellThresholds cooldownSeconds lastFireTs rest
      else
        match dwellThresholds s.regime with
        | none => simulateFrom fl dwellThresholds cooldownSeconds lastFireTs rest
        | some threshold =>
            if s.dwell < threshold
              then simulateFrom fl dwellThresholds cooldownSeconds lastFireTs rest
            else if lastFireTs.any fun last =>
              decide (fl (toSec fl s.ts - last) < cooldownSeconds) then
              simulateFrom fl dwellThresholds cooldownSeconds lastFireTs rest
            else
              toSec fl s.ts
                :: simulateFrom fl dwellThresholds cooldownSeconds (some (toSec fl s.ts)) rest

def simulateInterventions (fl : K → K) (samples : List (Sample K))
    (dwellThresholds : ProcessRegime → Option K)
    (cooldownSeconds : K) : List K := simulateFrom fl dwellThresholds cooldownSeconds none samples

/-- The cooldown test of `should_intervene`, with its `total_seconds`. -/
def coolsDown (fl : K → K) (cfg : LearningAnalyticsConfig K) (last : Option Nat)
    (now : Nat) : Bool :=
  last.any fun instant => decide (fl (seconds now instant) < cfg.cooldownPeriod)

/-- What the law does at a sample of a session in the closed arm, without randomization. -/
def decides (fl : K → K) (cfg : LearningAnalyticsConfig K) (last : Option Nat) (s : Sample K) :
    Decision :=
  passGates s.regime s.dwell .closed (coolsDown fl cfg last s.ts) cfg none none

/-- The instants at which the loop intervenes, from its last intervention on. -/
def liveInterventions (fl : K → K) (cfg : LearningAnalyticsConfig K) :
    Option Nat → List (Sample K) → List Nat
  | _, [] => []
  | last, s :: rest =>
      if (decides fl cfg last s).action = .intervene
        then s.ts :: liveInterventions fl cfg (some s.ts) rest
      else liveInterventions fl cfg last rest

/-! ### The condition -/

def reachesThreshold (cfg : LearningAnalyticsConfig K) (s : Sample K) : Bool :=
  isBad s.regime && (cfg.dwellThresholds s.regime).any fun threshold => decide (threshold ≤ s.dwell)

def unregulated (cfg : LearningAnalyticsConfig K) (s : Sample K) : Bool :=
  isBad s.regime && (cfg.dwellThresholds s.regime).isNone && decide (0 ≤ s.dwell)

/-- The cooldown test of `simulate_interventions`. -/
def coolsOffline (fl : K → K) (cfg : LearningAnalyticsConfig K) (last : Option Nat)
    (now : Nat) : Bool :=
  last.any fun instant => decide (fl (toSec fl now - toSec fl instant) < cfg.cooldownPeriod)

/-- Another sample of the instant reaches its threshold. -/
def Answered (cfg : LearningAnalyticsConfig K) (t : Nat) (samples : List (Sample K)) : Prop :=
  ∃ later ∈ samples, later.ts = t ∧ reachesThreshold cfg later = true

/-- The two tests of the cooldown give the same where a threshold is reached. A bad regime without a
threshold is only seen during a cooldown, or at an instant at which another sample reaches its own
threshold after it. -/
def Governed (fl : K → K) (cfg : LearningAnalyticsConfig K) : Option Nat → List (Sample K) → Prop
  | _, [] => True
  | last, s :: rest =>
      (reachesThreshold cfg s = true → coolsOffline fl cfg last s.ts = coolsDown fl cfg last s.ts)
      ∧ (unregulated cfg s = true → coolsDown fl cfg last s.ts = false →
        coolsOffline fl cfg last s.ts = false ∧ 0 < cfg.cooldownPeriod ∧ Answered cfg s.ts rest)
      ∧ Governed fl cfg (if (decides fl cfg last s).action = .intervene then some s.ts
        else last) rest

instance decidableAnswered {cfg : LearningAnalyticsConfig K} {t : Nat} {samples : List (Sample K)} :
    Decidable (Answered cfg t samples) :=
  inferInstanceAs (Decidable (∃ later ∈ samples, later.ts = t ∧ reachesThreshold cfg later = true))

instance decidableGoverned (fl : K → K) (cfg : LearningAnalyticsConfig K) :
    ∀ (last : Option Nat) (samples : List (Sample K)), Decidable (Governed fl cfg last samples)
  | _, [] => .isTrue trivial
  | last, s :: rest =>
      have : Decidable (Governed fl cfg
          (if (decides fl cfg last s).action = .intervene then some s.ts else last) rest) :=
        decidableGoverned fl cfg _ rest
      inferInstanceAs (Decidable (
        (reachesThreshold cfg s = true → coolsOffline fl cfg last s.ts = coolsDown fl cfg last s.ts)
        ∧ (unregulated cfg s = true → coolsDown fl cfg last s.ts = false →
          coolsOffline fl cfg last s.ts = false ∧ 0 < cfg.cooldownPeriod ∧ Answered cfg s.ts rest)
            ∧ _))

variable {fl : K → K} {cfg : LearningAnalyticsConfig K} {last : Option Nat} {s : Sample K}
  {samples rest : List (Sample K)} {instants : List Nat} {t : Nat}

/-! ### Both are such walks -/

theorem isBadRegime_eq (regime : ProcessRegime) : isBadRegime regime = isBad regime := by
  cases regime with
  | _ => rfl

/-- The loop also regulates the bad regimes without a threshold. -/
def regulatedLive (cfg : LearningAnalyticsConfig K) (s : Sample K) : Bool :=
  reachesThreshold cfg s || unregulated cfg s

/-- Where the loop intervenes, and where the offline policy does. -/
def live (fl : K → K) (cfg : LearningAnalyticsConfig K) : Option Nat → List (Sample K) → List Nat :=
  fireWhere (coolsDown fl cfg) (regulatedLive cfg)

def offline (fl : K → K) (cfg : LearningAnalyticsConfig K) :
    Option Nat → List (Sample K) → List Nat :=
  fireWhere (coolsOffline fl cfg) (reachesThreshold cfg)

theorem decides_intervene_iff (henabled : cfg.enabled = true) :
    (decides fl cfg last s).action = .intervene
      ↔ (regulatedLive cfg s && !coolsDown fl cfg last s.ts) = true := by
  unfold decides passGates regulatedLive reachesThreshold unregulated dwellThreshold
  cases hbad : isBad s.regime with
  | false => simp
  | true =>
    cases hthreshold : cfg.dwellThresholds s.regime with
    | none =>
      by_cases hdwell : s.dwell < 0
      · simp [hdwell]
      · cases hcool : coolsDown fl cfg last s.ts with
        | _ => simp [hdwell, henabled, not_lt.mp hdwell]
    | some threshold =>
      by_cases hdwell : s.dwell < threshold
      · simp [hdwell]
      · cases hcool : coolsDown fl cfg last s.ts with
        | _ => simp [hdwell, henabled, not_lt.mp hdwell]

theorem liveInterventions_eq (henabled : cfg.enabled = true) :
    liveInterventions fl cfg last samples = live fl cfg last samples := by
  induction samples generalizing last with
  | nil => rfl
  | cons s rest ih =>
    unfold live at ih ⊢
    simp only [liveInterventions, fireWhere, decides_intervene_iff henabled, ih]

theorem simulateFrom_eq (last : Option Nat) :
    simulateFrom fl cfg.dwellThresholds cfg.cooldownPeriod (last.map (toSec fl)) samples
      = (offline fl cfg last samples).map (toSec fl) := by
  unfold offline
  induction samples generalizing last with
  | nil => rfl
  | cons s rest ih =>
    have hcool :
        ((last.map (toSec fl)).any fun last =>
          decide (fl (toSec fl s.ts - last) < cfg.cooldownPeriod))
        = coolsOffline fl cfg last s.ts := by
      cases last with
      | none => rfl
      | some instant => rfl
    unfold simulateFrom
    rw [hcool, isBadRegime_eq]
    cases hbad : isBad s.regime with
    | false =>
      have hskips : reachesThreshold cfg s = false := by simp [reachesThreshold, hbad]
      rw [fireWhere_skips (Or.inl hskips)]
      simpa using ih last
    | true =>
      cases hthreshold : cfg.dwellThresholds s.regime with
      | none =>
        have hskips : reachesThreshold cfg s = false := by simp [reachesThreshold, hthreshold]
        rw [fireWhere_skips (Or.inl hskips)]
        simpa using ih last
      | some threshold =>
        by_cases hdwell : s.dwell < threshold
        · have hskips : reachesThreshold cfg s = false := by
            simp [reachesThreshold, hthreshold, hdwell]
          rw [fireWhere_skips (Or.inl hskips)]
          simpa [hdwell] using ih last
        · have hreaches : reachesThreshold cfg s = true := by
            simp [reachesThreshold, hbad, hthreshold, not_lt.mp hdwell]
          cases hcooling : coolsOffline fl cfg last s.ts with
          | true =>
            rw [fireWhere_skips (Or.inr hcooling)]
            simpa [hdwell] using ih last
          | false =>
            rw [fireWhere_fires hreaches hcooling, List.map_cons, ← ih]
            simp [hdwell]

/-! ### Where the two agree -/

/-- The two fire at the same instants from here on. -/
def Agree (fl : K → K) (cfg : LearningAnalyticsConfig K) (last : Option Nat)
    (samples : List (Sample K)) : Prop :=
  offline fl cfg last samples = live fl cfg last samples

/-- The offline policy has still to fire at an instant at which the loop has fired. -/
def Trails (fl : K → K) (cfg : LearningAnalyticsConfig K) (last : Option Nat) (t : Nat)
    (samples : List (Sample K)) :
    Prop :=
  offline fl cfg last samples = t :: live fl cfg (some t) samples

theorem governed_cons (henabled : cfg.enabled = true) :
    Governed fl cfg last (s :: rest) ↔
      (reachesThreshold cfg s = true → coolsOffline fl cfg last s.ts = coolsDown fl cfg last s.ts)
      ∧ (unregulated cfg s = true → coolsDown fl cfg last s.ts = false →
        coolsOffline fl cfg last s.ts = false ∧ 0 < cfg.cooldownPeriod ∧ Answered cfg s.ts rest)
      ∧ Governed fl cfg
          (if (regulatedLive cfg s && !coolsDown fl cfg last s.ts) = true then some s.ts
            else last) rest := by
  simp only [Governed, decides_intervene_iff henabled]

theorem not_reachesThreshold_of_unregulated (h : unregulated cfg s = true) :
    reachesThreshold cfg s = false := by
  simp only [unregulated, Bool.and_eq_true, Option.isNone_iff_eq_none] at h
  simp [reachesThreshold, h.1.2]

theorem coolsDown_self (hzero : fl 0 = 0) (h : 0 < cfg.cooldownPeriod) :
    coolsDown fl cfg (some t) t = true := by
  simp [coolsDown, seconds, hzero, h]

theorem coolsOffline_self (hzero : fl 0 = 0) (h : 0 < cfg.cooldownPeriod) :
    coolsOffline fl cfg (some t) t = true := by
  simp [coolsOffline, hzero, h]

/-- One sample of a trailing policy: it is of the instant, so that the loop is cooling down, or too
late. -/
theorem trails_cons (henabled : cfg.enabled = true) (hzero : fl 0 = 0)
    (hpos : 0 < cfg.cooldownPeriod)
    (hsorted : Ascending (s :: rest)) (hcool : coolsOffline fl cfg last t = false)
    (ht : ∀ s' ∈ s :: rest, t ≤ s'.ts)
    (hagree : Agree fl cfg (some t) rest ↔ Governed fl cfg (some t) rest)
    (htrails : Trails fl cfg last t rest ↔ Answered cfg t rest ∧ Governed fl cfg (some t) rest) :
    Trails fl cfg last t (s :: rest) ↔ Answered cfg t (s :: rest) ∧ Governed fl cfg (some t)
      (s :: rest) := by
  by_cases hts : s.ts = t
  · subst hts
    have hself : coolsDown fl cfg (some s.ts) s.ts = true := coolsDown_self hzero hpos
    have hselfOffline : coolsOffline fl cfg (some s.ts) s.ts = true := coolsOffline_self hzero hpos
    have hgoverned : Governed fl cfg (some s.ts) (s :: rest)
        ↔ Governed fl cfg (some s.ts) rest := by
      rw [governed_cons henabled]
      simp [hself, hselfOffline]
    rw [hgoverned]
    unfold Trails live offline at htrails ⊢
    have hskips : regulatedLive cfg s = false ∨ coolsDown fl cfg (some s.ts) s.ts = true :=
      Or.inr hself
    rw [fireWhere_skips hskips]
    cases hreaches : reachesThreshold cfg s with
    | true =>
      have hanswered : Answered cfg s.ts (s :: rest) := ⟨s, List.mem_cons_self, rfl, hreaches⟩
      rw [fireWhere_fires hreaches hcool, List.cons.injEq, and_iff_right rfl]
      exact hagree.trans (and_iff_right hanswered).symm
    | false =>
      have hanswered : Answered cfg s.ts (s :: rest) ↔ Answered cfg s.ts rest := by
        unfold Answered
        simp [hreaches]
      rw [fireWhere_skips (Or.inl hreaches), hanswered]
      exact htrails
  · have hlate : ∀ s' ∈ s :: rest, s'.ts ≠ t := by
      have hfirst : t < s.ts := lt_of_le_of_ne (ht s List.mem_cons_self) (Ne.symm hts)
      intro s' hs'
      rcases List.mem_cons.mp hs' with rfl | hs'
      · exact hts
      · exact (hfirst.trans_le ((List.pairwise_cons.mp hsorted).1 s' hs')).ne'
    apply iff_of_false
    · intro h
      have hmem : t ∈ offline fl cfg last (s :: rest) := by
        rw [show offline fl cfg last (s :: rest) = _ from h]
        exact List.mem_cons_self
      obtain ⟨s', hs', hts', -⟩ := exists_of_mem_fireWhere hmem
      exact hlate s' hs' hts'
    · rintro ⟨⟨s', hs', hts', -⟩, -⟩
      exact hlate s' hs' hts'

/-- One sample of policies that agree, at which a threshold is reached: both fire, or neither. -/
theorem agree_cons_of_reaches (henabled : cfg.enabled = true)
    (hreaches : reachesThreshold cfg s = true)
    (hagree : ∀ last', last' = last ∨ last' = some s.ts →
      (Agree fl cfg last' rest ↔ Governed fl cfg last' rest)) :
    Agree fl cfg last (s :: rest) ↔ Governed fl cfg last (s :: rest) := by
  have hunregulated : unregulated cfg s = false := by
    by_contra hno
    rw [Bool.not_eq_false] at hno
    exact absurd hreaches (by simp [not_reachesThreshold_of_unregulated hno])
  have hlive : regulatedLive cfg s = true := by simp [regulatedLive, hreaches]
  rw [governed_cons henabled]
  unfold Agree live offline at hagree ⊢
  cases hoffline : coolsOffline fl cfg last s.ts with
  | true =>
    rw [fireWhere_skips (Or.inr hoffline)]
    cases hcool : coolsDown fl cfg last s.ts with
    | true =>
      rw [fireWhere_skips (Or.inr hcool)]
      simpa [hunregulated] using hagree last (Or.inl rfl)
    | false =>
      rw [fireWhere_fires hlive hcool]
      refine iff_of_false (fun h => ?_) (fun h => nomatch h.1 hreaches)
      rw [cooled_of_fireWhere_eq_cons h] at hoffline
      cases hoffline
  | false =>
    rw [fireWhere_fires hreaches hoffline]
    cases hcool : coolsDown fl cfg last s.ts with
    | true =>
      rw [fireWhere_skips (Or.inr hcool)]
      refine iff_of_false (fun h => ?_) (fun h => nomatch h.1 hreaches)
      rw [cooled_of_fireWhere_eq_cons h.symm] at hcool
      cases hcool
    | false =>
      rw [fireWhere_fires hlive hcool, List.cons.injEq, and_iff_right rfl]
      simpa [hunregulated, hlive] using hagree (some s.ts) (Or.inr rfl)

structure Rounds (fl : K → K) : Prop where
  zero : fl 0 = 0
  mono : ∀ x y, 0 ≤ x → x ≤ y → fl x ≤ fl y

theorem Rounds.nonneg {x : K} (h : Rounds fl) (hx : 0 ≤ x) :
    0 ≤ fl x := h.zero.symm.trans_le (h.mono 0 x le_rfl hx)

section Ordered

variable [IsStrictOrderedRing K]

theorem seconds_nonneg {now earlier : Nat} (h : earlier ≤ now) : (0 : K) ≤ seconds now earlier := by
  unfold seconds
  have hle : (earlier : K) ≤ now := Nat.cast_le.mpr h
  have hsub : (0 : K) ≤ now - earlier := sub_nonneg.mpr hle
  positivity

theorem Rounds.toSec_le {t' : Nat} (h : Rounds fl) (hle : t ≤ t') : toSec fl t ≤ toSec fl t' := by
  apply h.mono
  · positivity
  · gcongr

theorem not_coolsDown_of_zero {instant : Nat} (hfl : Rounds fl) (hzero : cfg.cooldownPeriod = 0)
    (hle : instant ≤ t) : coolsDown fl cfg (some instant) t = false := by
  simpa [coolsDown, hzero] using hfl.nonneg (seconds_nonneg hle)

theorem not_coolsOffline_of_zero {instant : Nat} (hfl : Rounds fl) (hzero : cfg.cooldownPeriod = 0)
    (hle : instant ≤ t) : coolsOffline fl cfg (some instant) t = false := by
  simpa [coolsOffline, hzero] using hfl.nonneg (sub_nonneg.mpr (hfl.toSec_le hle))

theorem not_trails_of_zero (hfl : Rounds fl) (hzero : cfg.cooldownPeriod = 0)
    (hsorted : Ascending samples)
    (hlast : ∀ instant ∈ last, ∀ s ∈ samples, instant ≤ s.ts) (ht : ∀ s ∈ samples, t ≤ s.ts) :
    ¬ Trails fl cfg last t samples := by
  intro h
  have hthere : ∀ instant ∈ some t, ∀ s ∈ samples, instant ≤ s.ts := by
    rintro instant ⟨⟩
    exact ht
  unfold Trails offline live at h
  rw [fireWhere_of_cooled (fun _ _ => not_coolsOffline_of_zero hfl hzero)
    (fun _ => rfl) hsorted hlast, fireWhere_of_cooled (fun _ _ => not_coolsDown_of_zero hfl hzero)
    (fun _ => rfl) hsorted hthere] at h
  have hlength := congrArg List.length h
  simp only [List.length_map, List.length_cons, ← List.countP_eq_length_filter] at hlength
  have hmono : samples.countP (reachesThreshold cfg) ≤ samples.countP (regulatedLive cfg) := by
    apply List.countP_mono_left
    intro s hs hreaches
    simp [regulatedLive, hreaches]
  omega

/-- One sample of policies that agree: the loop alone fires at it exactly where no threshold is
set. -/
theorem agree_cons (henabled : cfg.enabled = true) (hfl : Rounds fl)
    (hcooldown : 0 ≤ cfg.cooldownPeriod)
    (hsorted : Ascending (s :: rest)) (hlast : ∀ instant ∈ last, ∀ s' ∈ s :: rest, instant ≤ s'.ts)
    (hagree : ∀ last', last' = last ∨ last' = some s.ts →
      (Agree fl cfg last' rest ↔ Governed fl cfg last' rest))
    (htrails : 0 < cfg.cooldownPeriod → coolsOffline fl cfg last s.ts = false →
      (Trails fl cfg last s.ts rest ↔ Answered cfg s.ts rest ∧ Governed fl cfg (some s.ts) rest)) :
    Agree fl cfg last (s :: rest) ↔ Governed fl cfg last (s :: rest) := by
  obtain ⟨hfirst, hrest⟩ := List.pairwise_cons.mp hsorted
  cases hreaches : reachesThreshold cfg s with
  | true => exact agree_cons_of_reaches henabled hreaches hagree
  | false =>
    rw [governed_cons henabled]
    have hskips : offline fl cfg last (s :: rest) = offline fl cfg last rest :=
      fireWhere_skips (Or.inl hreaches)
    cases hfires : (unregulated cfg s && !coolsDown fl cfg last s.ts) with
    | false =>
      have hstays : (regulatedLive cfg s && !coolsDown fl cfg last s.ts) = false := by
        simpa [regulatedLive, hreaches] using hfires
      have hboth : regulatedLive cfg s = false ∨ coolsDown fl cfg last s.ts = true := by
        rcases Bool.and_eq_false_iff.mp hstays with hno | hcool
        · exact Or.inl hno
        · exact Or.inr (by simpa using hcool)
      have hnever : unregulated cfg s = true → coolsDown fl cfg last s.ts = false → False := by
        intro hunregulated hcool
        simp [hunregulated, hcool] at hfires
      have hsame : live fl cfg last (s :: rest) = live fl cfg last rest := fireWhere_skips hboth
      unfold Agree at hagree ⊢
      rw [hskips, hsame, hstays, if_neg Bool.false_ne_true, hagree last (Or.inl rfl)]
      exact ⟨fun h => ⟨fun hno => absurd (hreaches.symm.trans hno) Bool.false_ne_true,
        fun hun hcool => (hnever hun hcool).elim, h⟩, fun h => h.2.2⟩
    | true =>
      obtain ⟨hunregulated, hcool⟩ := Bool.and_eq_true_iff.mp hfires
      rw [Bool.not_eq_true'] at hcool
      have hlive : regulatedLive cfg s = true := by simp [regulatedLive, hunregulated]
      have hbehind : Agree fl cfg last (s :: rest) ↔ Trails fl cfg last s.ts rest := by
        unfold Agree Trails
        rw [hskips]
        unfold live
        rw [fireWhere_fires hlive hcool]
      rw [hbehind]
      cases hoffline : coolsOffline fl cfg last s.ts with
      | true =>
        refine iff_of_false (fun h => ?_) (fun h => nomatch (h.2.1 hunregulated hcool).1)
        rw [cooled_of_fireWhere_eq_cons h] at hoffline
        cases hoffline
      | false =>
        rcases hcooldown.eq_or_lt with hzero | hpos
        · have hnone := not_trails_of_zero hfl hzero.symm hrest
            (fun instant hinstant s' hs' => hlast instant hinstant s' (List.mem_cons_of_mem _ hs'))
              hfirst
          exact iff_of_false hnone fun h => (h.2.1 hunregulated hcool).2.1.ne hzero
        · rw [htrails hpos hoffline]
          simp [hlive, hpos, hcool, hunregulated]

theorem agree_and_trails (henabled : cfg.enabled = true) (hfl : Rounds fl)
    (hcooldown : 0 ≤ cfg.cooldownPeriod)
    (hsorted : Ascending samples) :
    (∀ last : Option Nat, (∀ instant ∈ last, ∀ s ∈ samples, instant ≤ s.ts) →
        (Agree fl cfg last samples ↔ Governed fl cfg last samples))
      ∧ (∀ (last : Option Nat) (t : Nat), 0 < cfg.cooldownPeriod →
        coolsOffline fl cfg last t = false →
          (∀ s ∈ samples, t ≤ s.ts) →
          (Trails fl cfg last t samples ↔ Answered cfg t samples
            ∧ Governed fl cfg (some t) samples)) := by
  induction samples with
  | nil =>
    refine ⟨fun last _ => iff_of_true rfl trivial, fun last t _ _ _ => iff_of_false ?_ ?_⟩
    · rintro ⟨⟩
    · rintro ⟨⟨later, hlater, -⟩, -⟩
      cases hlater
  | cons s rest ih =>
    obtain ⟨hfirst, hrest⟩ := List.pairwise_cons.mp hsorted
    obtain ⟨hagree, htrails⟩ := ih hrest
    constructor
    · intro last hlast
      apply agree_cons henabled hfl hcooldown hsorted hlast
      · rintro last' (rfl | rfl)
        · exact hagree _ fun instant hinstant s' hs' =>
            hlast instant hinstant s' (List.mem_cons_of_mem _ hs')
        · apply hagree
          rintro instant ⟨⟩
          exact hfirst
      · exact fun hpos hcool => htrails last s.ts hpos hcool hfirst
    · intro last t hpos hcool ht
      have hthere : ∀ s' ∈ rest, t ≤ s'.ts := fun s' hs' => ht s' (List.mem_cons_of_mem _ hs')
      apply trails_cons henabled hfl.zero hpos hsorted hcool ht
      · apply hagree
        rintro instant ⟨⟩
        exact hthere
      · exact htrails last t hpos hcool hthere

end Ordered

section Doubles

variable [FloorRing K] [IsStrictOrderedRing K]

theorem rounds_binary64 : Rounds (binary64 : K → K) :=
  ⟨nearest_zero, fun _ _ hx hle => nearest_le_nearest hx hle⟩

/-- Up to the year 2242 a double tells two microseconds apart. -/
theorem toSec_lt_toSec {t' : Nat} (h : t < t') (hyear : t' < 2 ^ 33 * 1000000) :
    toSec (binary64 : K → K) t < toSec binary64 t' := by
  have hpos : (0 : K) < t' / 1000000 := by
    have ht' : (0 : K) < t' := Nat.cast_pos.mpr (by omega)
    positivity
  have hbelow : ((t' : K) / 1000000) < 2 ^ (33 : Int) := by
    rw [div_lt_iff₀ (by positivity)]
    exact_mod_cast hyear
  have hspacing : spacing 52 ((t' : K) / 1000000) ≤ 2 ^ (-20 : Int) := spacing_le hpos hbelow
  have hsmall : (2 : K) ^ (-20 : Int) < 1 / 1000000 := by norm_num
  have hnext : ((t : K) + 1) / 1000000 ≤ t' / 1000000 := by
    gcongr
    exact_mod_cast h
  apply nearest_lt_nearest (by positivity)
  rw [add_div] at hnext
  linarith

theorem toSec_injOn : Set.InjOn (toSec (binary64 : K → K)) {t | t < 2 ^ 33 * 1000000} := by
  intro t ht t' ht' heq
  rcases lt_trichotomy t t' with hlt | hsame | hlt
  · exact absurd heq (toSec_lt_toSec hlt ht').ne
  · exact hsame
  · exact absurd heq (toSec_lt_toSec hlt ht).ne'

theorem eq_of_map_toSec {instants' : List Nat} (hfirst : ∀ t ∈ instants, t < 2 ^ 33 * 1000000)
    (hsecond : ∀ t ∈ instants', t < 2 ^ 33 * 1000000)
    (h : instants.map (toSec (binary64 : K → K)) = instants'.map (toSec binary64)) :
    instants = instants' := by
  have hback : ∀ l : List Nat, (∀ t ∈ l, t < 2 ^ 33 * 1000000) →
      (l.map (toSec binary64)).map
        (Function.invFunOn (toSec (binary64 : K → K)) {t | t < 2 ^ 33 * 1000000}) = l := by
    intro l hl
    rw [List.map_map]
    exact (List.map_congr_left fun t ht => toSec_injOn.leftInvOn_invFunOn (hl t ht)).trans
      (List.map_id l)
  rw [← hback instants hfirst, h, hback instants' hsecond]

/-- **The two policies intervene at the same instants on governed samples**, and up to the year 2242
only there. -/
theorem simulateInterventions_eq_iff (henabled : cfg.enabled = true)
    (hcooldown : 0 ≤ cfg.cooldownPeriod)
    (hsorted : Ascending samples) :
    (Governed binary64 cfg none samples →
        simulateInterventions binary64 samples cfg.dwellThresholds cfg.cooldownPeriod
          = (liveInterventions binary64 cfg none samples).map (toSec binary64))
      ∧ ((∀ s ∈ samples, s.ts < 2 ^ 33 * 1000000) →
        simulateInterventions binary64 samples cfg.dwellThresholds cfg.cooldownPeriod
          = (liveInterventions binary64 cfg none samples).map (toSec binary64) →
        Governed binary64 cfg none samples) := by
  have hsimulate : simulateInterventions binary64 samples cfg.dwellThresholds cfg.cooldownPeriod
      = (offline binary64 cfg none samples).map (toSec binary64) := simulateFrom_eq none
  have hagree : Agree binary64 cfg none samples ↔ Governed binary64 cfg none samples := by
    apply (agree_and_trails henabled rounds_binary64 hcooldown hsorted).1
    rintro instant ⟨⟩
  rw [hsimulate, liveInterventions_eq henabled]
  constructor
  · exact fun hgoverned => congrArg _ (hagree.mpr hgoverned)
  · intro hyears hsame
    have hwithin : ∀ {cooling : Option Nat → Nat → Bool} {qualifies : Sample K → Bool},
        ∀ t ∈ fireWhere cooling qualifies none samples, t < 2 ^ 33 * 1000000 := by
      intro cooling qualifies t ht
      obtain ⟨s, hs, rfl, -⟩ := exists_of_mem_fireWhere ht
      exact hyears s hs
    exact hagree.mp (eq_of_map_toSec (K := K) (fun t ht => hwithin t ht)
      (fun t ht => hwithin t ht) hsame)

end Doubles

/-! ### A lab in which only the time stuck on a step has a threshold -/

def stuckOnly : LearningAnalyticsConfig ℚ :=
  { LearningAnalyticsConfig.default with
    dwellThresholds := fun regime => if regime = .stuckOnStep then some 30 else none }

def stuckSamples : List (Sample ℚ) :=
  [⟨0, .stuckOnStep, 15⟩, ⟨15000000, .stuckOnStep, 30⟩, ⟨30000000, .idle, 0⟩,
    ⟨75000000, .stuckOnStep, 90⟩]

/-- The idle sample falls into the cooldown. -/
theorem stuckSamples_agree :
    simulateInterventions binary64 stuckSamples stuckOnly.dwellThresholds stuckOnly.cooldownPeriod
      = (liveInterventions binary64 stuckOnly none stuckSamples).map (toSec binary64) := by
  have hsorted : Ascending stuckSamples := by
    simp [Ascending, stuckSamples]
  exact (simulateInterventions_eq_iff rfl (by decide +kernel) hsorted).1 (by decide +kernel)

/-- One idle sample: the loop intervenes, the offline policy does not. -/
theorem idle_disagree :
    simulateInterventions binary64 [⟨0, .idle, 0⟩] stuckOnly.dwellThresholds
      stuckOnly.cooldownPeriod
      ≠ (liveInterventions binary64 stuckOnly none [⟨0, .idle, 0⟩]).map (toSec binary64) := by
  decide +kernel

/-- Two samples 30.3 seconds apart, with that cooldown: the difference of the floats falls short of
it. -/
example : ¬ Governed binary64
    { stuckOnly with dwellThresholds := fun _ => some 0, cooldownPeriod := binary64 (303 / 10) }
      none
    [⟨1743262155070607, .idle, 0⟩, ⟨1743262185370607, .idle, 0⟩] := by decide +kernel

end OnlinetLabs.Analytics.OfflinePolicy
