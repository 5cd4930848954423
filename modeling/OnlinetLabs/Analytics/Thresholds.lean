import OnlinetLabs.Analytics.Criterion
import OnlinetLabs.Lib.CoordinateDescent
import OnlinetLabs.Lib.Cooldown
import OnlinetLabs.Lib.Dict

/-!
# Deriving the dwell thresholds

`thresholds.py` replays the control law over recorded sessions, charges each replay by the criterion
and chooses the thresholds regime by regime. The replay is a walk that cools down, and the choice a
coordinate descent over the grid.
-/

namespace OnlinetLabs.Analytics.Thresholds

open Criterion
open Cooldown (fire ready)
open CoordinateDescent (descend firsts pointAt)

variable {K : Type} [Field K] [LinearOrder K]

/-- The loop of `simulate_interventions`, from what it has fired last. -/
def simulateFrom (dwellThresholds : Dict String K) (cooldownSeconds : K) :
    Option K → List (Sample K) → List (Intervention K)
  | _, [] => []
  | lastFireTs, s :: rest =>
      if !isBadRegime s.regime then simulateFrom dwellThresholds cooldownSeconds lastFireTs rest
      else
        match dwellThresholds.get? s.regime with
        | none => simulateFrom dwellThresholds cooldownSeconds lastFireTs rest
        | some threshold =>
            if s.dwell < threshold then simulateFrom dwellThresholds cooldownSeconds lastFireTs rest
            else
              let sTs := toSec s.ts
              if lastFireTs.any fun last => decide (sTs - last < cooldownSeconds) then
                simulateFrom dwellThresholds cooldownSeconds lastFireTs rest
              else ⟨.float sTs⟩ :: simulateFrom dwellThresholds cooldownSeconds (some sTs) rest

def simulateInterventions (samples : List (Sample K)) (dwellThresholds : Dict String K)
    (cooldownSeconds : K) :
    List (Intervention K) := simulateFrom dwellThresholds cooldownSeconds none samples

def truncateAtInterventions (samples : List (Sample K)) (interventions : List (Intervention K)) :
    List (Sample K) :=
  if interventions.isEmpty then samples
  else
    let ivTsSorted := sorted (interventions.map fun iv => toSec iv.ts)
    samples.map fun s =>
      let sTs := toSec s.ts
      if isBadRegime s.regime && ivTsSorted.any fun ivT => decide (ivT ≤ sTs) then
        { s with regime := "productive", dwell := 0 }
      else s

abbrev Counterfactual (K : Type) := List (Sample K) → List (Intervention K) → List (Sample K)

structure Session (K : Type) where
  samples : List (Sample K)
  detections : Option (List (Sample K))

/-- `s.get("detections") or s["samples"]`. -/
def Session.firingSamples (s : Session K) : List (Sample K) :=
  match s.detections with
  | none => s.samples
  | some detections => if detections.isEmpty then s.samples else detections

def totalJ (sessions : List (Session K)) (costs : Costs K) (dwellThresholds : Dict String K)
    (cooldownSeconds : K)
    (counterfactual : Counterfactual K) : K :=
  sessions.foldl (fun total s =>
    let ivs := simulateInterventions s.firingSamples dwellThresholds cooldownSeconds
    let truncated := counterfactual s.samples ivs
    total + (computeJ s.samples ivs costs (some truncated)).J) 0

/-- The inner loop of `derive_T_k`: the candidate kept and its criterion, infinite before the
first. -/
def keepBest (J : K → K) (best : K × Option K) (tk : K) : K × Option K :=
  let j := J tk
  if best.2.all fun bestJ => decide (j < bestJ) then (tk, some j) else best

/-- The candidate a regime gets; `candidates[0]` raises on no candidates. -/
def bestCandidate (J : K → K) (candidates : List K) : Option K :=
  candidates.head?.map fun first => (candidates.foldl (keepBest J) (first, none)).1

/-- The outer loop of `derive_T_k`, over what it returns and what it keeps for the regimes to
come. -/
def deriveFrom (J : Dict String K → K) :
    Dict String K → Dict String K → List (String × List K) → Option (Dict String K)
  | result, _, [] => some result
  | result, currentThresholds, (regime, candidates) :: rest =>
      (bestCandidate (fun tk => J (currentThresholds.set regime tk)) candidates).bind fun bestTk =>
        deriveFrom J (result.set regime bestTk) (currentThresholds.set regime bestTk) rest

def deriveTk (sessions : List (Session K)) (costs : Costs K) (grid : Dict String (List K))
    (cooldownSeconds : K)
    (counterfactual : Counterfactual K) : Option (Dict String K) :=
  let currentThresholds : Dict String K := ⟨firsts grid.entries⟩
  deriveFrom (fun trial => totalJ sessions costs trial cooldownSeconds counterfactual) ⟨[]⟩
    currentThresholds
    grid.entries

/-! ### The descent -/

variable {sessions : List (Session K)} {costs : Costs K} {grid : Dict String (List K)}
  {cooldownSeconds : K}
  {counterfactual : Counterfactual K}

omit [Field K] in
/-- The candidate kept is the first minimiser so far. -/
theorem keepBest_argmin {J : K → K} {first : K} (candidates : List K) :
    (candidates.foldl (keepBest J) (first, none)).2 = (candidates.argmin J).map J
      ∧ ∀ a ∈ candidates.argmin J, (candidates.foldl (keepBest J) (first, none)).1 = a := by
  induction candidates using List.reverseRecOn with
  | nil => exact ⟨rfl, fun a ha => by cases ha⟩
  | append_singleton candidates tk ih =>
    obtain ⟨hj, hbest⟩ := ih
    rw [List.foldl_append, List.foldl_cons, List.foldl_nil, List.argmin_concat, keepBest, hj]
    cases hargmin : candidates.argmin J with
    | none => simp
    | some a =>
      rw [hargmin] at hj
      by_cases hlt : J tk < J a
      · simp [hlt]
      · simpa [hlt] using ⟨hj, hbest a hargmin⟩

omit [Field K] in
theorem bestCandidate_eq {J : K → K} (candidates : List K) :
    bestCandidate J candidates = candidates.argmin J := by
  cases candidates with
  | nil => rfl
  | cons first rest =>
    obtain ⟨a, ha⟩ := CoordinateDescent.exists_argmin J (List.cons_ne_nil first rest)
    rw [ha, bestCandidate, List.head?_cons, Option.map_some,
      (keepBest_argmin (first :: rest)).2 a ha]

omit [Field K] in
/-- The two dictionaries are the values taken so far, one of them with the first candidates of the
regimes to come. -/
theorem deriveFrom_eq {J : Dict String K → K} {done : List (String × K)}
    {entries : List (String × List K)}
    (hkeys : (done.map Prod.fst ++ entries.map Prod.fst).Nodup) :
    deriveFrom J ⟨done⟩ ⟨done ++ firsts entries⟩ entries
      = (descend (fun point => J ⟨point⟩) done entries).map Dict.mk := by
  induction entries generalizing done with
  | nil => rfl
  | cons entry rest ih =>
    obtain ⟨regime, candidates⟩ := entry
    have hnew : regime ∉ done.map Prod.fst := by
      intro hmem
      exact (List.nodup_append.mp hkeys).2.2 regime hmem regime List.mem_cons_self rfl
    rw [deriveFrom, descend, bestCandidate_eq]
    cases candidates with
    | nil => rfl
    | cons first others =>
      have hset : ∀ tk, Dict.set ⟨done ++ firsts ((regime, first :: others) :: rest)⟩ regime tk
          = ⟨pointAt done regime rest tk⟩ := fun tk => congrArg Dict.mk (Dict.assign_append hnew)
      simp only [hset]
      cases (first :: others).argmin fun tk => J ⟨pointAt done regime rest tk⟩ with
      | none => rfl
      | some tk =>
        have hresult : Dict.set ⟨done⟩ regime tk = ⟨done ++ [(regime, tk)]⟩ :=
          congrArg Dict.mk (Dict.assign_of_notMem hnew)
        have hpoint : pointAt done regime rest tk = done ++ [(regime, tk)] ++ firsts rest := by
          rw [pointAt, List.append_assoc]
          rfl
        have hkeys' : ((done ++ [(regime, tk)]).map Prod.fst ++ rest.map Prod.fst).Nodup := by
          simpa using hkeys
        rw [Option.bind_some, Option.bind_some, hresult, hpoint]
        exact ih hkeys'

/-- What the derivation returns at its turn for a regime, and the criterion at the end. -/
theorem deriveTk_descends (sessions : List (Session K)) (costs : Costs K)
    (grid : Dict String (List K))
    (cooldownSeconds : K) (counterfactual : Counterfactual K) (hkeys : grid.keys.Nodup)
    (hcandidates : ∀ entry ∈ grid.entries, entry.2 ≠ []) :
    ∃ result, deriveTk sessions costs grid cooldownSeconds counterfactual = some result
      ∧ result.keys = grid.keys
      ∧ (∀ before regime candidates after, grid.entries = before ++ (regime, candidates) :: after →
          ∃ earlier tk later, result.entries = earlier ++ (regime, tk) :: later
            ∧ earlier.map Prod.fst = before.map Prod.fst ∧ tk ∈ candidates
            ∧ (∀ t ∈ candidates,
                totalJ sessions costs ⟨earlier ++ (regime, tk) :: firsts after⟩ cooldownSeconds
                  counterfactual
                  ≤ totalJ sessions costs ⟨earlier ++ (regime, t) :: firsts after⟩ cooldownSeconds
                    counterfactual)
            ∧ (∀ t ∈ candidates,
                totalJ sessions costs ⟨earlier ++ (regime, t) :: firsts after⟩ cooldownSeconds
                  counterfactual
                  ≤ totalJ sessions costs ⟨earlier ++ (regime, tk) :: firsts after⟩ cooldownSeconds
                    counterfactual →
                candidates.idxOf tk ≤ candidates.idxOf t))
      ∧ totalJ sessions costs result cooldownSeconds counterfactual
          ≤ totalJ sessions costs ⟨firsts grid.entries⟩ cooldownSeconds counterfactual := by
  let J : List (String × K) → K := fun point =>
      totalJ sessions costs ⟨point⟩ cooldownSeconds counterfactual
  have hexists : ∃ point, descend J [] grid.entries = some point :=
    CoordinateDescent.exists_descend hcandidates
  obtain ⟨point, hpoint⟩ := hexists
  have hdone : (([] : List (String × K)).map Prod.fst ++ grid.entries.map Prod.fst).Nodup := hkeys
  have hresult : deriveTk sessions costs grid cooldownSeconds counterfactual = some ⟨point⟩ :=
    (deriveFrom_eq hdone).trans (congrArg (Option.map Dict.mk) hpoint)
  refine ⟨⟨point⟩, hresult, ?_, ?_, CoordinateDescent.descend_le hpoint⟩
  · obtain ⟨chosen, rfl, hchosen⟩ := CoordinateDescent.descend_append hpoint
    exact hchosen
  · intro before regime candidates after hgrid
    rw [hgrid] at hpoint
    obtain ⟨earlier, tk, later, hentries, hearlier, -, hargmin⟩ :=
      CoordinateDescent.descend_turn hpoint
    obtain ⟨hmem, hle, hfirst⟩ := List.argmin_eq_some_iff.mp hargmin
    exact ⟨earlier, tk, later, hentries, hearlier, hmem, hle, hfirst⟩

theorem deriveTk_descends_instance :
    ∃ result, deriveTk [⟨[⟨.float 0, "idle", 1⟩, ⟨.float 1, "productive", 0⟩], none⟩]
      (⟨1, 1, 2⟩ : Costs ℚ)
        ⟨[("idle", [0, 5]), ("stuck_on_step", [3])]⟩ 0 truncateAtInterventions = some result
      ∧ result.keys = ["idle", "stuck_on_step"] := by
  obtain ⟨result, hresult, hkeys, -⟩ := deriveTk_descends
    [⟨[⟨.float 0, "idle", 1⟩, ⟨.float 1, "productive", 0⟩], none⟩] (⟨1, 1, 2⟩ : Costs ℚ)
    ⟨[("idle", [0, 5]), ("stuck_on_step", [3])]⟩ 0 truncateAtInterventions (by decide) (by simp)
  exact ⟨result, hresult, hkeys⟩

/-! ### The replay -/

def qualifies (dwellThresholds : Dict String K) (s : Sample K) : Bool :=
  isBadRegime s.regime && (dwellThresholds.get? s.regime).any fun threshold =>
    decide (threshold ≤ s.dwell)

variable {dwellThresholds higher : Dict String K} {samples : List (Sample K)}

theorem ready_iff {lastFireTs : Option K} {sTs : K} :
    ready cooldownSeconds lastFireTs sTs = true
      ↔ (lastFireTs.any fun last => decide (sTs - last < cooldownSeconds)) = false := by
  cases lastFireTs with
  | none => simp [ready]
  | some last => simp [ready]

/-- The replay is a walk that cools down. -/
theorem simulateFrom_eq {lastFireTs : Option K} :
    simulateFrom dwellThresholds cooldownSeconds lastFireTs samples
      = (fire cooldownSeconds clock (qualifies dwellThresholds) lastFireTs samples).map
          fun s => ⟨.float (clock s)⟩ := by
  induction samples generalizing lastFireTs with
  | nil => rfl
  | cons s rest ih =>
    have hskip :
        ¬(qualifies dwellThresholds s = true ∧ ready cooldownSeconds lastFireTs (clock s) = true) →
        simulateFrom dwellThresholds cooldownSeconds lastFireTs rest
          = (fire cooldownSeconds clock (qualifies dwellThresholds) lastFireTs (s :: rest)).map
              fun s => ⟨.float (clock s)⟩ := by
      intro hnot
      rw [Cooldown.fire_skips hnot]
      exact ih
    rw [simulateFrom]
    cases hbad : isBadRegime s.regime with
    | false => exact hskip (by simp [qualifies, hbad])
    | true =>
      cases hthreshold : dwellThresholds.get? s.regime with
      | none => exact hskip (by simp [qualifies, hthreshold])
      | some threshold =>
        dsimp only
        rw [Bool.not_true, if_neg Bool.false_ne_true]
        by_cases hdwell : s.dwell < threshold
        · rw [if_pos hdwell]
          exact hskip (by simp [qualifies, hthreshold, hdwell])
        · have hqualifies : qualifies dwellThresholds s = true := by
            simp [qualifies, hbad, hthreshold, not_lt.mp hdwell]
          rw [if_neg hdwell]
          cases hcool : lastFireTs.any fun last => decide (toSec s.ts - last < cooldownSeconds) with
          | true =>
            rw [if_pos rfl]
            apply hskip
            rintro ⟨-, hready⟩
            rw [ready_iff, clock, hcool] at hready
            cases hready
          | false =>
            rw [if_neg Bool.false_ne_true, Cooldown.fire_fires hqualifies (ready_iff.mpr hcool), ih]
            rfl

/-- Interventions wait for the cooldown. -/
theorem isChain_simulateInterventions [IsStrictOrderedRing K] :
    (simulateInterventions samples dwellThresholds cooldownSeconds).IsChain fun iv later =>
      cooldownSeconds ≤ toSec later.ts - toSec iv.ts := by
  rw [simulateInterventions, simulateFrom_eq, List.isChain_map]
  exact Cooldown.isChain_fire

/-- Every threshold of the one is set in the other, and no higher there. -/
def Below (dwellThresholds higher : Dict String K) : Prop :=
  ∀ regime t', higher.get? regime = some t' → ∃ t, dwellThresholds.get? regime = some t ∧ t ≤ t'

omit [Field K] in
theorem qualifies_of_below (h : Below dwellThresholds higher) {s : Sample K}
    (hs : qualifies higher s = true) :
    qualifies dwellThresholds s = true := by
  simp only [qualifies, Bool.and_eq_true, Option.any_eq_true, decide_eq_true_eq] at hs ⊢
  obtain ⟨hbad, t', ht', hle⟩ := hs
  obtain ⟨t, ht, htt'⟩ := h s.regime t' ht'
  exact ⟨hbad, t, ht, htt'.trans hle⟩

theorem length_simulateInterventions_le [IsStrictOrderedRing K] (h : Below dwellThresholds higher)
    (hsamples : Ascending samples) :
    (simulateInterventions samples higher cooldownSeconds).length
      ≤ (simulateInterventions samples dwellThresholds cooldownSeconds).length := by
  rw [simulateInterventions, simulateInterventions, simulateFrom_eq, simulateFrom_eq,
    List.length_map, List.length_map]
  apply (Cooldown.length_fire_le (fun s => qualifies_of_below h) hsamples).1 none none fun _ => rfl
  rintro l ⟨⟩

end OnlinetLabs.Analytics.Thresholds
