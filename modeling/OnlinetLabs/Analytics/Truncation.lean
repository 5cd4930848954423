import OnlinetLabs.Analytics.Thresholds

/-!
# What an intervention ends

The counterfactual of `thresholds.py` takes an intervention to end the spell it falls into. The code
compares each bad sample with all the interventions of the session, so a spell that begins after an
intervention ends before it began.
-/

namespace OnlinetLabs.Analytics.Thresholds

open Criterion

variable {K : Type} [Field K] [LinearOrder K] {samples : List (Sample K)}
  {interventions : List (Intervention K)}
  {s : Sample K} {i j j' : Nat}

def BadAt (samples : List (Sample K)) (i : Nat) : Prop := ∃ s, samples[i]? = some s ∧ s.isBad = true

/-- The maximal run of bad samples around the one at `i` begins at `j`. -/
structure SpellStart (samples : List (Sample K)) (j i : Nat) : Prop where
  le : j ≤ i
  bad : ∀ k, j ≤ k → k ≤ i → BadAt samples k
  first : 0 < j → ¬BadAt samples (j - 1)

/-- An intervention lies at or before the sample, and not before its spell. -/
def Treated (samples : List (Sample K)) (interventions : List (Intervention K)) (i : Nat) : Prop :=
  ∃ j start s, SpellStart samples j i ∧ samples[j]? = some start ∧ samples[i]? = some s
    ∧ ∃ iv ∈ interventions, toSec start.ts ≤ toSec iv.ts ∧ toSec iv.ts ≤ toSec s.ts

def resolved (s : Sample K) : Sample K := { s with regime := "productive", dwell := 0 }

/-- The counterfactual resolves the treated samples, and no others. -/
def EndsTreatedSpells (samples : List (Sample K)) (interventions : List (Intervention K)) : Prop :=
  (truncateAtInterventions samples interventions).length = samples.length
    ∧ ∀ i s, samples[i]? = some s →
      (Treated samples interventions i →
        (truncateAtInterventions samples interventions)[i]? = some (resolved s))
      ∧ (¬Treated samples interventions i →
        (truncateAtInterventions samples interventions)[i]? = some s)

/-- Where an intervention lies before a spell, one lies at its start. -/
def StartsTreated (samples : List (Sample K)) (interventions : List (Intervention K)) : Prop :=
  ∀ j start, SpellStart samples j j → samples[j]? = some start →
    (∃ iv ∈ interventions, toSec iv.ts < toSec start.ts) → ∃ iv ∈ interventions,
      toSec iv.ts = toSec start.ts

/-! ### The code -/

/-- What the code resolves: a bad sample with any intervention at or before it. -/
def Late (interventions : List (Intervention K)) (s : Sample K) : Prop :=
  s.isBad = true ∧ ∃ iv ∈ interventions, toSec iv.ts ≤ toSec s.ts

theorem length_truncate :
    (truncateAtInterventions samples interventions).length = samples.length := by
  unfold truncateAtInterventions
  split
  · rfl
  · exact List.length_map _

theorem truncate_of_late (hs : samples[i]? = some s) (h : Late interventions s) :
    (truncateAtInterventions samples interventions)[i]? = some (resolved s) := by
  obtain ⟨hbad, iv, hiv, hle⟩ := h
  have hsome : interventions.isEmpty = false := by
    rw [List.isEmpty_eq_false_iff_exists_mem]
    exact ⟨iv, hiv⟩
  have hany : (sorted (interventions.map fun iv => toSec iv.ts)).any (fun ivT =>
      decide (ivT ≤ toSec s.ts)) = true := by
    rw [List.any_eq_true]
    exact ⟨toSec iv.ts, (sorted_perm _).symm.subset (List.mem_map_of_mem hiv), decide_eq_true hle⟩
  rw [truncateAtInterventions, hsome, if_neg Bool.false_ne_true, List.getElem?_map, hs,
    Option.map_some]
  dsimp only
  rw [hany, show isBadRegime s.regime = true from hbad]
  rfl

theorem truncate_of_not_late (hs : samples[i]? = some s) (h : ¬Late interventions s) :
    (truncateAtInterventions samples interventions)[i]? = some s := by
  unfold truncateAtInterventions
  split
  · exact hs
  · rw [List.getElem?_map, hs, Option.map_some]
    dsimp only
    rw [if_neg]
    intro hboth
    rw [Bool.and_eq_true, List.any_eq_true] at hboth
    obtain ⟨hbad, ivT, hivT, hle⟩ := hboth
    obtain ⟨iv, hiv, rfl⟩ := List.mem_map.mp ((sorted_perm _).subset hivT)
    exact h ⟨hbad, iv, hiv, of_decide_eq_true hle⟩

omit [LinearOrder K] in
theorem resolved_ne (h : s.isBad = true) : resolved s ≠ s := by
  intro heq
  rw [← heq] at h
  cases h

/-! ### Spells -/

omit [Field K] [LinearOrder K] in
theorem SpellStart.unique (h : SpellStart samples j i) (h' : SpellStart samples j' i) : j = j' := by
  have hle : ∀ {j j'}, SpellStart samples j i → SpellStart samples j' i → j ≤ j' := by
    intro j j' h h'
    by_contra hlt
    exact h.first (by omega) (h'.bad (j - 1) (by omega) (by have := h.le; omega))
  exact le_antisymm (hle h h') (hle h' h)

omit [Field K] [LinearOrder K] in
/-- Every bad sample is in a spell. -/
theorem exists_spellStart (h : BadAt samples i) : ∃ j, SpellStart samples j i := by
  induction i with
  | zero =>
      exact ⟨0, le_rfl, fun k _ hk => (Nat.le_zero.mp hk) ▸ h, fun hpos =>
        absurd hpos (lt_irrefl 0)⟩
  | succ i ih =>
    by_cases hbefore : BadAt samples i
    · obtain ⟨j, hj⟩ := ih hbefore
      refine ⟨j, hj.le.trans (Nat.le_succ i), fun k hjk hk => ?_, hj.first⟩
      rcases Nat.of_le_succ hk with hk | rfl
      · exact hj.bad k hjk hk
      · exact h
    · refine ⟨i + 1, le_rfl, fun k hjk hk => ?_, fun _ => hbefore⟩
      rw [le_antisymm hk hjk]
      exact h

theorem late_of_treated (hs : samples[i]? = some s) (h : Treated samples interventions i) :
    Late interventions s := by
  obtain ⟨j, start, s', hstart, -, hs', iv, hiv, -, hle⟩ := h
  rw [hs, Option.some.injEq] at hs'
  subst hs'
  obtain ⟨s', hs', hbad⟩ := hstart.bad i hstart.le le_rfl
  rw [hs, Option.some.injEq] at hs'
  subst hs'
  exact ⟨hbad, iv, hiv, hle⟩

theorem clock_le_of_le (hsamples : Ascending samples) {a b : Sample K} (ha : samples[i]? = some a)
    (hb : samples[j]? = some b) (hij : i ≤ j) : toSec a.ts ≤ toSec b.ts := by
  have hclocks : (samples.map clock).Pairwise (· ≤ ·) := List.pairwise_map.mpr hsamples
  exact Bisect.le_of_getElem? hclocks (by rw [List.getElem?_map, ha]; rfl)
    (by rw [List.getElem?_map, hb]; rfl) hij

/-- **When the counterfactual ends the treated spells only.** -/
theorem endsTreatedSpells_iff (samples : List (Sample K)) (interventions : List (Intervention K))
    (hsamples : Ascending samples) :
    EndsTreatedSpells samples interventions ↔ StartsTreated samples interventions := by
  constructor
  · rintro ⟨-, h⟩ j start hstart hj ⟨iv, hiv, hlt⟩
    obtain ⟨start', hj', hbad⟩ := hstart.bad j le_rfl le_rfl
    rw [hj, Option.some.injEq] at hj'
    subst hj'
    have hout := truncate_of_late hj ⟨hbad, iv, hiv, hlt.le⟩
    have htreated : Treated samples interventions j := by
      by_contra hnot
      rw [(h j start hj).2 hnot, Option.some.injEq] at hout
      exact resolved_ne hbad hout.symm
    obtain ⟨j', start', s', hstart', hj', hs', iv', hiv', hge, hle⟩ := htreated
    rw [← hstart.unique hstart', hj, Option.some.injEq] at hj'
    rw [hj, Option.some.injEq] at hs'
    subst hj' hs'
    exact ⟨iv', hiv', le_antisymm hle hge⟩
  · intro h
    refine ⟨length_truncate, fun i s hs =>
      ⟨fun htreated => truncate_of_late hs (late_of_treated hs htreated), ?_⟩⟩
    intro hnot
    apply truncate_of_not_late hs
    rintro ⟨hbad, iv, hiv, hle⟩
    obtain ⟨j, hstart⟩ := exists_spellStart ⟨s, hs, hbad⟩
    obtain ⟨start, hj, hstartBad⟩ := hstart.bad j le_rfl hstart.le
    have hself : SpellStart samples j j :=
      ⟨le_rfl, fun k hjk hk => hstart.bad k hjk (hk.trans hstart.le), hstart.first⟩
    have hat : ∃ iv ∈ interventions, toSec start.ts ≤ toSec iv.ts ∧ toSec iv.ts ≤ toSec s.ts := by
      by_cases hbefore : toSec iv.ts < toSec start.ts
      · obtain ⟨iv', hiv', heq⟩ := h j start hself hj ⟨iv, hiv, hbefore⟩
        exact ⟨iv', hiv', heq.ge, heq.le.trans (clock_le_of_le hsamples hj hs hstart.le)⟩
      · exact ⟨iv, hiv, not_lt.mp hbefore, hle⟩
    exact hnot ⟨j, start, s, hstart, hj, hs, hat⟩

theorem endsTreatedSpells_instance :
    let log : List (Sample ℚ) := [⟨.float 0, "idle", 0⟩, ⟨.float 10, "productive", 0⟩]
    EndsTreatedSpells log [⟨.float 5⟩] ↔ StartsTreated log [⟨.float 5⟩] :=
  endsTreatedSpells_iff [⟨.float 0, "idle", 0⟩, ⟨.float 10, "productive", 0⟩] [⟨.float 5⟩]
    (by norm_num [Ascending, toSec])

/-- A spell after the treated one is resolved from its start. -/
theorem not_endsTreatedSpells_later :
    let log : List (Sample ℚ) :=
      [⟨.float 0, "idle", 0⟩, ⟨.float 10, "productive", 0⟩, ⟨.float 20, "idle", 0⟩]
    Ascending log ∧ ¬EndsTreatedSpells log [⟨.float 0⟩] := by
  intro log
  refine ⟨by norm_num [log, Ascending, toSec], ?_⟩
  have hlast : log[2]? = some ⟨.float 20, "idle", 0⟩ := rfl
  have hproductive : ¬BadAt log 1 := by
    rintro ⟨s, hs, hbad⟩
    cases hs
    cases hbad
  have hstart : SpellStart log 2 2 := by
    refine ⟨le_rfl, fun k hk hk' => ?_, fun _ => hproductive⟩
    rw [le_antisymm hk' hk]
    exact ⟨_, hlast, rfl⟩
  rintro ⟨-, h⟩
  have hresolved : (truncateAtInterventions log [⟨.float 0⟩])[2]? = some ⟨.float 20,
      "productive", 0⟩ :=
    truncate_of_late hlast ⟨rfl, ⟨.float 0⟩, List.mem_singleton_self _, by norm_num [toSec]⟩
  have huntreated : ¬Treated log [⟨.float 0⟩] 2 := by
    rintro ⟨j, start, s, hj, hget, -, iv, hiv, hge, -⟩
    rw [hj.unique hstart, hlast, Option.some.injEq] at hget
    rw [List.mem_singleton.mp hiv, ← hget] at hge
    norm_num [toSec] at hge
  have hsame := (h 2 _ hlast).2 huntreated
  rw [hresolved] at hsame
  simp at hsame

end OnlinetLabs.Analytics.Thresholds
