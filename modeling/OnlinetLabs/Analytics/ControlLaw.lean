import OnlinetLabs.Analytics.ProcessState

/-!
# The control law

One function from the state of the process to what the loop does at a decision point. Its gates
stand in a fixed order, and a verdict names the gate that gave it.
-/

namespace OnlinetLabs.Analytics

variable {K : Type} [Field K] [LinearOrder K]

inductive ControlArm where
  | open_
  | closed
deriving Repr, DecidableEq

def ControlArm.value : ControlArm → String
  | .open_ => "open"
  | .closed => "closed"

inductive Action where
  | intervene
  | withhold
  | skip
deriving Repr, DecidableEq

structure Decision where
  action : Action
  reason : String
deriving Repr, DecidableEq

def dwellThreshold (cfg : LearningAnalyticsConfig K) (regime : ProcessRegime) : K :=
  (cfg.dwellThresholds regime).getD 0

def coolingDown (cfg : LearningAnalyticsConfig K) (last : Option Nat) (now : Nat) : Bool :=
  last.any fun instant => decide (seconds now instant < cfg.cooldownPeriod)

/-- The gates of `should_intervene`, after its test of the cooldown. -/
def passGates (regime : ProcessRegime) (dwell : K) (arm : ControlArm) (cooling : Bool)
    (cfg : LearningAnalyticsConfig K) (mrtThreshold holdDraw : Option K) : Decision :=
  if !isBad regime then ⟨.skip, "productive"⟩
  else if dwell < mrtThreshold.getD (dwellThreshold cfg regime) then
    ⟨.skip, "dwell_below_threshold"⟩
  else if !cfg.enabled then ⟨.skip, "interventions_disabled"⟩
  else if cooling then ⟨.skip, "cooldown"⟩
  else if arm = .open_ then ⟨.withhold, "open_arm"⟩
  else if holdDraw.any fun draw => decide (draw < cfg.mrtHoldProbability) then
    ⟨.withhold, "mrt_hold"⟩
  else ⟨.intervene, if holdDraw.isSome then "mrt_intervene" else "threshold_reached"⟩

def shouldIntervene (regime : ProcessRegime) (dwell : K) (arm : ControlArm)
    (lastInterventionAt : Option Nat) (cfg : LearningAnalyticsConfig K) (now : Nat)
    (mrtThreshold holdDraw : Option K) : Decision :=
  passGates regime dwell arm (coolingDown cfg lastInterventionAt now) cfg mrtThreshold holdDraw

section Verdicts

variable {regime : ProcessRegime} {dwell : K} {arm : ControlArm} {last : Option Nat}
  {cfg : LearningAnalyticsConfig K} {now : Nat} {mrtThreshold holdDraw : Option K}

/-- What the law has checked at a decision point, whatever it then does. -/
structure Eligible (regime : ProcessRegime) (dwell threshold : K) (last : Option Nat)
    (cfg : LearningAnalyticsConfig K) (now : Nat) : Prop where
  bad : isBad regime = true
  dwelt : threshold ≤ dwell
  enabled : cfg.enabled = true
  cooled : coolingDown cfg last now = false

/-- A point that is not skipped has passed every gate. -/
theorem eligible_of_not_skip
    (h : (shouldIntervene regime dwell arm last cfg now mrtThreshold holdDraw).action ≠ .skip) :
    Eligible regime dwell (mrtThreshold.getD (dwellThreshold cfg regime)) last cfg now := by
  unfold shouldIntervene passGates at h
  split at h
  · exact absurd rfl h
  · rename_i hbad
    split at h
    · exact absurd rfl h
    · rename_i hdwelt
      split at h
      · exact absurd rfl h
      · rename_i henabled
        split at h
        · exact absurd rfl h
        · rename_i hcooled
          exact ⟨by simpa using hbad, le_of_not_gt hdwelt, by simpa using henabled,
            by simpa using hcooled⟩

/-- The arm is checked before the draw, so no draw turns an open arm into a treatment. -/
theorem arm_of_intervene
    (h : (shouldIntervene regime dwell arm last cfg now mrtThreshold holdDraw).action
      = .intervene) : arm = .closed := by
  cases arm with
  | closed => rfl
  | open_ =>
    unfold shouldIntervene passGates at h
    rw [if_pos rfl] at h
    repeat' split at h
    all_goals exact absurd h (by decide)

end Verdicts

/-! ### Time and the cooldown -/

section Cooldown

variable [IsStrictOrderedRing K] {cfg : LearningAnalyticsConfig K} {last : Option Nat}
  {earlier now later : Nat}

theorem seconds_le_seconds {now' : Nat} (hnow : now ≤ now') (hearlier : earlier ≤ later) :
    (seconds now later : K) ≤ seconds now' earlier := by
  unfold seconds
  have hn : (now : K) ≤ now' := Nat.cast_le.mpr hnow
  have he : (earlier : K) ≤ later := Nat.cast_le.mpr hearlier
  gcongr

theorem coolingDown_later (h : coolingDown cfg last now = false) (hle : now ≤ later) :
    coolingDown cfg last later = false := by
  cases last with
  | none => rfl
  | some instant =>
    simp only [coolingDown, Option.any_some, decide_eq_false_iff_not, not_lt] at h ⊢
    exact h.trans (seconds_le_seconds hle le_rfl)

theorem cooldown_le_of_not_coolingDown {instant : Nat} (h : coolingDown cfg last now = false)
    (hlast : last = some instant) (hle : earlier ≤ instant) :
    cfg.cooldownPeriod ≤ seconds now earlier := by
  subst hlast
  simp only [coolingDown, Option.any_some, decide_eq_false_iff_not, not_lt] at h
  exact h.trans (seconds_le_seconds le_rfl hle)

end Cooldown

end OnlinetLabs.Analytics
