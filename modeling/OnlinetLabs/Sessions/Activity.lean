import OnlinetLabs.Sessions.Models

/-!
# Liveness of a session

`last_seen_at` tells the reclaimer when the learner was last at work. A request stamps it, and so
does the observer of the lab when the devices have changed.
-/

namespace OnlinetLabs.Sessions

structure SeenSession extends LearningSession where
  lastSeenAt : Time
  pausedAt : Option Time := none
  locale : String := "en"
deriving Repr, DecidableEq

def seconds (n : Nat) : Time := n * 1000000

/-- `TOUCH_THROTTLE_SEC`. -/
def touchThrottle : Time := seconds 30

/-- `IDLE_THRESHOLD_MIN`. -/
def idleThreshold : Time := minutes 30

namespace SeenSession

variable {s : SeenSession} {now cutoff : Time}

/-- `last_seen_at < now - timedelta(seconds=TOUCH_THROTTLE_SEC)`. -/
def isStale (now : Time) (s : SeenSession) : Bool := decide (s.lastSeenAt + touchThrottle < now)

/-- The UPDATE of `touch_observed_session`. -/
def touch (now : Time) (s : SeenSession) : SeenSession :=
  if s.isStale now then { s with lastSeenAt := now } else s

/-- The UPDATE of `touch_session`, which names the owner as well. -/
def touchOwned (now : Time) (userId : UserId) (s : SeenSession) : SeenSession :=
  if s.userId == userId then s.touch now else s

/-- The filter of `_reclaim_idle_sessions`. -/
def isIdle (cutoff : Time) (s : SeenSession) : Bool :=
  s.status == .active && s.pausedAt.isNone && decide (s.lastSeenAt < cutoff)

/-- A stamp moves exactly where it is stale. -/
theorem lastSeenAt_touch_eq_iff : (s.touch now).lastSeenAt = s.lastSeenAt ↔ ¬ s.isStale now := by
  unfold touch
  by_cases hstale : s.isStale now = true
  · have hlt : s.lastSeenAt + touchThrottle < now := by simpa [isStale] using hstale
    have hne : now ≠ s.lastSeenAt := Nat.ne_of_gt (Nat.lt_of_le_of_lt (Nat.le_add_right _ _) hlt)
    simp [hstale, hne]
  · simp [hstale]

end SeenSession

end OnlinetLabs.Sessions
