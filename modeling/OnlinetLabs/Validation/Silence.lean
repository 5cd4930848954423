import OnlinetLabs.Validation.Handlers

/-!
# Checks that get no answer

A handler asks, and the environment may not answer: the connection is refused or times out, the call
of vtysh raises, or nothing comes back. No handler then finds its check ok, whatever else it is
told.
-/

namespace OnlinetLabs.Validation.Handlers

open Console (Text)
open Json (Fields)

variable {py : Python} {ctx : RunContext}

/-! ### What counts as no answer -/

/-- No address comes of the connection: it fails, or both times the reply comes back empty. -/
def Attempt.ComesToNothing (py : Python) : Attempt → Prop
  | .failed _ => True
  | .printed first second => (parseShowIp py first).ip = [] ∧ (parseShowIp py second).ip = []

/-- The environment does not answer the request. A ping is answered by replies or by what tells that
there are none. -/
def Silent (py : Python) : (request : Request) → request.Reply → Prop
  | .showIp _, attempts => ∀ attempt < readAttempts, Attempt.ComesToNothing py (attempts attempt)
  | .ping _ _, .printed text => (parsePing py text).received = 0 ∧ saysUnreachable py text = false
  | .cisco _ _, .printed stdout => stdout = []
  | .vtysh _ _ _, .printed _ => False
  | .ping _ _, _ => True
  | .cisco _ _, _ => True
  | .vtysh _ _ _, _ => True

/-- The environment does not answer for the check: of what its handler asks, something is not
answered. -/
def Unanswered (py : Python) (ctx : RunContext) (check : Check) (devices : Devices) : Prop :=
  ∃ handler ∈ handlerOf py ctx check, handler.Meets (Silent py) devices

def NotOk (outcome : Outcome) : Prop := ∀ check, (evalCheck check outcome).ok = false

/-! ### read_show_ip -/

section ReadShowIp

variable {attempts : Nat → Attempt}

theorem showIpOnce_empty {first second : Text} : (showIpOnce py first second).1.ip.isEmpty = true
    ↔ (parseShowIp py first).ip = [] ∧ (parseShowIp py second).ip = [] := by
  unfold showIpOnce
  cases hfirst : (parseShowIp py first).ip with
  | nil => simp
  | cons c rest => simp [hfirst]

theorem readShowIpFrom_eq_none (left attempt : Nat) (log : Text) :
    (readShowIpFrom py attempts left attempt log).1 = none
      ↔ ∀ n < left, (attempts (attempt + n)).ComesToNothing py := by
  induction left generalizing attempt log with
  | zero => exact iff_of_true rfl fun n hn => absurd hn (Nat.not_lt_zero n)
  | succ left ih =>
    have hshift : (∀ n < left + 1, (attempts (attempt + n)).ComesToNothing py)
        ↔ (attempts attempt).ComesToNothing py
        ∧ ∀ n < left, (attempts (attempt + 1 + n)).ComesToNothing py := by
      rw [Nat.forall_lt_succ_left]
      simp only [Nat.add_zero, Nat.add_assoc, Nat.add_comm 1]
    rw [hshift, readShowIpFrom]
    cases hattempt : attempts attempt with
    | failed message =>
      rw [ih]
      exact (and_iff_right trivial).symm
    | printed first second =>
      have hnothing : (Attempt.printed first second).ComesToNothing py
          ↔ (showIpOnce py first second).1.ip.isEmpty = true := showIpOnce_empty.symm
      rw [hnothing]
      by_cases hempty : (showIpOnce py first second).1.ip.isEmpty = true
      · simp only [if_pos hempty, ih]
        exact (and_iff_right hempty).symm
      · simp only [if_neg hempty]
        exact iff_of_false (Option.some_ne_none _) fun h => hempty h.1

/-- `read_show_ip` gives up exactly where every attempt comes to nothing. -/
theorem readShowIp_eq_none :
    (readShowIp py attempts).1 = none ↔ ∀ attempt < readAttempts,
      (attempts attempt).ComesToNothing py := by
  rw [readShowIp, readShowIpFrom_eq_none]
  simp only [Nat.zero_add]

end ReadShowIp

/-! ### The handlers -/

theorem notOk_failed {expect : Fields} {error : String} {log : Text} {devices : Devices} :
    NotOk ((failed expect error log).run devices) := fun _ => rfl

theorem notOk_consoleUnreadable {expect : Fields} {name : Json} {attempts : Nat} {log : Text}
    {devices : Devices} :
    NotOk ((consoleUnreadable expect name attempts log).run devices) := fun _ => rfl

theorem notOk_raises {message : String} : NotOk (.raises message) := fun _ => rfl

/-- Where something is not answered, the check is not ok. -/
abbrev Fair (py : Python) (handler : Handler) : Prop := handler.Spoils (Silent py) NotOk

theorem fair_withShownIp {console : NodeConsole} {name : Json} {expect : Fields}
    {next : ShownIp → Text → Handler}
    (h : ∀ parsed log, Fair py (next parsed log)) :
    Fair py (withShownIp py console name expect next) := by
  apply Dialogue.Spoils.ask
  · intro attempts hsilent devices
    have hnone : (readShowIp py attempts).1 = none := readShowIp_eq_none.mpr hsilent
    generalize readShowIp py attempts = found at hnone ⊢
    obtain ⟨parsed, log⟩ := found
    cases hnone
    exact notOk_consoleUnreadable
  · intro attempts _
    split
    · exact Dialogue.spoils_done _
    · exact h _ _

theorem fair_addressCheck {verdict : ShownIp → Bool} {params expect : Fields} :
    Fair py (addressCheck py ctx verdict params expect) := by
  unfold addressCheck
  split
  · exact spoils_failed
  · exact spoils_withNode fun _ console _ _ => fair_withShownIp fun parsed log => spoils_judged

theorem pinged_of_silent {name : Json} {expect : Fields} {text : Text}
    (h : (parsePing py text).received = 0 ∧ saysUnreachable py text = false) :
    pinged py name expect text = consoleUnreadable expect name 1 text := if_pos h

theorem fair_vpcsPing {params expect : Fields} : Fair py (vpcsPing py ctx params expect) := by
  unfold vpcsPing
  split
  · rename_i name target _ _
    refine spoils_withNode fun _ console _ _ => Dialogue.Spoils.ask ?_ ?_
    · intro exchange hsilent devices
      cases exchange with
      | refused message => exact notOk_failed
      | lost message => exact notOk_failed
      | printed text =>
        change NotOk ((pinged py name expect text).run devices)
        rw [pinged_of_silent hsilent]
        exact notOk_consoleUnreadable
    · intro exchange _
      cases exchange with
      | refused message => exact spoils_failed
      | lost message => exact spoils_failed
      | printed text => exact spoils_pinged
  · exact spoils_failed

theorem fair_vpcsPingNode {params expect : Fields} :
    Fair py (vpcsPingNode py ctx params expect) := by
  unfold vpcsPingNode
  split
  · exact spoils_failed
  · refine spoils_withNode fun _ console _ _ => fair_withShownIp fun parsed log => ?_
    dsimp only
    split
    · exact Dialogue.spoils_done _
    · exact fair_vpcsPing

/-- A way to run a command that is fair where the check is not ok when nothing is printed. -/
def FairExec (py : Python) (exec : Exec) : Prop :=
  ∀ name command expect (next : Text → Handler), (∀ devices, NotOk ((next []).run devices)) →
    (∀ stdout, Fair py (next stdout)) → Fair py (exec name command expect next)

theorem fairExec_execOrError : FairExec py (execOrError py ctx) := by
  intro name command expect next _ hnext
  refine spoils_withNode fun _ nodeId _ _ => ?_
  split
  · exact spoils_failed
  · apply Dialogue.Spoils.ask
    · intro exchange hsilent devices
      cases exchange with
      | refused message => exact notOk_failed
      | lost message => exact notOk_failed
      | printed stdout => exact hsilent.elim
    · intro exchange _
      cases exchange with
      | refused message => exact spoils_failed
      | lost message => exact spoils_failed
      | printed stdout => exact hnext stdout

theorem fairExec_execCisco : FairExec py (execCisco py ctx) := by
  intro name command expect next hnothing hnext
  refine spoils_withNode fun _ console _ _ => Dialogue.Spoils.ask ?_ ?_
  · intro exchange hsilent devices
    cases exchange with
    | refused message => exact notOk_failed
    | lost message => exact notOk_raises
    | printed stdout =>
      obtain rfl : stdout = [] := hsilent
      exact hnothing devices
  · intro exchange _
    cases exchange with
    | refused message => exact spoils_failed
    | lost message => exact Dialogue.spoils_done _
    | printed stdout => exact hnext stdout

theorem fair_ospfNeighbor {exec : Exec} {parse : Text → Json → Option Text}
    {agrees : Text → Json → Except String Bool}
    {params expect : Fields} (hexec : FairExec py exec)
    (hparse : ∀ neighborId, parse [] neighborId = none) :
    Fair py (ospfNeighbor exec parse agrees params expect) := by
  unfold ospfNeighbor
  split
  · exact spoils_failed
  · split
    · refine hexec _ _ _ _ (fun devices => ?_) fun stdout => spoils_judged
      simp only [hparse]
      exact fun _ => rfl
    · exact spoils_failed

theorem fair_routeInTable {exec : Exec} {parse : Text → Json → Option (Text × Text)}
    {params expect : Fields}
    (hexec : FairExec py exec) (hparse : ∀ routedPrefix, parse [] routedPrefix = none) :
    Fair py (routeInTable py exec parse params expect) := by
  unfold routeInTable
  split
  · exact spoils_failed
  · split
    · refine hexec _ _ _ _ (fun devices => ?_) fun stdout => spoils_judged
      simp only [hparse]
      exact fun _ => rfl
    · exact spoils_failed

theorem fair_ciscoInterfaceBrief {params expect : Fields} :
    Fair py (ciscoInterfaceBrief py ctx params expect) := by
  unfold ciscoInterfaceBrief
  split
  · exact spoils_failed
  · split
    · exact spoils_failed
    · refine fairExec_execCisco _ _ _ _ (fun devices => notOk_failed) fun stdout => ?_
      split
      · exact spoils_failed
      · exact spoils_judged

/-- One case per kind of check. -/
theorem fair_getHandler {kind : String} {handler : Fields → Fields → Handler}
    (h : getHandler py ctx kind = some handler) (params expect : Fields) :
    Fair py (handler params expect) := by
  unfold getHandler at h
  split at h
  all_goals cases h
  · exact fair_addressCheck
  · exact fair_vpcsPing
  · exact fair_addressCheck
  · exact fair_vpcsPingNode
  · exact fair_ospfNeighbor fairExec_execOrError fun _ => rfl
  · exact fair_routeInTable fairExec_execOrError fun _ => rfl
  · exact fair_ospfNeighbor fairExec_execCisco fun _ => rfl
  · exact fair_routeInTable fairExec_execCisco fun _ => rfl
  · exact fair_ciscoInterfaceBrief

/-- **A check that gets no answer is not ok.** -/
theorem not_ok_of_unanswered {check : Check} {devices : Devices}
    (h : Unanswered py ctx check devices) :
    (evalCheck check (outcomeOf py ctx check devices)).ok = false := by
  obtain ⟨handler, hhandler, hmeets⟩ := h
  obtain ⟨found, hfound, rfl⟩ := Option.map_eq_some_iff.mp hhandler
  have hfair := fair_getHandler hfound check.params check.expected devices hmeets check
  rwa [outcomeOf, handlerOf, hfound, Option.map_some]

end OnlinetLabs.Validation.Handlers
