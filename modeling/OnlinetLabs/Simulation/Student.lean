import OnlinetLabs.Console.Text
import Mathlib.Algebra.Order.Ring.Rat
import Mathlib.Data.List.Nodup
import Mathlib.Tactic.NormNum
import Mathlib.Tactic.Ring

/-!
# A simulated student

The student has a latent mode, which moves at random, and what they do is drawn from the mode. An
actor types what they do into the consoles of the lab: the right command of a node, from which it
goes on to the next, or the wrong one. When the mode has been productive often enough, the student
submits.

The generator of random numbers is a parameter, and so is Python's `int`. The traits and the odds
are rational numbers.
-/

namespace OnlinetLabs.Simulation

open OnlinetLabs.Console (Text)

/-! ### The tasks of a lab -/

structure NodeTask where
  node : Text
  correctCmd : Text
  wrongCmd : Text
deriving Repr, DecidableEq

structure Check where
  kind : Text
  node : Text
  ip : Text
  subnet : Text
deriving Repr, DecidableEq

/-- `str.partition`, without the separator. -/
def partition (sep : Char) (text : Text) : Text × Text :=
  (text.takeWhile (· ≠ sep), (text.dropWhile (· ≠ sep)).drop 1)

def toText (n : Nat) : Text := (toString n).toList

/-- The address in the next subnet, where it has four parts and the third is a number. -/
def nextSubnet (int : Text → Option Int) (octets : List Text) : Option (List Text) :=
  match octets with
  | [a, b, c, d] => (int c).map fun n => [a, b, toText ((n + 1) % 256).toNat, d]
  | _ => none

def wrongIp (int : Text → Option Int) (ipCidr : Text) : Text :=
  let (addr, suffix) := partition '/' ipCidr
  match nextSubnet int (addr.splitOn '.') with
  | none => ipCidr
  | some octets =>
      let wrong := ['.'].intercalate octets
      if suffix.isEmpty then wrong else wrong ++ '/' :: suffix

def staticTask (int : Text → Option Int) (check : Check) : Option NodeTask :=
  if check.ip.isEmpty then none
  else some ⟨check.node, "ip ".toList ++ check.ip, "ip ".toList ++ wrongIp int check.ip⟩

def dhcpTask (int : Text → Option Int) (check : Check) : Option NodeTask :=
  if check.subnet.isEmpty then none
  else
    let (net, suffix) := partition '/' check.subnet
    (nextSubnet int (net.splitOn '.')).map fun octets =>
      ⟨check.node, "ip dhcp".toList,
        "ip ".toList ++ ['.'].intercalate (octets.take 3 ++ ["50".toList])
          ++ '/' :: if suffix.isEmpty then "24".toList else suffix⟩

/-- `_BUILDERS` -/
def builder (int : Text → Option Int) (check : Check) : Option NodeTask :=
  if check.kind = "vpcs.show_ip".toList then staticTask int check
  else if check.kind = "vpcs.ip_in_subnet".toList then dhcpTask int check
  else none

/-- `build_node_tasks`, of the checks of all steps. The nodes seen are those of the tasks there
are. -/
def buildNodeTasks (int : Text → Option Int) (spec : List (List Check)) : List NodeTask :=
  spec.flatten.foldl
    (fun tasks check =>
      if check.node.isEmpty || (tasks.map NodeTask.node).contains check.node then tasks
      else tasks ++ (builder int check).toList)
    []

/-! ### The policy -/

inductive Action where
  | correctCmd
  | wrongCmd
  | idle
  | repeatError
  | askHelp
  | submit
deriving Repr, DecidableEq

inductive TrueRegime where
  | productive
  | stuckOnStep
  | repeatingErrors
  | idle
  | trialAndError
deriving Repr, DecidableEq

structure StudentProfile where
  skill : ℚ
  persistence : ℚ
  strategy : ℚ
  helpPropensity : ℚ
deriving Repr, DecidableEq

structure StudentState where
  totalSteps : Nat := 5
  step : Nat := 0
  progress : ℚ := 0
  mode : TrueRegime := .productive
  frustration : ℚ := 0
  justHelped : Bool := false
  done : Bool := false
deriving Repr, DecidableEq

/-- A generator: `random`, and `choice` of two, each with what it leaves. -/
structure Random (ρ : Type) where
  random : ρ → ℚ × ρ
  choice : ρ → Bool × ρ

section Policy

variable {ρ : Type} (rng : Random ρ) (profile : StudentProfile)

def pickStruggle (g : ρ) : TrueRegime × ρ :=
  let (first, g) := rng.choice g
  if profile.strategy < 0.4 then (if first then .trialAndError else .repeatingErrors, g)
  else (if first then .stuckOnStep else .idle, g)

def transitionMode (state : StudentState) (g : ρ) : StudentState × ρ :=
  if state.mode = .productive then
    let (x, g) := rng.random g
    if x < (1 - profile.skill) * 0.25 then
      let (mode, g) := pickStruggle rng profile g
      ({ state with mode, justHelped := false }, g)
    else ({ state with justHelped := false }, g)
  else
    let recover := profile.persistence * 0.15 + if state.justHelped then 0.35 else 0
    let (x, g) := rng.random g
    if x < recover then
      ({ state with
        mode := .productive
        frustration := max 0 (state.frustration - 0.3), justHelped := false }, g)
    else if 0.6 < state.frustration then
      let (y, g) := rng.random g
      if y < (1 - profile.persistence) * 0.4
        then ({ state with mode := .idle, justHelped := false }, g)
      else ({ state with justHelped := false }, g)
    else ({ state with justHelped := false }, g)

def struggle (state : StudentState) (g : ρ) : Action × StudentState × ρ :=
  let (x, g) := rng.random g
  if x < profile.helpPropensity * 0.4 + state.frustration * 0.2 then
    (.askHelp, { state with justHelped := true, frustration := max 0 (state.frustration - 0.15) },
      g)
  else
    match state.mode with
    | .repeatingErrors =>
        (.repeatError, { state with frustration := min 1 (state.frustration + 0.15) }, g)
    | .trialAndError =>
        (.wrongCmd, { state with frustration := min 1 (state.frustration + 0.1) }, g)
    | .idle => (.idle, { state with frustration := min 1 (state.frustration + 0.1) }, g)
    | .productive | .stuckOnStep =>
        let (y, g) := rng.random g
        (if y < 0.5 then .wrongCmd else .idle,
          { state with frustration := min 1 (state.frustration + 0.12) }, g)

/-- A productive student, who may be through with a step and with the lab. -/
def work (state : StudentState) : Action × StudentState :=
  let state :=
    { state with progress := state.progress + 0.34, frustration := max 0 (state.frustration - 0.1) }
  if 1 ≤ state.progress then
    let state := { state with step := state.step + 1, progress := 0 }
    if state.totalSteps ≤ state.step then (.submit, { state with done := true })
    else (.correctCmd, state)
  else (.correctCmd, state)

def nextStep (state : StudentState) (g : ρ) : Action × TrueRegime × StudentState × ρ :=
  if state.totalSteps ≤ state.step then (.submit, .productive, { state with done := true }, g)
  else
    let (state, g) := transitionMode rng profile state g
    if state.mode = .productive then
      let (action, state) := work state
      (action, .productive, state, g)
    else
      let (action, state', g) := struggle rng profile state g
      (action, state.mode, state', g)

/-- The loop of `_run_one`, of at most `maxSteps` windows: what is done in each, in what mode, and
the state after. -/
def windows : Nat → StudentState → ρ → List (Action × TrueRegime × StudentState)
  | 0, _, _ => []
  | maxSteps + 1, state, g =>
      let (action, regime, state, g) := nextStep rng profile state g
      (action, regime, state) :: if state.done then [] else windows maxSteps state g

end Policy

/-! ### The actor -/

/-- What a question is asked with: how many there were, the node, and what was typed there. -/
structure HelpContext where
  attempt : Nat
  node : Option Text
  tried : Option Text
deriving Repr, DecidableEq

/-- The actor, with what it has typed into which console, and asked. -/
structure Gns3Actor where
  tasks : List NodeTask
  i : Nat := 0
  askCount : Nat := 0
  lastCmd : Option Text := none
  lastNode : Option Text := none
  typed : List (Text × Text) := []
  asked : List HelpContext := []
deriving Repr, DecidableEq

namespace Gns3Actor

def current (actor : Gns3Actor) : Option NodeTask := actor.tasks[actor.i % actor.tasks.length]?

def helpContext (actor : Gns3Actor) : HelpContext where
  attempt := actor.askCount
  node := actor.lastNode.or (actor.current.map NodeTask.node)
  tried := actor.lastCmd

/-- `_configure`, with what reaches `_send_console`. -/
def configure (actor : Gns3Actor) (correct : Bool) : Gns3Actor :=
  match actor.current with
  | none => actor
  | some task =>
      let cmd := if correct then task.correctCmd else task.wrongCmd
      { actor with
        i := if correct then actor.i + 1 else actor.i
        lastCmd := some cmd
        lastNode := some task.node
        typed := actor.typed ++ [(task.node, cmd)] }

def execute (actor : Gns3Actor) : Action → Gns3Actor
  | .correctCmd => actor.configure true
  | .wrongCmd | .repeatError => actor.configure false
  | .askHelp =>
      { actor with askCount := actor.askCount + 1, asked := actor.asked ++ [actor.helpContext] }
  | .idle | .submit => actor

def typedAt (actor : Gns3Actor) (node : Text) : Option Text :=
  ((actor.typed.filter fun entry => entry.1 = node).getLast?).map Prod.snd

end Gns3Actor

/-! ### What a window does -/

def Emits : TrueRegime → Action → Prop
  | .productive, action => action = .correctCmd ∨ action = .submit
  | .stuckOnStep, action => action = .askHelp ∨ action = .wrongCmd ∨ action = .idle
  | .repeatingErrors, action => action = .askHelp ∨ action = .repeatError
  | .idle, action => action = .askHelp ∨ action = .idle
  | .trialAndError, action => action = .askHelp ∨ action = .wrongCmd

/-- The student is not through, and has typed as many right commands: three for each step, of which
the progress is what there is of the next. -/
structure Working (state : StudentState) (corrects : Nat) : Prop where
  totalSteps : state.totalSteps = 5
  step : state.step < 5
  done : state.done = false
  corrects : ∃ q : Nat, q < 3 ∧ state.progress = q * 0.34 ∧ corrects = 3 * state.step + q

section Windows

variable {ρ : Type} (rng : Random ρ) (profile : StudentProfile) {state : StudentState} (g : ρ)
  {corrects : Nat}

/-- The mode moves, and the work stays. -/
theorem transitionMode_frame : ∃ mode frustration, (transitionMode rng profile state g).1
    = { state with mode, frustration, justHelped := false } := by
  unfold transitionMode
  dsimp only
  repeat' split
  all_goals exact ⟨_, _, rfl⟩

theorem struggle_frame (hmode : state.mode ≠ .productive) :
    Emits state.mode (struggle rng profile state g).1
      ∧ (struggle rng profile state g).1 ≠ .correctCmd
      ∧ (struggle rng profile state g).1 ≠ .submit
      ∧ ∃ frustration justHelped,
        (struggle rng profile state g).2.1 = { state with frustration, justHelped } := by
  obtain ⟨totalSteps, step, progress, mode, frustration, justHelped, done⟩ := state
  unfold struggle
  dsimp only
  split
  · cases mode <;> simp_all [Emits]
  · cases mode with
    | productive => exact absurd rfl hmode
    | repeatingErrors | trialAndError | idle => exact ⟨Or.inr (by simp), nofun, nofun, _, _, rfl⟩
    | stuckOnStep =>
        dsimp only
        refine ⟨?_, ?_, ?_, _, _, rfl⟩ <;> split <;> simp [Emits]

theorem Working.work (h : Working state corrects) :
    (work state).1 = .correctCmd ∧ Working (work state).2 (corrects + 1)
      ∨ (work state).1 = .submit ∧ (work state).2.done = true ∧ corrects = 14 := by
  obtain ⟨htotal, hstep, hdone, q, hq, hprogress, hcorrects⟩ := h
  unfold Simulation.work
  dsimp only
  rw [hprogress]
  split
  · rename_i hthrough
    have hq2 : q = 2 := by
      obtain rfl | rfl | rfl : q = 0 ∨ q = 1 ∨ q = 2 := by omega
      · norm_num at hthrough
      · norm_num at hthrough
      · rfl
    split
    · rename_i hlast
      dsimp only at hlast ⊢
      exact Or.inr ⟨rfl, rfl, by omega⟩
    · rename_i hmore
      dsimp only at hmore ⊢
      exact Or.inl
        ⟨rfl, htotal, by dsimp only; omega, hdone, 0, by decide, by simp, by dsimp only; omega⟩
  · rename_i hnot
    dsimp only at hnot ⊢
    refine Or.inl ⟨rfl, htotal, hstep, hdone, q + 1, ?_, by push_cast; ring, by dsimp only; omega⟩
    obtain rfl | rfl | rfl : q = 0 ∨ q = 1 ∨ q = 2 := by omega
    · decide
    · decide
    · norm_num at hnot

/-- **One window.** What is done fits the mode, and is a submission just if the student is through
then. -/
theorem Working.nextStep (h : Working state corrects) :
    Emits (nextStep rng profile state g).2.1 (nextStep rng profile state g).1
      ∧ ((nextStep rng profile state g).1 = .submit
        ∧ (nextStep rng profile state g).2.2.1.done = true ∧ corrects = 14
        ∨ (nextStep rng profile state g).1 ≠ .submit ∧ Working (nextStep rng profile state g).2.2.1
            (corrects + if (nextStep rng profile state g).1 = .correctCmd then 1 else 0)) := by
  obtain ⟨mode, frustration, hmoved⟩ : ∃ mode frustration, (transitionMode rng profile state g).1
      = { state with mode, frustration, justHelped := false } := transitionMode_frame rng profile g
  have hworking : Working (transitionMode rng profile state g).1 corrects := by
    rw [hmoved]
    exact ⟨h.totalSteps, h.step, h.done, h.corrects⟩
  unfold Simulation.nextStep
  rw [h.totalSteps, if_neg (Nat.not_le_of_lt h.step)]
  dsimp only
  split
  · dsimp only
    rcases hworking.work with ⟨haction, hafter⟩ | ⟨haction, hafter⟩
    · rw [haction]
      exact ⟨Or.inl rfl, Or.inr ⟨nofun, hafter⟩⟩
    · rw [haction]
      exact ⟨Or.inr rfl, Or.inl ⟨rfl, hafter⟩⟩
  · rename_i hmode
    dsimp only
    obtain ⟨hemits, hcorrect, hsubmit, frustration', justHelped, hafter⟩ :=
      struggle_frame rng profile (transitionMode rng profile state g).2 hmode
    refine ⟨hemits, Or.inr ⟨hsubmit, ?_⟩⟩
    rw [if_neg hcorrect, hafter]
    exact ⟨hworking.totalSteps, hworking.step, hworking.done, hworking.corrects⟩

def correctCmds (actions : List Action) : Nat := actions.count .correctCmd

/-- The windows of a student who was not through: each fits its mode, the last alone can be a
submission, and with it the right commands are fourteen. -/
theorem Working.windows (h : Working state corrects) (maxSteps : Nat) :
    (windows rng profile maxSteps state g).length ≤ maxSteps
      ∧ (∀ w ∈ windows rng profile maxSteps state g, Emits w.2.1 w.1)
      ∧ ∀ before last, windows rng profile maxSteps state g = before ++ [last] →
          (∀ w ∈ before, w.1 ≠ .submit) ∧ (last.2.2.done = true ↔ last.1 = .submit)
            ∧ (last.1 = .submit → corrects + correctCmds (before.map Prod.fst) = 14) := by
  induction maxSteps generalizing state g corrects with
  | zero =>
      refine ⟨Nat.le_refl 0, fun w hw => absurd hw List.not_mem_nil, fun before last hend => ?_⟩
      cases before <;> cases hend
  | succ maxSteps ih =>
      obtain ⟨hemits, hafter⟩ := h.nextStep rng profile g
      unfold Simulation.windows
      dsimp only
      generalize Simulation.nextStep rng profile state g = next at hemits hafter ⊢
      obtain ⟨action, regime, state', g'⟩ := next
      dsimp only at hemits hafter ⊢
      rcases hafter with ⟨rfl, hdone, hfourteen⟩ | ⟨hsubmit, hworking⟩
      · rw [if_pos hdone]
        refine ⟨Nat.le_add_left 1 _, fun w hw => ?_, fun before last hend => ?_⟩
        · rw [List.mem_singleton.mp hw]
          exact hemits
        · obtain ⟨rfl, rfl⟩ : before = [] ∧ last = (.submit, regime, state') := by
            have hlen := congrArg List.length hend
            rw [List.length_singleton, List.length_append, List.length_singleton] at hlen
            obtain rfl := List.eq_nil_of_length_eq_zero (by omega : before.length = 0)
            exact ⟨rfl, (List.cons.inj hend).1.symm⟩
          exact ⟨fun w hw => absurd hw List.not_mem_nil, ⟨fun _ => rfl, fun _ => hdone⟩,
            fun _ => hfourteen⟩
      · obtain ⟨hlength, hall, hlast⟩ := ih g' hworking
        rw [if_neg (by rw [hworking.done]; decide)]
        refine ⟨Nat.succ_le_succ hlength, ?_, fun before last hend => ?_⟩
        · rintro w (_ | ⟨_, hw⟩)
          · exact hemits
          · exact hall w hw
        · cases before with
          | nil =>
              obtain ⟨rfl, -⟩ := List.cons.inj hend
              refine ⟨fun w hw => absurd hw List.not_mem_nil,
                ⟨fun hdone => ?_, fun heq => absurd heq hsubmit⟩, fun heq => absurd heq hsubmit⟩
              dsimp only at hdone
              rw [hworking.done] at hdone
              cases hdone
          | cons first before =>
              obtain ⟨rfl, hrest⟩ := List.cons.inj hend
              obtain ⟨hbefore, hdone, hfourteen⟩ := hlast before last hrest
              refine ⟨?_, hdone, fun heq => ?_⟩
              · rintro w (_ | ⟨_, hw⟩)
                · exact hsubmit
                · exact hbefore w hw
              · have hsum := hfourteen heq
                simp only [correctCmds, List.map_cons, List.count_cons, beq_iff_eq] at hsum ⊢
                omega

end Windows

/-! ### What the actor leaves in the consoles -/

theorem buildNodeTasks_nodup (int : Text → Option Int) (spec : List (List Check)) :
    ((buildNodeTasks int spec).map NodeTask.node).Nodup := by
  have hbuilder : ∀ check, ∀ task ∈ builder int check, task.node = check.node := by
    intro check task htask
    unfold builder at htask
    split at htask
    · unfold staticTask at htask
      split at htask <;> cases htask
      rfl
    · split at htask
      · unfold dhcpTask at htask
        split at htask
        · cases htask
        · obtain ⟨_, -, rfl⟩ := Option.map_eq_some_iff.mp htask
          rfl
      · cases htask
  have hfold : ∀ (checks : List Check) (tasks : List NodeTask), (tasks.map NodeTask.node).Nodup →
      ((checks.foldl (fun tasks check =>
        if check.node.isEmpty || (tasks.map NodeTask.node).contains check.node then tasks
        else tasks ++ (builder int check).toList) tasks).map NodeTask.node).Nodup := by
    intro checks
    induction checks with
    | nil => exact fun _ h => h
    | cons check checks ih =>
        intro tasks h
        rw [List.foldl_cons]
        apply ih
        split
        · exact h
        · rename_i hnew
          rw [Bool.or_eq_true, not_or, List.contains_iff_mem] at hnew
          cases htask : builder int check with
          | none => simpa using h
          | some task =>
              rw [Option.toList_some, List.map_append, List.map_singleton]
              refine h.append (List.nodup_singleton _) (List.disjoint_singleton.mpr ?_)
              rw [hbuilder check task htask]
              exact hnew.2
  exact hfold _ [] List.nodup_nil

namespace Gns3Actor

/-- Every node but the one the actor is at was left with the right command, or has yet to be typed
into. What is asked is asked about what was typed, where it was typed. -/
structure Tidy (actor : Gns3Actor) : Prop where
  left : ∀ (j : Nat) (task : NodeTask), actor.tasks[j]? = some task →
    j ≠ actor.i % actor.tasks.length →
    actor.typedAt task.node = if j < actor.i then some task.correctCmd else none
  last : ∀ cmd ∈ actor.lastCmd, ∃ node, actor.lastNode = some node ∧ (node, cmd) ∈ actor.typed
  numbered : actor.asked.map HelpContext.attempt = List.range actor.askCount
  about : ∀ ask ∈ actor.asked, ∀ cmd ∈ ask.tried, ∃ node, ask.node = some node
    ∧ (node, cmd) ∈ actor.typed

variable {actor : Gns3Actor}

theorem typedAt_append (actor : Gns3Actor) (node cmd at_ : Text) :
    { actor with typed := actor.typed ++ [(node, cmd)] }.typedAt at_
      = if node = at_ then some cmd else actor.typedAt at_ := by
  unfold typedAt
  dsimp only
  by_cases heq : node = at_ <;> simp [List.filter_append, heq]

theorem Tidy.configure (h : actor.Tidy) (hnodup : (actor.tasks.map NodeTask.node).Nodup)
    (correct : Bool) :
    (actor.configure correct).Tidy := by
  unfold Gns3Actor.configure
  split
  · exact h
  · rename_i task htask
    unfold current at htask
    have hcurrent := (List.getElem?_eq_some_iff.mp htask).1
    refine ⟨fun j other hother hj => ?_, ?_, h.numbered, fun ask hask cmd hcmd => ?_⟩
    · dsimp only at hother hj ⊢
      have htyped :=
        actor.typedAt_append task.node
        (if correct then task.correctCmd else task.wrongCmd) other.node
      refine htyped.trans ?_
      have hlt := (List.getElem?_eq_some_iff.mp hother).1
      by_cases hhere : j = actor.i % actor.tasks.length
      · subst hhere
        rw [hother, Option.some.injEq] at htask
        cases correct with
        | true => simp [htask, Nat.lt_succ_of_le (Nat.mod_le _ _)]
        | false => exact absurd rfl hj
      · have hne : task.node ≠ other.node := by
          intro heq
          have hsame : (actor.tasks.map NodeTask.node)[actor.i % actor.tasks.length]?
              = (actor.tasks.map NodeTask.node)[j]? := by
            rw [List.getElem?_map, List.getElem?_map, htask, hother, Option.map_some,
              Option.map_some, heq]
          exact hhere ((List.getElem?_inj (by rwa [List.length_map]) hnodup).mp hsame).symm
        rw [if_neg hne, h.left j other hother hhere]
        cases correct with
        | false => rfl
        | true =>
            have hi : j ≠ actor.i := by
              rintro rfl
              exact hhere (Nat.mod_eq_of_lt hlt).symm
            have hiff : j < actor.i ↔ j < actor.i + 1 := by omega
            simp only [hiff, if_true]
    · rintro cmd ⟨⟩
      exact ⟨task.node, rfl, List.mem_append_right _ List.mem_cons_self⟩
    · obtain ⟨node, hnode, hmem⟩ := h.about ask hask cmd hcmd
      exact ⟨node, hnode, List.mem_append_left _ hmem⟩

theorem tasks_execute (actor : Gns3Actor) (action : Action) :
    (actor.execute action).tasks = actor.tasks := by
  cases action <;> simp only [execute, configure] <;> split <;> rfl

theorem i_execute (actor : Gns3Actor) (action : Action) (htasks : actor.tasks ≠ []) :
    (actor.execute action).i = actor.i + if action = .correctCmd then 1 else 0 := by
  have hpos := List.length_pos_iff.mpr htasks
  obtain ⟨task, htask⟩ : ∃ task, actor.current = some task :=
    ⟨_, List.getElem?_eq_getElem (Nat.mod_lt actor.i hpos)⟩
  cases action <;> simp [execute, configure, htask]

theorem Tidy.execute (h : actor.Tidy) (hnodup : (actor.tasks.map NodeTask.node).Nodup)
    (action : Action) :
    (actor.execute action).Tidy := by
  cases action with
  | correctCmd => exact h.configure hnodup true
  | wrongCmd | repeatError => exact h.configure hnodup false
  | idle | submit => exact h
  | askHelp =>
      refine ⟨h.left, h.last, ?_, ?_⟩
      · dsimp only [Gns3Actor.execute]
        rw [List.map_append, h.numbered, List.range_succ]
        rfl
      · dsimp only [Gns3Actor.execute]
        intro ask hask cmd hcmd
        rcases List.mem_append.mp hask with hbefore | hnow
        · exact h.about ask hbefore cmd hcmd
        · rw [List.mem_singleton.mp hnow] at hcmd ⊢
          obtain ⟨node, hnode, hmem⟩ := h.last cmd hcmd
          exact ⟨node, by rw [helpContext, hnode, Option.some_or], hmem⟩

theorem Tidy.executeAll (h : actor.Tidy) (hnodup : (actor.tasks.map NodeTask.node).Nodup)
    (actions : List Action) :
    (actions.foldl Gns3Actor.execute actor).Tidy
      ∧ (actions.foldl Gns3Actor.execute actor).tasks = actor.tasks
      ∧ (actor.tasks ≠ [] →
        (actions.foldl Gns3Actor.execute actor).i = actor.i + correctCmds actions) := by
  induction actions generalizing actor with
  | nil => exact ⟨h, rfl, fun _ => rfl⟩
  | cons action actions ih =>
      have htasks := actor.tasks_execute action
      obtain ⟨htidy, hrest, hi⟩ := ih (h.execute hnodup action) (htasks.symm ▸ hnodup)
      refine ⟨htidy, hrest.trans htasks, fun hsome => ?_⟩
      rw [List.foldl_cons, hi (htasks.symm ▸ hsome), actor.i_execute action hsome, correctCmds,
        correctCmds, List.count_cons]
      simp only [beq_iff_eq]
      omega

theorem tidy_init (tasks : List NodeTask) : Tidy { tasks } where
  left j task _ _ := by
    dsimp only
    rw [if_neg (Nat.not_lt_zero j)]
    rfl
  last cmd h := by cases h
  numbered := rfl
  about ask h := absurd h List.not_mem_nil

end Gns3Actor

/-- **What a student leaves behind.** Whatever the traits and the chances, a student has as many
windows as they may at most, does in each what fits its mode, and submits in the last alone, just if
they are through. Fourteen of their windows were then ones for a right command. The actor has gone
round the nodes with them, if the lab has any tasks, and types nothing otherwise; each node that it
was at is left with its right command, but for the one where it stands; what was asked is asked in
order, and about what was typed at the node it names. -/
theorem student_leaves {ρ : Type} (rng : Random ρ) (profile : StudentProfile)
    (int : Text → Option Int)
    (spec : List (List Check)) (maxSteps : Nat) (g : ρ) :
    let ws := windows rng profile maxSteps {} g
    let corrects := correctCmds (ws.map Prod.fst)
    let actor := (ws.map Prod.fst).foldl Gns3Actor.execute { tasks := buildNodeTasks int spec }
    ws.length ≤ maxSteps ∧ (∀ w ∈ ws, Emits w.2.1 w.1)
      ∧ (∀ before last, ws = before ++ [last] → (∀ w ∈ before, w.1 ≠ .submit)
          ∧ (last.2.2.done = true ↔ last.1 = .submit) ∧ (last.1 = .submit → corrects = 14))
      ∧ (∀ (j : Nat) (task : NodeTask), (buildNodeTasks int spec)[j]? = some task →
          j ≠ corrects % (buildNodeTasks int spec).length →
            actor.typedAt task.node = if j < corrects then some task.correctCmd else none)
      ∧ actor.asked.map HelpContext.attempt = List.range actor.askCount
      ∧ ∀ ask ∈ actor.asked, ∀ cmd ∈ ask.tried, ∃ node, ask.node = some node
        ∧ (node, cmd) ∈ actor.typed := by
  have hworking : Working {} 0 := ⟨rfl, by decide, rfl, 0, by decide, by simp, rfl⟩
  obtain ⟨hlength, hall, hlast⟩ := hworking.windows rng profile g maxSteps
  obtain ⟨htidy, htasks, hi⟩ := (Gns3Actor.tidy_init (buildNodeTasks int spec)).executeAll
    (buildNodeTasks_nodup int spec) ((windows rng profile maxSteps {} g).map Prod.fst)
  refine ⟨hlength, hall, fun before last hend => ?_, fun j task htask hj => ?_, htidy.numbered,
    htidy.about⟩
  · obtain ⟨hbefore, hdone, hfourteen⟩ := hlast before last hend
    refine ⟨hbefore, hdone, fun hsubmit => ?_⟩
    have hsum := hfourteen hsubmit
    rw [hend]
    simp [correctCmds, hsubmit] at hsum ⊢
    omega
  · have hsome : buildNodeTasks int spec ≠ [] := by
      rintro hnil
      rw [hnil] at htask
      cases htask
    have hi := hi hsome
    dsimp only at hi
    rw [Nat.zero_add] at hi
    have hleft := htidy.left j task
    rw [htasks, hi] at hleft
    exact hleft htask hj

end OnlinetLabs.Simulation
