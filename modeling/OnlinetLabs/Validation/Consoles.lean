import OnlinetLabs.Lib.Interleaving
import OnlinetLabs.Validation.Runner

/-!
# Clients of a node's console

GNS3 refuses a second client of a console. The checks of VPCS nodes and the saving of their
configuration go through `console`, which holds the lock of the console for the whole exchange; the
checks of Cisco nodes open a connection of their own. Checks that ask FRR go through GNS3 and open
none.

A job is a list of visits to consoles. Whatever is read there only decides whether the job goes on,
tries again or ends, so the answers of the environment say that and no more. Who gets a lock that is
free is left open.
-/

namespace OnlinetLabs.Validation

open Interleaving
open Json (Fields)

/-! ### Nodes -/

/-- A node of `nodes_by_name`. `consoleHost` is empty where neither spelling of the key gives a
host. -/
structure ConsoleNode where
  console : Option Nat
  consoleHost : String
deriving Repr, DecidableEq

structure CheckContext where
  gns3Host : String
  nodesByName : Dict String ConsoleNode := {}
deriving Repr, DecidableEq

/-- What `_console_locks` is keyed by. -/
structure NodeConsole where
  host : String
  port : Nat
deriving Repr, DecidableEq

namespace CheckContext

variable (ctx : CheckContext)

def nodeConsolePort (name : String) : Option Nat := (ctx.nodesByName.get? name).bind (·.console)

def nodeConsoleHost (name : String) : String :=
  match ctx.nodesByName.get? name with
  | none => ctx.gns3Host
  | some node =>
      if node.consoleHost = "" ∨ node.consoleHost = "0.0.0.0" ∨ node.consoleHost = "::"
        then ctx.gns3Host
      else node.consoleHost

def console (name : String) : Option NodeConsole :=
  match ctx.nodeConsolePort name with
  | none | some 0 => none
  | some port => some ⟨ctx.nodeConsoleHost name, port⟩

end CheckContext

/-! ### Handlers -/

/-- How a connection is opened: by `console`, under the lock, or by `_exec_cisco`. -/
inductive Access where
  | console
  | execCisco
deriving Repr, DecidableEq

/-- A console that is opened for an exchange, so often at most until one is readable. -/
structure Visit where
  console : NodeConsole
  access : Access
  tries : Nat
deriving Repr, DecidableEq

def connectAttempts : Nat := 4

def readAttempts : Nat := 3

/-- `params.get(key)`, where it is given and not empty. -/
def given? (key : String) (params : Fields) :
    Option Json := ((Json.obj params).field? key).filter Json.truthy

/-- The console of the node that the param names. No node goes by what is not a string. -/
def consoleOf (ctx : CheckContext) (key : String) (params : Fields) : Option NodeConsole :=
  match given? key params with
  | some (.str name) => ctx.console name
  | _ => none

def readShowIp (console : NodeConsole) :
    Visit := { console, access := .console, tries := readAttempts }

def vpcsShowIp (ctx : CheckContext) (params : Fields) : List Visit :=
  (consoleOf ctx "node" params).toList.map readShowIp

def vpcsIpInSubnet (ctx : CheckContext) (params : Fields) : List Visit :=
  (consoleOf ctx "node" params).toList.map readShowIp

def vpcsPing (ctx : CheckContext) (params : Fields) : List Visit :=
  if (given? "to" params).isSome then
    (consoleOf ctx "from" params).toList.map fun console =>
      { console, access := .console, tries := 1 }
  else []

/-- The address of the target, once it is read, is the `to` of the ping. -/
def vpcsPingNode (ctx : CheckContext) (params : Fields) : List Visit :=
  match consoleOf ctx "to_node" params with
  | none => []
  | some target =>
      readShowIp target :: (consoleOf ctx "from" params).toList.map fun console =>
        { console, access := .console, tries := 1 }

def execCisco (ctx : CheckContext) (params : Fields) : List Visit :=
  (consoleOf ctx "node" params).toList.map fun console =>
    { console, access := .execCisco, tries := 1 }

def ciscoOspfNeighbor (ctx : CheckContext) (params expect : Fields) : List Visit :=
  if (given? "neighbor_id" expect).isSome ∧ (given? "state" expect).isSome
    then execCisco ctx params else []

def ciscoRouteInTable (ctx : CheckContext) (params expect : Fields) : List Visit :=
  if (given? "prefix" expect).isSome ∧ (given? "protocol" expect).isSome
    then execCisco ctx params else []

def ciscoInterfaceBrief (ctx : CheckContext) (params : Fields) : List Visit :=
  if (given? "interface" params).isSome then execCisco ctx params else []

/-- The visits of the handler that `get_handler` finds, if it finds one. -/
def Check.visits (ctx : CheckContext) (check : Check) : List Visit :=
  match check.kind with
  | "vpcs.show_ip" => vpcsShowIp ctx check.params
  | "vpcs.ping" => vpcsPing ctx check.params
  | "vpcs.ip_in_subnet" => vpcsIpInSubnet ctx check.params
  | "vpcs.ping_node" => vpcsPingNode ctx check.params
  | "cisco.ospf_neighbor" => ciscoOspfNeighbor ctx check.params check.expected
  | "cisco.route_in_table" => ciscoRouteInTable ctx check.params check.expected
  | "cisco.interface_brief" => ciscoInterfaceBrief ctx check.params
  | _ => []

inductive ConsoleJob where
  | check (ctx : CheckContext) (check : Check)
  /-- `_save` of `persist_volatile_configs`. -/
  | save (ctx : CheckContext) (name : String)

def ConsoleJob.visits : ConsoleJob → List Visit
  | .check ctx c => c.visits ctx
  | .save ctx name =>
      (ctx.console name).toList.map fun console => { console, access := .console, tries := 1 }

/-! ### A job -/

inductive ClientPc where
  /-- Before a visit. -/
  | idle
  /-- For the lock. -/
  | waiting
  /-- `open_connection` is under way, after so many that failed. -/
  | opening (failed : Nat)
  /-- The exchange. -/
  | connected
  /-- `wait_closed`. -/
  | closing
deriving Repr, DecidableEq

/-- The visits that are left, the first of them under way. -/
structure Client where
  visits : List Visit
  pc : ClientPc := .idle
deriving Repr, DecidableEq

inductive Reading where
  | goesOn
  | unreadable
  | ends
deriving Repr, DecidableEq

inductive ClientStep where
  | start
  | lock
  | opened
  | refused
  | close
  | left (reading : Reading)
  | cancel
deriving Repr, DecidableEq

abbrev ConsoleLocks := List NodeConsole

namespace Visit

variable (visit : Visit)

/-- The lock is let go, if it was taken. -/
def leave (locks : ConsoleLocks) : ConsoleLocks :=
  match visit.access with
  | .console => locks.filter (· ≠ visit.console)
  | .execCisco => locks

def after (rest : List Visit) : Reading → List Visit
  | .goesOn => rest
  | .unreadable => if visit.tries ≤ 1 then [] else { visit with tries := visit.tries - 1 } :: rest
  | .ends => []

end Visit

namespace Client

def await (client : Client) (pc : ClientPc) : Client := { client with pc := pc }

def step (locks : ConsoleLocks) (client : Client) (a : ClientStep) :
    Option (ConsoleLocks × Client) :=
  match client.visits with
  | [] => none
  | visit :: rest =>
      match client.pc, a with
      | .idle, .start =>
          some (locks, client.await
            (match visit.access with | .console => .waiting | .execCisco => .opening 0))
      | .waiting, .lock =>
          if visit.console ∈ locks then none
          else some (visit.console :: locks, client.await (.opening 0))
      | .opening _, .opened => some (locks, client.await .connected)
      | .opening failed, .refused =>
          match visit.access with
          | .console =>
              if failed + 1 < connectAttempts
                then some (locks, client.await (.opening (failed + 1)))
              else some (visit.leave locks, { visits := visit.after rest .unreadable })
          | .execCisco => some (locks, { visits := visit.after rest .ends })
      | .connected, .close => some (locks, client.await .closing)
      | .closing, .left reading => some (visit.leave locks, { visits := visit.after rest reading })
      | .idle, .cancel | .waiting, .cancel => some (locks, { visits := [] })
      | .opening _, .cancel => some (visit.leave locks, { visits := [] })
      | _, _ => none

def current (client : Client) : Option Visit := client.visits.head?

def HasOpen (console : NodeConsole) (client : Client) : Prop :=
  client.pc = .connected ∧ ∃ visit ∈ client.current, visit.console = console

def Holds (console : NodeConsole) (client : Client) : Prop :=
  client.pc ≠ .idle ∧ client.pc ≠ .waiting
    ∧ ∃ visit ∈ client.current, visit.console = console ∧ visit.access = .console

end Client

def consoleClients : System ConsoleLocks Client Empty ConsoleJob ClientStep where
  env _ e := e.elim
  spawn job := { visits := job.visits }
  step := Client.step

/-! ### The law -/

/-- At most one client has a console open. -/
def OneClient (c : Conf ConsoleLocks Client) :
    Prop := ∀ console, Exclusive (Client.HasOpen console) c.procs

/-- No console is opened that another client has open, if one of the two is a Cisco check. -/
def SparesCisco (c : Conf ConsoleLocks Client) : Label Empty ConsoleJob ClientStep → Prop
  | .run pid .opened => ∀ client ∈ c.procs[pid]?, ∀ visit ∈ client.current, ∀ other ∈ c.procs,
      other.HasOpen visit.console → visit.access = .console ∧ ∀ theirs ∈ other.current,
        theirs.access = .console
  | _ => True

/-! ### What a step can do -/

namespace Client

variable {locks locks' : ConsoleLocks} {client client' : Client} {a : ClientStep}

inductive Moves (locks : ConsoleLocks) (client : Client) :
    ClientStep → ConsoleLocks → Client → Prop where
  | lock {visit : Visit} (hvisit : client.current = some visit) (hpc : client.pc = .waiting)
      (hfree : visit.console ∉ locks) : Moves locks client .lock (visit.console :: locks)
        (client.await (.opening 0))
  | opened {failed : Nat} (hpc : client.pc = .opening failed) :
      Moves locks client .opened locks (client.await .connected)
  | stay {a : ClientStep} {pc : ClientPc} (ha : a ≠ .opened) (hpc : pc ≠ .connected)
      (hholds : ∀ console, (client.await pc).Holds console → client.Holds console) :
      Moves locks client a locks (client.await pc)
  | leave {a : ClientStep} {visit : Visit} (ha : a ≠ .opened) (hvisit : client.current = some visit)
      (hidle : client.pc ≠ .idle) (hwaiting : client.pc ≠ .waiting) {visits : List Visit}
      (hvisits : ∀ v ∈ visits, ∃ w ∈ client.visits, v.access = w.access) :
      Moves locks client a (visit.leave locks) { visits }
  | cancel {a : ClientStep} (ha : a ≠ .opened) : Moves locks client a locks { visits := [] }

theorem mem_after {visit v : Visit} {rest : List Visit} {reading : Reading}
    (h : v ∈ visit.after rest reading) :
    ∃ w ∈ visit :: rest, v.access = w.access := by
  cases reading with
  | goesOn => exact ⟨v, List.mem_cons_of_mem _ h, rfl⟩
  | ends => cases h
  | unreadable =>
    unfold Visit.after at h
    by_cases htries : visit.tries ≤ 1
    · rw [if_pos htries] at h
      cases h
    · rw [if_neg htries] at h
      rcases List.mem_cons.mp h with rfl | hrest
      · exact ⟨visit, List.mem_cons_self, rfl⟩
      · exact ⟨v, List.mem_cons_of_mem _ hrest, rfl⟩

theorem step_moves (h : client.step locks a = some (locks', client')) :
    client.Moves locks a locks' client' := by
  obtain ⟨visits, pc⟩ := client
  cases visits with
  | nil => cases h
  | cons visit rest =>
    cases pc <;> cases a <;> simp only [step, reduceCtorEq, Option.some.injEq, Prod.mk.injEq] at h
    case idle.start =>
      obtain ⟨rfl, rfl⟩ := h
      cases haccess : visit.access with
      | console => exact .stay (by simp) (by simp) fun console hholds => absurd rfl hholds.2.1
      | execCisco =>
        refine .stay (by simp) (by simp) fun console hholds => ?_
        obtain ⟨-, -, theirs, hmem, -, hconsole⟩ := hholds
        cases hmem
        rw [haccess] at hconsole
        cases hconsole
    case waiting.lock =>
      split at h
      · cases h
      · rename_i hfree
        cases h
        exact .lock rfl rfl hfree
    case opening.opened failed =>
      obtain ⟨rfl, rfl⟩ := h
      exact .opened rfl
    case opening.refused failed =>
      split at h
      · split at h
        · cases h
          refine .stay (by simp) (by simp) fun console hholds => ?_
          exact ⟨by simp, by simp, hholds.2.2⟩
        · cases h
          exact .leave (by simp) rfl (by simp) (by simp) fun v => mem_after
      · rename_i haccess
        cases h
        have hleave : visit.leave locks = locks := by simp [Visit.leave, haccess]
        have hmoves : Moves locks ⟨visit :: rest, .opening failed⟩ .refused (visit.leave locks)
            { visits := visit.after rest .ends } := .leave (by simp) rfl (by simp)
              (by simp) fun v => mem_after
        rwa [hleave] at hmoves
    case connected.close =>
      obtain ⟨rfl, rfl⟩ := h
      exact .stay (by simp) (by simp) fun console hholds => ⟨by simp, by simp, hholds.2.2⟩
    case closing.left reading =>
      obtain ⟨rfl, rfl⟩ := h
      exact .leave (by simp) rfl (by simp) (by simp) fun v => mem_after
    case opening.cancel failed =>
      obtain ⟨rfl, rfl⟩ := h
      exact .leave (by simp) rfl (by simp) (by simp) (by simp)
    all_goals
      obtain ⟨rfl, rfl⟩ := h
      exact .cancel (by simp)

theorem not_holds_new {visits : List Visit} {console : NodeConsole} : ¬ Holds console { visits } :=
  fun h => h.1 rfl

theorem not_hasOpen_new {visits : List Visit} {console : NodeConsole} :
    ¬ HasOpen console { visits } := by
  rintro ⟨⟨⟩, -⟩

end Client

/-! ### The lock -/

/-- Whoever is past the lock of a console is there alone, and the lock is held. -/
structure Guarded (c : Conf ConsoleLocks Client) : Prop where
  alone : ∀ console, Exclusive (Client.Holds console) c.procs
  held : ∀ client ∈ c.procs, ∀ console, client.Holds console → console ∈ c.shared

variable {c c' : Conf ConsoleLocks Client} {l : Label Empty ConsoleJob ClientStep}

theorem guarded_next (hc : Guarded c) (hnext : consoleClients.next c l = some c') : Guarded c' := by
  rcases consoleClients.next_cases hnext with ⟨e, -⟩ | ⟨job, rfl, rfl⟩
    | ⟨pid, a, client, locks, client', rfl, hpid, hstep, rfl⟩
  · cases e
  · exact ⟨fun console => (hc.alone console).append Client.not_holds_new,
      forall_mem_append hc.held fun console hholds => absurd hholds Client.not_holds_new⟩
  · have hmem := mem_of_getElem? hpid
    cases Client.step_moves hstep with
    | @lock visit hvisit hpc hfree =>
      have hnone : ∀ console, (client.await (.opening 0)).Holds console →
          console = visit.console := by
        rintro console ⟨-, -, theirs, htheirs, rfl, -⟩
        have hsame : client.current = some theirs := htheirs
        rw [hvisit, Option.some.injEq] at hsame
        rw [hsame]
      refine ⟨fun console => ?_, ?_⟩
      · by_cases heq : console = visit.console
        · apply Exclusive.of_none
          intro other hother hholds
          exact hfree (heq ▸ hc.held other hother console hholds)
        · exact (hc.alone console).set hpid fun hholds => absurd (hnone console hholds) heq
      · apply forall_mem_set
        · exact fun other hother console hholds =>
            List.mem_cons_of_mem _ (hc.held other hother console hholds)
        · intro console hholds
          rw [hnone console hholds]
          exact List.mem_cons_self
    | opened hpc =>
      have hkeeps : ∀ console, (client.await .connected).Holds console → client.Holds console :=
        fun console hholds => ⟨by simp [hpc], by simp [hpc], hholds.2.2⟩
      exact ⟨fun console => (hc.alone console).set hpid (hkeeps console),
        forall_mem_set hc.held fun console hholds =>
          hc.held client hmem console (hkeeps console hholds)⟩
    | stay ha hpc hholds =>
      exact ⟨fun console => (hc.alone console).set hpid (hholds console),
        forall_mem_set hc.held fun console h => hc.held client hmem console (hholds console h)⟩
    | @leave _ visit ha hvisit hidle hwaiting visits hvisits =>
      refine ⟨fun console => (hc.alone console).set hpid fun h => absurd h Client.not_holds_new, ?_⟩
      apply forall_mem_set_of_ne
      · intro i other hi hne console hholds
        have hheld := hc.held other (mem_of_getElem? hi) console hholds
        cases haccess : visit.access with
        | execCisco => simpa [Visit.leave, haccess] using hheld
        | console =>
          have hother : console ≠ visit.console := by
            rintro rfl
            exact hne (hc.alone _ i pid other client hi hpid hholds
              ⟨hidle, hwaiting, visit, hvisit, rfl, haccess⟩)
          simpa [Visit.leave, haccess, hother] using hheld
      · exact fun console hholds => absurd hholds Client.not_holds_new
    | cancel ha =>
      exact ⟨fun console => (hc.alone console).set hpid fun h => absurd h Client.not_holds_new,
        forall_mem_set hc.held fun console h => absurd h Client.not_holds_new⟩

/-- A move keeps a console to one client exactly where it spares the Cisco checks. -/
theorem oneClient_next (hguarded : Guarded c) (hc : OneClient c)
    (hnext : consoleClients.next c l = some c') :
    OneClient c' ↔ SparesCisco c l := by
  rcases consoleClients.next_cases hnext with ⟨e, -⟩ | ⟨job, rfl, rfl⟩
    | ⟨pid, a, client, locks, client', rfl, hpid, hstep, rfl⟩
  · cases e
  · exact iff_of_true (fun console => (hc console).append Client.not_hasOpen_new) trivial
  · have hquiet : a ≠ .opened → SparesCisco c (.run pid a) := by
      intro ha
      cases a with
      | opened => exact absurd rfl ha
      | _ => trivial
    cases Client.step_moves hstep with
    | lock hvisit hpc hfree =>
      exact iff_of_true (fun console => (hc console).set hpid (by rintro ⟨⟨⟩, -⟩)) trivial
    | stay ha hpc hholds =>
      exact iff_of_true (fun console => (hc console).set hpid fun h => absurd h.1 hpc) (hquiet ha)
    | leave ha hvisit hidle hwaiting hvisits =>
      exact iff_of_true (fun console => (hc console).set hpid fun h =>
        absurd h Client.not_hasOpen_new) (hquiet ha)
    | cancel ha =>
      exact iff_of_true (fun console => (hc console).set hpid fun h =>
        absurd h Client.not_hasOpen_new) (hquiet ha)
    | opened hpc =>
      constructor
      · intro hone client₁ hclient visit hvisit other hother hopen
        rw [hpid, Option.mem_some_iff] at hclient
        subst hclient
        obtain ⟨j, hj⟩ := List.getElem?_of_mem hother
        have hne : pid ≠ j := by
          rintro rfl
          rw [hpid, Option.some.injEq] at hj
          subst hj
          have hconnected := hopen.1
          rw [hpc] at hconnected
          cases hconnected
        obtain ⟨hlt, -⟩ := List.getElem?_eq_some_iff.mp hpid
        have hself :
            (c.procs.set pid (client.await .connected))[pid]? = some (client.await .connected) := by
          simp [hlt]
        have hthere : (c.procs.set pid (client.await .connected))[j]? = some other := by
          rw [List.getElem?_set_ne hne]
          exact hj
        exact absurd (hone visit.console pid j _ other hself hthere ⟨rfl, visit, hvisit, rfl⟩ hopen)
          hne
      · intro hspares console
        by_cases hcurrent : ∃ visit ∈ client.current, visit.console = console
        · obtain ⟨visit, hvisit, rfl⟩ := hcurrent
          apply Exclusive.of_none
          intro other hother hopen
          obtain ⟨haccess, htheirs⟩ := hspares client hpid visit hvisit other hother hopen
          obtain ⟨hconnected, theirs, hmem, hconsole⟩ := hopen
          obtain ⟨j, hj⟩ := List.getElem?_of_mem hother
          have hsame := hguarded.alone visit.console pid j client other hpid hj
            ⟨by simp [hpc], by simp [hpc], visit, hvisit, rfl, haccess⟩
            ⟨by simp [hconnected], by
              simp [hconnected], theirs, hmem, hconsole, htheirs theirs hmem⟩
          subst hsame
          rw [hpid, Option.some.injEq] at hj
          subst hj
          rw [hpc] at hconnected
          cases hconnected
        · exact (hc console).set hpid fun h => absurd h.2 hcurrent

/-- **A console has one client at a time exactly where the Cisco checks are spared.** -/
theorem oneClient_iff (ls : List (Label Empty ConsoleJob ClientStep)) :
    consoleClients.Throughout OneClient ⟨[], []⟩ ls
      ↔ consoleClients.Along SparesCisco ⟨[], []⟩ ls := by
  apply consoleClients.throughout_iff_along (I := Guarded)
  · exact fun c l c' hc hnext => guarded_next hc hnext
  · exact fun c l c' hguarded hc hnext => oneClient_next hguarded hc hnext
  · exact ⟨fun console => exclusive_nil _, by simp⟩
  · exact fun console => exclusive_nil _

/-! ### Without Cisco checks -/

def Client.ThroughConsole (client : Client) :
    Prop := ∀ visit ∈ client.visits, visit.access = .console

theorem Client.Moves.throughConsole {locks locks' : ConsoleLocks} {client client' : Client}
    {a : ClientStep}
    (h : client.Moves locks a locks' client') (hclient : client.ThroughConsole) :
    client'.ThroughConsole := by
  cases h with
  | lock hvisit hpc hfree => exact hclient
  | opened hpc => exact hclient
  | stay ha hpc hholds => exact hclient
  | cancel ha => intro visit hvisit; cases hvisit
  | leave ha hvisit hidle hwaiting hvisits =>
    intro visit hmem
    obtain ⟨w, hw, haccess⟩ := hvisits visit hmem
    rw [haccess]
    exact hclient w hw

theorem throughConsole_next (hc : ∀ client ∈ c.procs, client.ThroughConsole)
    (hl : ∀ job, l = .spawn job → ∀ visit ∈ job.visits, visit.access = .console)
    (hnext : consoleClients.next c l = some c') : ∀ client ∈ c'.procs, client.ThroughConsole := by
  rcases consoleClients.next_cases hnext with ⟨e, -⟩ | ⟨job, rfl, rfl⟩
    | ⟨pid, a, client, locks, client', rfl, hpid, hstep, rfl⟩
  · cases e
  · exact forall_mem_append hc (hl job rfl)
  · exact forall_mem_set hc
      ((Client.step_moves hstep).throughConsole (hc client (mem_of_getElem? hpid)))

/-- Checks of VPCS nodes and saves keep a console to one client at a time among themselves. -/
theorem oneClient_of_throughConsole {ls : List (Label Empty ConsoleJob ClientStep)}
    (h : ∀ l ∈ ls, ∀ job, l = .spawn job → ∀ visit ∈ job.visits, visit.access = .console) :
    consoleClients.Throughout OneClient ⟨[], []⟩ ls := by
  have hkept : consoleClients.Throughout
      (fun c => Guarded c ∧ OneClient c ∧ ∀ client ∈ c.procs, client.ThroughConsole)
        ⟨[], []⟩ ls := by
    apply consoleClients.throughout_of_along ?_ ?_ (consoleClients.along_of_forall_mem h)
    · rintro c l c' ⟨hguarded, hone, hthrough⟩ hl hnext
      refine ⟨guarded_next hguarded hnext, (oneClient_next hguarded hone hnext).mpr ?_,
        throughConsole_next hthrough hl hnext⟩
      cases l with
      | env e => cases e
      | spawn job => trivial
      | run pid a =>
        cases a with
        | opened =>
          intro client hclient visit hvisit other hother hopen
          exact ⟨hthrough client (mem_of_getElem? hclient) visit (List.mem_of_mem_head? hvisit),
            fun theirs htheirs => hthrough other hother theirs (List.mem_of_mem_head? htheirs)⟩
        | _ => trivial
    · exact ⟨⟨fun console => exclusive_nil _, by simp⟩, fun console => exclusive_nil _, by simp⟩
  exact hkept.mono _ fun c hc => hc.2.1

/-! ### Two readers of one router -/

def ospfContext : CheckContext :=
  { gns3Host := "gns3", nodesByName := ⟨[("R1", { console := some 5001, consoleHost := "" })]⟩ }

def ospfCheck : ConsoleJob :=
  .check ospfContext
    { kind := "cisco.ospf_neighbor", params := [("node", .str "R1")],
      expect := some [("neighbor_id", .str "2.2.2.2"), ("state", .str "FULL")] }

example : ospfCheck.visits = [{ console := ⟨"gns3", 5001⟩, access := .execCisco, tries := 1 }] := by
  decide

/-- Both have the console open. -/
theorem not_oneClient_ospfCheck :
    ¬ consoleClients.Throughout OneClient ⟨[], []⟩
      [.spawn ospfCheck, .spawn ospfCheck, .run 0 .start, .run 1 .start, .run 0 .opened,
        .run 1 .opened] := by
  intro h
  have hlast : OneClient ⟨[], [⟨ospfCheck.visits, .connected⟩, ⟨ospfCheck.visits, .connected⟩]⟩ :=
    System.Throughout.exec consoleClients h rfl
  have hsame : 0 = 1 := hlast ⟨"gns3", 5001⟩ 0 1 _ _ rfl rfl ⟨rfl, _, rfl, rfl⟩ ⟨rfl, _, rfl, rfl⟩
  cases hsame

end OnlinetLabs.Validation
