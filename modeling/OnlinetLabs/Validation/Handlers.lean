import OnlinetLabs.Lib.Dialogue
import OnlinetLabs.Validation.Consoles
import OnlinetLabs.Validation.Parsers

/-!
# The handlers of the checks

A handler asks the devices and returns what comes of it. A console refuses a connection, loses it or
prints a text; a call of vtysh raises or returns what was printed. Bytes that are decoded and the
waits between the attempts are left out.
-/

namespace OnlinetLabs.Validation.Handlers

open Console (Text)
open Json (Fields)

/-! ### What a handler asks -/

/-- `CheckContext` with what the checks of FRR need: the `id` of each node that has one. -/
structure RunContext extends CheckContext where
  nodeIds : Dict String String := {}
  gns3ProjectId : String := ""
  frrClient : Bool := true
deriving Repr, DecidableEq

inductive Request where
  | showIp (console : NodeConsole)
  | ping (console : NodeConsole) (target : Json)
  | cisco (console : NodeConsole) (command : String)
  | vtysh (projectId nodeId command : String)

/-- One connection of `read_show_ip`: it is refused, times out or is lost, or both times the console
is asked it prints something. -/
inductive Attempt where
  | failed (message : String)
  | printed (first second : Text)

/-- One exchange. A call of vtysh that raises is refused. -/
inductive Exchange where
  | refused (message : String)
  | lost (message : String)
  | printed (text : Text)

def Request.Reply : Request → Type
  | showIp _ => Nat → Attempt
  | ping _ _ => Exchange
  | cisco _ _ => Exchange
  | vtysh _ _ _ => Exchange

abbrev Handler := Dialogue Request Request.Reply Outcome

section Handlers

variable (py : Python) (ctx : RunContext)

/-! ### read_show_ip -/

/-- `_read_show_ip` and the parse of `_show_ip_once`. -/
def showIpOnce (first second : Text) : ShownIp × Text :=
  let text := if (parseShowIp py first).ip.isEmpty then second else first
  (parseShowIp py text, text)

/-- The loop of `read_show_ip`, from an attempt on. -/
def readShowIpFrom (attempts : Nat → Attempt) : Nat → Nat → Text → Option ShownIp × Text
  | 0, _, log => (none, log)
  | left + 1, attempt, _ =>
    match attempts attempt with
    | .failed message =>
        readShowIpFrom attempts left (attempt + 1) ("connect failed: " ++ message).toList
    | .printed first second =>
      let (parsed, log) := showIpOnce py first second
      if parsed.ip.isEmpty then readShowIpFrom attempts left (attempt + 1) log
      else (some parsed, log)

def readShowIp (attempts : Nat → Attempt) :
    Option ShownIp × Text := readShowIpFrom py attempts readAttempts 0 []

/-! ### Results -/

def failed (expect : Fields) (error : String) (log : Text := []) : Handler :=
  .done (.returns
    { ok := false
      expected := expect
      actual := [("error", .str error)]
      log := String.ofList log })

def consoleUnreadable (expect : Fields) (name : Json) (attempts : Nat) (log : Text) : Handler :=
  .done (.returns {
    ok := false
    expected := expect
    log := String.ofList log
    observed := false
    errorKey := "error.validation.console_unreadable"
    errorParams := [("node", name), ("attempts", .ofNat attempts)] })

/-- A result the verdict of which raises where it compares values of the wrong types. -/
def judged (verdict : Except String Bool) (expect actual : Fields) (log : Text) : Handler :=
  match verdict with
  | .error message => .done (.raises message)
  | .ok ok => .done (.returns { ok, expected := expect, actual, log := String.ofList log })

def missingParam (name : String) (expect : Fields) :
    Handler := failed expect ("param '" ++ name ++ "' missing")

/-- What `nodes_by_name` has of a node. No node goes by what is not a string, and a list is not even
looked for. -/
def withNode {β : Type} (find : String → Option β) (missing : String) (name : Json)
    (expect : Fields)
    (next : β → Handler) : Handler :=
  match name with
  | .arr _ | .obj _ => .done (.raises (py.typeError "hash" name))
  | .str node =>
      match find node with
      | none => failed expect ("node " ++ py.repr name ++ missing)
      | some found => next found
  | _ => failed expect ("node " ++ py.repr name ++ missing)

def withConsole (name : Json) (expect : Fields) (next : NodeConsole → Handler) : Handler :=
  withNode py ctx.console " not found or no console port" name expect next

/-! ### VPCS -/

def withShownIp (console : NodeConsole) (name : Json) (expect : Fields)
    (next : ShownIp → Text → Handler) : Handler :=
  .ask (.showIp console) fun (attempts : Nat → Attempt) =>
    match readShowIp py attempts with
    | (none, log) => consoleUnreadable expect name readAttempts log
    | (some parsed, log) => next parsed log

def addressCheck (verdict : ShownIp → Bool) (params expect : Fields) : Handler :=
  match given? "node" params with
  | none => missingParam "node" expect
  | some name =>
      withConsole py ctx name expect fun console =>
        withShownIp py console name expect fun parsed log =>
        judged (.ok (verdict parsed)) expect parsed.actual log

/-- `expect.get(key)`. -/
def get (key : String) (fields : Fields) : Option Json := (Json.obj fields).field? key

def vpcsShowIp (params expect : Fields) : Handler :=
  addressCheck py ctx
    (fun parsed => (get "ip" expect).any (equals parsed.ip)
      && (get "gateway" expect).any (equals parsed.gateway))
    params expect

def vpcsIpInSubnet (params expect : Fields) : Handler :=
  addressCheck py ctx
    (fun parsed => ipInSubnet py parsed.ip ((get "subnet" expect).getD (.str ""))
      && (get "gateway" expect).any (equals parsed.gateway))
    params expect

/-- What `vpcs_ping` makes of the second ping. -/
def pinged (name : Json) (expect : Fields) (text : Text) : Handler :=
  let parsed := parsePing py text
  if parsed.received = 0 ∧ saysUnreachable py text = false then consoleUnreadable expect name 1 text
  else
    let ttl : Fields := match parsed.ttl with
      | some ttl => [("ttl", .ofNat ttl)]
      | none => []
    let ok := matchesExpected py (some parsed.received) (get "received" expect)
      && (!expect.any (fun field => field.1 == "ttl")
        || matchesExpected py parsed.ttl (get "ttl" expect))
    judged (.ok ok) expect (("received", .ofNat parsed.received) :: ttl) text

def vpcsPing (params expect : Fields) : Handler :=
  match given? "from" params, given? "to" params with
  | some name, some target =>
      withConsole py ctx name expect fun console =>
        .ask (.ping console target) fun (exchange : Exchange) =>
        match exchange with
        | .refused message | .lost message => failed expect ("connect failed: " ++ message)
        | .printed text => pinged py name expect text
  | _, _ => failed expect "params 'from' and 'to' are required"

def vpcsPingNode (params expect : Fields) : Handler :=
  match given? "to_node" params with
  | none => missingParam "to_node" expect
  | some name =>
      withConsole py ctx name expect fun console =>
        withShownIp py console name expect fun parsed log =>
        let address := bareAddress parsed.ip
        if address.isEmpty then consoleUnreadable expect name readAttempts log
        else vpcsPing py ctx [("from", (get "from" params).getD .null),
          ("to", textValue address)] expect

/-! ### FRR and Cisco IOS -/

/-- How a command is run on a node. -/
abbrev Exec := Json → String → Fields → (Text → Handler) → Handler

def execOrError : Exec := fun name command expect next =>
  withNode py (fun node => (ctx.nodeIds.get? node).filter (· != "")) " not found" name expect
    fun nodeId =>
    if ctx.gns3ProjectId = "" ∨ ctx.frrClient = false then
      failed expect "frr_client/project_id not configured in CheckContext"
    else
      .ask (.vtysh ctx.gns3ProjectId nodeId command) fun (exchange : Exchange) =>
        match exchange with
        | .refused message | .lost message => failed expect ("exec_vtysh failed: " ++ message)
        | .printed stdout => next stdout

/-- `_exec_cisco`. A connection that is lost is not caught here. -/
def execCisco : Exec := fun name command expect next =>
  withConsole py ctx name expect fun console =>
    .ask (.cisco console command) fun (exchange : Exchange) =>
      match exchange with
      | .refused message => failed expect ("connect failed: " ++ message)
      | .lost message => .done (.raises message)
      | .printed stdout => next stdout

/-- `text.startswith(value)`. -/
def startsWithValue (text : Text) : Json → Except String Bool
  | .str s => .ok (startsWith s text)
  | value => .error (py.typeError "startswith" value)

/-- `text.upper().startswith(value.upper())`. -/
def startsWithUpper (text : Text) : Json → Except String Bool
  | .str s => .ok ((py.upper s.toList).isPrefixOf (py.upper text))
  | value => .error (py.typeError "upper" value)

/-- `text.lower() == value.lower()`. -/
def equalsLower (text : Text) : Json → Except String Bool
  | .str s => .ok (py.lower s.toList == py.lower text)
  | value => .error (py.typeError "lower" value)

def ospfNeighbor (exec : Exec) (parse : Text → Json → Option Text)
    (agrees : Text → Json → Except String Bool)
    (params expect : Fields) : Handler :=
  match given? "node" params with
  | none => missingParam "node" expect
  | some name =>
      match given? "neighbor_id" expect, given? "state" expect with
      | some neighborId, some expectedState =>
          exec name "show ip ospf neighbor" expect fun stdout =>
            let state := parse stdout neighborId
            let verdict := match state with
              | some state => agrees state expectedState
              | none => .ok false
            judged verdict expect
              [("neighbor_id", neighborId), ("state", (state.map textValue).getD .null)] stdout
      | _, _ => failed expect "expect must contain 'neighbor_id' and 'state'"

def routeInTable (exec : Exec) (parse : Text → Json → Option (Text × Text))
    (params expect : Fields) : Handler :=
  match given? "node" params with
  | none => missingParam "node" expect
  | some name =>
      match given? "prefix" expect, given? "protocol" expect with
      | some routedPrefix, some protocol =>
          exec name "show ip route ospf" expect fun stdout =>
            let parsed := parse stdout routedPrefix
            let verdict := match parsed with
              | some (code, _) => startsWithValue py code protocol
              | none => .ok false
            judged verdict expect
              [("prefix", routedPrefix),
                ("protocol", (parsed.map fun route => textValue route.1).getD .null),
                ("route", (parsed.map fun route => textValue route.2).getD .null)] stdout
      | _, _ => failed expect "expect must contain 'prefix' and 'protocol'"

def frrOspfNeighbor : Fields → Fields → Handler :=
  ospfNeighbor (execOrError py ctx) (parseNeighborState py) (startsWithValue py)

def frrRouteInTable : Fields → Fields → Handler := routeInTable py (execOrError py ctx)
    (parseRoute py)

def ciscoOspfNeighbor : Fields → Fields → Handler :=
  ospfNeighbor (execCisco py ctx) (parseCiscoNeighbor py) (startsWithUpper py)

def ciscoRouteInTable : Fields → Fields → Handler := routeInTable py (execCisco py ctx)
    (parseCiscoRoute py)

/-- The verdict of `cisco_interface_brief`. An expectation that is empty or not given holds. -/
def interfaceVerdict (parsed : CiscoInterface) (expect : Fields) : Except String Bool :=
  let status := match given? "status" expect with
    | some expectedStatus => equalsLower py parsed.status expectedStatus
    | none => .ok true
  let ip := match given? "ip" expect with
    | some expectedIp => equals parsed.ip expectedIp
    | none => true
  status.map (· && ip)

def ciscoInterfaceBrief (params expect : Fields) : Handler :=
  match given? "node" params with
  | none => missingParam "node" expect
  | some name =>
      match given? "interface" params with
      | none => missingParam "interface" expect
      | some interface =>
          execCisco py ctx name "show ip interface brief" expect fun stdout =>
            match parseCiscoInterface stdout interface with
            | none => failed expect ("interface " ++ py.repr interface ++ " not found") stdout
            | some parsed =>
                judged (interfaceVerdict py parsed expect) expect
                  [("ip", textValue parsed.ip), ("status", textValue parsed.status)] stdout

def getHandler : String → Option (Fields → Fields → Handler)
  | "vpcs.show_ip" => some (vpcsShowIp py ctx)
  | "vpcs.ping" => some (vpcsPing py ctx)
  | "vpcs.ip_in_subnet" => some (vpcsIpInSubnet py ctx)
  | "vpcs.ping_node" => some (vpcsPingNode py ctx)
  | "frr.ospf_neighbor" => some (frrOspfNeighbor py ctx)
  | "frr.route_in_table" => some (frrRouteInTable py ctx)
  | "cisco.ospf_neighbor" => some (ciscoOspfNeighbor py ctx)
  | "cisco.route_in_table" => some (ciscoRouteInTable py ctx)
  | "cisco.interface_brief" => some (ciscoInterfaceBrief py ctx)
  | _ => none

def handlerOf (check : Check) : Option Handler :=
  (getHandler py ctx check.kind).map fun handler => handler check.params check.expected

/-- What the devices answer. -/
abbrev Devices := (request : Request) → request.Reply

/-- What `_eval_check` meets. -/
def outcomeOf (check : Check) (devices : Devices) : Outcome :=
  match handlerOf py ctx check with
  | none => .unknown
  | some handler => handler.run devices

end Handlers

/-! ### Along the parts of a handler -/

section Rules

variable {py : Python} {p : (request : Request) → request.Reply → Prop} {bad : Outcome → Prop}
  {expect : Fields}

theorem spoils_failed {error : String} {log : Text} : (failed expect error log).Spoils p bad :=
  Dialogue.spoils_done _

theorem spoils_judged {verdict : Except String Bool} {actual : Fields} {log : Text} :
    (judged verdict expect actual log).Spoils p bad := by
  cases verdict with
  | error message => exact Dialogue.spoils_done _
  | ok ok => exact Dialogue.spoils_done _

theorem spoils_pinged {name : Json} {text : Text} : (pinged py name expect text).Spoils p bad := by
  simp only [pinged]
  split
  · exact Dialogue.spoils_done _
  · exact spoils_judged

theorem spoils_withNode {β : Type} {find : String → Option β} {missing : String} {name : Json}
    {next : β → Handler}
    (h : ∀ node found, name = .str node → find node = some found → (next found).Spoils p bad) :
    (withNode py find missing name expect next).Spoils p bad := by
  unfold withNode
  split
  · exact Dialogue.spoils_done _
  · exact Dialogue.spoils_done _
  · split
    · exact spoils_failed
    · rename_i node _ found hfound
      exact h node found rfl hfound
  · exact spoils_failed

end Rules

/-! ### The consoles that are asked -/

def Request.console? : Request → Option NodeConsole
  | showIp console => some console
  | ping console _ => some console
  | cisco console _ => some console
  | vtysh _ _ _ => none

/-- Whatever the devices answer, the consoles that the handler asks are among these. -/
def AsksOnly (consoles : List NodeConsole) (handler : Handler) : Prop :=
  ∀ console, handler.Spoils (fun request _ => request.console? = some console) fun _ =>
    console ∈ consoles

section Asks

variable {py : Python} {ctx : RunContext} {consoles : List NodeConsole} {params expect : Fields}

theorem asksOnly_done {outcome : Outcome} : AsksOnly consoles (.done outcome) := fun _ =>
    Dialogue.spoils_done _

theorem asksOnly_judged {verdict : Except String Bool} {actual : Fields} {log : Text} :
    AsksOnly consoles (judged verdict expect actual log) := fun _ => spoils_judged

theorem asksOnly_ask {request : Request} {next : request.Reply → Handler}
    (hasked : ∀ console, request.console? = some console → console ∈ consoles)
    (hnext : ∀ reply, AsksOnly consoles (next reply)) : AsksOnly consoles (.ask request next) :=
  fun console => .ask (fun _ hconsole _ => hasked console hconsole) fun reply _ =>
    hnext reply console

theorem asksOnly_withNode {β : Type} {find : String → Option β} {missing : String} {name : Json}
    {next : β → Handler}
    (h : ∀ found, AsksOnly consoles (next found)) :
    AsksOnly consoles (withNode py find missing name expect next) :=
  fun console => spoils_withNode fun _ found _ _ => h found console

/-- A handler that goes on with the console of a param asks what it asks there. -/
theorem asksOnly_withConsole {key : String} {name : Json} {next : NodeConsole → Handler}
    (hname : given? key params = some name)
    (h : ∀ console, consoleOf ctx.toCheckContext key params = some console →
      AsksOnly consoles (next console)) :
    AsksOnly consoles (withConsole py ctx name expect next) := by
  intro asked
  apply spoils_withNode
  rintro node console rfl hconsole
  apply h
  rw [consoleOf, hname]
  exact hconsole

theorem asksOnly_withShownIp {console : NodeConsole} {name : Json} {next : ShownIp → Text → Handler}
    (hmem : console ∈ consoles) (h : ∀ parsed log, AsksOnly consoles (next parsed log)) :
    AsksOnly consoles (withShownIp py console name expect next) := by
  apply asksOnly_ask
  · rintro asked hasked
    obtain rfl := Option.some.inj hasked
    exact hmem
  · intro attempts
    split
    · exact asksOnly_done
    · exact h _ _

theorem asksOnly_addressCheck {verdict : ShownIp → Bool} :
    AsksOnly (((consoleOf ctx.toCheckContext "node" params).toList.map Validation.readShowIp).map
      (·.console))
      (addressCheck py ctx verdict params expect) := by
  unfold addressCheck
  split
  · exact asksOnly_done
  · rename_i name hname
    refine asksOnly_withConsole hname fun console hconsole => ?_
    rw [hconsole]
    exact asksOnly_withShownIp List.mem_cons_self fun parsed log => asksOnly_judged

theorem asksOnly_vpcsPing (hfrom : ∀ console, (given? "to" params).isSome = true →
    consoleOf ctx.toCheckContext "from" params = some console → console ∈ consoles) :
    AsksOnly consoles (vpcsPing py ctx params expect) := by
  unfold vpcsPing
  split
  · rename_i name target hname htarget
    refine asksOnly_withConsole hname fun console hconsole => asksOnly_ask ?_ fun exchange => ?_
    · intro asked hasked
      obtain rfl := Option.some.inj hasked
      exact hfrom console (by rw [htarget]; rfl) hconsole
    · cases exchange with
      | refused message => exact asksOnly_done
      | lost message => exact asksOnly_done
      | printed text => exact fun _ => spoils_pinged
  · exact asksOnly_done

/-- The source of the ping is the one of the params. -/
theorem given?_passed (address : Json) :
    given? "from" [("from", (get "from" params).getD .null), ("to", address)]
      = given? "from" params := by
  have hfield : ∀ source,
      (Json.obj [("from", source), ("to", address)]).field? "from" = some source := fun _ => rfl
  rw [given?, hfield]
  change _ = (get "from" params).filter Json.truthy
  cases get "from" params with
  | none => rfl
  | some source => rfl

theorem asksOnly_vpcsPingNode :
    AsksOnly ((Validation.vpcsPingNode ctx.toCheckContext params).map (·.console))
      (vpcsPingNode py ctx params expect) := by
  unfold vpcsPingNode
  split
  · exact asksOnly_done
  · rename_i name hname
    refine asksOnly_withConsole hname fun console hconsole => ?_
    rw [Validation.vpcsPingNode, hconsole]
    refine asksOnly_withShownIp List.mem_cons_self fun parsed log => ?_
    dsimp only
    split
    · exact asksOnly_done
    · refine asksOnly_vpcsPing fun source _ hsource => ?_
      rw [consoleOf, given?_passed, ← consoleOf] at hsource
      rw [hsource]
      exact List.mem_cons_of_mem _ List.mem_cons_self

/-- A way to run a command on the node of the param. -/
def ExecAsksOnly (consoles : List NodeConsole) (params : Fields) (exec : Exec) : Prop :=
  ∀ name command expect (next : Text → Handler), given? "node" params = some name →
    (∀ stdout, AsksOnly consoles (next stdout)) → AsksOnly consoles (exec name command expect next)

theorem execAsksOnly_execOrError : ExecAsksOnly consoles params (execOrError py ctx) := by
  intro name command expect next _ hnext
  refine asksOnly_withNode fun nodeId => ?_
  split
  · exact asksOnly_done
  · refine asksOnly_ask ?_ fun exchange => ?_
    · intro console hconsole
      cases hconsole
    · cases exchange with
      | refused message => exact asksOnly_done
      | lost message => exact asksOnly_done
      | printed stdout => exact hnext stdout

theorem execAsksOnly_execCisco
    (hnode : ∀ console, consoleOf ctx.toCheckContext "node" params = some console →
      console ∈ consoles) :
    ExecAsksOnly consoles params (execCisco py ctx) := by
  intro name command expect next hname hnext
  refine asksOnly_withConsole hname fun console hconsole => asksOnly_ask ?_ fun exchange => ?_
  · intro asked hasked
    obtain rfl := Option.some.inj hasked
    exact hnode console hconsole
  · cases exchange with
    | refused message => exact asksOnly_done
    | lost message => exact asksOnly_done
    | printed stdout => exact hnext stdout

theorem asksOnly_ospfNeighbor {exec : Exec} {parse : Text → Json → Option Text}
    {agrees : Text → Json → Except String Bool}
    (hexec : (given? "neighbor_id" expect).isSome ∧ (given? "state" expect).isSome →
      ExecAsksOnly consoles params exec) :
    AsksOnly consoles (ospfNeighbor exec parse agrees params expect) := by
  unfold ospfNeighbor
  split
  · exact asksOnly_done
  · rename_i name hname
    split
    · rename_i neighborId state hneighborId hstate
      exact hexec ⟨by rw [hneighborId]; rfl, by rw [hstate]; rfl⟩ _ _ _ _ hname fun stdout =>
        asksOnly_judged
    · exact asksOnly_done

theorem asksOnly_routeInTable {exec : Exec} {parse : Text → Json → Option (Text × Text)}
    (hexec : (given? "prefix" expect).isSome ∧ (given? "protocol" expect).isSome →
      ExecAsksOnly consoles params exec) :
    AsksOnly consoles (routeInTable py exec parse params expect) := by
  unfold routeInTable
  split
  · exact asksOnly_done
  · rename_i name hname
    split
    · rename_i routedPrefix protocol hrouted hprotocol
      exact hexec ⟨by rw [hrouted]; rfl, by rw [hprotocol]; rfl⟩ _ _ _ _ hname fun stdout =>
        asksOnly_judged
    · exact asksOnly_done

theorem asksOnly_ciscoInterfaceBrief
    (hexec : (given? "interface" params).isSome → ExecAsksOnly consoles params (execCisco py ctx)) :
    AsksOnly consoles (ciscoInterfaceBrief py ctx params expect) := by
  unfold ciscoInterfaceBrief
  split
  · exact asksOnly_done
  · rename_i name hname
    split
    · exact asksOnly_done
    · rename_i interface hinterface
      refine hexec (by rw [hinterface]; rfl) _ _ _ _ hname fun stdout => ?_
      split
      · exact asksOnly_done
      · exact asksOnly_judged

/-- The console of the node that a Cisco check names. -/
theorem mem_execCisco {visits : List Visit}
    (h : visits = Validation.execCisco ctx.toCheckContext params)
    (console : NodeConsole) (hconsole : consoleOf ctx.toCheckContext "node" params = some console) :
    console ∈ visits.map (·.console) := by
  rw [h, Validation.execCisco, hconsole]
  exact List.mem_cons_self

/-- **The consoles that a check visits are all that it asks.** -/
theorem asksOnly_visits {check : Check} {handler : Handler}
    (h : handlerOf py ctx check = some handler) :
    AsksOnly ((check.visits ctx.toCheckContext).map (·.console)) handler := by
  obtain ⟨kind, params, expect⟩ := check
  obtain ⟨found, hfound, rfl⟩ := Option.map_eq_some_iff.mp h
  simp only [getHandler] at hfound
  split at hfound
  all_goals cases hfound
  · exact asksOnly_addressCheck
  · apply asksOnly_vpcsPing
    intro console hto hfrom
    simp only [Check.visits, Validation.vpcsPing, if_pos hto, hfrom]
    exact List.mem_cons_self
  · exact asksOnly_addressCheck
  · exact asksOnly_vpcsPingNode
  · exact asksOnly_ospfNeighbor fun _ => execAsksOnly_execOrError
  · exact asksOnly_routeInTable fun _ => execAsksOnly_execOrError
  · exact asksOnly_ospfNeighbor fun hgiven => execAsksOnly_execCisco (mem_execCisco (if_pos hgiven))
  · exact asksOnly_routeInTable fun hgiven => execAsksOnly_execCisco (mem_execCisco (if_pos hgiven))
  · exact asksOnly_ciscoInterfaceBrief fun hgiven =>
      execAsksOnly_execCisco (mem_execCisco (if_pos hgiven))

end Asks

end OnlinetLabs.Validation.Handlers
