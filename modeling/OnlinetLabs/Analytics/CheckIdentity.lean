import OnlinetLabs.Analytics.ProgressObserver
import OnlinetLabs.Lib.Reports

/-!
# Which check is which

Two snapshots of one spec have the same checks at the same places. The difference does not go by the
place but by a key of kind and params, so of the checks that differ in what they expect alone the
last stands for all.
-/

namespace OnlinetLabs.Analytics

open Validation (Catalogs Spec Step Check Outcomes CheckRecord StepRecord evaluateSpec evaluateSteps
  evaluateChecks)

variable {prev curr : List StepRecord} {pl p c : CheckRecord} {index : Dict String CheckRecord}

def checksOf (snapshot : List StepRecord) : List CheckRecord := snapshot.flatMap (·.checks)

/-! ### What the difference should say -/

def passedEvent (c : CheckRecord) : ProgressEvent where
  eventType := "action"
  action := "check_passed"
  componentId := checkComponent c
  message := checkKey c
  success := true
  extraData := none

/-- An event of a check that fails, with what has been seen of it. -/
def failureEvent (c : CheckRecord) (action : String) (extraData : Json.Fields) : ProgressEvent where
  eventType := "error"
  action
  componentId := checkComponent c
  message := checkKey c
  success := false
  extraData := some extraData

def regressedEvent (c : CheckRecord) :
    ProgressEvent := failureEvent c "check_regressed" [("actual", .obj c.actual)]

def failingEvent (c : CheckRecord) :
    ProgressEvent := failureEvent c "check_failing" [("actual", .obj c.actual)]

def retryEvent (pc c : CheckRecord) : ProgressEvent :=
  failureEvent c "check_retry" [("prev_actual", .obj pc.actual), ("actual", .obj c.actual)]

/-- The event of a check, as its own previous record determines it. -/
def ownEvent (pc c : CheckRecord) : Option ProgressEvent :=
  match pc.ok, c.ok with
  | true, true => none
  | false, true => some (passedEvent c)
  | true, false => some (regressedEvent c)
  | false, false => some (if sameActual pc c then failingEvent c else retryEvent pc c)

def SameRecord (p c : CheckRecord) : Prop := p.ok = c.ok ∧ sameActual p c = true

/-- Every check is compared with itself. -/
structure ComparesWithItself (prev curr : List StepRecord) : Prop where
  events : diffSnapshots (some prev) curr
    = ((checksOf prev).zip (checksOf curr)).filterMap fun pair => ownEvent pair.1 pair.2
  unchanged : (∀ pair ∈ (checksOf prev).zip (checksOf curr), SameRecord pair.1 pair.2) →
    diffSnapshots (some prev) curr = ((checksOf curr).filter fun c => !c.ok).map failingEvent

def lastWithKey (snapshot : List StepRecord) (key : String) : Option CheckRecord :=
  (checksOf snapshot).reverse.find? fun c => checkKey c == key

/-- One previous record tells of a check what another does: they are both ok or both not, and where
the check fails again, either both have seen what is seen now, or neither, and they have seen the
same. -/
def TellsTheSame (pl p c : CheckRecord) : Prop :=
  pl.ok = p.ok ∧ (p.ok = false → c.ok = false →
    (sameActual pl c = true ∧ sameActual p c = true)
      ∨ (sameActual pl c = false ∧ sameActual p c = false ∧ pl.actual = p.actual))

/-- Of the checks with one key, the previous record of the last tells of each what its own does. -/
def LastStandsForAll (prev curr : List StepRecord) : Prop :=
  ∀ pair ∈ (checksOf prev).zip (checksOf curr), ∀ pl ∈ lastWithKey prev (checkKey pair.2),
    TellsTheSame pl pair.1 pair.2

/-! ### One check -/

theorem diffCheck_eq : diffCheck index c = (index.get? (checkKey c)).bind fun pc =>
    ownEvent pc c := by
  unfold ownEvent diffCheck
  congr 1
  funext pc
  cases pc.ok with
  | true =>
    cases c.ok with
    | _ => rfl
  | false =>
    cases c.ok with
    | true => rfl
    | false =>
      cases sameActual pc c with
      | _ => rfl

theorem message_of_ownEvent {e : ProgressEvent} (h : e ∈ ownEvent pl c) :
    e.message = checkKey c := by
  unfold ownEvent at h
  split at h
  · cases h
  · cases h
    rfl
  · cases h
    rfl
  · split at h
    · cases h
      rfl
    · cases h
      rfl

theorem isSome_ownEvent : (ownEvent pl c).isSome = !(pl.ok && c.ok) := by
  unfold ownEvent
  cases pl.ok with
  | true =>
    cases c.ok with
    | _ => rfl
  | false =>
    cases c.ok with
    | _ => rfl

theorem ownEvent_eq_iff : ownEvent pl c = ownEvent p c ↔ TellsTheSame pl p c := by
  unfold ownEvent TellsTheSame
  cases c.ok with
  | true =>
    cases pl.ok with
    | _ =>
      cases p.ok with
      | _ => simp
  | false =>
    cases pl.ok with
    | true =>
      cases p.ok with
      | true => simp
      | false =>
        cases sameActual p c with
        | _ => simp [regressedEvent, failingEvent, retryEvent, failureEvent]
    | false =>
      cases p.ok with
      | true =>
        cases sameActual pl c with
        | _ => simp [regressedEvent, failingEvent, retryEvent, failureEvent]
      | false =>
        cases sameActual pl c with
        | _ =>
          cases sameActual p c with
          | _ => simp [failingEvent, retryEvent, failureEvent]

/-! ### The checks of two snapshots -/

def Aligned (prev curr : List StepRecord) : Prop :=
  (checksOf prev).map (fun c => (c.kind, c.params)) = (checksOf curr).map fun c =>
    (c.kind, c.params)

section Spec

variable {catalogs : Catalogs} {locale : Validation.Locale} {outcomes : Outcomes}
  {outcome : Nat → Validation.Outcome}
  {idx n : Nat} {checks : List Check} {steps : List Step} {taken taken' : List CheckRecord}
    {ok ok' : Bool}
  {accumulated accumulated' : List StepRecord} {spec : Spec} {snapshot : List StepRecord}

theorem map_identity_evaluateChecks
    (h : evaluateChecks catalogs locale outcome idx checks taken ok = some (taken', ok')) :
    taken'.map (fun c => (c.kind, c.params))
      = taken.map (fun c => (c.kind, c.params)) ++ checks.map fun check =>
        (check.kind, check.params) := by
  induction checks generalizing idx taken ok with
  | nil =>
    cases h
    simp
  | cons check checks ih =>
    simp only [evaluateChecks, Option.bind_eq_bind, Option.bind_eq_some_iff] at h
    obtain ⟨record, hrecord, hrest⟩ := h
    have hrecord := (Validation.checkRecord_eq_some hrecord).1
    have hkind : record.kind = check.kind := congrArg CheckRecord.kind hrecord
    have hparams : record.params = check.params := congrArg CheckRecord.params hrecord
    rw [ih hrest, List.map_append, List.map_singleton, hkind, hparams, List.map_cons,
      List.append_assoc, List.singleton_append]

theorem map_identity_evaluateSteps
    (h : evaluateSteps catalogs locale outcomes n steps accumulated = some accumulated') :
    (checksOf accumulated').map (fun c => (c.kind, c.params))
      = (checksOf accumulated).map (fun c => (c.kind, c.params))
        ++ (steps.flatMap (·.checks)).map fun check => (check.kind, check.params) := by
  induction steps generalizing n accumulated with
  | nil =>
    cases h
    simp
  | cons step steps ih =>
    simp only [evaluateSteps, Option.bind_eq_bind, Option.bind_eq_some_iff] at h
    obtain ⟨⟨checks, ok⟩, hchecks, hrest⟩ := h
    have hstep := map_identity_evaluateChecks hchecks
    rw [List.map_nil, List.nil_append] at hstep
    rw [ih hrest, checksOf, List.flatMap_append, List.flatMap_singleton, List.map_append, hstep,
      List.flatMap_cons, List.map_append, List.append_assoc]
    rfl

/-- A snapshot has the checks of the spec, in their order. -/
theorem map_identity_evaluateSpec (h : evaluateSpec catalogs locale outcomes spec = some snapshot) :
    (checksOf snapshot).map (fun c => (c.kind, c.params))
      = (spec.steps.flatMap (·.checks)).map fun check => (check.kind, check.params) :=
  map_identity_evaluateSteps h

end Spec

/-! ### The difference -/

theorem Aligned.length (h : Aligned prev curr) :
    (checksOf prev).length = (checksOf curr).length := by
  have hlength := congrArg List.length h
  simpa using hlength

/-- A check and its own previous record have one key. -/
theorem Aligned.checkKey_eq (h : Aligned prev curr) {pair : CheckRecord × CheckRecord}
    (hpair : pair ∈ (checksOf prev).zip (checksOf curr)) : checkKey pair.1 = checkKey pair.2 := by
  obtain ⟨i, hi, rfl⟩ := List.mem_iff_getElem.mp hpair
  have hi' := congrArg (fun identities => identities[i]?) h
  rw [List.length_zip] at hi
  have hp : i < (checksOf prev).length := by omega
  have hc : i < (checksOf curr).length := by omega
  simp only [List.getElem?_map, List.getElem?_eq_getElem hp, List.getElem?_eq_getElem hc,
    Option.map_some, Option.some.injEq, Prod.mk.injEq] at hi'
  simp only [List.getElem_zip, checkKey, hi'.1, hi'.2]

theorem exists_lastWithKey (h : Aligned prev curr) {pair : CheckRecord × CheckRecord}
    (hpair : pair ∈ (checksOf prev).zip (checksOf curr)) :
    ∃ pl, lastWithKey prev (checkKey pair.2) = some pl := by
  apply Option.ne_none_iff_exists'.mp
  intro hnone
  have hmiss := List.find?_eq_none.mp hnone pair.1 (List.mem_reverse.mpr (List.of_mem_zip hpair).1)
  rw [h.checkKey_eq hpair] at hmiss
  simp at hmiss

theorem diffSnapshots_eq (h : Aligned prev curr) :
    diffSnapshots (some prev) curr
      = ((checksOf prev).zip (checksOf curr)).filterMap fun pair =>
        diffCheck (checkIndex prev) pair.2 := by
  have hcurr : ((checksOf prev).zip (checksOf curr)).map Prod.snd = checksOf curr :=
    List.map_snd_zip h.length.ge
  calc diffSnapshots (some prev) curr = (checksOf curr).filterMap (diffCheck (checkIndex prev)) :=
    rfl
    _ = (((checksOf prev).zip (checksOf curr)).map Prod.snd).filterMap
        (diffCheck (checkIndex prev)) := by rw [hcurr]
    _ = _ := List.filterMap_map

/-- A check is compared with the last previous record of its key. -/
theorem diffCheck_of_last (h : lastWithKey prev (checkKey c) = some pl) :
    diffCheck (checkIndex prev) c = ownEvent pl c := by
  have hindex : (checkIndex prev).get? (checkKey c) = some pl :=
    (get?_checkIndex prev (checkKey c)).trans h
  rw [diffCheck_eq, hindex, Option.bind_some]

/-- The events are those of the checks' own records exactly where each event is. -/
theorem events_iff (h : Aligned prev curr) :
    diffSnapshots (some prev) curr
        = ((checksOf prev).zip (checksOf curr)).filterMap (fun pair => ownEvent pair.1 pair.2)
      ↔ ∀ pair ∈ (checksOf prev).zip (checksOf curr),
        diffCheck (checkIndex prev) pair.2 = ownEvent pair.1 pair.2 := by
  rw [diffSnapshots_eq h]
  have hindexed : Reports.Tagged ProgressEvent.message (fun pair => checkKey pair.2)
      (fun pair => diffCheck (checkIndex prev) pair.2) ((checksOf prev).zip (checksOf curr)) := by
    intro pair hpair e he
    obtain ⟨pl, hpl⟩ := exists_lastWithKey h hpair
    exact message_of_ownEvent ((diffCheck_of_last hpl).symm.trans he)
  have hown : Reports.Tagged ProgressEvent.message (fun pair => checkKey pair.2)
      (fun pair => ownEvent pair.1 pair.2) ((checksOf prev).zip (checksOf curr)) :=
    fun pair _ e he => message_of_ownEvent he
  apply Reports.filterMap_eq_iff hindexed hown
  intro k
  cases hlast : lastWithKey prev k with
  | none =>
    left
    intro pair hpair
    obtain ⟨hmem, hkey⟩ := List.mem_filter.mp hpair
    obtain ⟨pl, hpl⟩ := exists_lastWithKey h hmem
    rw [of_decide_eq_true hkey, hlast] at hpl
    cases hpl
  | some pl =>
    have hgroup : ∀ pair ∈ ((checksOf prev).zip (checksOf curr)).filter (fun pair =>
        decide (checkKey pair.2 = k)),
        (diffCheck (checkIndex prev) pair.2).isSome = !(pl.ok && pair.2.ok) := by
      intro pair hpair
      obtain ⟨-, hkey⟩ := List.mem_filter.mp hpair
      rw [diffCheck_of_last ((congrArg _ (of_decide_eq_true hkey)).trans hlast), isSome_ownEvent]
    -- A last record that is ok reports the failures, which every record does; one that is not
    -- reports always.
    cases hok : pl.ok with
    | true =>
      left
      intro pair hpair hsome
      have hfails := (hgroup pair hpair).symm.trans hsome
      rw [hok, Bool.true_and] at hfails
      simp only [isSome_ownEvent, Bool.not_and, hfails, Bool.or_true]
    | false =>
      right
      intro pair hpair _
      rw [hok] at hgroup
      exact hgroup pair hpair

/-- Where nothing has changed, the own events are the failures. -/
theorem ownEvents_of_same (h : Aligned prev curr)
    (hsame : ∀ pair ∈ (checksOf prev).zip (checksOf curr), SameRecord pair.1 pair.2) :
    ((checksOf prev).zip (checksOf curr)).filterMap (fun pair => ownEvent pair.1 pair.2)
      = ((checksOf curr).filter fun c => !c.ok).map failingEvent := by
  have hcurr : ((checksOf prev).zip (checksOf curr)).map Prod.snd = checksOf curr :=
    List.map_snd_zip h.length.ge
  have hown : ∀ pair ∈ (checksOf prev).zip (checksOf curr),
      ownEvent pair.1 pair.2 = if !pair.2.ok then some (failingEvent pair.2) else none := by
    intro pair hpair
    obtain ⟨hok, hactual⟩ := hsame pair hpair
    rw [ownEvent, hok, hactual]
    cases pair.2.ok with
    | _ => rfl
  calc _ = ((checksOf prev).zip (checksOf curr)).filterMap
        ((fun c : CheckRecord => if !c.ok then some (failingEvent c) else none) ∘ Prod.snd) :=
          List.filterMap_congr hown
    _ = (checksOf curr).filterMap fun c => if !c.ok then some (failingEvent c) else none := by
        rw [← List.filterMap_map, hcurr]
    _ = _ := by rw [← List.filterMap_filter, List.filterMap_eq_map']

/-- **When each check is compared with itself.** -/
theorem comparesWithItself_iff {catalogs catalogs' : Catalogs} {locale locale' : Validation.Locale}
    {outcomes outcomes' : Outcomes} {spec : Spec}
    (hprev : evaluateSpec catalogs locale outcomes spec = some prev)
    (hcurr : evaluateSpec catalogs' locale' outcomes' spec = some curr) :
    ComparesWithItself prev curr ↔ LastStandsForAll prev curr := by
  have haligned : Aligned prev curr :=
    (map_identity_evaluateSpec hprev).trans (map_identity_evaluateSpec hcurr).symm
  have hevents : diffSnapshots (some prev) curr
        = ((checksOf prev).zip (checksOf curr)).filterMap (fun pair => ownEvent pair.1 pair.2)
      ↔ LastStandsForAll prev curr := by
    rw [events_iff haligned]
    constructor
    · intro h pair hpair pl hpl
      rw [← ownEvent_eq_iff, ← diffCheck_of_last hpl]
      exact h pair hpair
    · intro h pair hpair
      obtain ⟨pl, hpl⟩ := exists_lastWithKey haligned hpair
      rw [diffCheck_of_last hpl, ownEvent_eq_iff]
      exact h pair hpair pl hpl
  constructor
  · exact fun h => hevents.mp h.events
  · exact fun h =>
      ⟨hevents.mpr h, fun hsame => (hevents.mpr h).trans (ownEvents_of_same haligned hsame)⟩

/-! ### Two routes of one router -/

def routeCheck (subnet : String) : Check where
  kind := "frr.route_in_table"
  params := [("node", .str "R1")]
  expect := some [("prefix", .str subnet), ("protocol", .str "O")]

def routesSpec : Spec :=
  { steps := [{
      id := "ospf-routes"
      checks := [routeCheck "192.168.110.0/24", routeCheck "192.168.120.0/24"] }] }

def routeOutcomes : Outcomes := fun _ idx => .returns
  { ok := idx == 0
    actual := [("protocol", if idx == 0 then .str "O>*" else .null)] }

def routeRecord (ok : Bool) (protocol : Json) : CheckRecord where
  kind := "frr.route_in_table"
  params := [("node", .str "R1")]
  ok
  expected := []
  actual := [("protocol", protocol)]

def routesSnapshot : List StepRecord :=
  [{ id := "ospf-routes", title := "", ok := false,
     checks := [routeRecord true (.str "O>*"), routeRecord false .null] }]

theorem evaluateSpec_routes :
    evaluateSpec Validation.plainCatalogs .en routeOutcomes routesSpec = some routesSnapshot := rfl

theorem comparesWithItself_iff_routes :
    ComparesWithItself routesSnapshot routesSnapshot
      ↔ LastStandsForAll routesSnapshot routesSnapshot :=
  comparesWithItself_iff evaluateSpec_routes evaluateSpec_routes

/-- **A route that is there is reported as fixed, poll after poll.** -/
theorem routes_not_comparedWithItself :
    evaluateSpec Validation.plainCatalogs .en routeOutcomes routesSpec = some routesSnapshot
      ∧ ¬ComparesWithItself routesSnapshot routesSnapshot := by
  refine ⟨rfl, fun h => ?_⟩
  have hown : diffCheck (checkIndex routesSnapshot) (routeRecord true (.str "O>*")) = none :=
    (events_iff rfl).mp h.events (routeRecord true (.str "O>*"), routeRecord true (.str "O>*"))
      List.mem_cons_self
  have hlast : lastWithKey routesSnapshot (checkKey (routeRecord true (.str "O>*")))
      = some (routeRecord false .null) :=
    List.find?_cons_of_pos (beq_self_eq_true _)
  rw [diffCheck_of_last hlast] at hown
  cases hown

end OnlinetLabs.Analytics
