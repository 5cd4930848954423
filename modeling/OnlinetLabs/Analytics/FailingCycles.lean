import OnlinetLabs.Analytics.CheckIdentity
import OnlinetLabs.Analytics.Features
import OnlinetLabs.Lib.Trailing

/-!
# Cycles that are counted in rows

A poll in which checks keep failing writes a row for each of them, and the feature that is named
after the cycles counts the rows at the end of the window, as long as they are of one component. It
counts the polls where one check fails. Where more than one does, it counts one poll at most: one
row where the last two differ, and too many where they do not.
-/

namespace OnlinetLabs.Analytics

open Validation (Catalogs Spec Check Outcomes CheckRecord StepRecord evaluateSpec)
open Sessions (SessionId)
open Trailing (trailing)

/-! ### The feature -/

def FailsOn (componentId : String) (row : BehavioralEvent) : Bool :=
  row.action == "check_failing" && row.componentId == some componentId

section Feature

variable {events before after : List BehavioralEvent} {e e' : BehavioralEvent} {cid : String}
  {run : Nat}

theorem failingRun_some :
    failingRun events run (some cid) = run + (events.takeWhile (FailsOn cid)).length := by
  induction events generalizing run with
  | nil => rfl
  | cons e events ih =>
    by_cases haction : e.action = "check_failing"
    · by_cases hcomponent : e.componentId = some cid
      · have hfails : FailsOn cid e = true := by simp [FailsOn, haction, hcomponent]
        rw [List.takeWhile_cons_of_pos hfails, List.length_cons]
        simp only [failingRun, haction, ne_eq, not_true_eq_false, if_false, hcomponent, if_true, ih]
        omega
      · have hfails : ¬FailsOn cid e = true := by simp [FailsOn, hcomponent]
        rw [List.takeWhile_cons_of_neg hfails]
        simp [failingRun, haction, hcomponent]
    · have hfails : ¬FailsOn cid e = true := by simp [FailsOn, haction]
      rw [List.takeWhile_cons_of_neg hfails]
      simp [failingRun, haction]

/-- The feature is the trailing run on the component of the last row. -/
theorem cyclesFailingUnchanged_concat (h : FailsOn cid e = true) :
    cyclesFailingUnchanged (events ++ [e]) = trailing (FailsOn cid) (events ++ [e]) := by
  obtain ⟨haction, hcomponent⟩ : e.action = "check_failing" ∧ e.componentId = some cid := by
    simpa [FailsOn] using h
  have hfirst :
      failingRun (e :: events.reverse) 0 none = failingRun events.reverse 1 (some cid) := by
    simp [failingRun, haction, hcomponent]
  rw [Trailing.trailing_concat, if_pos h, cyclesFailingUnchanged, List.reverse_append,
    List.reverse_singleton, List.singleton_append, hfirst, failingRun_some, Trailing.trailing,
    Nat.add_comm]

theorem cyclesFailingUnchanged_append (hafter : after ≠ [])
    (hall : ∀ e ∈ after, FailsOn cid e = true) :
    cyclesFailingUnchanged (before ++ after) = trailing (FailsOn cid) before + after.length := by
  have hlast := List.dropLast_append_getLast hafter
  rw [← Trailing.trailing_append hall, ← hlast, ← List.append_assoc]
  exact cyclesFailingUnchanged_concat (hall _ (List.getLast_mem hafter))

theorem failsOn_of_ne (h : FailsOn cid e' = true) (hne : e.componentId ≠ e'.componentId) :
    FailsOn cid e = false := by
  obtain ⟨-, hcomponent⟩ : e'.action = "check_failing" ∧ e'.componentId = some cid := by
    simpa [FailsOn] using h
  rw [hcomponent] at hne
  simp [FailsOn, hne]

/-- Two rows at the end on different components count as one. -/
theorem cyclesFailingUnchanged_of_ne (h : FailsOn cid e' = true)
    (hne : e.componentId ≠ e'.componentId) :
    cyclesFailingUnchanged (events ++ [e, e']) = 1 := by
  have hend : events ++ [e, e'] = events ++ [e] ++ [e'] := by simp
  rw [hend, cyclesFailingUnchanged_concat h, Trailing.trailing_concat, if_pos h,
    Trailing.trailing_concat, failsOn_of_ne h hne, if_neg Bool.false_ne_true]

theorem two_le_cyclesFailingUnchanged (h : FailsOn cid e = true) (h' : FailsOn cid e' = true) :
    2 ≤ cyclesFailingUnchanged (events ++ [e, e']) := by
  have hall : ∀ e'' ∈ [e, e'], FailsOn cid e'' = true := by simp [h, h']
  rw [cyclesFailingUnchanged_append (List.cons_ne_nil e [e']) hall]
  exact Nat.le_add_left 2 _

end Feature

/-! ### The rows of a poll -/

def failing (snapshot : List StepRecord) :
    List CheckRecord := (checksOf snapshot).filter fun c => !c.ok

namespace LabProgressObserver

variable (o : LabProgressObserver)

def reported (w : Watched) (poll : Poll) : List ProgressEvent :=
  match o.snapshot? (poll.before w.row) poll with
  | none => []
  | some snapshot => diffSnapshots w.prevSnapshot snapshot

/-- A poll whose events are saved, and which reports that checks keep failing and nothing else. -/
structure KeepsFailing (spec : Spec) (w : Watched) (poll : Poll) : Prop where
  spec : poll.spec = some spec
  reports : o.reported w poll ≠ []
  failing : ∀ e ∈ o.reported w poll, e.action = "check_failing"
  columns : ((o.reported w poll).mapM (ProgressEvent.toRow o poll.timestamp)).isSome = true
  saved : poll.mayCollect = true ∧ poll.saved = true

end LabProgressObserver

def ofRow (row : BehavioralEvent) : String × Nat × Option Json :=
  (row.action, row.timestamp, row.componentId.map Json.str)

section Poll

variable {o : LabProgressObserver} {t : Nat} {event : ProgressEvent} {events : List ProgressEvent}
  {row : BehavioralEvent} {rows : List BehavioralEvent} {prev snapshot : List StepRecord}
    {V : String → Bool}
  {spec : Spec} {w : Watched} {poll : Poll}

theorem ofRow_of_toRow (h : event.toRow o t = some row) :
    ofRow row = (event.action, t, some event.componentId) := by
  unfold ProgressEvent.toRow at h
  split at h
  · rename_i componentId hcomponent
    cases h
    simp only [ofRow, hcomponent, Option.map_some]
  · cases h

theorem map_ofRow_of_mapM (h : events.mapM (·.toRow o t) = some rows) :
    rows.map ofRow = events.map fun event => (event.action, t, some event.componentId) := by
  induction events generalizing rows with
  | nil =>
    cases h
    rfl
  | cons event events ih =>
    simp only [List.mapM_cons, Option.bind_eq_bind, Option.bind_eq_some_iff, Option.pure_def,
      Option.some.injEq] at h
    obtain ⟨row, hrow, rest, hrest, rfl⟩ := h
    rw [List.map_cons, List.map_cons, ofRow_of_toRow hrow, ih hrest]

theorem Aligned.filterMap_eq {β : Type} (h : Aligned prev snapshot) {g : CheckRecord → Option β}
    (hg : ∀ c c' : CheckRecord, c.kind = c'.kind → c.params = c'.params → g c = g c') :
    (checksOf prev).filterMap g = (checksOf snapshot).filterMap g := by
  let record : String × Json.Fields → CheckRecord := fun identity =>
    { kind := identity.1, params := identity.2, ok := true, expected := [], actual := [] }
  have hrecord : ∀ checks : List CheckRecord,
      checks.filterMap g = (checks.map fun c => (c.kind, c.params)).filterMap fun identity =>
        g (record identity) := by
    intro checks
    rw [List.filterMap_map]
    exact List.filterMap_congr fun c _ => hg c (record (c.kind, c.params)) rfl rfl
  rw [hrecord, hrecord, h]

def Decided (V : String → Bool) (snapshot : List StepRecord) :
    Prop := ∀ c ∈ checksOf snapshot, c.ok = V (checkKey c)

/-- Of the records of a key, the last has its verdict. -/
def LastSays (V : String → Bool) (snapshot : List StepRecord) : Prop :=
  ∀ key, ∀ pl ∈ lastWithKey snapshot key, pl.ok = V key

theorem Decided.lastSays (h : Decided V snapshot) : LastSays V snapshot := by
  intro key pl hpl
  have hkey : checkKey pl = key := by simpa using List.find?_some hpl
  rw [← hkey]
  exact h pl (List.mem_reverse.mp (List.mem_of_find?_eq_some hpl))

/-- Where nothing is reported but checks that keep failing, each has the verdict of its key. -/
theorem decided_of_failing (h : Aligned prev snapshot) (hlast : LastSays V prev)
    (hfailing : ∀ e ∈ diffSnapshots (some prev) snapshot, e.action = "check_failing") :
    Decided V snapshot
      ∧ diffSnapshots (some prev) snapshot = (failing snapshot).map failingEvent := by
  have hevents : diffSnapshots (some prev) snapshot
      = (checksOf snapshot).filterMap (diffCheck (checkIndex prev)) := rfl
  have hcheck : ∀ c ∈ checksOf snapshot, c.ok = V (checkKey c)
      ∧ diffCheck (checkIndex prev) c = if !c.ok then some (failingEvent c) else none := by
    intro c hc
    have hcurr : ((checksOf prev).zip (checksOf snapshot)).map Prod.snd = checksOf snapshot :=
      List.map_snd_zip h.length.ge
    rw [← hcurr] at hc
    obtain ⟨pair, hpair, rfl⟩ := List.mem_map.mp hc
    obtain ⟨pl, hpl⟩ := exists_lastWithKey h hpair
    have hreport : ∀ e ∈ ownEvent pl pair.2, e.action = "check_failing" := by
      intro e he
      apply hfailing
      rw [hevents, List.mem_filterMap]
      exact ⟨pair.2, (List.of_mem_zip hpair).2, (diffCheck_of_last hpl).trans he⟩
    rw [diffCheck_of_last hpl, ← hlast _ pl hpl]
    have hpassed : "check_passed" ≠ "check_failing" := by decide
    have hregressed : "check_regressed" ≠ "check_failing" := by decide
    have hretry : "check_retry" ≠ "check_failing" := by decide
    unfold ownEvent at hreport ⊢
    cases hp : pl.ok with
    | true =>
      cases hok : pair.2.ok with
      | true => exact ⟨rfl, rfl⟩
      | false =>
        rw [hp, hok] at hreport
        exact absurd (hreport (regressedEvent pair.2) rfl) hregressed
    | false =>
      cases hok : pair.2.ok with
      | true =>
        rw [hp, hok] at hreport
        exact absurd (hreport (passedEvent pair.2) rfl) hpassed
      | false =>
        rw [hp, hok] at hreport
        cases hsame : sameActual pl pair.2 with
        | true => exact ⟨rfl, rfl⟩
        | false =>
          rw [hsame] at hreport
          exact absurd (hreport (retryEvent pl pair.2) rfl) hretry
  refine ⟨fun c hc => (hcheck c hc).1, ?_⟩
  calc diffSnapshots (some prev) snapshot
      = (checksOf snapshot).filterMap fun c => if !c.ok then some (failingEvent c) else none :=
        List.filterMap_congr fun c hc => (hcheck c hc).2
    _ = (failing snapshot).map failingEvent := by
      rw [← List.filterMap_filter, List.filterMap_eq_map']; rfl

def components (V : String → Bool) (snapshot : List StepRecord) : List Json :=
  ((checksOf snapshot).filter fun c => !V (checkKey c)).map checkComponent

theorem Aligned.components_eq (h : Aligned prev snapshot) :
    components V prev = components V snapshot := by
  have hcomponents : ∀ snapshot : List StepRecord, components V snapshot
      = (checksOf snapshot).filterMap fun c => if !V (checkKey c) then some (checkComponent c)
        else none := by
    intro snapshot
    rw [components, ← List.filterMap_eq_map', List.filterMap_filter]
  rw [hcomponents, hcomponents]
  refine h.filterMap_eq fun c c' hkind hparams => ?_
  have hkey : checkKey c = checkKey c' := by rw [checkKey, checkKey, hkind, hparams]
  have hcomponent : checkComponent c = checkComponent c' := by
    rw [checkComponent, checkComponent, hkind, hparams]
  rw [hkey, hcomponent]

theorem Decided.map_checkComponent (h : Decided V snapshot) :
    (failing snapshot).map checkComponent = components V snapshot := by
  have hfilter : failing snapshot = (checksOf snapshot).filter fun c => !V (checkKey c) :=
    List.filter_congr fun c hc => by rw [h c hc]
  rw [components, hfilter]

/-- The rows of a poll are one for each component, with one stamp. -/
def IsBlock (components : List Json) (t : Nat) (block : List BehavioralEvent) : Prop :=
  block.map ofRow = components.map fun component => ("check_failing", t, some component)

def Evaluates (o : LabProgressObserver) (spec : Spec) (snapshot : List StepRecord) : Prop :=
  ∃ locale outcomes, evaluateSpec o.catalogs locale outcomes spec = some snapshot

theorem Evaluates.aligned (h : Evaluates o spec prev) (h' : Evaluates o spec snapshot) :
    Aligned prev snapshot := by
  obtain ⟨locale, outcomes, hprev⟩ := h
  obtain ⟨locale', outcomes', hsnapshot⟩ := h'
  exact (map_identity_evaluateSpec hprev).trans (map_identity_evaluateSpec hsnapshot).symm

/-- **One poll.** -/
theorem pollCycle_of_keepsFailing (hprev : w.prevSnapshot = some prev)
    (heval : Evaluates o spec prev)
    (hlast : LastSays V prev) (h : o.KeepsFailing spec w poll) :
    ∃ snapshot block, Evaluates o spec snapshot ∧ Decided V snapshot
      ∧ (o.pollCycle w poll).prevSnapshot = some snapshot
        ∧ (o.pollCycle w poll).events = w.events ++ block
      ∧ IsBlock (components V prev) poll.timestamp block ∧ components V prev ≠ [] := by
  obtain ⟨hspec, hreports, hfailing, hcolumns, hcollect, hsaved⟩ := h
  unfold LabProgressObserver.reported at hreports hfailing hcolumns
  cases hsnapshot : o.snapshot? (poll.before w.row) poll with
  | none =>
    rw [hsnapshot] at hreports
    exact absurd rfl hreports
  | some snapshot =>
    simp only [hsnapshot, hprev] at hreports hfailing hcolumns
    obtain ⟨spec', locale, hspec', hevaluated⟩ :=
      LabProgressObserver.evaluateSpec_of_snapshot? hsnapshot
    rw [hspec, Option.some.injEq] at hspec'
    have hevaluates : Evaluates o spec snapshot := ⟨locale, poll.outcomes, hspec' ▸ hevaluated⟩
    have haligned := heval.aligned hevaluates
    obtain ⟨hdecided, hevents⟩ := decided_of_failing haligned hlast hfailing
    obtain ⟨block, hblock⟩ := Option.isSome_iff_exists.mp hcolumns
    have hmap := hdecided.map_checkComponent.trans haligned.components_eq.symm
    refine ⟨snapshot, block, hevaluates, hdecided,
      LabProgressObserver.prevSnapshot_pollCycle hsnapshot, ?_, ?_, ?_⟩
    · have hpersist : ∀ w' : Watched,
          (o.persist poll (diffSnapshots (some prev) snapshot) w').events
          = w'.events ++ block := by
        intro w'
        simp only [LabProgressObserver.persist, hcollect, hsaved, Bool.and_self, if_true, hblock]
      have hsome : (diffSnapshots (some prev) snapshot).isEmpty = false := by simpa using hreports
      simp only [LabProgressObserver.pollCycle, hsnapshot, hprev, hsome, Bool.false_eq_true,
        if_false, hpersist]
      unfold touchObservedSession
      split
      · rfl
      · rfl
    · have hrows := map_ofRow_of_mapM hblock
      rw [hevents, List.map_map] at hrows
      rw [IsBlock, hrows, ← hmap, List.map_map]
      rfl
    · intro hnone
      rw [hnone, List.map_eq_nil_iff] at hmap
      rw [hevents, hmap] at hreports
      exact hreports rfl

/-- **A run of polls.** Each writes the rows of the same components. -/
theorem foldl_pollCycle_of_keepsFailing {polls : List Poll} (hprev : w.prevSnapshot = some prev)
    (heval : Evaluates o spec prev) (hlast : LastSays V prev)
    (hkeeps : Everywhere o.pollCycle (o.KeepsFailing spec) w polls) :
    ∃ blocks, (polls.foldl o.pollCycle w).events = w.events ++ blocks.flatten
      ∧ List.Forall₂ (fun poll block => IsBlock (components V prev) poll.timestamp block)
        polls blocks
      ∧ (polls ≠ [] → components V prev ≠ [] ∧ ∃ snapshot,
        (polls.foldl o.pollCycle w).prevSnapshot = some snapshot
          ∧ (failing snapshot).map checkComponent = components V prev) := by
  induction polls generalizing w prev with
  | nil => exact ⟨[], (List.append_nil _).symm, .nil, fun h => absurd rfl h⟩
  | cons poll polls ih =>
    obtain ⟨hpoll, hpolls⟩ := everywhere_cons.mp hkeeps
    obtain ⟨snapshot, block, heval', hdecided, hprev', hevents, hblock, hnonempty⟩ :=
      pollCycle_of_keepsFailing hprev heval hlast hpoll
    obtain ⟨blocks, hrest, hblocks, hend⟩ := ih hprev' heval' hdecided.lastSays hpolls
    have hcomponents : components V prev = components V snapshot :=
      (heval.aligned heval').components_eq
    refine ⟨block :: blocks, ?_, .cons hblock (hcomponents ▸ hblocks), fun _ => ⟨hnonempty, ?_⟩⟩
    · rw [List.foldl_cons, hrest, hevents, List.append_assoc, List.flatten_cons]
    · by_cases hpolls' : polls = []
      · subst hpolls'
        exact ⟨snapshot, hprev', hdecided.map_checkComponent.trans hcomponents.symm⟩
      · obtain ⟨-, last, hlast', hmap⟩ := hend hpolls'
        exact ⟨last, hlast', hmap.trans hcomponents.symm⟩

end Poll

/-! ### The rows of a run of polls -/

/-- The rows of several polls, the last of them apart. -/
structure EndsInBlock (components : List Json) (n : Nat)
    (saved front last : List BehavioralEvent) : Prop where
  split : saved = front ++ last
  block : ∃ t, IsBlock components t last
  fails : ∀ row ∈ saved, ∃ cid, Json.str cid ∈ components ∧ FailsOn cid row = true
  length : saved.length = n * components.length
  alone : n = 1 → front = []
  ordered : saved.Pairwise fun row later => row.timestamp ≤ later.timestamp

section Blocks

variable {components : List Json} {component : Json} {t n : Nat}
  {block saved front last : List BehavioralEvent}
  {before window : List BehavioralEvent} {row row' : BehavioralEvent} {polls : List Poll}
  {blocks : List (List BehavioralEvent)}

theorem IsBlock.length (h : IsBlock components t block) : block.length = components.length := by
  simpa using congrArg List.length h

theorem IsBlock.map_timestamp (h : IsBlock components t block) :
    block.map (·.timestamp) = List.replicate components.length t := by
  have hmap := congrArg (List.map fun row : String × Nat × Option Json => row.2.1) h
  rw [List.map_map, List.map_map] at hmap
  exact hmap.trans List.map_const'

theorem IsBlock.map_component (h : IsBlock components t block) :
    block.map (fun row => row.componentId.map Json.str) = components.map some := by
  have hmap := congrArg (List.map fun row : String × Nat × Option Json => row.2.2) h
  rwa [List.map_map, List.map_map] at hmap

theorem IsBlock.fails (h : IsBlock components t block) (hrow : row ∈ block) :
    ∃ cid, Json.str cid ∈ components ∧ FailsOn cid row = true := by
  have hmem : ofRow row ∈ block.map ofRow := List.mem_map_of_mem hrow
  rw [h] at hmem
  obtain ⟨component, hcomponent, heq⟩ := List.mem_map.mp hmem
  obtain ⟨haction, hrest⟩ := Prod.mk.inj heq
  obtain ⟨cid, hcid, rfl⟩ := Option.map_eq_some_iff.mp (Prod.mk.inj hrest).2.symm
  exact ⟨cid, hcomponent, by simp [FailsOn, hcid, ← haction]⟩

theorem endsInBlock_of_forall₂ (hsome : polls ≠ [])
    (hblocks : List.Forall₂ (fun poll block => IsBlock components poll.timestamp block)
      polls blocks)
    (hclock : polls.Pairwise fun poll later => poll.timestamp ≤ later.timestamp) :
    ∃ front last, EndsInBlock components polls.length blocks.flatten front last := by
  have hmem : ∀ block ∈ blocks, ∃ t, IsBlock components t block := by
    clear hsome hclock
    induction hblocks with
    | nil => exact List.forall_mem_nil _
    | cons hfirst hrest ih => exact List.forall_mem_cons.mpr ⟨⟨_, hfirst⟩, ih⟩
  have hlength := hblocks.length_eq
  have hblocks_ne : blocks ≠ [] := by
    rintro rfl
    exact hsome (List.length_eq_zero_iff.mp hlength)
  have hsplit := List.dropLast_append_getLast hblocks_ne
  have hstamps : blocks.flatten.map (·.timestamp)
      = polls.flatMap fun poll => List.replicate components.length poll.timestamp := by
    clear hsome hmem hlength hblocks_ne hsplit hclock
    induction hblocks with
    | nil => rfl
    | cons hfirst hrest ih =>
        rw [List.flatten_cons, List.map_append, hfirst.map_timestamp, ih, List.flatMap_cons]
  refine ⟨blocks.dropLast.flatten, blocks.getLast hblocks_ne, ?_,
    hmem _ (List.getLast_mem hblocks_ne), ?_, ?_, ?_, ?_⟩
  · conv_lhs => rw [← hsplit]
    rw [List.flatten_concat]
  · intro row hrow
    obtain ⟨block, hblock, hrow⟩ := List.mem_flatten.mp hrow
    obtain ⟨t, ht⟩ := hmem block hblock
    exact ht.fails hrow
  · have hcount := congrArg List.length hstamps
    rw [List.length_map] at hcount
    simp [hcount, List.length_flatMap]
  · intro hone
    rw [hlength] at hone
    obtain ⟨block, rfl⟩ := List.length_eq_one_iff.mp hone
    rfl
  · rw [← List.pairwise_map (f := fun row : BehavioralEvent => row.timestamp), hstamps,
      List.pairwise_flatMap]
    refine ⟨fun poll _ => List.pairwise_replicate.mpr (Or.inr le_rfl),
      hclock.imp fun {poll later} hle => ?_⟩
    intro t ht t' ht'
    rwa [List.eq_of_mem_replicate ht, List.eq_of_mem_replicate ht']

/-- No row of the last instant says that a check of the component keeps failing. -/
def FreeOf (component : Json) (before : List BehavioralEvent) : Prop :=
  ∀ row ∈ before, (∀ row' ∈ before, row'.timestamp ≤ row.timestamp) → row.action = "check_failing" →
    row.componentId.map Json.str ≠ some component

/-- A list the rows may be loaded as: by time, with no promise about the rows of one instant. -/
structure LoadedAs (rows window : List BehavioralEvent) : Prop where
  ordered : window.Pairwise fun row later => row.timestamp ≤ later.timestamp
  perm : window.Perm rows

theorem EndsInBlock.failsOn (h : EndsInBlock components n saved front last)
    (hsame : ∀ c ∈ components, c = component)
    (hsaved : saved ≠ []) :
    ∃ cid, component = .str cid ∧ ∀ row ∈ saved, FailsOn cid row = true := by
  obtain ⟨row, hrow⟩ := List.exists_mem_of_ne_nil saved hsaved
  obtain ⟨cid, hcid, -⟩ := h.fails row hrow
  refine ⟨cid, (hsame _ hcid).symm, fun row' hrow' => ?_⟩
  obtain ⟨cid', hcid', hfails⟩ := h.fails row' hrow'
  exact Json.str.inj ((hsame _ hcid').trans (hsame _ hcid).symm) ▸ hfails

/-- **One check.** Each poll has one row, and the rows before are of something else. -/
theorem EndsInBlock.counts_of_one (h : EndsInBlock [component] n saved front last) (hn : 0 < n)
    (hfree : FreeOf component before)
    (hearlier : ∀ row ∈ before, ∀ row' ∈ saved, row.timestamp < row'.timestamp)
    (hloaded : LoadedAs (before ++ saved) window) : cyclesFailingUnchanged window = n := by
  have hlength : saved.length = n := by rw [h.length, List.length_singleton, Nat.mul_one]
  obtain ⟨before', after, rfl, hbefore, hafter⟩ :=
    Newest.exists_append_of_perm hloaded.ordered hloaded.perm hearlier
  obtain ⟨cid, rfl, hfails⟩ :=
    h.failsOn (fun _ hc => List.mem_singleton.mp hc) (List.length_pos_iff.mp (hlength.symm ▸ hn))
  have hne : after ≠ [] := List.length_pos_iff.mp (by rw [hafter.length_eq, hlength]; exact hn)
  have hnone : trailing (FailsOn cid) before' = 0 := by
    apply Trailing.trailing_eq_zero
    intro row hrow
    obtain ⟨init, rfl⟩ := List.getLast?_eq_some_iff.mp hrow
    by_contra hfailsOn
    obtain ⟨haction, hcomponent⟩ : row.action = "check_failing" ∧ row.componentId = some cid := by
      simpa [FailsOn] using hfailsOn
    have hordered := (List.pairwise_append.mp hloaded.ordered).1
    refine hfree row (hbefore.mem_iff.mp (by simp))
      (fun row' hrow' => ?_) haction (by rw [hcomponent]; rfl)
    rcases List.mem_append.mp (hbefore.mem_iff.mpr hrow') with hinit | hlast
    · exact (List.pairwise_append.mp hordered).2.2 row' hinit row List.mem_cons_self
    · exact (List.mem_singleton.mp hlast ▸ le_rfl)
  rw [cyclesFailingUnchanged_append hne fun row hrow => hfails row (hafter.mem_iff.mp hrow), hnone,
    hafter.length_eq, hlength, Nat.zero_add]

/-- **One poll.** Its last two rows differ. -/
theorem EndsInBlock.counts_of_nodup (h : EndsInBlock components 1 saved front last)
    (hmany : 2 ≤ components.length)
    (hnodup : components.Nodup)
    (hearlier : ∀ row ∈ before, ∀ row' ∈ saved, row.timestamp < row'.timestamp)
    (hloaded : LoadedAs (before ++ saved) window) : cyclesFailingUnchanged window = 1 := by
  obtain ⟨before', after, rfl, -, hafter⟩ :=
    Newest.exists_append_of_perm hloaded.ordered hloaded.perm hearlier
  obtain ⟨t, hblock⟩ := h.block
  have hsaved : saved = last := by rw [h.split, h.alone rfl, List.nil_append]
  have hdifferent : saved.Pairwise fun row row' =>
      row.componentId.map Json.str ≠ row'.componentId.map Json.str := by
    rw [← List.pairwise_map (f := fun row : BehavioralEvent => row.componentId.map Json.str),
      hsaved, hblock.map_component]
    exact List.Pairwise.map some (fun a b hab heq => hab (Option.some.inj heq)) hnodup
  have hdifferent' := (hafter.pairwise_iff fun {row row'} hne => hne.symm).mpr hdifferent
  have htwo : 2 ≤ after.length := by
    rw [hafter.length_eq, h.length, Nat.one_mul]
    exact hmany
  obtain ⟨rest, row, row', rfl⟩ := Trailing.exists_concat_concat htwo
  obtain ⟨cid, -, hfails⟩ := h.fails row' (hafter.mem_iff.mp (by simp))
  have hne : row.componentId ≠ row'.componentId := by
    intro heq
    have hpair := (List.pairwise_append.mp hdifferent').2.1
    exact (List.pairwise_pair.mp hpair) (congrArg (Option.map Json.str) heq)
  rw [← List.append_assoc]
  exact cyclesFailingUnchanged_of_ne hfails hne

/-- The last poll's rows may come in any order. -/
theorem EndsInBlock.loadedAs (h : EndsInBlock components n saved front last)
    {last' : List BehavioralEvent}
    (hbefore : before.Pairwise fun row later => row.timestamp ≤ later.timestamp)
    (hearlier : ∀ row ∈ before, ∀ row' ∈ saved, row.timestamp < row'.timestamp)
    (hperm : last'.Perm last) :
    LoadedAs (before ++ saved) (before ++ (front ++ last')) := by
  obtain ⟨t, hblock⟩ := h.block
  have hstamps : last'.map (·.timestamp) = last.map (·.timestamp) := by
    have hpermuted := hperm.map (·.timestamp)
    rw [hblock.map_timestamp] at hpermuted ⊢
    exact List.perm_replicate.mp hpermuted
  refine ⟨?_, ?_⟩
  · have hordered : (before ++ saved).Pairwise fun row later => row.timestamp ≤ later.timestamp :=
      List.pairwise_append.mpr ⟨hbefore, h.ordered, fun row hrow row' hrow' =>
        (hearlier row hrow row' hrow').le⟩
    have hmap : (before ++ (front ++ last')).map (·.timestamp)
        = (before ++ saved).map (·.timestamp) := by
      rw [h.split, List.map_append, List.map_append, List.map_append, List.map_append, hstamps]
    rw [← List.pairwise_map (f := fun row : BehavioralEvent => row.timestamp)] at hordered ⊢
    rwa [hmap]
  · rw [h.split]
    exact (hperm.append_left front).append_left before

/-- A row of the same instant may be put last. -/
theorem loadedAs_of_last (hbefore : before.Pairwise fun row later =>
    row.timestamp ≤ later.timestamp)
    (hsaved : saved.Pairwise fun row later => row.timestamp ≤ later.timestamp)
    (hearlier : ∀ row ∈ before, ∀ row' ∈ saved, row.timestamp < row'.timestamp)
    (hrow : row ∈ before)
    (hlatest : ∀ row' ∈ before, row'.timestamp ≤ row.timestamp) :
    ∃ init, LoadedAs (before ++ saved) (init ++ [row] ++ saved) := by
  obtain ⟨pre, post, rfl⟩ := List.append_of_mem hrow
  have hperm : (pre ++ post ++ [row]).Perm (pre ++ row :: post) := by
    rw [List.append_assoc]
    exact List.perm_append_comm.append_left pre
  have hrest : (pre ++ post).Sublist (pre ++ row :: post) :=
    List.Sublist.append (List.Sublist.refl pre) (List.sublist_cons_self row post)
  refine ⟨pre ++ post, List.pairwise_append.mpr ⟨List.pairwise_append.mpr ⟨hbefore.sublist hrest,
    List.pairwise_singleton _ row, ?_⟩, hsaved, ?_⟩, hperm.append_right saved⟩
  · rintro row' hrow' _ hlast
    rw [List.mem_singleton.mp hlast]
    exact hlatest row' (hrest.mem hrow')
  · exact fun row' hrow' later hlater => (hearlier row' (hperm.mem_iff.mp hrow') later hlater).le

/-- **Where every order counts right.** -/
theorem EndsInBlock.of_counts (h : EndsInBlock components n saved front last) (hn : 0 < n)
    (hcomponents : components ≠ [])
    (hbefore : before.Pairwise fun row later => row.timestamp ≤ later.timestamp)
    (hearlier : ∀ row ∈ before, ∀ row' ∈ saved, row.timestamp < row'.timestamp)
    (hall : ∀ window, LoadedAs (before ++ saved) window → cyclesFailingUnchanged window = n) :
    (∃ component, components = [component] ∧ FreeOf component before)
      ∨ (n = 1 ∧ 2 ≤ components.length ∧ components.Nodup) := by
  have hlength := List.length_pos_iff.mpr hcomponents
  obtain ⟨t, hblock⟩ := h.block
  by_cases hone : components.length = 1
  · left
    obtain ⟨component, rfl⟩ := List.length_eq_one_iff.mp hone
    refine ⟨component, rfl, fun row hrow hlatest haction hcomponent => ?_⟩
    have hcount : saved.length = n := by rw [h.length, List.length_singleton, Nat.mul_one]
    have hsaved : saved ≠ [] := List.length_pos_iff.mp (hcount.symm ▸ hn)
    obtain ⟨cid, rfl, hfails⟩ := h.failsOn (fun _ hc => List.mem_singleton.mp hc) hsaved
    obtain ⟨cid', hcid', hsame⟩ := Option.map_eq_some_iff.mp hcomponent
    have hfailsOn : FailsOn cid row = true := by
      rw [Json.str.inj hsame] at hcid'
      simp [FailsOn, haction, hcid']
    obtain ⟨init, hloaded⟩ := loadedAs_of_last hbefore h.ordered hearlier hrow hlatest
    have hwindow := hall _ hloaded
    rw [cyclesFailingUnchanged_append hsaved hfails, Trailing.trailing_concat,
      if_pos hfailsOn] at hwindow
    omega
  · right
    have hmany : 2 ≤ components.length := by omega
    -- two rows of the last poll may come last
    have hend : ∀ rest row row', last.Perm (rest ++ [row, row']) →
        cyclesFailingUnchanged (before ++ (front ++ (rest ++ [row, row']))) = n :=
      fun rest row row' hperm => hall _ (h.loadedAs hbefore hearlier hperm.symm)
    have hlast : ∀ rest row row', last.Perm (rest ++ [row, row']) → row ∈ saved ∧ row' ∈ saved := by
      intro rest row row' hperm
      rw [h.split]
      exact ⟨List.mem_append_right _ (hperm.mem_iff.mpr (by simp)),
        List.mem_append_right _ (hperm.mem_iff.mpr (by simp))⟩
    have hsingle : n = 1 := by
      by_contra hseveral
      -- otherwise all rows are of one component, and there are too many
      have hsame : last.Pairwise fun row row' => row.componentId = row'.componentId := by
        by_contra hdifferent
        obtain ⟨rest, row, row', hperm, hne⟩ := Trailing.exists_perm_of_not_pairwise hdifferent
        obtain ⟨cid, -, hfails⟩ := h.fails row' (hlast rest row row' hperm).2
        have hcount := hend rest row row' hperm
        rw [← List.append_assoc, ← List.append_assoc,
          cyclesFailingUnchanged_of_ne hfails hne] at hcount
        exact hseveral hcount.symm
      have hequal : components.Pairwise fun c c' => some c = some c' := by
        rw [← List.pairwise_map (f := some), ← hblock.map_component, List.pairwise_map]
        exact hsame.imp fun heq => congrArg (Option.map Json.str) heq
      obtain ⟨component, rest, rfl⟩ := List.exists_cons_of_ne_nil hcomponents
      have hall_same : ∀ c ∈ component :: rest, c = component := by
        intro c hc
        rcases List.mem_cons.mp hc with rfl | hc
        · rfl
        · exact (Option.some.inj ((List.pairwise_cons.mp hequal).1 c hc)).symm
      have hcount : 2 * n ≤ saved.length := by
        rw [h.length, Nat.mul_comm]
        exact Nat.mul_le_mul_left n hmany
      have hsaved : saved ≠ [] := List.length_pos_iff.mp (by omega)
      obtain ⟨cid, -, hfails⟩ := h.failsOn hall_same hsaved
      have hwindow := hall _ (h.loadedAs hbefore hearlier (List.Perm.refl last))
      rw [← h.split, cyclesFailingUnchanged_append hsaved hfails] at hwindow
      omega
    refine ⟨hsingle, hmany, ?_⟩
    by_contra hdouble
    have hdouble' : ¬last.Pairwise fun row row' => row.componentId ≠ row'.componentId := by
      intro hdifferent
      have hmap : (components.map some).Pairwise fun c c' => c ≠ c' := by
        rw [← hblock.map_component, List.pairwise_map]
        exact hdifferent.imp fun hne heq =>
          hne (Option.map_injective (fun _ _ h => Json.str.inj h) heq)
      exact hdouble ((List.pairwise_map.mp hmap).imp fun hne heq => hne (congrArg some heq))
    obtain ⟨rest, row, row', hperm, hsame⟩ := Trailing.exists_perm_of_not_pairwise hdouble'
    obtain ⟨hrow, hrow'⟩ := hlast rest row row' hperm
    obtain ⟨cid, -, hfails⟩ := h.fails row hrow
    obtain ⟨cid', -, hfails'⟩ := h.fails row' hrow'
    have hcid : cid' = cid := by
      have hrow_component : row.componentId = some cid := by
        simpa [FailsOn] using (Bool.and_eq_true_iff.mp hfails).2
      have hrow_component' : row'.componentId = some cid' := by
        simpa [FailsOn] using (Bool.and_eq_true_iff.mp hfails').2
      rw [not_not.mp hsame, hrow_component'] at hrow_component
      exact Option.some.inj hrow_component
    have hcount := hend rest row row' hperm
    rw [← List.append_assoc, ← List.append_assoc] at hcount
    have htwo : 2 ≤ cyclesFailingUnchanged (before ++ front ++ rest ++ [row, row']) :=
      two_le_cyclesFailingUnchanged hfails (hcid ▸ hfails')
    omega

end Blocks

/-! ### The law -/

/-- The rows of a session end with those of the polls, in each of which checks keep failing; the row
before them, if there is one, is of something else. -/
structure FailingHistory (o : LabProgressObserver) (spec : Spec) (w : Watched) (polls : List Poll)
    (before saved rows : List BehavioralEvent) : Prop where
  started : ∃ prev, w.prevSnapshot = some prev ∧ Evaluates o spec prev
  some_poll : polls ≠ []
  keeps : Everywhere o.pollCycle (o.KeepsFailing spec) w polls
  clock : polls.Pairwise fun poll later => poll.timestamp ≤ later.timestamp
  written : (polls.foldl o.pollCycle w).events = w.events ++ saved
  read : (analysed rows o.sessionId).Perm (before ++ saved)
  ordered : before.Pairwise fun row later => row.timestamp ≤ later.timestamp
  earlier : ∀ row ∈ before, ∀ row' ∈ saved, row.timestamp < row'.timestamp
  preceded : ∀ row ∈ before.getLast?, row.action ≠ "check_failing"
  bound : (analysed rows o.sessionId).length ≤ 500

/-- Whichever of the lists the query may return is loaded, the feature counts the polls. -/
def CountsCycles (o : LabProgressObserver) (polls : List Poll)
    (rows : List BehavioralEvent) : Prop :=
  ∀ window, Newest.IsNewest 500 BehavioralEvent.timestamp (analysed rows o.sessionId) window →
    cyclesFailingUnchanged window = polls.length

/-- One check fails, and no row of the last instant before the polls says so of its component; or
one poll finds checks of several components, no two of them of one. -/
def OneRowCounts (polls : List Poll) (before : List BehavioralEvent)
    (snapshot : List StepRecord) : Prop :=
  (∃ c, failing snapshot = [c] ∧ FreeOf (checkComponent c) before)
    ∨ (polls.length = 1 ∧ 2 ≤ (failing snapshot).length
      ∧ ((failing snapshot).map checkComponent).Nodup)

section Law

variable {o : LabProgressObserver} {spec : Spec} {w : Watched} {polls : List Poll}
  {before saved rows window : List BehavioralEvent} {snapshot : List StepRecord}

theorem FailingHistory.isNewest_iff (h : FailingHistory o spec w polls before saved rows) :
    Newest.IsNewest 500 BehavioralEvent.timestamp (analysed rows o.sessionId) window
      ↔ LoadedAs (before ++ saved) window := by
  constructor
  · exact fun hnewest => ⟨hnewest.sorted, (hnewest.perm h.bound).trans h.read⟩
  · exact fun hloaded => Newest.isNewest_of_perm hloaded.ordered
      (hloaded.perm.trans h.read.symm) h.bound

/-- **When the cycles are counted.** -/
theorem countsCycles_iff (h : FailingHistory o spec w polls before saved rows)
    (hsnapshot : (polls.foldl o.pollCycle w).prevSnapshot = some snapshot) :
    CountsCycles o polls rows ↔ OneRowCounts polls before snapshot := by
  obtain ⟨prev, hprev, heval⟩ := h.started
  have hlast : LastSays (fun key => ((lastWithKey prev key).map (·.ok)).getD true) prev := by
    intro key pl hpl
    change pl.ok = ((lastWithKey prev key).map (·.ok)).getD true
    rw [Option.mem_def.mp hpl]
    rfl
  obtain ⟨blocks, hevents, hblocks, hend⟩ :=
    foldl_pollCycle_of_keepsFailing hprev heval hlast h.keeps
  obtain ⟨hcomponents, snapshot', hsnapshot', hmap⟩ := hend h.some_poll
  rw [hsnapshot, Option.some.injEq] at hsnapshot'
  rw [← hsnapshot'] at hmap
  obtain ⟨front, last, hblock⟩ := endsInBlock_of_forall₂ h.some_poll hblocks h.clock
  rw [← List.append_cancel_left (h.written.symm.trans hevents), ← hmap] at hblock
  rw [← hmap] at hcomponents
  have hn : 0 < polls.length := List.length_pos_iff.mpr h.some_poll
  have hcounts : CountsCycles o polls rows
      ↔ ∀ window, LoadedAs (before ++ saved) window →
        cyclesFailingUnchanged window = polls.length :=
    forall_congr' fun window => imp_congr h.isNewest_iff Iff.rfl
  rw [hcounts]
  constructor
  · intro hall
    rcases hblock.of_counts hn hcomponents h.ordered h.earlier hall with
      ⟨component, hone, hfree⟩ | ⟨hone, hmany, hnodup⟩
    · obtain ⟨c, hc, rfl⟩ := List.map_eq_singleton_iff.mp hone
      exact Or.inl ⟨c, hc, hfree⟩
    · rw [List.length_map] at hmany
      exact Or.inr ⟨hone, hmany, hnodup⟩
  · rintro (⟨c, hc, hfree⟩ | ⟨hone, hmany, hnodup⟩) window hloaded
    · rw [hc, List.map_singleton] at hblock
      exact hblock.counts_of_one hn hfree h.earlier hloaded
    · rw [hone] at hblock ⊢
      rw [← List.length_map checkComponent] at hmany
      exact hblock.counts_of_nodup hmany hnodup h.earlier hloaded

end Law

/-! ### Two pings -/

def pingCheck (node : String) : Check where
  kind := "vpcs.ping"
  params := [("from", .str node)]

def pingsSpec :
    Spec := { steps := [{ id := "ping", checks := [pingCheck "PC1", pingCheck "PC2"] }] }

def pingRecord (node : String) : CheckRecord where
  kind := "vpcs.ping"
  params := [("from", .str node)]
  ok := false
  expected := []
  actual := []

def pingsSnapshot : List StepRecord :=
  [{ id := "ping", title := "", ok := false, checks := [pingRecord "PC1", pingRecord "PC2"] }]

def pingsPoll : Poll where
  spec := some pingsSpec
  outcomes := fun _ _ => .returns { ok := false, actual := [] }
  seenAt := 25
  timestamp := 25

def pingRow (node : String) : BehavioralEvent where
  sessionId := 0
  userId := "ada"
  labSlug := "lan-static-ip"
  timestamp := 25
  eventType := "error"
  componentId := some "vpcs.ping"
  action := "check_failing"
  success := false
  severity := none
  message := some (checkKey (pingRecord node))
  extraData := some [("actual", (Json.obj []).dumpsSorted)]

def pingsBefore : Watched := { row := none, prevSnapshot := some pingsSnapshot }

theorem evaluates_pings : Evaluates pingObserver pingsSpec pingsSnapshot :=
  ⟨.en, pingsPoll.outcomes, rfl⟩

theorem diffSnapshots_pings : diffSnapshots (some pingsSnapshot) pingsSnapshot
    = [failingEvent (pingRecord "PC1"), failingEvent (pingRecord "PC2")] := by
  have hfails : ∀ pl ∈ checksOf pingsSnapshot, ∀ c ∈ checksOf pingsSnapshot,
      ownEvent pl c = some (failingEvent c) := by
    have hrecord : ∀ c ∈ checksOf pingsSnapshot, c.ok = false ∧ c.actual = [] := by
      rintro c (_ | ⟨_, _ | ⟨_, hc⟩⟩)
      · exact ⟨rfl, rfl⟩
      · exact ⟨rfl, rfl⟩
      · cases hc
    intro pl hpl c hc
    have hsame : sameActual pl c = true := by
      rw [sameActual, (hrecord pl hpl).2, (hrecord c hc).2]
      exact beq_self_eq_true _
    rw [ownEvent, (hrecord pl hpl).1, (hrecord c hc).1, hsame]
    rfl
  calc diffSnapshots (some pingsSnapshot) pingsSnapshot
      = ((checksOf pingsSnapshot).zip (checksOf pingsSnapshot)).filterMap fun pair =>
          diffCheck (checkIndex pingsSnapshot) pair.2 := diffSnapshots_eq rfl
    _ = ((checksOf pingsSnapshot).zip (checksOf pingsSnapshot)).filterMap fun pair =>
      some (failingEvent pair.2) := by
        refine List.filterMap_congr fun pair hpair => ?_
        obtain ⟨pl, hpl⟩ := exists_lastWithKey rfl hpair
        rw [diffCheck_of_last hpl]
        exact hfails pl (List.mem_reverse.mp (List.mem_of_find?_eq_some hpl)) pair.2
          (List.of_mem_zip hpair).2
    _ = _ := rfl

theorem reported_pings : pingObserver.reported pingsBefore pingsPoll
    = [failingEvent (pingRecord "PC1"), failingEvent (pingRecord "PC2")] := by
  rw [LabProgressObserver.reported]
  exact diffSnapshots_pings

theorem keepsFailing_pings : pingObserver.KeepsFailing pingsSpec pingsBefore pingsPoll where
  spec := rfl
  reports := by
    rw [reported_pings]
    exact List.cons_ne_nil _ _
  failing := by
    rw [reported_pings]
    simp [failingEvent, failureEvent]
  columns := by
    rw [reported_pings]
    rfl
  saved := ⟨rfl, rfl⟩

theorem events_pings :
    (pingObserver.pollCycle pingsBefore pingsPoll).events = [pingRow "PC1", pingRow "PC2"] := by
  have hcycle : (pingObserver.pollCycle pingsBefore pingsPoll).events
      = (if (diffSnapshots (some pingsSnapshot) pingsSnapshot).isEmpty then
          { pingsBefore with state := some (deriveCurrentStep pingsSnapshot) }
        else pingObserver.persist pingsPoll (diffSnapshots (some pingsSnapshot) pingsSnapshot)
          { pingsBefore with state := some (deriveCurrentStep pingsSnapshot) }).events := rfl
  rw [hcycle, diffSnapshots_pings]
  rfl

/-- The rows of the poll and no others. -/
theorem failingHistory_pings : FailingHistory pingObserver pingsSpec pingsBefore [pingsPoll] []
    [pingRow "PC1", pingRow "PC2"] [pingRow "PC1", pingRow "PC2"] where
  started := ⟨pingsSnapshot, rfl, evaluates_pings⟩
  some_poll := List.cons_ne_nil _ _
  keeps := everywhere_cons.mpr ⟨keepsFailing_pings, by simp [Everywhere]⟩
  clock := List.pairwise_singleton _ _
  written := events_pings
  read := List.Perm.refl _
  ordered := List.Pairwise.nil
  earlier := List.forall_mem_nil _
  preceded := by rintro _ ⟨⟩
  bound := by
    have hrows : analysed [pingRow "PC1", pingRow "PC2"] pingObserver.sessionId = [pingRow "PC1",
        pingRow "PC2"] := rfl
    rw [hrows]
    decide

theorem countsCycles_iff_pings :
    CountsCycles pingObserver [pingsPoll] [pingRow "PC1", pingRow "PC2"]
    ↔ OneRowCounts [pingsPoll] [] pingsSnapshot :=
  countsCycles_iff failingHistory_pings rfl

/-- **One poll that counts as two.** -/
theorem pings_counted_twice :
    ¬∀ (o : LabProgressObserver) (spec : Spec) (w : Watched) (polls : List Poll)
      (before saved rows : List BehavioralEvent), FailingHistory o spec w polls before saved rows →
        CountsCycles o polls rows := by
  intro h
  have hcounts := h _ _ _ _ _ _ _ failingHistory_pings
  have hnewest : Newest.IsNewest 500 BehavioralEvent.timestamp
      (analysed [pingRow "PC1", pingRow "PC2"] pingObserver.sessionId)
        [pingRow "PC1", pingRow "PC2"] :=
    failingHistory_pings.isNewest_iff.mpr
      ⟨List.pairwise_pair.mpr (Nat.le_refl 25), List.Perm.refl [pingRow "PC1", pingRow "PC2"]⟩
  have htwo : cyclesFailingUnchanged [pingRow "PC1", pingRow "PC2"] = 1 := hcounts _ hnewest
  have hrow : ∀ node, FailsOn "vpcs.ping" (pingRow node) = true := fun node => rfl
  have hmany : 2 ≤ cyclesFailingUnchanged ([] ++ [pingRow "PC1", pingRow "PC2"]) :=
    two_le_cyclesFailingUnchanged (hrow "PC1") (hrow "PC2")
  rw [List.nil_append, htwo] at hmany
  omega

end OnlinetLabs.Analytics
