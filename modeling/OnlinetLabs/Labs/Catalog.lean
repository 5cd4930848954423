import OnlinetLabs.Lib.Interleaving
import OnlinetLabs.Lib.Runs
import OnlinetLabs.Lib.UnitOfWork

/-!
# The catalog of labs

The content of the site names the labs, and a script brings it into the table. Administrators open
labs, bind templates to them and have templates built. Builds come back while all of that goes on.

Each of these is a unit of work on the rows of labs, so the one does not undo what the other does,
but for the status of the template, which stands in one column with what comes from the content.
-/

namespace OnlinetLabs.Labs.Catalog

open Interleaving (mem_of_getElem? forall_mem_set forall_mem_append)
open UnitOfWork (Row Write Table)

/-! ### Rows -/

inductive Locale where
  | en
  | ru
deriving Repr, DecidableEq

abbrev LocaleMap := List (Locale × String)

inductive TemplateStatus where
  | building
  | ready
  | error
deriving Repr, DecidableEq

/-- `tags`, `tasks` and `skill` of the content, if it has been synced, and `template_status`. -/
structure Meta where
  content : Option (Option String × Option String × Option String) := none
  templateStatus : Option TemplateStatus := none
deriving Repr, DecidableEq

inductive Variant where
  | default
  | frr
  | iosvl2
deriving Repr, DecidableEq

inductive Column where
  | titleI18n
  | descriptionI18n
  | difficulty
  | environmentType
  | enabled
  | template (variant : Variant)
  | info
deriving Repr, DecidableEq

/-- `info` is the column `meta`. -/
abbrev Column.Type : Column → Type
  | titleI18n => LocaleMap
  | descriptionI18n => Option LocaleMap
  | difficulty => String
  | environmentType => String
  | enabled => Bool
  | template _ => Option String
  | info => Meta

instance : ∀ c : Column, DecidableEq c.Type
  | .titleI18n => inferInstanceAs (DecidableEq LocaleMap)
  | .descriptionI18n => inferInstanceAs (DecidableEq (Option LocaleMap))
  | .difficulty => inferInstanceAs (DecidableEq String)
  | .environmentType => inferInstanceAs (DecidableEq String)
  | .enabled => inferInstanceAs (DecidableEq Bool)
  | .template _ => inferInstanceAs (DecidableEq (Option String))
  | .info => inferInstanceAs (DecidableEq Meta)

abbrev Lab := Row Column.Type

/-- On whose behalf a row is written. -/
inductive Origin where
  | created
  | imported
  | synced
  | patched
  | bound (variant : Variant) (templateId : String)
  | rebuilding
  | built (answer : Option String)
deriving Repr, DecidableEq

abbrev LabWrite := Write String Origin Column.Type

/-! ### Readiness -/

def truthy (value : Option String) : Option String := value.filter (· ≠ "")

/-- The keys of a frontmatter, with the text of each value or null. -/
structure Frontmatter where
  fields : List (String × Option String)

def Frontmatter.get (fm : Frontmatter) (field : String) (default : Option String) : Option String :=
  (fm.fields.lookup field).getD default

/-- `localized_frontmatter`, in the order of the locales. -/
abbrev PerLocale := List (Locale × Frontmatter)

/-- `field_map`: a map of the locales whose value counts as one. -/
def fieldMap (perLocale : PerLocale) (field : String) (default : Option String := none) :
    LocaleMap :=
  perLocale.filterMap fun entry => (truthy (entry.2.get field default)).map fun text =>
    (entry.1, text)

/-- The frontmatter of the default locale, if it has any fields, or else the first one. -/
def defaultFrontmatter (perLocale : PerLocale) : Option Frontmatter :=
  ((perLocale.lookup .en).filter (! ·.fields.isEmpty)).or (perLocale.head?.map (·.2))

/-- A lab as `Lab(slug=slug)` has it. -/
def emptyLab : Lab
  | .titleI18n => []
  | .descriptionI18n => none
  | .difficulty => "beginner"
  | .environmentType => "none"
  | .enabled => true
  | .template _ => none
  | .info => {}

/-- What `sync_labs` writes of one lab, if neither the difficulty nor the environment is null. -/
def syncLab (slug : String) (perLocale : PerLocale) (loaded : Option Lab) : Option LabWrite := do
  let fm ← defaultFrontmatter perLocale
  let difficulty ← fm.get "difficulty" (some "beginner")
  let environment ← fm.get "environment" (some "none")
  let lab := loaded.getD emptyLab
  let new : Lab := fun
    | .titleI18n => fieldMap perLocale "title" (some slug)
    | .descriptionI18n => some (fieldMap perLocale "description")
    | .difficulty => difficulty
    | .environmentType => environment
    | .enabled => if loaded.isNone && environment = "gns3" then false else lab .enabled
    | .template variant => lab (.template variant)
    | .info =>
        { lab .info with
          content := some (fm.get "tags" (some "[]"), fm.get "tasks" none, fm.get "skill" none) }
  return { origin := if loaded.isNone then .imported else .synced, key := slug, loaded, new }

/-! ### Calls -/

/-- `AdminLabUpdate`, where a field that is set may be null. -/
structure LabUpdate where
  enabled : Option (Option Bool) := none
  template : Variant → Option (Option String) := fun _ => none

structure LabCreate where
  title : LocaleMap
  description : Option LocaleMap
  difficulty : String
  environmentType : String
  gns3TemplateProjectId : Option String

inductive Pc where
  | writing (write : LabWrite)
  | deleting (slug : String)
  | syncing (left : List (String × PerLocale)) (writes : List LabWrite)
  | building (slug : String)
  | built (slug : String) (answer : Option String)
  | done
  | raised

structure World where
  labs : Table String Column.Type := []
  calls : List Pc := []
  /-- Every write that was committed. -/
  log : List LabWrite := []

inductive Move where
  | createLab (slug : String) (body : LabCreate)
  | updateLab (slug : String) (fields : LabUpdate)
  | setLabTemplate (slug : String) (variant : Variant) (templateId : String)
  | rebuildTemplate (slug : String)
  | deleteLab (slug : String)
  | syncLabs (content : List (String × PerLocale))
  | answer (call : Nat) (templateId : Option String)
  | go (call : Nat)

/-- `create_lab` -/
def createdLab (body : LabCreate) : Lab
  | .titleI18n => body.title
  | .descriptionI18n => body.description
  | .difficulty => body.difficulty
  | .environmentType => body.environmentType
  | .template .default => body.gns3TemplateProjectId
  | c => emptyLab c

/-- `update_lab`, where null for `enabled` is not possible. -/
def updatedLab (fields : LabUpdate) (lab : Lab) : Lab
  | .enabled => (fields.enabled.getD none).getD (lab .enabled)
  | .template variant => (fields.template variant).getD (lab (.template variant))
  | c => lab c

/-- `set_lab_template` -/
def boundLab (variant : Variant) (templateId : String) (lab : Lab) : Lab
  | .template v => if v = variant then some templateId else lab (.template v)
  | c => lab c

/-- `rebuild_lab_template` -/
def rebuildingLab (lab : Lab) : Lab
  | .info => { lab .info with templateStatus := some .building }
  | c => lab c

/-- `rebuild_template`, once the build has come back. -/
def builtLab (answer : Option String) (lab : Lab) : Lab
  | .template .default => (truthy answer).or (lab (.template .default))
  | .info => { lab .info with templateStatus := some (if answer.isSome then .ready else .error) }
  | c => lab c

namespace World

def start (w : World) : Move → Option Pc
  | .createLab slug body =>
      some <| match w.labs.lookup slug with
        | some _ => .raised
        | none => .writing ⟨.created, slug, none, createdLab body⟩
  | .updateLab slug fields =>
      some <| match w.labs.lookup slug with
        | none => .raised
        | some lab =>
            if fields.enabled = some none then .raised
            else .writing ⟨.patched, slug, some lab, updatedLab fields lab⟩
  | .setLabTemplate slug variant templateId =>
      some <| match w.labs.lookup slug with
        | none => .raised
        | some lab =>
            .writing ⟨.bound variant templateId, slug, some lab, boundLab variant templateId lab⟩
  | .rebuildTemplate slug =>
      some <| match w.labs.lookup slug with
        | none => .raised
        | some lab =>
            if lab .environmentType ≠ "gns3" then .raised
            else if (lab .info).templateStatus = some .building then .done
            else .writing ⟨.rebuilding, slug, some lab, rebuildingLab lab⟩
  | .deleteLab slug =>
      some <| match w.labs.lookup slug with
        | none => .raised
        | some _ => .deleting slug
  | .syncLabs content => some (.syncing content [])
  | _ => none

/-- Where a commit leads: a rebuild goes on to the build. -/
def afterCommit (write : LabWrite) : Pc :=
  if write.origin = .rebuilding then .building write.key else .done

def goOn (w : World) : Pc → Option (Table String Column.Type × List LabWrite × Pc)
  | .writing write =>
      some <| match w.labs.commit write with
        | some labs => (labs, [write], afterCommit write)
        | none => (w.labs, [], .raised)
  | .deleting slug => some (w.labs.filter fun entry => entry.1 ≠ slug, [], .done)
  | .syncing ((slug, perLocale) :: left) writes =>
      if perLocale = [] then some (w.labs, [], .syncing left writes)
      else
        some <| match syncLab slug perLocale (w.labs.lookup slug) with
          | some write => (w.labs, [], .syncing left (writes ++ [write]))
          | none => (w.labs, [], .raised)
  | .syncing [] writes =>
      some <| match w.labs.commitAll writes with
        | some labs => (labs, writes, .done)
        | none => (w.labs, [], .raised)
  | .built slug answer =>
      some <| match w.labs.lookup slug with
        | some lab => (w.labs, [], .writing ⟨.built answer, slug, some lab, builtLab answer lab⟩)
        | none => (w.labs, [], .done)
  | .building _ | .done | .raised => none

def step (w : World) : Move → Option World
  | .answer i templateId =>
      match w.calls[i]? with
      | some (.building slug) => some { w with calls := w.calls.set i (.built slug templateId) }
      | _ => none
  | .go i =>
      match w.calls[i]? with
      | none => none
      | some pc =>
          (w.goOn pc).map fun (labs, writes, pc') =>
            { labs, calls := w.calls.set i pc', log := w.log ++ writes }
  | move => (w.start move).map fun pc => { w with calls := w.calls ++ [pc] }

end World

/-! ### Who writes what -/

def Origin.Owns : Origin → Column → Prop
  | created, _ | imported, _ => True
  | synced, .enabled | synced, .template _ => False
  | synced, _ => True
  | patched, .enabled | patched, .template _ => True
  | patched, _ => False
  | bound variant _, c => c = .template variant
  | rebuilding, c => c = .info
  | built answer, c => c = .info ∨ c = .template .default ∧ (truthy answer).isSome

/-- What is known of a row that was written on somebody's behalf. -/
def Origin.Tells : Origin → Lab → Prop
  | created, lab => lab (.template .frr) = none ∧ lab (.template .iosvl2) = none
  | imported, lab =>
      (lab .enabled → lab .environmentType ≠ "gns3") ∧ ∀ variant, lab (.template variant) = none
  | bound variant templateId, lab => lab (.template variant) = some templateId
  | built answer, lab => (truthy answer).isSome → lab (.template .default) = truthy answer
  | synced, _ | patched, _ | rebuilding, _ => True

def TemplateStatus.Of : TemplateStatus → Origin → Prop
  | building, origin => origin = .rebuilding
  | ready, origin => ∃ templateId, origin = .built (some templateId)
  | error, origin => origin = .built none

def StatusKept (log : List LabWrite) (slug : String) (lab : Lab) : Prop :=
  ∀ status, (lab .info).templateStatus = some status → ∃ write ∈ log, write.key = slug
    ∧ status.Of write.origin

structure WriteKept (log : List LabWrite) (write : LabWrite) : Prop where
  owns : ∀ c, write.Changes c → write.origin.Owns c
  tells : write.origin.Tells write.new
  status : StatusKept (log ++ [write]) write.key write.new

theorem StatusKept.mono {log log' : List LabWrite} {slug : String} {lab : Lab}
    (h : StatusKept log slug lab)
    (hsub : ∀ write ∈ log, write ∈ log') : StatusKept log' slug lab := by
  intro status hstatus
  obtain ⟨write, hwrite, hof⟩ := h status hstatus
  exact ⟨write, hsub write hwrite, hof⟩

theorem WriteKept.mono {log log' : List LabWrite} {write : LabWrite} (h : WriteKept log write)
    (hsub : ∀ write' ∈ log, write' ∈ log') : WriteKept log' write where
  owns := h.owns
  tells := h.tells
  status := by
    apply h.status.mono
    intro write' hwrite'
    exact (List.mem_append.mp hwrite').elim (fun hold => List.mem_append_left _ (hsub write' hold))
      (List.mem_append_right _)

/-- A write that works on the row as it was loaded, where it keeps the status or sets its own. -/
theorem WriteKept.of_loaded {log : List LabWrite} {origin : Origin} {slug : String} {lab new : Lab}
    (hkept : StatusKept log slug lab) (howns : ∀ c, new c ≠ lab c → origin.Owns c)
    (htells : origin.Tells new)
    (hstatus : (new .info).templateStatus = (lab .info).templateStatus
      ∨ ∃ status, (new .info).templateStatus = some status ∧ status.Of origin) :
    WriteKept log ⟨origin, slug, some lab, new⟩ where
  owns c hchanges := howns c (hchanges lab rfl)
  tells := htells
  status := by
    intro status heq
    rcases hstatus with hsame | ⟨status', hown, hof⟩
    · obtain ⟨write, hwrite, hof⟩ := hkept status (hsame ▸ heq)
      exact ⟨write, List.mem_append_left _ hwrite, hof⟩
    · have hsame : status = status' := Option.some.inj (heq.symm.trans hown)
      exact ⟨_, List.mem_append_right _ List.mem_cons_self, rfl, hsame ▸ hof⟩

section Calls

variable {log : List LabWrite} {slug : String} {lab : Lab}

theorem createdLab_kept (body : LabCreate) :
    WriteKept log ⟨.created, slug, none, createdLab body⟩ where
  owns _ _ := trivial
  tells := ⟨rfl, rfl⟩
  status _ h := nomatch h

theorem updatedLab_kept (fields : LabUpdate) (h : StatusKept log slug lab) :
    WriteKept log ⟨.patched, slug, some lab, updatedLab fields lab⟩ := by
  refine WriteKept.of_loaded h ?_ trivial (Or.inl rfl)
  intro c hne
  cases c with
  | enabled | template variant => trivial
  | titleI18n | descriptionI18n | difficulty | environmentType | info => exact hne rfl

theorem boundLab_kept (variant : Variant) (templateId : String) (h : StatusKept log slug lab) :
    WriteKept log ⟨.bound variant templateId, slug, some lab, boundLab variant templateId lab⟩ := by
  refine WriteKept.of_loaded h ?_ (if_pos rfl) (Or.inl rfl)
  intro c hne
  cases c with
  | template v =>
      by_cases heq : v = variant
      · exact congrArg Column.template heq
      · exact absurd (if_neg heq) hne
  | titleI18n | descriptionI18n | difficulty | environmentType | enabled | info =>
      exact absurd rfl hne

theorem rebuildingLab_kept (h : StatusKept log slug lab) :
    WriteKept log ⟨.rebuilding, slug, some lab, rebuildingLab lab⟩ := by
  refine WriteKept.of_loaded h ?_ trivial (Or.inr ⟨.building, rfl, rfl⟩)
  intro c hne
  cases c with
  | info => rfl
  | titleI18n | descriptionI18n | difficulty | environmentType | enabled | template variant =>
      exact absurd rfl hne

theorem builtLab_kept (answer : Option String) (h : StatusKept log slug lab) :
    WriteKept log ⟨.built answer, slug, some lab, builtLab answer lab⟩ := by
  have hof : ∃ status, (builtLab answer lab .info).templateStatus = some status
      ∧ status.Of (.built answer) := by
    cases answer with
    | none => exact ⟨.error, rfl, rfl⟩
    | some templateId => exact ⟨.ready, rfl, templateId, rfl⟩
  refine WriteKept.of_loaded h ?_ ?_ (Or.inr hof)
  · intro c hne
    cases c with
    | info => exact Or.inl rfl
    | template variant =>
        cases variant with
        | default =>
            cases htruthy : truthy answer with
            | none => exact absurd (by rw [builtLab, htruthy, Option.none_or]) hne
            | some templateId => exact Or.inr ⟨rfl, htruthy ▸ rfl⟩
        | frr | iosvl2 => exact absurd rfl hne
    | titleI18n | descriptionI18n | difficulty | environmentType | enabled => exact absurd rfl hne
  · intro hsome
    obtain ⟨templateId, htruthy⟩ := Option.isSome_iff_exists.mp hsome
    rw [builtLab, htruthy]
    rfl

theorem syncLab_kept {perLocale : PerLocale} {loaded : Option Lab} {write : LabWrite}
    (h : ∀ lab, loaded = some lab → StatusKept log slug lab)
    (hsync : syncLab slug perLocale loaded = some write) :
    WriteKept log write := by
  unfold syncLab at hsync
  simp only [bind, Option.bind_eq_some_iff, Option.pure_def, Option.some.injEq] at hsync
  obtain ⟨fm, -, difficulty, -, environment, -, rfl⟩ := hsync
  cases loaded with
  | none =>
      refine ⟨fun _ _ => trivial, ⟨?_, fun _ => rfl⟩, fun _ heq => nomatch heq⟩
      intro henabled henvironment
      simp only [Option.isNone_none, Bool.true_and, decide_eq_true_eq] at henabled
      split at henabled
      · cases henabled
      · contradiction
  | some lab =>
      refine WriteKept.of_loaded (h lab rfl) ?_ trivial (Or.inl rfl)
      intro c hne
      cases c with
      | enabled | template variant => exact hne rfl
      | titleI18n | descriptionI18n | difficulty | environmentType | info => trivial

end Calls

/-! ### What every step preserves -/

def Pc.Kept (log : List LabWrite) : Pc → Prop
  | writing write => WriteKept log write
  | syncing _ writes => ∀ write ∈ writes, WriteKept log write
  | deleting _ | building _ | built _ _ | done | raised => True

structure Kept (w : World) : Prop where
  slugs : (w.labs.map (·.1)).Nodup
  came : ∀ entry ∈ w.labs, UnitOfWork.Came w.log entry.1 entry.2
  log : ∀ write ∈ w.log, WriteKept w.log write
  calls : ∀ pc ∈ w.calls, pc.Kept w.log

theorem Pc.Kept.mono {log log' : List LabWrite} {pc : Pc} (h : pc.Kept log)
    (hsub : ∀ write ∈ log, write ∈ log') : pc.Kept log' := by
  cases pc with
  | writing write => exact WriteKept.mono h hsub
  | syncing left writes => exact fun write hwrite => (h write hwrite).mono hsub
  | deleting slug | building slug | built slug answer | done | raised => trivial

/-- A write that is in the log speaks of the log. -/
theorem WriteKept.status_of_mem {log : List LabWrite} {write : LabWrite} (h : WriteKept log write)
    (hmem : write ∈ log) : StatusKept log write.key write.new := by
  apply h.status.mono
  intro write' hwrite'
  rcases List.mem_append.mp hwrite' with hold | hnew
  · exact hold
  · exact List.mem_singleton.mp hnew ▸ hmem

variable {w w' : World}

/-- The status of a row is one that was written. -/
theorem Kept.status (h : Kept w) {entry : String × Lab} (hentry : entry ∈ w.labs) :
    StatusKept w.log entry.1 entry.2 := by
  obtain ⟨write, hwrite, hkey, -, hvalue⟩ := h.came entry hentry .info
  intro status hstatus
  rw [← hvalue] at hstatus
  rw [← hkey]
  exact (h.log write hwrite).status_of_mem hwrite status hstatus

theorem Kept.status_of_lookup (h : Kept w) {slug : String} {lab : Lab}
    (hlookup : w.labs.lookup slug = some lab) :
    StatusKept w.log slug lab :=
  h.status (Table.mem_of_lookup hlookup)

theorem Kept.start {move : Move} {pc : Pc} (h : Kept w) (hstart : w.start move = some pc) :
    pc.Kept w.log := by
  cases move with
  | createLab slug body =>
      simp only [World.start, Option.some.injEq] at hstart
      subst hstart
      split
      · trivial
      · exact createdLab_kept body
  | updateLab slug fields =>
      simp only [World.start, Option.some.injEq] at hstart
      subst hstart
      split
      · trivial
      · rename_i lab hlookup
        split
        · trivial
        · exact updatedLab_kept fields (h.status_of_lookup hlookup)
  | setLabTemplate slug variant templateId =>
      simp only [World.start, Option.some.injEq] at hstart
      subst hstart
      split
      · trivial
      · rename_i lab hlookup
        exact boundLab_kept variant templateId (h.status_of_lookup hlookup)
  | rebuildTemplate slug =>
      simp only [World.start, Option.some.injEq] at hstart
      subst hstart
      split
      · trivial
      · rename_i lab hlookup
        split
        · trivial
        · split
          · trivial
          · exact rebuildingLab_kept (h.status_of_lookup hlookup)
  | deleteLab slug =>
      simp only [World.start, Option.some.injEq] at hstart
      subst hstart
      split
      · trivial
      · trivial
  | syncLabs content =>
      cases hstart
      exact fun _ hwrite => nomatch hwrite
  | answer i templateId => cases hstart
  | go i => cases hstart

/-- What a step of a call leaves, with what it has committed. -/
structure Went (w : World) (r : Table String Column.Type × List LabWrite × Pc) : Prop where
  slugs : (r.1.map (·.1)).Nodup
  came : ∀ entry ∈ r.1, UnitOfWork.Came (w.log ++ r.2.1) entry.1 entry.2
  writes : ∀ write ∈ r.2.1, WriteKept w.log write
  pc : r.2.2.Kept w.log

/-- A step that commits nothing. -/
theorem Kept.wentOn (h : Kept w) {pc : Pc} (hpc : pc.Kept w.log) : Went w (w.labs, [], pc) where
  slugs := h.slugs
  came := by
    rw [List.append_nil]
    exact h.came
  writes _ hwrite := nomatch hwrite
  pc := hpc

theorem afterCommit_kept (log : List LabWrite) (write : LabWrite) :
    (World.afterCommit write).Kept log := by
  unfold World.afterCommit
  split
  · trivial
  · trivial

theorem Kept.goOn {pc : Pc} {r : Table String Column.Type × List LabWrite × Pc} (h : Kept w)
    (hpc : pc.Kept w.log)
    (hgo : w.goOn pc = some r) : Went w r := by
  cases pc with
  | writing write =>
      simp only [World.goOn, Option.some.injEq] at hgo
      subst hgo
      split
      · rename_i labs hcommit
        refine ⟨Table.nodup_commit hcommit h.slugs, Table.came_commit hcommit h.came, ?_,
          afterCommit_kept _ _⟩
        intro write' hwrite'
        exact List.mem_singleton.mp hwrite' ▸ hpc
      · exact h.wentOn trivial
  | deleting slug =>
      simp only [World.goOn, Option.some.injEq] at hgo
      subst hgo
      refine ⟨h.slugs.sublist (List.filter_sublist.map _), ?_,
        (fun _ hwrite => nomatch hwrite), trivial⟩
      rw [List.append_nil]
      exact fun entry hentry => h.came entry (List.mem_of_mem_filter hentry)
  | syncing left writes =>
      cases left with
      | nil =>
          simp only [World.goOn, Option.some.injEq] at hgo
          subst hgo
          split
          · rename_i labs hcommit
            exact ⟨Table.nodup_commitAll hcommit h.slugs, Table.came_commitAll hcommit h.came,
              hpc, trivial⟩
          · exact h.wentOn trivial
      | cons lab left =>
          obtain ⟨slug, perLocale⟩ := lab
          simp only [World.goOn] at hgo
          split at hgo
          · cases hgo
            exact h.wentOn hpc
          · simp only [Option.some.injEq] at hgo
            subst hgo
            split
            · rename_i write hsync
              exact h.wentOn
                (forall_mem_append hpc
                  (syncLab_kept (fun lab hlookup => h.status_of_lookup hlookup) hsync))
            · exact h.wentOn trivial
  | built slug answer =>
      simp only [World.goOn, Option.some.injEq] at hgo
      subst hgo
      split
      · rename_i lab hlookup
        exact h.wentOn (builtLab_kept answer (h.status_of_lookup hlookup))
      · exact h.wentOn trivial
  | building slug => cases hgo
  | done => cases hgo
  | raised => cases hgo

theorem Kept.step {move : Move} (h : Kept w) (hstep : w.step move = some w') : Kept w' := by
  have hstarted : ∀ {pc : Pc}, w.start move = some pc →
      Kept { w with calls := w.calls ++ [pc] } := by
    intro pc hstart
    exact ⟨h.slugs, h.came, h.log, forall_mem_append h.calls (h.start hstart)⟩
  cases move with
  | answer i templateId =>
      simp only [World.step] at hstep
      split at hstep
      · cases hstep
        exact ⟨h.slugs, h.came, h.log, forall_mem_set h.calls trivial⟩
      · cases hstep
  | go i =>
      simp only [World.step] at hstep
      split at hstep
      · cases hstep
      · rename_i pc hpc
        obtain ⟨⟨labs, writes, pc'⟩, hgo, rfl⟩ := Option.map_eq_some_iff.mp hstep
        have hwent := h.goOn (h.calls pc (mem_of_getElem? hpc)) hgo
        have hsub : ∀ write ∈ w.log, write ∈ w.log ++ writes := fun _ => List.mem_append_left _
        refine ⟨hwent.slugs, hwent.came, ?_, ?_⟩
        · intro write hwrite
          rcases List.mem_append.mp hwrite with hold | hnew
          · exact (h.log write hold).mono hsub
          · exact (hwent.writes write hnew).mono hsub
        · exact forall_mem_set (fun pc hpc => (h.calls pc hpc).mono hsub) (hwent.pc.mono hsub)
  | createLab | updateLab | setLabTemplate | rebuildTemplate | deleteLab | syncLabs =>
      simp only [World.step, Option.map_eq_some_iff] at hstep
      obtain ⟨pc, hstart, rfl⟩ := hstep
      exact hstarted hstart

theorem Kept.init : Kept {} where
  slugs := List.nodup_nil
  came _ hentry := nomatch hentry
  log _ hwrite := nomatch hwrite
  calls _ hpc := nomatch hpc

/-! ### Readiness over the rows -/

/-- A row that stands for its slug is the one that a launch finds. -/
theorem Kept.lookup (h : Kept w) {entry : String × Lab} (hentry : entry ∈ w.labs) :
    w.labs.lookup entry.1 = some entry.2 := by
  cases hlookup : w.labs.lookup entry.1 with
  | none => exact absurd (List.mem_map_of_mem hentry) (Table.lookup_eq_none hlookup)
  | some lab =>
      have hsame := List.inj_on_of_nodup_map h.slugs (Table.mem_of_lookup hlookup) hentry rfl
      rw [← hsame]

/-- Who may have opened a lab to learners. -/
def OpenedBy (write : LabWrite) : Prop :=
  write.origin = .created ∨ write.origin = .patched
    ∨ write.origin = .imported ∧ write.new .environmentType ≠ "gns3"

/-- Where a template may have come from. -/
def BoundBy (write : LabWrite) (variant : Variant) (templateId : String) : Prop :=
  write.origin = .patched ∨ write.origin = .bound variant templateId
    ∨ variant = .default ∧ (write.origin = .created ∨ write.origin = .built (some templateId))

theorem WriteKept.opened {log : List LabWrite} {write : LabWrite} (h : WriteKept log write)
    (hchanges : write.Changes .enabled) (henabled : write.new .enabled) : OpenedBy write := by
  have howns := h.owns _ hchanges
  have htells := h.tells
  unfold OpenedBy
  revert howns htells
  cases write.origin with
  | created => exact fun _ _ => Or.inl rfl
  | patched => exact fun _ _ => Or.inr (Or.inl rfl)
  | imported => exact fun _ htells => Or.inr (Or.inr ⟨rfl, htells.1 henabled⟩)
  | synced => exact fun howns => howns.elim
  | bound variant templateId => exact fun howns => nomatch howns
  | rebuilding => exact fun howns => nomatch howns
  | built answer =>
      rintro (howns | ⟨howns, -⟩)
      · cases howns
      · cases howns

theorem WriteKept.bound {log : List LabWrite} {write : LabWrite} {variant : Variant}
    {templateId : String}
    (h : WriteKept log write) (hchanges : write.Changes (.template variant))
    (hnew : write.new (.template variant) = some templateId) :
    BoundBy write variant templateId := by
  have howns := h.owns _ hchanges
  have htells := h.tells
  unfold BoundBy
  revert howns htells
  cases write.origin with
  | created =>
      rintro - ⟨hfrr, hiosvl2⟩
      cases variant with
      | default => exact Or.inr (Or.inr ⟨rfl, Or.inl rfl⟩)
      | frr => rw [hfrr] at hnew; cases hnew
      | iosvl2 => rw [hiosvl2] at hnew; cases hnew
  | patched => exact fun _ _ => Or.inl rfl
  | imported =>
      rintro - ⟨-, hnone⟩
      rw [hnone] at hnew
      cases hnew
  | synced => exact fun howns => howns.elim
  | bound variant' templateId' =>
      intro howns htells
      cases howns
      rw [htells] at hnew
      cases hnew
      exact Or.inr (Or.inl rfl)
  | rebuilding => exact fun howns => nomatch howns
  | built answer =>
      rintro (howns | ⟨howns, hsome⟩) htells
      · cases howns
      · cases howns
        rw [htells hsome] at hnew
        obtain ⟨rfl, -⟩ := Option.filter_eq_some_iff.mp hnew
        exact Or.inr (Or.inr ⟨rfl, Or.inr rfl⟩)

end OnlinetLabs.Labs.Catalog
