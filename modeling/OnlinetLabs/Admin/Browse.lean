import Mathlib.Data.PNat.Defs
import OnlinetLabs.Admin.Registry
import OnlinetLabs.Lib.Paging

/-!
# The user list and the data browser

Both page by an offset into a query that sorts by one column. What `ORDER BY` leaves open the
database decides in every query anew, so the pages of a column with equal values need not fit
together.
-/

namespace OnlinetLabs.Admin

open Paging
open Users (RegistryTable)

/-- Deepest row the data browser will count or page to. -/
def countCap : Nat := 10000

inductive Order where
  | asc
  | desc
deriving Repr, DecidableEq

/-- The ranks of a column in the direction of the sort. -/
def Directed (ι : Type) : Order → Type
  | .asc => ι
  | .desc => ιᵒᵈ

instance directedLinearOrder {ι : Type} [LinearOrder ι] :
    (order : Order) → LinearOrder (Directed ι order)
  | .asc => inferInstanceAs (LinearOrder ι)
  | .desc => inferInstanceAs (LinearOrder ιᵒᵈ)

def direct {ι : Type} : (order : Order) → ι → Directed ι order
  | .asc, r => r
  | .desc, r => OrderDual.toDual r

inductive UserRole where
  | student
  | instructor
  | admin
deriving Repr, DecidableEq

def UserRole.value : UserRole → String
  | .student => "student"
  | .instructor => "instructor"
  | .admin => "admin"

/-- The columns of `users` that the list reads. -/
structure User where
  id : String
  name : Option String
  email : Option String
  role : String
  isActive : Bool
deriving Repr, DecidableEq

structure Page (α : Type) where
  rows : List α
  total : Nat
  totalIsExact : Bool := true

def Value.ofOption : Option String → Value
  | none => .null
  | some value => .text value

/-- `getattr(User, sort if sort in USER_SORTABLE else "name")`. -/
def userColumn (sort : String) (user : User) : Value :=
  if sort = "email" then .ofOption user.email else if sort = "role" then .text user.role
  else .ofOption user.name

section Database

/- What the database does with values: how it orders those of a column
  (texts by a collation, missing ones at one
end), `ILIKE`, and the cast to text. -/
variable {ι : Type} [LinearOrder ι] (collate : Value → ι) (ilike : String → String → Bool)
  (castText : Value → Option String)

/-! ### The user list -/

def userRank (sort : String) (order : Order) (user : User) : Directed ι order :=
  direct order (collate (userColumn sort user))

/-- `f"%{search}%"`; an empty search is none. -/
def searchPattern (search : Option String) : Option String :=
  (search.filter fun text => decide (text ≠ "")).map fun text => "%" ++ text ++ "%"

def matchingUsers (users : List User) (search : Option String) (role : Option UserRole)
    (isActive : Option Bool) :
    List User :=
  users.filter fun user =>
    (searchPattern search).all (fun pattern =>
      user.name.any (ilike · pattern) || user.email.any (ilike · pattern)) &&
    role.all (fun role => decide (user.role = role.value)) && isActive.all fun isActive =>
      user.isActive == isActive

variable {collate}

def listUsers {sort : String} {order : Order} (orderBy : OrderBy (userRank collate sort order))
    (users : List User)
    (page pageSize : Nat) (search : Option String) (role : Option UserRole)
    (isActive : Option Bool) : Page User :=
  let query := matchingUsers ilike users search role isActive
  { rows := slice ((page - 1) * pageSize) pageSize (orderBy.arrange query)
    total := query.length }

/-! ### The data browser -/

def sortColumn (spec : TableSpec) (sort : Option String) : String :=
  match sort with
  | none => spec.defaultSort
  | some sort => if sort ∈ spec.sortable then sort else spec.defaultSort

variable (collate)

def rowRank (spec : TableSpec) (sort : Option String) (order : Order) (row : Row) :
    Directed ι order :=
  direct order (collate (row.get (sortColumn spec sort)))

variable {collate}

def matchingRows (spec : TableSpec) (table : List Row) (search : Option String) : List Row :=
  table.filter fun row => (searchPattern search).all fun pattern =>
    spec.searchable.any fun column => (castText (row.get column)).any (ilike · pattern)

def browseTable (isoformat : Nat → String) (str : Json → String) {spec : TableSpec}
    {sort : Option String}
    {order : Order} (orderBy : OrderBy (rowRank collate spec sort order)) (table : List Row)
    (page pageSize : Nat)
    (search : Option String) : Page (List (String × Value)) :=
  let conditions := matchingRows ilike castText spec table search
  let total := min conditions.length countCap
  let offset := (page - 1) * pageSize
  let rows := if offset < countCap then slice offset pageSize (orderBy.arrange conditions) else []
  { rows := rows.map (serializeRow isoformat str spec)
    total := total
    totalIsExact := decide (total < countCap) }

end Database

/-! ### Partition -/

structure UserTable where
  rows : List User
  distinct : (rows.map (·.id)).Nodup

structure AdminTable where
  rows : List Row
  distinct : (rows.map (·.id)).Nodup
  browsable : rows.length ≤ countCap

/-- Whatever the database does in each query, enough pages from the first on show every row once. -/
def Partitions {α β ρ : Type} [LinearOrder ρ] (rank : α → ρ) (pageSize : Nat) (rows : List α)
    (shown : α → β)
    (pageRows : OrderBy rank → Nat → List β) : Prop :=
  ∀ (orderBy : Nat → OrderBy rank) (pages : Nat), rows.length ≤ pages * pageSize →
    ((List.range pages).flatMap fun i => pageRows (orderBy i) (i + 1)).Perm (rows.map shown)

variable {ι : Type} [LinearOrder ι] {collate : Value → ι} {ilike : String → String → Bool}
  {castText : Value → Option String} {isoformat : Nat → String} {str : Json → String}
    {order : Order}

theorem nodup_matchingUsers (users : UserTable) (search : Option String) (role : Option UserRole)
    (isActive : Option Bool) : (matchingUsers ilike users.rows search role isActive).Nodup :=
  (List.Nodup.of_map _ users.distinct).filter _

theorem listUsers_partitions_iff (users : UserTable) (sort : String) (order : Order)
    (pageSize : Nat)
    (search : Option String) (role : Option UserRole) (isActive : Option Bool) :
    Partitions (userRank collate sort order) pageSize
      (matchingUsers ilike users.rows search role isActive) id
        (fun orderBy page =>
          (listUsers ilike orderBy users.rows page pageSize search role isActive).rows)
      ↔ NoCut (userRank collate sort order) pageSize
          (matchingUsers ilike users.rows search role isActive) := by
  rw [← partition_iff (nodup_matchingUsers users search role isActive)]
  unfold Partitions Partitioned
  simp only [listUsers, Nat.add_sub_cancel, List.map_id]

variable (ilike castText) in
theorem nodup_matchingRows (table : AdminTable) (spec : TableSpec) (search : Option String) :
    ((matchingRows ilike castText spec table.rows search).map (·.id)).Nodup :=
  table.distinct.sublist (List.filter_sublist.map _)

theorem nodup_shown {table : RegistryTable} {rows : List Row} (h : (rows.map (·.id)).Nodup) :
    (rows.map (serializeRow isoformat str (adminSpec table))).Nodup := by
  rw [List.nodup_map_iff_inj_on (List.Nodup.of_map _ h)]
  intro row hrow row' hrow' hshown
  exact List.inj_on_of_nodup_map h hrow hrow' (id_of_serializeRow hshown)

/-- Rows past the cap are none, so the cap takes nothing away. -/
theorem rows_browseTable {spec : TableSpec} {sort : Option String} (table : AdminTable)
    (pageSize : Nat)
    (search : Option String) (orderBy : OrderBy (rowRank collate spec sort order)) (i : Nat) :
    (browseTable ilike castText isoformat str orderBy table.rows (i + 1) pageSize search).rows
      = (slice (i * pageSize) pageSize
        (orderBy.arrange (matchingRows ilike castText spec table.rows search))).map
          (serializeRow isoformat str spec) := by
  simp only [browseTable, Nat.add_sub_cancel]
  by_cases hoffset : i * pageSize < countCap
  · rw [if_pos hoffset]
  · have hlength : (orderBy.arrange (matchingRows ilike castText spec table.rows search)).length
        ≤ i * pageSize := by
      rw [(orderBy.listing _).perm.length_eq]
      exact ((List.length_filter_le _ _).trans table.browsable).trans (not_lt.mp hoffset)
    rw [if_neg hoffset, slice, List.drop_eq_nil_of_le hlength, List.take_nil, List.map_nil]

theorem browseTable_partitions_iff (name : RegistryTable) (table : AdminTable)
    (sort : Option String) (order : Order)
    (pageSize : Nat) (search : Option String) :
    Partitions (rowRank collate (adminSpec name) sort order) pageSize
        (matchingRows ilike castText (adminSpec name) table.rows search)
          (serializeRow isoformat str (adminSpec name))
        (fun orderBy page =>
          (browseTable ilike castText isoformat str orderBy table.rows page pageSize search).rows)
      ↔ NoCut (rowRank collate (adminSpec name) sort order) pageSize
          (matchingRows ilike castText (adminSpec name) table.rows search) := by
  have hids := nodup_matchingRows ilike castText table (adminSpec name) search
  have hrows := List.Nodup.of_map _ hids
  rw [← partition_iff hrows]
  unfold Partitions Partitioned
  simp only [rows_browseTable, ← List.map_flatMap]
  constructor
  · intro h orderBy pages hpages
    have hshown := h orderBy pages hpages
    have hnodup := List.Nodup.of_map _ (hshown.nodup_iff.mpr (nodup_shown hids))
    have hlength := hshown.length_eq
    rw [List.length_map, List.length_map] at hlength
    refine (List.subperm_of_subset hnodup ?_).perm_of_length_le hlength.ge
    intro row hrow
    obtain ⟨i, -, hslice⟩ := List.mem_flatMap.mp hrow
    exact ((orderBy i).listing _).perm.mem_iff.mp
      (List.mem_of_mem_drop (List.mem_of_mem_take hslice))
  · intro h orderBy pages hpages
    exact (h orderBy pages hpages).map _

/-- **The pages partition a table** exactly if no border between two of them falls inside a group of
matching rows that the sort column does not tell apart. -/
theorem pages_partition_iff (users : UserTable) (userSort : String) (role : Option UserRole)
    (isActive : Option Bool)
    (name : RegistryTable) (table : AdminTable) (sort : Option String) (order : Order)
    (pageSize : ℕ+)
    (search : Option String) :
    (Partitions (userRank collate userSort order) pageSize
      (matchingUsers ilike users.rows search role isActive) id
        (fun orderBy page =>
          (listUsers ilike orderBy users.rows page pageSize search role isActive).rows)
      ↔ NoCut (userRank collate userSort order) pageSize
          (matchingUsers ilike users.rows search role isActive)) ∧
    (Partitions (rowRank collate (adminSpec name) sort order) pageSize
        (matchingRows ilike castText (adminSpec name) table.rows search)
          (serializeRow isoformat str (adminSpec name))
        (fun orderBy page =>
          (browseTable ilike castText isoformat str orderBy table.rows page pageSize search).rows)
      ↔ NoCut (rowRank collate (adminSpec name) sort order) pageSize
          (matchingRows ilike castText (adminSpec name) table.rows search)) :=
  ⟨listUsers_partitions_iff users userSort order pageSize search role isActive,
    browseTable_partitions_iff name table sort order pageSize search⟩

omit [LinearOrder ι] in
theorem direct_injective : Function.Injective (direct order : ι → Directed ι order) := by
  cases order with
  | asc => exact fun _ _ h => h
  | desc => exact fun _ _ h => h

/-- Sorted by id, which a collation tells apart, the pages fit together. -/
theorem browseTable_partitions_id (hcollate : ∀ a b, collate (.text a) = collate (.text b) → a = b)
    (name : RegistryTable) (table : AdminTable) (order : Order) (pageSize : Nat)
    (search : Option String) :
    Partitions (rowRank collate (adminSpec name) (some "id") order) pageSize
      (matchingRows ilike castText (adminSpec name) table.rows search)
        (serializeRow isoformat str (adminSpec name))
      (fun orderBy page =>
        (browseTable ilike castText isoformat str orderBy table.rows page pageSize
          search).rows) := by
  have hids := nodup_matchingRows ilike castText table (adminSpec name) search
  apply (browseTable_partitions_iff name table (some "id") order pageSize search).mpr
  apply noCut_of_injective _ (List.Nodup.of_map _ hids)
  intro row hrow row' hrow' hrank
  apply List.inj_on_of_nodup_map hids hrow hrow'
  have hcolumn : sortColumn (adminSpec name) (some "id") = "id" :=
    if_pos (adminSpec_wellFormed name).2.1
  have heq := direct_injective hrank
  rw [hcolumn] at heq
  exact hcollate _ _ heq

/-! ### Columns with equal values -/

def twoStudents : UserTable where
  rows := [⟨"u1", some "Ann", none, "student", true⟩, ⟨"u2", some "Bob", none, "student", true⟩]
  distinct := by decide

def textRank : Value → String
  | .text value => value
  | _ => "~"

def observation (id : String) (h : id.length ≤ 200) : Row where
  id := id
  id_length := h
  value column := if column = "kind" then .text "observe" else .null

def twoObservations : AdminTable where
  rows := [observation "a1" (by decide), observation "a2" (by decide)]
  distinct := by decide
  browsable := by decide

/-- Two students sorted by role, two tool calls sorted by kind: with one row on a page, both pages
may show the same one. -/
theorem not_partitions_equalValues :
    ¬ Partitions (userRank textRank "role" .asc) 1
      (matchingUsers (fun _ _ => true) twoStudents.rows none none none) id
      (fun orderBy page =>
        (listUsers (fun _ _ => true) orderBy twoStudents.rows page 1 none none none).rows) ∧
    ¬ Partitions (rowRank textRank (adminSpec .mcpAudit) (some "kind") .desc) 1
      (matchingRows (fun _ _ => true) (fun _ => none)
        (adminSpec .mcpAudit) twoObservations.rows none)
      (serializeRow toString (fun _ => "") (adminSpec .mcpAudit))
      (fun orderBy page =>
        (browseTable (fun _ _ => true) (fun _ => none) toString (fun _ => "") orderBy
          twoObservations.rows page 1 none).rows) := by
  constructor
  · intro h
    apply (listUsers_partitions_iff twoStudents "role" .asc 1 none none none).mp h 1
    exact ⟨_, List.mem_cons_self, by decide +kernel, by decide +kernel⟩
  · intro h
    apply (browseTable_partitions_iff .mcpAudit twoObservations (some "kind") .desc 1 none).mp h 1
    exact ⟨_, List.mem_cons_self, by decide +kernel, by decide +kernel⟩

end OnlinetLabs.Admin
