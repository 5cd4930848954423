import Mathlib.Data.List.Sort
import Mathlib.Data.List.Perm.Basic

/-!
# Pages of a sorted table

A database lists rows by a rank and is free to choose, anew in every query, the order of rows of
equal rank. Pages of a fixed size are cut from such listings, either at an offset or after the rank
of the last row that was read. Either way the pages are complete exactly if no border between two
pages falls inside a group of equal rows.
-/

namespace Paging

variable {α β ρ τ C : Type} [LinearOrder ρ] [LinearOrder τ]

/-- What `ORDER BY` promises. -/
structure Listing (rank : α → ρ) (rows listing : List α) : Prop where
  perm : listing.Perm rows
  sorted : listing.Pairwise fun a b => rank a ≤ rank b

/-- A database's way to list rows by a rank. -/
structure OrderBy (rank : α → ρ) where
  arrange : List α → List α
  listing : ∀ rows, Listing rank rows (arrange rows)

/-- The rows before a rank, and those up to it: between the two are the rows that have it. -/
def below (rank : α → ρ) (rows : List α) (r : ρ) :
    Nat := rows.countP fun row => decide (rank row < r)

def upTo (rank : α → ρ) (rows : List α) (r : ρ) :
    Nat := rows.countP fun row => decide (rank row ≤ r)

/-- A border after the first `n` rows separates rows of equal rank. -/
def CutAt (rank : α → ρ) (rows : List α) (n : Nat) : Prop :=
  ∃ row ∈ rows, below rank rows (rank row) < n ∧ n < upTo rank rows (rank row)

def NoCut (rank : α → ρ) (size : Nat) (rows : List α) : Prop := ∀ i, ¬ CutAt rank rows (i * size)

variable {rank : α → ρ} {key : α → τ} {rows rows' listing listing' : List α} {r : ρ}
  {n size limit : Nat} {a b row : α}

def OrderBy.sorted (rank : α → ρ) : OrderBy rank where
  arrange rows := rows.mergeSort fun a b => decide (rank a ≤ rank b)
  listing rows := by
    refine ⟨List.mergeSort_perm _ _, ?_⟩
    have hpairwise : (rows.mergeSort fun a b => decide (rank a ≤ rank b)).Pairwise
        fun a b => decide (rank a ≤ rank b) = true := by
      apply List.pairwise_mergeSort
      · intro a b c hab hbc
        simpa using (of_decide_eq_true hab).trans (of_decide_eq_true hbc)
      · intro a b
        simpa using le_total (rank a) (rank b)
    exact hpairwise.imp fun hle => of_decide_eq_true hle

/-- Rows of equal rank in the order of the table, and in the opposite order. -/
def OrderBy.inserted (rank : α → ρ) : OrderBy rank where
  arrange rows := rows.insertionSort fun a b => rank a ≤ rank b
  listing _ := ⟨List.perm_insertionSort _ _, List.pairwise_insertionSort _ _⟩

def OrderBy.backwards (orderBy : OrderBy rank) : OrderBy rank where
  arrange rows := orderBy.arrange rows.reverse
  listing rows := ⟨(orderBy.listing rows.reverse).perm.trans (List.reverse_perm rows),
    (orderBy.listing rows.reverse).sorted⟩

/-- Where no two rows have the same rank there is one way to list them. -/
theorem Listing.unique (h : Listing rank rows listing) (h' : Listing rank rows' listing')
    (hperm : rows.Perm rows')
    (hrank : ∀ a ∈ rows, ∀ b ∈ rows, rank a = rank b → a = b) : listing = listing' := by
  apply (h.perm.trans (hperm.trans h'.perm.symm)).eq_of_pairwise ?_ h.sorted h'.sorted
  intro a b ha hb hab hba
  have hb' : b ∈ rows := hperm.mem_iff.mpr (h'.perm.mem_iff.mp hb)
  exact hrank a (h.perm.mem_iff.mp ha) b hb' (le_antisymm hab hba)

/-! ### Counting -/

theorem below_perm (h : rows.Perm rows') : below rank rows r = below rank rows' r := h.countP_eq _

theorem upTo_perm (h : rows.Perm rows') : upTo rank rows r = upTo rank rows' r := h.countP_eq _

theorem cutAt_perm (h : rows.Perm rows') : CutAt rank rows n ↔ CutAt rank rows' n := by
  unfold CutAt
  simp only [below_perm h, upTo_perm h, h.mem_iff]

theorem below_append : below rank (rows ++ rows') r = below rank rows r + below rank rows' r :=
  List.countP_append

theorem upTo_append : upTo rank (rows ++ rows') r = upTo rank rows r + upTo rank rows' r :=
  List.countP_append

theorem below_lt_length (h : row ∈ rows) : below rank rows (rank row) < rows.length := by
  apply lt_of_le_of_ne List.countP_le_length
  intro hall
  have hself := List.countP_eq_length.mp hall row h
  simp at hself

theorem upTo_le_length : upTo rank rows r ≤ rows.length := List.countP_le_length

theorem below_eq_length (h : ∀ row ∈ rows, rank row < r) : below rank rows r = rows.length :=
  List.countP_eq_length.mpr fun row hrow => decide_eq_true (h row hrow)

theorem below_eq_zero (h : ∀ row ∈ rows, r ≤ rank row) : below rank rows r = 0 :=
  List.countP_eq_zero.mpr fun row hrow => by simpa using h row hrow

theorem upTo_eq_length (h : ∀ row ∈ rows, rank row ≤ r) : upTo rank rows r = rows.length :=
  List.countP_eq_length.mpr fun row hrow => decide_eq_true (h row hrow)

theorem not_cutAt_zero : ¬ CutAt rank rows 0 := by
  rintro ⟨_, _, hbelow, -⟩
  exact absurd hbelow (Nat.not_lt_zero _)

theorem not_cutAt_of_length_le (h : rows.length ≤ n) : ¬ CutAt rank rows n := by
  rintro ⟨row, -, -, hupTo⟩
  have hle : upTo rank rows (rank row) ≤ rows.length := upTo_le_length
  omega

/-- One page holds them all. -/
theorem noCut_of_length_le (h : rows.length ≤ size) : NoCut rank size rows := by
  intro i
  rcases Nat.eq_zero_or_pos i with rfl | hpos
  · rw [Nat.zero_mul]
    exact not_cutAt_zero
  · exact not_cutAt_of_length_le (h.trans (Nat.le_mul_of_pos_left size hpos))

/-- Rows in front of all others push the borders back. -/
theorem cutAt_append_iff (h : ∀ a ∈ rows, ∀ b ∈ rows', rank a < rank b) :
    CutAt rank rows' n ↔ CutAt rank (rows ++ rows') (rows.length + n) := by
  have hbelow : ∀ b ∈ rows', below rank (rows ++ rows')
      (rank b) = rows.length + below rank rows' (rank b) := by
    intro b hb
    rw [below_append, below_eq_length fun a ha => h a ha b hb]
  have hupTo : ∀ b ∈ rows', upTo rank (rows ++ rows')
      (rank b) = rows.length + upTo rank rows' (rank b) := by
    intro b hb
    rw [upTo_append, upTo_eq_length fun a ha => (h a ha b hb).le]
  constructor
  · rintro ⟨b, hb, hlow, hhigh⟩
    refine ⟨b, List.mem_append_right _ hb, ?_, ?_⟩
    · rw [hbelow b hb]
      omega
    · rw [hupTo b hb]
      omega
  · rintro ⟨b, hb, hlow, hhigh⟩
    rcases List.mem_append.mp hb with hfront | hb
    · -- a row in front has no rows of its rank behind the others
      have hnone : upTo rank rows' (rank b) = 0 :=
        List.countP_eq_zero.mpr fun c hc => by simpa using h b hfront c hc
      have hle : upTo rank rows (rank b) ≤ rows.length := upTo_le_length
      rw [upTo_append, hnone] at hhigh
      omega
    · rw [hbelow b hb] at hlow
      rw [hupTo b hb] at hhigh
      exact ⟨b, hb, by omega, by omega⟩

/-! ### Borders of a listing -/

theorem exists_tie_of_cutAt (h : Listing rank rows listing) (hcut : CutAt rank rows n) :
    ∃ a ∈ listing.take n, ∃ b ∈ listing.drop n, rank a = rank b := by
  obtain ⟨row, -, hbelow, hupTo⟩ := hcut
  rw [← below_perm h.perm] at hbelow
  rw [← upTo_perm h.perm] at hupTo
  have hn : n ≤ listing.length := by
    have hle : upTo rank listing (rank row) ≤ listing.length := upTo_le_length
    omega
  have hlength : (listing.take n).length = n := by rw [List.length_take, min_eq_left hn]
  obtain ⟨a, ha, hrow⟩ : ∃ a ∈ listing.take n, rank row ≤ rank a := by
    by_contra hnone
    push Not at hnone
    have hall := below_eq_length hnone
    rw [hlength] at hall
    rw [← List.take_append_drop n listing, below_append] at hbelow
    omega
  obtain ⟨b, hb, hrow'⟩ : ∃ b ∈ listing.drop n, rank b ≤ rank row := by
    by_contra hnone
    push Not at hnone
    have hzero : upTo rank (listing.drop n) (rank row) = 0 :=
      List.countP_eq_zero.mpr fun b hb => by simpa using hnone b hb
    have hle : upTo rank (listing.take n) (rank row) ≤ (listing.take n).length := upTo_le_length
    rw [← List.take_append_drop n listing, upTo_append, hzero] at hupTo
    omega
  have hsorted := h.sorted
  rw [← List.take_append_drop n listing, List.pairwise_append] at hsorted
  exact ⟨a, ha, b, hb, le_antisymm (hsorted.2.2 a ha b hb) (hrow'.trans hrow)⟩

theorem lt_of_not_cutAt (h : Listing rank rows listing) (hcut : ¬ CutAt rank rows n) :
    ∀ a ∈ listing.take n, ∀ b ∈ listing.drop n, rank a < rank b := by
  intro a ha b hb
  have hsorted := h.sorted
  rw [← List.take_append_drop n listing, List.pairwise_append] at hsorted
  obtain ⟨-, hdrop, hacross⟩ := hsorted
  by_contra hlt
  have heq : rank a = rank b := le_antisymm (hacross a ha b hb) (not_lt.mp hlt)
  have hn : n < listing.length := by
    by_contra hle
    rw [List.drop_eq_nil_of_le (not_lt.mp hle)] at hb
    cases hb
  have hlength : (listing.take n).length = n := by rw [List.length_take, min_eq_left hn.le]
  refine hcut ⟨a, h.perm.mem_iff.mp (List.mem_of_mem_take ha), ?_, ?_⟩
  · have hzero : below rank (listing.drop n) (rank a) = 0 := below_eq_zero (hacross a ha)
    have hlow : below rank (listing.take n) (rank a) < (listing.take n).length := below_lt_length ha
    rw [← below_perm h.perm, ← List.take_append_drop n listing, below_append, hzero]
    omega
  · have hall : upTo rank (listing.take n) (rank a) = n := by
      rw [upTo_eq_length fun c hc => (hacross c hc b hb).trans heq.ge, hlength]
    have hmore : 0 < upTo rank (listing.drop n) (rank a) :=
      List.countP_pos_iff.mpr ⟨b, hb, decide_eq_true heq.ge⟩
    rw [← upTo_perm h.perm, ← List.take_append_drop n listing, upTo_append, hall]
    omega

/-! ### Pages after a key

The sort is by `rank`; the cursor is the `key` of the last row read, which the next query
excludes. -/

def after (key : α → τ) (rows : List α) (cursor : Option τ) : List α :=
  rows.filter fun row => cursor.all fun c => decide (c < key row)

/-- Pages are read from a cursor on until one comes without a next cursor. -/
inductive Followed (query : Option C → List β → Option C → Prop) : Option C → List β → Prop
  | last {cursor page} : query cursor page none → Followed query cursor page
  | next {cursor page c rest} : query cursor page (some c) → Followed query (some c) rest →
      Followed query cursor (page ++ rest)

/-- Reading always ends, and shows every row once in the sort order. -/
structure Complete (rank : α → ρ) (rows : List α) (shown : α → β)
    (query : Option C → List β → Option C → Prop) :
    Prop where
  ends : ∀ cursors : Nat → Option C, cursors 0 = none →
    ¬ ∀ n, ∃ page c, query (cursors n) page (some c) ∧ cursors (n + 1) = some c
  listed : ∀ read, Followed query none read → ∃ listing, Listing rank rows listing
    ∧ read = listing.map shown

/-- A page is the first `limit` rows after the cursor. It comes without a next cursor only where it
is the last one, and the next cursor is the key of its last row. -/
structure Keyset (rank : α → ρ) (key : α → τ) (toCursor : τ → C) (limit : Nat) (rows : List α)
    (shown : α → β)
    (query : Option C → List β → Option C → Prop) : Prop where
  page : ∀ {cursor : Option τ} {page : List β} {next : Option C},
    query (cursor.map toCursor) page next →
    ∃ listing, Listing rank (after key rows cursor) listing
      ∧ page = (listing.take limit).map shown ∧
      (next = none → listing.length ≤ limit) ∧
      ∀ c, next = some c → ∃ row, (listing.take limit).getLast? = some row ∧ c = toCursor (key row)
  answers : ∀ cursor : Option τ, ∃ page next, query (cursor.map toCursor) page next

section Keyset

variable {toCursor : τ → C} {query : Option C → List β → Option C → Prop} {cursor : Option τ}
  {page read : List β}
  {shown : α → β} {c : C} {next : Option C}

theorem after_none : after key rows none = rows := by simp [after]

theorem after_after (h : row ∈ after key rows cursor) :
    after key (after key rows cursor) (some (key row)) = after key rows (some (key row)) := by
  unfold after
  rw [List.filter_filter]
  apply List.filter_congr
  intro a _
  have hrow := (List.mem_filter.mp h).2
  cases cursor with
  | none => simp
  | some c =>
    simp only [Option.all_some, decide_eq_true_eq] at hrow ⊢
    by_cases hlt : key row < key a
    · simp [hlt, hrow.trans hlt]
    · simp [hlt]

theorem length_after_lt (key : α → τ) (h : row ∈ rows) :
    (after key rows (some (key row))).length < rows.length := by
  apply List.length_filter_lt_length_iff_exists.mpr
  exact ⟨row, h, by simp⟩

/-- The rows after the last one of a page are among those that a listing has after the page. -/
theorem after_page (h : Listing rank rows listing) (hmono : ∀ a b, rank a ≤ rank b → key a ≤ key b)
    (hrow : (listing.take limit).getLast? = some row) :
    (after key rows (some (key row))).Perm (after key (listing.drop limit) (some (key row))) := by
  have hnone : after key (listing.take limit) (some (key row)) = [] := by
    rw [after, List.filter_eq_nil_iff]
    intro a ha
    obtain ⟨before, hbefore⟩ := List.getLast?_eq_some_iff.mp hrow
    have hsorted := h.sorted.sublist (List.take_sublist limit listing)
    rw [hbefore, List.pairwise_append] at hsorted
    rw [hbefore] at ha
    rcases List.mem_append.mp ha with ha | ha
    · simpa using hmono a row (hsorted.2.2 a ha row List.mem_cons_self)
    · rw [List.mem_singleton.mp ha]
      simp
  have hsplit : after key listing (some (key row)) = after key (listing.drop limit)
      (some (key row)) := by
    conv_lhs => rw [← List.take_append_drop limit listing]
    unfold after at hnone ⊢
    rw [List.filter_append, hnone, List.nil_append]
  rw [← hsplit]
  exact (h.perm.filter _).symm

variable {rank : α → ρ} {key : α → τ} {rows : List α} {limit : Nat}

/-- A query whose next cursor is the key of the last row of the page, however few rows it has. -/
theorem keyset_of_last (hlimit : 0 < limit)
    (h : ∀ (cursor : Option τ) page next, query (cursor.map toCursor) page next ↔
      ∃ orderBy : OrderBy rank,
        page = ((orderBy.arrange (after key rows cursor)).take limit).map shown ∧
        next = ((orderBy.arrange (after key rows cursor)).take limit).getLast?.map fun row =>
          toCursor (key row)) :
    Keyset rank key toCursor limit rows shown query := by
  constructor
  · intro cursor page next hquery
    obtain ⟨orderBy, rfl, rfl⟩ := (h cursor page next).mp hquery
    refine ⟨_, orderBy.listing _, rfl, fun hnone => ?_, fun c hc => ?_⟩
    · have hnil := List.getLast?_eq_none_iff.mp (Option.map_eq_none_iff.mp hnone)
      have hempty := (List.take_eq_nil_iff.mp hnil).resolve_left hlimit.ne'
      rw [hempty]
      exact Nat.zero_le limit
    · obtain ⟨row, hrow, rfl⟩ := Option.map_eq_some_iff.mp hc
      exact ⟨row, hrow, rfl⟩
  · intro cursor
    exact ⟨_, _, (h cursor _ _).mpr ⟨OrderBy.sorted rank, rfl, rfl⟩⟩

theorem Listing.mem_of_page (h : Listing rank rows listing)
    (hrow : (listing.take limit).getLast? = some row) :
    row ∈ rows := h.perm.mem_iff.mp (List.mem_of_mem_take (List.mem_of_getLast? hrow))

theorem Keyset.ends (h : Keyset rank key toCursor limit rows shown query) (cursors : Nat → Option C)
    (hzero : cursors 0 = none) :
    ¬ ∀ n, ∃ page c, query (cursors n) page (some c) ∧ cursors (n + 1) = some c := by
  intro hforever
  -- every page leaves fewer rows
  have hfewer : ∀ n, ∃ cursor : Option τ, cursors n = cursor.map toCursor ∧
      (after key rows cursor).length + n ≤ rows.length := by
    intro n
    induction n with
    | zero => exact ⟨none, hzero, by rw [after_none, Nat.add_zero]⟩
    | succ n ih =>
      obtain ⟨cursor, hcursor, hle⟩ := ih
      obtain ⟨page, c, hquery, hnext⟩ := hforever n
      rw [hcursor] at hquery
      obtain ⟨listing, hlisting, -, -, hrow⟩ := h.page hquery
      obtain ⟨row, hlast, rfl⟩ := hrow c rfl
      have hmem := hlisting.mem_of_page hlast
      have hlt := length_after_lt key hmem
      rw [after_after hmem] at hlt
      exact ⟨some (key row), hnext, by omega⟩
  obtain ⟨cursor, -, hle⟩ := hfewer (rows.length + 1)
  omega

theorem Keyset.exists_followed (h : Keyset rank key toCursor limit rows shown query)
    (cursor : Option τ) :
    ∃ read, Followed query (cursor.map toCursor) read := by
  induction hn : (after key rows cursor).length using Nat.strong_induction_on generalizing
    cursor with
  | _ n ih =>
    obtain ⟨page, next, hquery⟩ := h.answers cursor
    cases next with
    | none => exact ⟨page, .last hquery⟩
    | some c =>
      obtain ⟨listing, hlisting, -, -, hrow⟩ := h.page hquery
      obtain ⟨row, hlast, rfl⟩ := hrow c rfl
      have hmem := hlisting.mem_of_page hlast
      have hlt := length_after_lt key hmem
      rw [after_after hmem, hn] at hlt
      obtain ⟨rest, hrest⟩ := ih _ hlt (some (key row)) rfl
      exact ⟨page ++ rest, .next hquery hrest⟩

/-- What remains after a page that no group of equal keys straddles. -/
theorem after_page_of_not_cutAt (h : Listing rank rows listing)
    (hmono : ∀ a b, rank a ≤ rank b → key a ≤ key b)
    (hcut : ¬ CutAt key rows limit) (hrow : (listing.take limit).getLast? = some row) :
    (after key rows (some (key row))).Perm (listing.drop limit) := by
  have hkey : Listing key rows listing := ⟨h.perm, h.sorted.imp (hmono _ _)⟩
  have hall : after key (listing.drop limit) (some (key row)) = listing.drop limit := by
    rw [after, List.filter_eq_self]
    intro b hb
    simpa using lt_of_not_cutAt hkey hcut row (List.mem_of_getLast? hrow) b hb
  exact hall ▸ after_page h hmono hrow

theorem noCut_perm (h : rows.Perm rows') : NoCut rank size rows ↔ NoCut rank size rows' := by
  unfold NoCut
  simp only [cutAt_perm h]

theorem cutAt_drop_iff (h : Listing key rows listing) (hlimit : limit ≤ rows.length)
    (hcut : ¬ CutAt key rows limit)
    (i : Nat) : CutAt key (listing.drop limit) (i * limit) ↔ CutAt key rows ((i + 1) * limit) := by
  have hlength : (listing.take limit).length = limit := by
    rw [List.length_take, h.perm.length_eq, min_eq_left hlimit]
  rw [cutAt_append_iff (lt_of_not_cutAt h hcut), List.take_append_drop, hlength, cutAt_perm h.perm,
    Nat.succ_mul, Nat.add_comm]

/-- **Nothing is lost** where no page ends inside a group of equal keys. -/
theorem Keyset.listing_of_noCut (h : Keyset rank key toCursor limit rows shown query)
    (hmono : ∀ a b, rank a ≤ rank b → key a ≤ key b)
    (hread : Followed query (cursor.map toCursor) read)
    (hcut : NoCut key limit (after key rows cursor)) :
    ∃ out, Listing rank (after key rows cursor) out ∧ read = out.map shown := by
  generalize hfrom : cursor.map toCursor = c at hread
  induction hread generalizing cursor with
  | last hquery =>
    subst hfrom
    obtain ⟨listing, hlisting, rfl, hwhole, -⟩ := h.page hquery
    rw [List.take_of_length_le (hwhole rfl)]
    exact ⟨listing, hlisting, rfl⟩
  | next hquery _ ih =>
    subst hfrom
    obtain ⟨listing, hlisting, rfl, -, hrow⟩ := h.page hquery
    obtain ⟨row, hlast, rfl⟩ := hrow _ rfl
    have hmem := hlisting.mem_of_page hlast
    have hnot : ¬ CutAt key (after key rows cursor) limit := by simpa using hcut 1
    have hrest := after_page_of_not_cutAt hlisting hmono hnot hlast
    rw [after_after hmem] at hrest
    have hkey : Listing key (after key rows cursor) listing :=
      ⟨hlisting.perm, hlisting.sorted.imp (hmono _ _)⟩
    have hcut' : NoCut key limit (after key rows (some (key row))) := by
      rw [noCut_perm hrest]
      intro i hi
      by_cases hlimit : limit ≤ (after key rows cursor).length
      · exact hcut (i + 1) ((cutAt_drop_iff hkey hlimit hnot i).mp hi)
      · have hnil : listing.drop limit = [] := by
          apply List.drop_eq_nil_of_le
          rw [hlisting.perm.length_eq]
          omega
        obtain ⟨b, hb, -⟩ := hi
        rw [hnil] at hb
        cases hb
    obtain ⟨out, ⟨hperm, hsorted⟩, rfl⟩ := @ih (some (key row)) hcut' rfl
    have hsplit := hlisting.sorted
    rw [← List.take_append_drop limit listing, List.pairwise_append] at hsplit
    refine ⟨listing.take limit ++ out, ⟨?_, ?_⟩, (List.map_append).symm⟩
    · have hpage := (hperm.trans hrest).append_left (listing.take limit)
      rw [List.take_append_drop] at hpage
      exact hpage.trans hlisting.perm
    · refine List.pairwise_append.mpr ⟨hsplit.1, hsorted, fun a ha b hb => ?_⟩
      exact hsplit.2.2 a ha b ((hperm.trans hrest).mem_iff.mp hb)

/-- What remains after a page is no more than what the listing has after it, and less where a group
of equal keys straddles its end. -/
theorem length_after_page_le (h : Listing rank rows listing)
    (hmono : ∀ a b, rank a ≤ rank b → key a ≤ key b)
    (hrow : (listing.take limit).getLast? = some row) :
    (after key rows (some (key row))).length ≤ (listing.drop limit).length :=
  (after_page h hmono hrow).length_eq.trans_le (List.length_filter_le _ _)

theorem length_after_page_lt (h : Listing rank rows listing)
    (hmono : ∀ a b, rank a ≤ rank b → key a ≤ key b)
    (hcut : CutAt key rows limit) (hrow : (listing.take limit).getLast? = some row) :
    (after key rows (some (key row))).length < (listing.drop limit).length := by
  have hkey : Listing key rows listing := ⟨h.perm, h.sorted.imp (hmono _ _)⟩
  obtain ⟨a, ha, b, hb, heq⟩ := exists_tie_of_cutAt hkey hcut
  rw [(after_page h hmono hrow).length_eq]
  apply List.length_filter_lt_length_iff_exists.mpr
  obtain ⟨before, hbefore⟩ := List.getLast?_eq_some_iff.mp hrow
  have hlast : key a ≤ key row := by
    have hsorted := hkey.sorted.sublist (List.take_sublist limit listing)
    rw [hbefore, List.pairwise_append] at hsorted
    rw [hbefore] at ha
    rcases List.mem_append.mp ha with ha | ha
    · exact hsorted.2.2 a ha row List.mem_cons_self
    · rw [List.mem_singleton.mp ha]
  exact ⟨b, hb, by simpa using heq ▸ hlast⟩

theorem Keyset.length_le (h : Keyset rank key toCursor limit rows shown query)
    (hmono : ∀ a b, rank a ≤ rank b → key a ≤ key b)
    (hread : Followed query (cursor.map toCursor) read) :
    read.length ≤ (after key rows cursor).length := by
  generalize hfrom : cursor.map toCursor = c at hread
  induction hread generalizing cursor with
  | last hquery =>
    subst hfrom
    obtain ⟨listing, hlisting, rfl, -, -⟩ := h.page hquery
    rw [← hlisting.perm.length_eq, List.length_map]
    exact List.length_take_le' _ _
  | next hquery _ ih =>
    subst hfrom
    obtain ⟨listing, hlisting, rfl, -, hrow⟩ := h.page hquery
    obtain ⟨row, hlast, rfl⟩ := hrow _ rfl
    have hmem := hlisting.mem_of_page hlast
    have hrest := @ih (some (key row)) rfl
    have hle := length_after_page_le hlisting hmono hlast
    rw [after_after hmem] at hle
    have hsplit := congrArg List.length (List.take_append_drop limit listing)
    rw [List.length_append, hlisting.perm.length_eq] at hsplit
    rw [List.length_append, List.length_map]
    omega

/-- **A row is lost** where some page ends inside a group of equal keys. -/
theorem Keyset.length_lt_of_cut (h : Keyset rank key toCursor limit rows shown query)
    (hmono : ∀ a b, rank a ≤ rank b → key a ≤ key b)
    (hread : Followed query (cursor.map toCursor) read) {i : Nat}
    (hcut : CutAt key (after key rows cursor) (i * limit)) :
    read.length < (after key rows cursor).length := by
  generalize hfrom : cursor.map toCursor = c at hread
  induction hread generalizing cursor i with
  | last hquery =>
    subst hfrom
    obtain ⟨listing, hlisting, -, hwhole, -⟩ := h.page hquery
    have hle := hwhole rfl
    rw [hlisting.perm.length_eq] at hle
    cases i with
    | zero =>
      rw [Nat.zero_mul] at hcut
      exact absurd hcut not_cutAt_zero
    | succ i =>
      have hlimit : limit ≤ (i + 1) * limit := Nat.le_mul_of_pos_left _ (Nat.succ_pos i)
      exact absurd hcut (not_cutAt_of_length_le (hle.trans hlimit))
  | next hquery hrest ih =>
    subst hfrom
    obtain ⟨listing, hlisting, rfl, -, hrow⟩ := h.page hquery
    obtain ⟨row, hlast, rfl⟩ := hrow _ rfl
    have hmem := hlisting.mem_of_page hlast
    have hsplit := congrArg List.length (List.take_append_drop limit listing)
    rw [List.length_append, hlisting.perm.length_eq] at hsplit
    rw [List.length_append, List.length_map]
    by_cases hfirst : CutAt key (after key rows cursor) limit
    · have hlt := length_after_page_lt hlisting hmono hfirst hlast
      rw [after_after hmem] at hlt
      have hle : _ ≤ (after key rows (some (key row))).length := h.length_le hmono hrest
      omega
    · -- the first page ends well, so it is a later one that does not
      have hkey : Listing key (after key rows cursor) listing :=
        ⟨hlisting.perm, hlisting.sorted.imp (hmono _ _)⟩
      have hperm := after_page_of_not_cutAt hlisting hmono hfirst hlast
      rw [after_after hmem] at hperm
      cases i with
      | zero =>
        rw [Nat.zero_mul] at hcut
        exact absurd hcut not_cutAt_zero
      | succ i =>
        have hlimit : limit ≤ (after key rows cursor).length := by
          by_contra hlt
          apply not_cutAt_of_length_le ?_ hcut
          have hle : limit ≤ (i + 1) * limit := Nat.le_mul_of_pos_left _ (Nat.succ_pos i)
          omega
        have hlater := (cutAt_perm hperm).mpr ((cutAt_drop_iff hkey hlimit hfirst i).mpr hcut)
        have hlt := @ih (some (key row)) (i := i) hlater rfl
        rw [hperm.length_eq] at hlt
        omega

/-- **Paging by a key is complete** exactly if no page ends inside a group of equal keys. -/
theorem Keyset.complete_iff (h : Keyset rank key toCursor limit rows shown query)
    (hmono : ∀ a b, rank a ≤ rank b → key a ≤ key b) :
    Complete rank rows shown query ↔ NoCut key limit rows := by
  constructor
  · intro hcomplete i hcut
    obtain ⟨read, hread⟩ := h.exists_followed none
    obtain ⟨listing, hlisting, rfl⟩ := hcomplete.listed read hread
    have hlt : (listing.map shown).length < (after key rows none).length := by
      apply h.length_lt_of_cut hmono hread
      rwa [after_none]
    rw [after_none, List.length_map, hlisting.perm.length_eq] at hlt
    exact absurd hlt (lt_irrefl _)
  · intro hcut
    refine ⟨h.ends, fun read hread => ?_⟩
    have hlisting : ∃ out, Listing rank (after key rows none) out ∧ read = out.map shown := by
      have hfrom : Followed query ((none : Option τ).map toCursor) read := hread
      apply h.listing_of_noCut hmono hfrom
      rwa [after_none]
    rwa [after_none] at hlisting

end Keyset

/-! ### Pages at an offset -/

/-- `OFFSET offset LIMIT size`. -/
def slice (offset size : Nat) (listing : List α) : List α := (listing.drop offset).take size

/-- Whatever the database does with rows of equal rank in each query, the pages contain every row
once. -/
def Partitioned (rank : α → ρ) (size : Nat) (rows : List α) : Prop :=
  ∀ (orderBy : Nat → OrderBy rank) (pages : Nat), rows.length ≤ pages * size →
    ((List.range pages).flatMap fun i => slice (i * size) size ((orderBy i).arrange rows)).Perm rows

/-- A row stands before a border that does not cut if fewer rows than that are below it. -/
theorem below_lt_iff (h : Listing rank rows listing) (hcut : ¬ CutAt rank rows n) :
    (∀ a ∈ listing.take n, below rank rows (rank a) < n) ∧ ∀ b ∈ listing.drop n,
      n ≤ below rank rows (rank b) := by
  have hlt := lt_of_not_cutAt h hcut
  constructor
  · intro a ha
    have hzero : below rank (listing.drop n) (rank a) = 0 := below_eq_zero fun b hb =>
        (hlt a ha b hb).le
    have hlow : below rank (listing.take n) (rank a) < (listing.take n).length := below_lt_length ha
    have hlength : (listing.take n).length ≤ n := by
      rw [List.length_take]
      exact min_le_left _ _
    rw [← below_perm h.perm, ← List.take_append_drop n listing, below_append, hzero]
    omega
  · intro b hb
    have hn : n ≤ listing.length := by
      by_contra hle
      rw [List.drop_eq_nil_of_le (not_le.mp hle).le] at hb
      cases hb
    have hall : below rank (listing.take n) (rank b) = n := by
      rw [below_eq_length fun a ha => hlt a ha b hb, List.length_take, min_eq_left hn]
    rw [← below_perm h.perm, ← List.take_append_drop n listing, below_append, hall]
    omega

/-- Between two borders that do not cut stand the same rows in every listing. -/
theorem slice_eq_filter (h : Listing rank rows listing) (hfrom : ¬ CutAt rank rows n)
    (hto : ¬ CutAt rank rows (n + size)) :
    slice n size listing = listing.filter fun a =>
      decide (n ≤ below rank rows (rank a)) && decide (below rank rows (rank a) < n + size) := by
  obtain ⟨hlow, hhigh⟩ := below_lt_iff h hfrom
  obtain ⟨hlow', hhigh'⟩ := below_lt_iff h hto
  have hdrop : listing.drop (n + size) = (listing.drop n).drop size := by rw [List.drop_drop]
  have hsplit : listing = listing.take n ++ (slice n size listing ++ listing.drop (n + size)) := by
    rw [hdrop, slice, List.take_append_drop, List.take_append_drop]
  have hmem : ∀ a ∈ slice n size listing, a ∈ listing.drop n ∧ a ∈ listing.take (n + size) := by
    intro a ha
    refine ⟨List.mem_of_mem_take ha, ?_⟩
    rw [List.take_add]
    exact List.mem_append_right _ ha
  have hbefore : (listing.take n).filter (fun a =>
      decide (n ≤ below rank rows (rank a))
        && decide (below rank rows (rank a) < n + size)) = [] := by
    rw [List.filter_eq_nil_iff]
    intro a ha
    have := hlow a ha
    simp
    omega
  have hbehind : (listing.drop (n + size)).filter (fun a =>
      decide (n ≤ below rank rows (rank a))
        && decide (below rank rows (rank a) < n + size)) = [] := by
    rw [List.filter_eq_nil_iff]
    intro a ha
    have := hhigh' a ha
    simp
    omega
  have hwithin : (slice n size listing).filter (fun a =>
      decide (n ≤ below rank rows (rank a)) && decide (below rank rows (rank a) < n + size))
        = slice n size listing := by
    rw [List.filter_eq_self]
    intro a ha
    obtain ⟨hin, hin'⟩ := hmem a ha
    simpa using ⟨hhigh a hin, hlow' a hin'⟩
  conv_rhs => rw [hsplit]
  rw [List.filter_append, List.filter_append, hbefore, hbehind, hwithin, List.nil_append,
    List.append_nil]

theorem slices_perm (hcut : NoCut rank size rows) (orderBy : Nat → OrderBy rank) (pages : Nat) :
    ((List.range pages).flatMap fun i => slice (i * size) size ((orderBy i).arrange rows)).Perm
      (rows.filter fun a => decide (below rank rows (rank a) < pages * size)) := by
  induction pages with
  | zero => simp
  | succ pages ih =>
    have hslice : (slice (pages * size) size ((orderBy pages).arrange rows)).Perm
        (rows.filter fun a => decide (pages * size ≤ below rank rows (rank a)) &&
          decide (below rank rows (rank a) < pages * size + size)) := by
      have hto : ¬ CutAt rank rows (pages * size + size) := by
        rw [← Nat.succ_mul]
        exact hcut (pages + 1)
      rw [slice_eq_filter ((orderBy pages).listing rows) (hcut pages) hto]
      exact ((orderBy pages).listing rows).perm.filter _
    have hsplit :=
      List.filter_append_perm (fun a => decide (below rank rows (rank a) < pages * size))
      (rows.filter fun a => decide (below rank rows (rank a) < (pages + 1) * size))
    rw [List.filter_filter, List.filter_filter] at hsplit
    rw [List.range_succ, List.flatMap_append, List.flatMap_singleton]
    refine (ih.append hslice).trans (List.Perm.trans (List.Perm.of_eq ?_) hsplit)
    congr 1
    · apply List.filter_congr
      intro a _
      rw [Nat.succ_mul]
      by_cases hlt : below rank rows (rank a) < pages * size
      · have hlt' : below rank rows (rank a) < pages * size + size := by omega
        simp [hlt, hlt']
      · simp [hlt]
    · apply List.filter_congr
      intro a _
      rw [Nat.succ_mul]
      by_cases hlt : below rank rows (rank a) < pages * size
      · simp [hlt, Nat.not_le.mpr hlt]
      · simp [hlt, Nat.not_lt.mp hlt]

theorem partition_of_noCut (hcut : NoCut rank size rows) : Partitioned rank size rows := by
  intro orderBy pages hpages
  have hall : rows.filter (fun a => decide (below rank rows (rank a) < pages * size)) = rows := by
    rw [List.filter_eq_self]
    intro a ha
    exact decide_eq_true ((below_lt_length ha).trans_le hpages)
  have hslices := slices_perm hcut orderBy pages
  rwa [hall] at hslices

theorem Listing.swap {before later : List α} (h : Listing rank rows (before ++ a :: b :: later))
    (heq : rank a = rank b) : Listing rank rows (before ++ b :: a :: later) := by
  refine ⟨((List.Perm.swap a b later).append_left before).trans h.perm, ?_⟩
  have hsorted := h.sorted
  rw [← List.pairwise_map (f := rank)] at hsorted ⊢
  have hsame : (before ++ b :: a :: later).map rank = (before ++ a :: b :: later).map rank := by
    simp [heq]
  rwa [hsame]

theorem exists_neighbours_of_cutAt (h : Listing rank rows listing)
    (hcut : CutAt rank rows (n + 1)) :
    ∃ before a b later, listing = before ++ a :: b :: later ∧ before.length = n
      ∧ rank a = rank b := by
  obtain ⟨a, ha, b, hb, heq⟩ := exists_tie_of_cutAt h hcut
  have hlength : n + 1 < listing.length := by
    by_contra hle
    rw [List.drop_eq_nil_of_le (not_lt.mp hle)] at hb
    cases hb
  have hn : n < listing.length := by omega
  have hsplit :
      listing = listing.take n ++ listing[n] :: listing[n + 1] :: listing.drop (n + 2) := by
    rw [List.getElem_cons_drop, List.getElem_cons_drop, List.take_append_drop]
  refine ⟨listing.take n, listing[n], listing[n + 1], listing.drop (n + 2), hsplit, ?_, ?_⟩
  · rw [List.length_take, min_eq_left hn.le]
  · have hsorted := h.sorted
    have htake : listing.take (n + 1) = listing.take n ++ [listing[n]] :=
      List.take_succ_eq_append_getElem hn
    have hdrop : listing.drop (n + 1) = listing[n + 1] :: listing.drop (n + 2) :=
      (List.getElem_cons_drop (h := hlength)).symm
    rw [← List.take_append_drop (n + 1) listing, htake, hdrop, List.pairwise_append] at hsorted
    obtain ⟨hfront, hback, hacross⟩ := hsorted
    have hlow : rank a ≤ rank listing[n] := by
      rw [htake] at ha
      rcases List.mem_append.mp ha with ha | ha
      · exact (List.pairwise_append.mp hfront).2.2 a ha _ List.mem_cons_self
      · rw [List.mem_singleton.mp ha]
    have hhigh : rank listing[n + 1] ≤ rank b := by
      rw [hdrop] at hb
      rcases List.mem_cons.mp hb with rfl | hb
      · exact le_rfl
      · exact (List.pairwise_cons.mp hback).1 b hb
    have hnext : rank listing[n] ≤ rank listing[n + 1] :=
      hacross _ (List.mem_append_right _ List.mem_cons_self) _ List.mem_cons_self
    exact le_antisymm hnext (hhigh.trans (heq.ge.trans hlow))

noncomputable def OrderBy.answering (h : Listing rank rows listing) : OrderBy rank where
  arrange rows' := open Classical in if rows' = rows then listing
    else (OrderBy.sorted rank).arrange rows'
  listing rows' := by
    split
    · rename_i heq
      exact heq ▸ h
    · exact (OrderBy.sorted rank).listing rows'

theorem OrderBy.arrange_answering (h : Listing rank rows listing) :
    (OrderBy.answering h).arrange rows = listing := if_pos rfl

/-- **Two pages may overlap** where a border falls inside a group of rows of equal rank. -/
theorem noCut_of_partition (hnodup : rows.Nodup) (hpages : Partitioned rank size rows) :
    NoCut rank size rows := by
  intro i hcut
  have hpos : 0 < i * size := by
    by_contra hzero
    rw [Nat.eq_zero_of_not_pos hzero] at hcut
    exact not_cutAt_zero hcut
  obtain ⟨i, rfl⟩ : ∃ k, i = k + 1 :=
    ⟨i - 1, (Nat.succ_pred_eq_of_pos (Nat.pos_of_mul_pos_right hpos)).symm⟩
  obtain ⟨size, rfl⟩ : ∃ k, size = k + 1 :=
    ⟨size - 1, (Nat.succ_pred_eq_of_pos (Nat.pos_of_mul_pos_left hpos)).symm⟩
  have hborder : (i + 1) * (size + 1) = i * (size + 1) + size + 1 := by
    rw [Nat.succ_mul, Nat.add_assoc]
  rw [hborder] at hcut
  have hlisting := (OrderBy.sorted rank).listing rows
  obtain ⟨before, a, b, later, hsplit, hbefore, heq⟩ := exists_neighbours_of_cutAt hlisting hcut
  have hswapped : Listing rank rows (before ++ b :: a :: later) := (hsplit ▸ hlisting).swap heq
  -- the query for the page after the border lists the two the other way round
  let orderBy : Nat → OrderBy rank := fun j =>
    if j = i + 1 then OrderBy.answering hswapped else OrderBy.sorted rank
  have hfirst : a ∈ slice (i * (size + 1)) (size + 1) ((orderBy i).arrange rows) := by
    apply List.mem_of_getElem? (i := size)
    have horder : orderBy i = OrderBy.sorted rank := if_neg (by omega)
    rw [slice, List.getElem?_take_of_lt (Nat.lt_succ_self size), List.getElem?_drop, horder, hsplit,
      ← hbefore, List.getElem?_append_right le_rfl, Nat.sub_self]
    rfl
  have hsecond : a ∈ slice ((i + 1) * (size + 1)) (size + 1) ((orderBy (i + 1)).arrange rows) := by
    apply List.mem_of_getElem? (i := 0)
    have horder : orderBy (i + 1) = OrderBy.answering hswapped := if_pos rfl
    rw [slice, List.getElem?_take_of_lt (Nat.succ_pos size), List.getElem?_drop, horder,
      OrderBy.arrange_answering, hborder, ← hbefore, List.getElem?_append_right (by omega)]
    simp
  have henough : rows.length ≤ (rows.length + i + 2) * (size + 1) :=
    (by omega : rows.length ≤ rows.length + i + 2).trans
      (Nat.le_mul_of_pos_right _ (Nat.succ_pos size))
  have hdistinct := (hpages orderBy (rows.length + i + 2) henough).nodup_iff.mpr hnodup
  have hdisjoint := (List.nodup_flatMap.mp hdistinct).2
  rw [List.pairwise_iff_getElem] at hdisjoint
  have hfirstPage : i < (List.range (rows.length + i + 2)).length := by
    rw [List.length_range]
    omega
  have hsecondPage : i + 1 < (List.range (rows.length + i + 2)).length := by
    rw [List.length_range]
    omega
  have hpair := hdisjoint i (i + 1) hfirstPage hsecondPage (Nat.lt_succ_self i)
  simp only [List.getElem_range] at hpair
  exact hpair hfirst hsecond

/-- **Paging by an offset partitions a table** exactly if no border between two pages falls inside a
group of rows of equal rank. -/
theorem partition_iff (hnodup : rows.Nodup) : Partitioned rank size rows ↔ NoCut rank size rows :=
  ⟨noCut_of_partition hnodup, partition_of_noCut⟩

theorem noCut_of_injective (h : ∀ a ∈ rows, ∀ b ∈ rows, rank a = rank b → a = b)
    (hnodup : rows.Nodup) :
    NoCut rank size rows := by
  intro i hcut
  have hlisting := (OrderBy.sorted rank).listing rows
  obtain ⟨a, ha, b, hb, heq⟩ := exists_tie_of_cutAt hlisting hcut
  have hsame : a = b := h a (hlisting.perm.mem_iff.mp (List.mem_of_mem_take ha)) b
    (hlisting.perm.mem_iff.mp (List.mem_of_mem_drop hb)) heq
  have hdistinct := hlisting.perm.nodup_iff.mpr hnodup
  rw [← List.take_append_drop (i * size) ((OrderBy.sorted rank).arrange rows),
    List.nodup_append] at hdistinct
  exact hdistinct.2.2 a ha b hb hsame

end Paging
