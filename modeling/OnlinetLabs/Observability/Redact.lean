import Mathlib.Algebra.Order.BigOperators.Group.List
import Mathlib.Algebra.Order.Ring.Nat
import Mathlib.Data.List.Infix
import OnlinetLabs.Lib.Json
import OnlinetLabs.Lib.Loop

/-!
# Redaction

What `redact` makes of the detail of an event: secrets masked, long strings cut, and the largest
fields dropped one by one until the whole fits. The loop that drops them need not end, and what is
masked is the top level only.
-/

namespace OnlinetLabs.Observability

/-! ### A detail -/

/-- A key of a dict that `json.dumps` takes. -/
inductive Key where
  | str (s : String)
  | num (n : Numeral)
  | bool (b : Bool)
  | none
deriving DecidableEq

namespace Key

/-- `str(key)`. -/
def text : Key → List Char
  | str s => s.toList
  | num n => n.text
  | bool true => "True".toList
  | bool false => "False".toList
  | none => "None".toList

/-- The name that `json.dumps` gives it. -/
def name : Key → String
  | str s => s
  | num n => String.ofList n.text
  | bool true => "true"
  | bool false => "false"
  | none => "null"

end Key

abbrev Detail := List (Key × Json)

/-- `len(json.dumps(value, ensure_ascii=False, default=str))`. -/
def dumpsLength (value : Json) : Nat := (Json.dumps Json.escape value).length

def Detail.json (detail : Detail) : Json := .obj (detail.map fun entry => (entry.1.name, entry.2))

/-! ### Masking -/

def secretHints :
    List String := ["api_key", "apikey", "authorization", "token", "secret", "password"]

-- `str.lower`, by the tables of Unicode.
variable (lower : List Char → List Char)

def isSecret (key : List Char) : Bool :=
  let k := lower key
  secretHints.any (fun h => decide (h.toList <:+: k)) || decide ("_key".toList <:+ k)

/-- `value[:length]`, which counts from the end where the length is negative. -/
def slice (value : List Char) (length : Int) : List Char :=
  if 0 ≤ length then value.take length.toNat else value.take (value.length - length.natAbs)

def truncated (maxFieldLen : Int) : Json → Json
  | .str s =>
    if maxFieldLen < s.toList.length
      then .str (String.ofList (slice s.toList maxFieldLen ++ "…(truncated)".toList))
    else .str s
  | value => value

def masked (maxFieldLen : Int) (entry : Key × Json) : Key × Json :=
  (entry.1, if isSecret lower entry.1.text then .str "***" else truncated maxFieldLen entry.2)

/-! ### Dropping -/

def dropped : Json := .str "…(dropped)"

def isDropped : Json → Bool
  | .str s => s == "…(dropped)"
  | _ => false

def allDropped (out : Detail) : Bool := out.all fun entry => isDropped entry.2

def dropFirst (n : Nat) : Detail → Detail
  | [] => []
  | (key, value) :: rest =>
    if dumpsLength value = n then (key, dropped) :: rest else (key, value) :: dropFirst n rest

def longest (out : Detail) : Nat := out.foldr (fun entry n => max (dumpsLength entry.2) n) 0

/-- `out[max(out, key=...)]` is dropped. -/
def dropBiggest (out : Detail) : Detail := dropFirst (longest out) out

def turn (maxTotal : Int) (out : Detail) : Detail ⊕ Detail :=
  if maxTotal < dumpsLength out.json ∧ out ≠ [] then
    let out := dropBiggest out
    if allDropped out then .inr out else .inl out
  else .inr out

/-- `redact`, as far as so many turns go. -/
def redact (maxFieldLen maxTotal : Int) (fuel : Nat) : Option Detail → Option (Option Detail)
  | none => some none
  | some detail =>
      (Loop.turns (turn maxTotal) fuel (detail.map (masked lower maxFieldLen))).map some

/-- `redact` returns the result. -/
def Redacts (maxFieldLen maxTotal : Int) (detail : Option Detail) (out : Option Detail) : Prop :=
  ∃ fuel, redact lower maxFieldLen maxTotal fuel detail = some out

variable {lower} {maxFieldLen maxTotal : Int} {detail out before after : Detail} {key : Key}
  {value : Json}

theorem redacts_iff {result : Option Detail} :
    Redacts lower maxFieldLen maxTotal (some detail) result
    ↔ ∃ out, result = some out ∧ Loop.Ends (turn maxTotal)
      (detail.map (masked lower maxFieldLen)) out := by
  constructor
  · rintro ⟨fuel, h⟩
    obtain ⟨out, hout, rfl⟩ := Option.map_eq_some_iff.mp h
    exact ⟨out, rfl, fuel, hout⟩
  · rintro ⟨out, rfl, fuel, hout⟩
    exact ⟨fuel, Option.map_eq_some_iff.mpr ⟨out, hout, rfl⟩⟩

/-! ### Lengths -/

theorem dumpsLength_dropped : dumpsLength dropped = 12 := by
  decide

theorem dumpsLength_of_isDropped (h : isDropped value = true) : dumpsLength value = 12 := by
  cases value with
  | str s =>
    rw [isDropped, beq_iff_eq] at h
    rw [h]
    exact dumpsLength_dropped
  | _ => cases h

def entryLength (entry : Key × Json) :
    Nat := (Json.quote Json.escape entry.1.name).length + dumpsLength entry.2 + 4

theorem length_dumpsFields (detail : Detail) :
    (Json.dumpsFields Json.escape (detail.map fun entry => (entry.1.name, entry.2))).length
      = (detail.map entryLength).sum + 1 := by
  induction detail with
  | nil => rfl
  | cons entry detail ih =>
    simp only [List.map_cons, Json.dumpsFields, List.length_cons, List.length_append, ih,
      List.sum_cons, entryLength, dumpsLength]
    omega

theorem dumpsLength_json (h : detail ≠ []) :
    dumpsLength detail.json = (detail.map entryLength).sum := by
  cases detail with
  | nil => exact absurd rfl h
  | cons entry detail =>
    simp only [Detail.json, dumpsLength, List.map_cons, Json.dumps, List.length_cons,
      List.length_append, length_dumpsFields, List.sum_cons, entryLength]
    omega

/-! ### The largest field -/

/-- The first of the largest fields. -/
theorem exists_largest (h : out ≠ []) :
    ∃ before key value after, out = before ++ (key, value) :: after
    ∧ (∀ entry ∈ before, dumpsLength entry.2 < dumpsLength value)
    ∧ ∀ entry ∈ after, dumpsLength entry.2 ≤ dumpsLength value := by
  induction out with
  | nil => exact absurd rfl h
  | cons first rest ih =>
    by_cases hrest : rest = []
    · exact ⟨[], first.1, first.2, [], by rw [hrest]; rfl, by simp, by simp⟩
    · obtain ⟨before, key, value, after, rfl, hbefore, hafter⟩ := ih hrest
      by_cases hle : dumpsLength value ≤ dumpsLength first.2
      · refine ⟨[], first.1, first.2, _, rfl, by simp, ?_⟩
        intro entry hentry
        rcases List.mem_append.mp hentry with hmem | hmem
        · exact (hbefore entry hmem).le.trans hle
        · rcases List.mem_cons.mp hmem with rfl | hmem
          · exact hle
          · exact (hafter entry hmem).trans hle
      · refine ⟨first :: before, key, value, after, rfl, ?_, hafter⟩
        exact List.forall_mem_cons.mpr ⟨Nat.lt_of_not_le hle, hbefore⟩

theorem dropFirst_append {n : Nat} (h : ∀ entry ∈ before, dumpsLength entry.2 ≠ n) :
    dropFirst n (before ++ after) = before ++ dropFirst n after := by
  induction before with
  | nil => rfl
  | cons entry before ih =>
    obtain ⟨hentry, hbefore⟩ := List.forall_mem_cons.mp h
    rw [List.cons_append, dropFirst, if_neg hentry, ih hbefore, List.cons_append]

theorem longest_le {n : Nat} (h : ∀ entry ∈ out, dumpsLength entry.2 ≤ n) : longest out ≤ n := by
  induction out with
  | nil => exact Nat.zero_le n
  | cons entry out ih =>
    obtain ⟨hentry, hout⟩ := List.forall_mem_cons.mp h
    exact Nat.max_le.mpr ⟨hentry, ih hout⟩

theorem le_longest {entry : Key × Json} (h : entry ∈ out) : dumpsLength entry.2 ≤ longest out := by
  induction out with
  | nil => cases h
  | cons first out ih =>
    rcases List.mem_cons.mp h with rfl | h
    · exact Nat.le_max_left _ _
    · exact (ih h).trans (Nat.le_max_right _ _)

theorem dropBiggest_eq (hbefore : ∀ entry ∈ before, dumpsLength entry.2 < dumpsLength value)
    (hafter : ∀ entry ∈ after, dumpsLength entry.2 ≤ dumpsLength value) :
    dropBiggest (before ++ (key, value) :: after) = before ++ (key, dropped) :: after := by
  have hlongest : longest (before ++ (key, value) :: after) = dumpsLength value := by
    apply Nat.le_antisymm
    · apply longest_le
      rw [List.forall_mem_append, List.forall_mem_cons]
      exact ⟨fun entry hentry => (hbefore entry hentry).le, Nat.le_refl _, hafter⟩
    · have hmem : (key, value) ∈ before ++ (key, value) :: after :=
        List.mem_append_right _ List.mem_cons_self
      exact le_longest hmem
  rw [dropBiggest, hlongest, dropFirst_append fun entry hentry => (hbefore entry hentry).ne,
    dropFirst, if_pos rfl]

/-! ### Where the loop ends -/

def isLarge (entry : Key × Json) : Bool := decide (dumpsLength dropped < dumpsLength entry.2)

def settled (out : Detail) :
    Detail := out.map fun entry => if isLarge entry then (entry.1, dropped) else entry

def Fits (maxTotal : Int) (out : Detail) : Prop := (dumpsLength out.json : Int) ≤ maxTotal

theorem settled_of_small (h : ∀ entry ∈ out, isLarge entry = false) : settled out = out := by
  have hid : ∀ entry ∈ out, (if isLarge entry then (entry.1, dropped) else entry) = entry := by
    intro entry hentry
    rw [if_neg]
    simp [h entry hentry]
  exact (List.map_congr_left hid).trans (List.map_id' out)

theorem isLarge_dropped : isLarge (key, dropped) = false := decide_eq_false (Nat.lt_irrefl _)

/-- A large field that is dropped is so in the settled detail. -/
theorem settled_drop (h : isLarge (key, value) = true) :
    settled (before ++ (key, dropped) :: after) = settled (before ++ (key, value) :: after) := by
  simp [settled, h, isLarge_dropped]

theorem dumpsLength_settled_le (out : Detail) :
    dumpsLength (settled out).json ≤ dumpsLength out.json := by
  by_cases h : out = []
  · subst h
    exact Nat.le_refl _
  · have hsettled : settled out ≠ [] := by simpa [settled] using h
    rw [dumpsLength_json h, dumpsLength_json hsettled, settled, List.map_map]
    apply List.sum_le_sum
    intro entry _
    rw [Function.comp_apply]
    split
    · rename_i hlarge
      have hlt := of_decide_eq_true hlarge
      simp only [entryLength]
      omega
    · exact Nat.le_refl _

theorem dropFirst_allDropped {n : Nat} (h : allDropped out = true) :
    allDropped (dropFirst n out) = true := by
  induction out with
  | nil => rfl
  | cons entry out ih =>
    simp only [allDropped, List.all_cons, Bool.and_eq_true] at h
    rw [dropFirst]
    split
    · simp only [allDropped, List.all_cons, Bool.and_eq_true]
      exact ⟨rfl, h.2⟩
    · simp only [allDropped, List.all_cons, Bool.and_eq_true]
      exact ⟨h.1, ih h.2⟩

theorem isLarge_of_allDropped (h : allDropped out = true) :
    ∀ entry ∈ out, isLarge entry = false := by
  intro entry hentry
  have hlength := dumpsLength_of_isDropped (List.all_eq_true.mp h entry hentry)
  rw [isLarge, hlength, dumpsLength_dropped]
  rfl

/-- The result fits, or nothing of it is left. -/
def Within (maxTotal : Int) (out : Detail) : Prop := Fits maxTotal out ∨ allDropped out = true

/-- Without its large fields the detail fits, or one more is all that is left to drop. -/
def Settles (maxTotal : Int) (out : Detail) : Prop :=
  Fits maxTotal (settled out) ∨ allDropped (dropBiggest (settled out)) = true

theorem turn_of_stop (h : ¬(maxTotal < dumpsLength out.json ∧ out ≠ [])) :
    turn maxTotal out = .inr out ∧ Within maxTotal out ∧ Settles maxTotal out := by
  refine ⟨if_neg h, ?_⟩
  rw [not_and_or, not_not] at h
  rcases h with hfits | rfl
  · have hfits : Fits maxTotal out := Int.not_lt.mp hfits
    have hle := dumpsLength_settled_le out
    refine ⟨Or.inl hfits, Or.inl ?_⟩
    unfold Fits at hfits ⊢
    omega
  · exact ⟨Or.inr rfl, Or.inr rfl⟩

/-- Where no field is large, the marker is the largest once there is one. -/
theorem turn_fixed (hbefore : ∀ entry ∈ before, dumpsLength entry.2 < dumpsLength value)
    (hafter : ∀ entry ∈ after, dumpsLength entry.2 ≤ dumpsLength value)
    (hsmall : isLarge (key, value) = false)
    (hover : maxTotal < dumpsLength (Detail.json (before ++ (key, value) :: after)))
    (hall : allDropped (before ++ (key, dropped) :: after) = false) :
    turn maxTotal (before ++ (key, dropped) :: after)
      = .inl (before ++ (key, dropped) :: after) := by
  have hle : dumpsLength value ≤ dumpsLength dropped := Nat.le_of_not_lt (of_decide_eq_false hsmall)
  have hne : ∀ value, before ++ (key, value) :: after ≠ [] := fun _ => by simp
  have hover' : maxTotal < dumpsLength (Detail.json (before ++ (key, dropped) :: after)) := by
    rw [dumpsLength_json (hne _)] at hover ⊢
    simp only [List.map_append, List.map_cons, List.sum_append, List.sum_cons,
      entryLength] at hover ⊢
    omega
  have hsame : dropBiggest (before ++ (key, dropped) :: after) = before ++ (key, dropped)
      :: after :=
    dropBiggest_eq (fun entry hentry => (hbefore entry hentry).trans_le hle)
      fun entry hentry => (hafter entry hentry).trans hle
  rw [turn, if_pos ⟨hover', hne _⟩]
  simp only [hsame, hall]
  rfl

theorem forall_small (hbefore : ∀ entry ∈ before, dumpsLength entry.2 < dumpsLength value)
    (hafter : ∀ entry ∈ after, dumpsLength entry.2 ≤ dumpsLength value)
    (hsmall : isLarge (key, value) = false) :
    ∀ entry ∈ before ++ (key, value) :: after, isLarge entry = false := by
  have hle : dumpsLength value ≤ dumpsLength dropped := Nat.le_of_not_lt (of_decide_eq_false hsmall)
  rw [List.forall_mem_append, List.forall_mem_cons]
  refine ⟨fun entry hentry => ?_, hsmall, fun entry hentry => ?_⟩
  · exact decide_eq_false (Nat.not_lt.mpr ((hbefore entry hentry).le.trans hle))
  · exact decide_eq_false (Nat.not_lt.mpr ((hafter entry hentry).trans hle))

/-- Where the largest field was the last to be dropped. -/
theorem settles_of_allDropped (hbefore : ∀ entry ∈ before, dumpsLength entry.2 < dumpsLength value)
    (hafter : ∀ entry ∈ after, dumpsLength entry.2 ≤ dumpsLength value)
    (hall : allDropped (before ++ (key, dropped) :: after) = true) :
    Settles maxTotal (before ++ (key, value) :: after) := by
  right
  cases hlarge : isLarge (key, value) with
  | true =>
    rw [← settled_drop hlarge, settled_of_small (isLarge_of_allDropped hall)]
    exact dropFirst_allDropped hall
  | false =>
    rw [settled_of_small (forall_small hbefore hafter hlarge), dropBiggest_eq hbefore hafter]
    exact hall

/-- **Where the loop ends.** -/
theorem ends_iff (maxTotal : Int) (out : Detail) :
    (∃ result, Loop.Ends (turn maxTotal) out result ∧ Within maxTotal result)
      ↔ Settles maxTotal out := by
  induction hn : out.countP isLarge using Nat.strongRecOn generalizing out with
  | _ n ih =>
    by_cases hgo : maxTotal < dumpsLength out.json ∧ out ≠ []
    · obtain ⟨hover, hne⟩ := hgo
      obtain ⟨before, key, value, after, rfl, hbefore, hafter⟩ := exists_largest hne
      have hnext : dropBiggest (before ++ (key, value) :: after) = before ++ (key, dropped)
          :: after :=
        dropBiggest_eq hbefore hafter
      have hturn : turn maxTotal (before ++ (key, value) :: after)
          = if allDropped (before ++ (key, dropped) :: after)
            then .inr (before ++ (key, dropped) :: after)
            else .inl (before ++ (key, dropped) :: after) := by
        rw [turn, if_pos ⟨hover, hne⟩, hnext]
      cases hall : allDropped (before ++ (key, dropped) :: after) with
      | true =>
        rw [hall, if_pos rfl] at hturn
        exact iff_of_true ⟨_, (Loop.ends_of_inr hturn).mpr rfl, Or.inr hall⟩
          (settles_of_allDropped hbefore hafter hall)
      | false =>
        rw [hall, if_neg Bool.false_ne_true] at hturn
        simp only [Loop.ends_of_inl hturn]
        cases hlarge : isLarge (key, value) with
        | true =>
          -- a large field fewer, and what is left after all of them is the same
          have hfewer : (before ++ (key, dropped) :: after).countP isLarge < n := by
            rw [← hn, List.countP_append, List.countP_append, List.countP_cons,
              List.countP_cons, hlarge, isLarge_dropped]
            simp
          rw [ih _ hfewer _ rfl, Settles, Settles, settled_drop hlarge]
        | false =>
          apply iff_of_false
          · rintro ⟨result, hends, -⟩
            exact Loop.not_ends_of_fixed (turn_fixed hbefore hafter hlarge hover hall) hends
          · have hsettled := settled_of_small (forall_small hbefore hafter hlarge)
            rintro (hfits | hdropped)
            · rw [hsettled] at hfits
              exact Int.not_le.mpr hover hfits
            · rw [hsettled, hnext, hall] at hdropped
              cases hdropped
    · obtain ⟨hturn, hwithin, hsettles⟩ := turn_of_stop hgo
      exact iff_of_true ⟨out, (Loop.ends_of_inr hturn).mpr rfl, hwithin⟩ hsettles

/-- Whatever the loop ends with is within the cap. -/
theorem within_of_ends {result : Detail} (h : Loop.Ends (turn maxTotal) out result) :
    Within maxTotal result := by
  obtain ⟨n, hn⟩ := h
  induction n generalizing out with
  | zero => cases hn
  | succ n ih =>
    by_cases hgo : maxTotal < dumpsLength out.json ∧ out ≠ []
    · have hturn : turn maxTotal out
          = if allDropped (dropBiggest out) then .inr (dropBiggest out)
            else .inl (dropBiggest out) := if_pos hgo
      cases hall : allDropped (dropBiggest out) with
      | true =>
        simp only [Loop.turns, hturn, hall, if_true, Option.some.injEq] at hn
        subst hn
        exact Or.inr hall
      | false =>
        simp only [Loop.turns, hturn, hall, Bool.false_eq_true, if_false] at hn
        exact ih hn
    · obtain ⟨hturn, hwithin, -⟩ := turn_of_stop hgo
      simp only [Loop.turns, hturn, Option.some.injEq] at hn
      subst hn
      exact hwithin

/-- The detail is returned, and its result fits or has every field dropped. -/
def ReturnsWithin (lower : List Char → List Char) (maxFieldLen maxTotal : Int)
    (detail : Detail) : Prop :=
  ∃ result, Redacts lower maxFieldLen maxTotal (some detail) (some result) ∧ Within maxTotal result

/-- **When a detail is redacted at all.** -/
theorem returnsWithin_iff (lower : List Char → List Char) (maxFieldLen maxTotal : Int)
    (detail : Detail) :
    ReturnsWithin lower maxFieldLen maxTotal detail
      ↔ Settles maxTotal (detail.map (masked lower maxFieldLen)) := by
  rw [← ends_iff]
  unfold ReturnsWithin
  simp only [redacts_iff, Option.some.injEq, exists_eq_left']

/-! ### Many small fields -/

theorem countP_dropFirst (n : Nat) (out : Detail) :
    (out.countP fun entry => !isDropped entry.2) ≤ ((dropFirst n out).countP fun entry =>
      !isDropped entry.2) + 1 := by
  induction out with
  | nil => exact Nat.zero_le _
  | cons entry out ih =>
    rw [dropFirst]
    split
    · simp only [List.countP_cons]
      split
      · omega
      · omega
    · simp only [List.countP_cons]
      omega

theorem six_mul_length_le (out : Detail) : 6 * out.length ≤ (out.map entryLength).sum := by
  induction out with
  | nil => exact Nat.zero_le _
  | cons entry out ih =>
    have hquotes : 2 ≤ (Json.quote Json.escape entry.1.name).length := by
      simp [Json.quote]
    simp only [List.length_cons, List.map_cons, List.sum_cons, entryLength]
    omega

/-- Where no field is large, dropping one is no use. -/
theorem not_settles_of_small (hsmall : ∀ entry ∈ out, isLarge entry = false)
    (hkept : 2 ≤ out.countP fun entry => !isDropped entry.2)
    (hover : maxTotal < dumpsLength out.json) :
    ¬Settles maxTotal out := by
  rw [Settles, settled_of_small hsmall]
  rintro (hfits | hdropped)
  · exact Int.not_le.mpr hover hfits
  · have hnone : ((dropBiggest out).countP fun entry => !isDropped entry.2) = 0 := by
      rw [List.countP_eq_zero]
      intro entry hentry
      simp [List.all_eq_true.mp hdropped entry hentry]
    have hone := countP_dropFirst (longest out) out
    rw [dropBiggest] at hnone
    omega

def asciiLower (text : List Char) : List Char := text.map Char.toLower

def counters : Detail := (List.range 700).map fun i => (.num (Numeral.ofNat i), Json.ofNat 1)

/-- **The event loop stands still.** -/
theorem counters_not_returned : ¬∃ result, Redacts asciiLower 500 4096 (some counters) result := by
  have hlength : (counters.map (masked asciiLower 500)).length = 700 := by
    rw [List.length_map, counters, List.length_map, List.length_range]
  have hentry : ∀ entry ∈ counters.map (masked asciiLower 500), isLarge entry = false
      ∧ isDropped entry.2 = false := by
    intro entry hentry
    obtain ⟨counter, hcounter, rfl⟩ := List.mem_map.mp hentry
    obtain ⟨i, -, rfl⟩ := List.mem_map.mp hcounter
    unfold masked
    split
    · exact ⟨rfl, rfl⟩
    · exact ⟨rfl, rfl⟩
  have hne : counters.map (masked asciiLower 500) ≠ [] := by
    rw [← List.length_pos_iff, hlength]
    decide
  have hlong := six_mul_length_le (counters.map (masked asciiLower 500))
  have hsettles : ¬Settles 4096 (counters.map (masked asciiLower 500)) := by
    apply not_settles_of_small fun entry hmem => (hentry entry hmem).1
    · rw [List.countP_eq_length.mpr fun entry hmem => by simp [(hentry entry hmem).2], hlength]
      decide
    · rw [dumpsLength_json hne]
      omega
  rintro ⟨result, hresult⟩
  obtain ⟨out, -, hends⟩ := redacts_iff.mp hresult
  exact hsettles ((ends_iff 4096 _).mp ⟨out, hends, within_of_ends hends⟩)

end OnlinetLabs.Observability
