import OnlinetLabs.Lib.Lines

/-!
# Backtracking patterns

A pattern is read from a cursor: what is left of the text, and whether the symbol just read was a
word symbol. Its *ends* are the cursors it can stop at, in the order in which a backtracking matcher
tries them, so the first one is the match that is reported. Nothing else of the past is kept,
because the only question a pattern asks about it is whether a word ends here: behind a line break
the answer is the one given at the start of the text.

This is what makes a substitution local to its line. A pattern whose classes refuse line breaks
never reads over one, and if it also looks no further than a break, what it does on a line does not
depend on the lines around it (`LineLocal`).
-/

structure Cursor (α : Type) where
  afterWord : Bool
  rest : List α
  deriving DecidableEq

namespace Cursor

variable {α : Type} {c d : Cursor α} {tail : List α}

def start (text : List α) : Cursor α := ⟨false, text⟩

def extend (c : Cursor α) (tail : List α) : Cursor α := { c with rest := c.rest ++ tail }

def read (c d : Cursor α) : List α := c.rest.take (c.rest.length - d.rest.length)

@[simp] theorem start_rest (text : List α) : (start text).rest = text := rfl

@[simp] theorem start_afterWord (text : List α) : (start text).afterWord = false := rfl

@[simp] theorem extend_rest : (c.extend tail).rest = c.rest ++ tail := rfl

@[simp] theorem extend_afterWord : (c.extend tail).afterWord = c.afterWord := rfl

@[simp] theorem extend_mk (w : Bool) (text : List α) :
    (mk w text).extend tail = ⟨w, text ++ tail⟩ := rfl

theorem read_extend : (c.extend tail).read (d.extend tail) = c.read d := by
  have hlength : (c.rest ++ tail).length - (d.rest ++ tail).length
      = c.rest.length - d.rest.length := by
    rw [List.length_append, List.length_append]
    omega
  rw [read, read, extend_rest, extend_rest, hlength]
  apply List.take_append_of_le_length
  omega

theorem mem_of_mem_read {a : α} (h : a ∈ c.read d) : a ∈ c.rest := List.mem_of_mem_take h

end Cursor

/-- A pattern. `one` and `many` read a class of symbols, `many` as often as it can. -/
inductive Pattern (α : Type) where
  | empty
  | one (accepts : α → Bool)
  | many (accepts : α → Bool)
  | seq (first second : Pattern α)
  | alt (first second : Pattern α)
  | ahead (p : Pattern α)
  | notAhead (p : Pattern α)
  | edge
  | finish

namespace Pattern

variable {α : Type} (word : α → Bool)

/-- Where a greedy repetition can stop, the longest first. -/
def manyEnds (accepts : α → Bool) (afterWord : Bool) : List α → List (Cursor α)
  | [] => [⟨afterWord, []⟩]
  | a :: rest =>
    if accepts a then manyEnds accepts (word a) rest ++ [⟨afterWord, a :: rest⟩]
    else [⟨afterWord, a :: rest⟩]

def startsWord : List α → Bool
  | [] => false
  | a :: _ => word a

/-- Where a pattern can stop, in the order in which a backtracking matcher tries. -/
def ends : Pattern α → Cursor α → List (Cursor α)
  | empty, c => [c]
  | one accepts, c =>
    match c.rest with
    | [] => []
    | a :: rest => if accepts a then [⟨word a, rest⟩] else []
  | many accepts, c => manyEnds word accepts c.afterWord c.rest
  | seq first second, c => (first.ends c).flatMap second.ends
  | alt first second, c => first.ends c ++ second.ends c
  | ahead p, c => if (p.ends c).isEmpty then [] else [c]
  | notAhead p, c => if (p.ends c).isEmpty then [c] else []
  | edge, c => if c.afterWord = startsWord word c.rest then [] else [c]
  | finish, c => if c.rest.isEmpty then [c] else []

def several (accepts : α → Bool) : Pattern α := seq (one accepts) (many accepts)

/-- `p?`, taken when it can be. -/
def opt (p : Pattern α) : Pattern α := alt p empty

def inOrder (ps : List (Pattern α)) : Pattern α := ps.foldr seq empty

def text (classes : List (α → Bool)) : Pattern α := inOrder (classes.map one)

def choice (p : Pattern α) (ps : List (Pattern α)) : Pattern α :=
  match ps with
  | [] => p
  | q :: rest => alt p (choice q rest)

def firstEnd (p : Pattern α) (c : Cursor α) : Option (Cursor α) := (p.ends word c).head?

def search (p : Pattern α) (afterWord : Bool) : List α → Bool
  | [] => !(p.ends word ⟨afterWord, []⟩).isEmpty
  | a :: rest => !(p.ends word ⟨afterWord, a :: rest⟩).isEmpty || search p (word a) rest

end Pattern

/-- A match of `group` followed by `arg`: the cursor behind the group and the one behind the
match. -/
def capture {α : Type} (word : α → Bool) (group arg : Pattern α) (c : Cursor α) :
    Option (Cursor α × Cursor α) :=
  ((group.ends word c).flatMap fun mid => (arg.ends word mid).map fun last => (mid, last)).head?

/-- The matches of patterns one after the other, each with what every one of them has read. -/
def piecewise {α : Type} (word : α → Bool) :
    List (Pattern α) → Cursor α → List (List (List α) × Cursor α)
  | [], c => [([], c)]
  | p :: ps, c =>
      (p.ends word c).flatMap fun d => (piecewise word ps d).map fun m => (c.read d :: m.1, m.2)

def findPieces {α : Type} (word : α → Bool) (ps : List (Pattern α)) (afterWord : Bool) :
    List α → Option (List (List α))
  | [] => (piecewise word ps ⟨afterWord, []⟩).head?.map (·.1)
  | a :: rest =>
    match (piecewise word ps ⟨afterWord, a :: rest⟩).head? with
    | some m => some m.1
    | none => findPieces word ps (word a) rest

/-- The pieces of every match, from left to right. A match is never empty, so that there is at most
one step for each symbol. -/
def findAll {α : Type} (word : α → Bool) (ps : List (Pattern α)) :
    Nat → Cursor α → List (List (List α))
  | 0, _ => []
  | fuel + 1, c =>
    match c.rest with
    | [] => []
    | a :: rest =>
      match (piecewise word ps c).head? with
      | some m => m.1 :: findAll word ps fuel m.2
      | none => findAll word ps fuel ⟨word a, rest⟩

/-- Substitution from left to right: what is found is replaced and reading goes on behind it, and a
symbol at which nothing is found is kept. -/
def substitute {α : Type} (word : α → Bool) (find : Cursor α → Option (List α × Cursor α)) :
    Nat → Cursor α → List α
  | 0, c => c.rest
  | fuel + 1, c =>
    match c.rest with
    | [] => []
    | a :: rest =>
      match find c with
      | some (replacement, next) => replacement ++ substitute word find fuel next
      | none => a :: substitute word find fuel ⟨word a, rest⟩

/-- The substitution over all that is left. What is found is never empty, so that there is at most
one step for each symbol. -/
def substituteAll {α : Type} (word : α → Bool) (find : Cursor α → Option (List α × Cursor α))
    (c : Cursor α) : List α :=
  substitute word find c.rest.length c

namespace Pattern

variable {α : Type} {word : α → Bool} {p q : Pattern α} {accepts : α → Bool} {c d : Cursor α}

/-! What a pattern does, constructor by constructor. -/

@[simp] theorem manyEnds_nil (w : Bool) : manyEnds word accepts w [] = [⟨w, []⟩] := rfl

theorem manyEnds_cons (w : Bool) (a : α) (l : List α) :
    manyEnds word accepts w (a :: l)
      = if accepts a then manyEnds word accepts (word a) l ++ [⟨w, a :: l⟩]
        else [⟨w, a :: l⟩] := rfl

@[simp] theorem ends_empty : (empty : Pattern α).ends word c = [c] := rfl

@[simp] theorem ends_one_nil (w : Bool) : (one accepts).ends word ⟨w, []⟩ = [] := rfl

@[simp] theorem ends_one_cons (w : Bool) (a : α) (l : List α) :
    (one accepts).ends word ⟨w, a :: l⟩ = if accepts a then [⟨word a, l⟩] else [] := rfl

theorem ends_many : (many accepts).ends word c = manyEnds word accepts c.afterWord c.rest := rfl

theorem ends_seq : (seq p q).ends word c = (p.ends word c).flatMap (q.ends word) := rfl

theorem ends_alt : (alt p q).ends word c = p.ends word c ++ q.ends word c := rfl

theorem ends_ahead : (ahead p).ends word c = if (p.ends word c).isEmpty then [] else [c] := rfl

theorem ends_notAhead : (notAhead p).ends word c = if (p.ends word c).isEmpty then [c]
    else [] := rfl

theorem ends_edge :
    (edge : Pattern α).ends word c = if c.afterWord = startsWord word c.rest then [] else [c] := rfl

theorem ends_finish : (finish : Pattern α).ends word c = if c.rest.isEmpty then [c] else [] := rfl

/-! What a pattern reads. -/

theorem suffix_of_mem_manyEnds {w : Bool} {l : List α} (h : d ∈ manyEnds word accepts w l) :
    d.rest <:+ l := by
  induction l generalizing w with
  | nil =>
      obtain rfl := List.mem_singleton.mp h
      exact List.suffix_rfl
  | cons a l ih =>
      rw [manyEnds_cons] at h
      split at h
      · rcases List.mem_append.mp h with hlater | hhere
        · exact (ih hlater).trans (List.suffix_cons a l)
        · obtain rfl := List.mem_singleton.mp hhere
          exact List.suffix_rfl
      · obtain rfl := List.mem_singleton.mp h
        exact List.suffix_rfl

/-- What reads nothing stays where it is. -/
theorem suffix_of_mem_ite {b : Prop} [Decidable b] {l l' : List (Cursor α)}
    (h : d ∈ if b then l else l') (hl : ∀ e ∈ l, e = c) (hl' : ∀ e ∈ l', e = c) :
    d.rest <:+ c.rest := by
  split at h
  · obtain rfl := hl d h
    exact List.suffix_rfl
  · obtain rfl := hl' d h
    exact List.suffix_rfl

theorem suffix_of_mem_ends (h : d ∈ p.ends word c) : d.rest <:+ c.rest := by
  induction p generalizing c d with
  | empty =>
      obtain rfl := List.mem_singleton.mp h
      exact List.suffix_rfl
  | one accepts =>
      obtain ⟨w, l⟩ := c
      cases l with
      | nil => exact absurd h List.not_mem_nil
      | cons a l =>
          rw [ends_one_cons] at h
          split at h
          · obtain rfl := List.mem_singleton.mp h
            exact List.suffix_cons a l
          · exact absurd h List.not_mem_nil
  | many accepts => exact suffix_of_mem_manyEnds h
  | seq first second hfirst hsecond =>
      obtain ⟨mid, hmid, hlast⟩ := List.mem_flatMap.mp h
      exact (hsecond hlast).trans (hfirst hmid)
  | alt first second hfirst hsecond =>
      rcases List.mem_append.mp h with hleft | hright
      · exact hfirst hleft
      · exact hsecond hright
  | ahead p _ | notAhead p _ | edge | finish =>
      exact suffix_of_mem_ite h (by simp) (by simp)

/-- A repetition that is not optional reads something. -/
theorem length_lt_of_mem_several (h : d ∈ (several accepts).ends word c) :
    d.rest.length < c.rest.length := by
  obtain ⟨mid, hmid, hlast⟩ := List.mem_flatMap.mp h
  have hle := (suffix_of_mem_ends hlast).length_le
  obtain ⟨w, l⟩ := c
  cases l with
  | nil => exact absurd hmid List.not_mem_nil
  | cons a l =>
      rw [ends_one_cons] at hmid
      split at hmid
      · rw [List.mem_singleton.mp hmid] at hle
        exact Nat.lt_succ_of_le hle
      · exact absurd hmid List.not_mem_nil

/-- A repetition that meets no obstacle reads everything. -/
theorem head?_manyEnds {w : Bool} {l : List α} (h : ∀ a ∈ l, accepts a = true) :
    ∃ w', (manyEnds word accepts w l).head? = some ⟨w', []⟩ := by
  induction l generalizing w with
  | nil => exact ⟨w, rfl⟩
  | cons a l ih =>
      obtain ⟨w', hw'⟩ := ih (w := word a) fun b hb => h b (List.mem_cons_of_mem a hb)
      refine ⟨w', ?_⟩
      rw [manyEnds_cons, if_pos (h a List.mem_cons_self), List.head?_append, hw']
      rfl

/-! ### Patterns that stay on their line -/

section Line

variable {brk : α → Bool} {l tail : List α} {b : α} {w : Bool}

def LineLocal (word brk : α → Bool) (p : Pattern α) : Prop :=
  ∀ w l b tail, BreakFree brk l → brk b = true →
    p.ends word ⟨w, l ++ b :: tail⟩ = (p.ends word ⟨w, l⟩).map (·.extend (b :: tail))

theorem lineLocal_empty : LineLocal word brk (empty : Pattern α) := by
  intro w l b tail _ _
  rfl

theorem lineLocal_one (h : ∀ b, brk b = true → accepts b = false) :
    LineLocal word brk (one accepts) := by
  intro w l b tail _ hb
  cases l with
  | nil => simp [h b hb]
  | cons a l =>
      simp only [ends_one_cons, List.cons_append]
      split <;> simp

theorem lineLocal_many (h : ∀ b, brk b = true → accepts b = false) :
    LineLocal word brk (many accepts) := by
  intro w l b tail _ hb
  rw [ends_many, ends_many]
  induction l generalizing w with
  | nil => simp [manyEnds_cons, h b hb]
  | cons a l ih =>
      rename_i hbrk
      rw [List.cons_append, manyEnds_cons, manyEnds_cons]
      split
      · rw [ih _ fun c hc => hbrk c (List.mem_cons_of_mem a hc), List.map_append]
        simp
      · simp

theorem LineLocal.seq (hp : LineLocal word brk p) (hq : LineLocal word brk q) :
    LineLocal word brk (seq p q) := by
  intro w l b tail hl hb
  rw [ends_seq, ends_seq, hp w l b tail hl hb, List.flatMap_map, List.map_flatMap]
  apply List.flatMap_congr
  intro mid hmid
  have hmidLine : BreakFree brk mid.rest :=
    fun a ha => hl a ((suffix_of_mem_ends hmid).subset ha)
  exact hq mid.afterWord mid.rest b tail hmidLine hb

theorem LineLocal.alt (hp : LineLocal word brk p) (hq : LineLocal word brk q) :
    LineLocal word brk (alt p q) := by
  intro w l b tail hl hb
  rw [ends_alt, ends_alt, hp w l b tail hl hb, hq w l b tail hl hb, List.map_append]

theorem LineLocal.notAhead (hp : LineLocal word brk p) : LineLocal word brk (notAhead p) := by
  intro w l b tail hl hb
  rw [ends_notAhead, ends_notAhead, hp w l b tail hl hb, List.isEmpty_map]
  split <;> simp

/-- The end of a line looks like the end of the text to a pattern that asks for either of them. -/
theorem lineLocal_ahead_finish (h : ∀ b, brk b = true → accepts b = true) :
    LineLocal word brk (ahead (alt (one accepts) finish)) := by
  intro w l b tail _ hb
  cases l with
  | nil => simp [ends_ahead, ends_alt, ends_finish, h b hb]
  | cons a l =>
      by_cases ha : accepts a = true <;> simp [ends_ahead, ends_alt, ends_finish, ha]

theorem lineLocal_edge (h : ∀ b, brk b = true → word b = false) :
    LineLocal word brk (edge : Pattern α) := by
  intro w l b tail _ hb
  have hstarts : startsWord word (l ++ b :: tail) = startsWord word l := by
    cases l with
    | nil => exact h b hb
    | cons a l => rfl
  simp only [ends_edge, hstarts]
  split <;> simp

theorem lineLocal_several (h : ∀ b, brk b = true → accepts b = false) :
    LineLocal word brk (several accepts) :=
  (lineLocal_one h).seq (lineLocal_many h)

theorem lineLocal_inOrder {ps : List (Pattern α)} (h : ∀ p ∈ ps, LineLocal word brk p) :
    LineLocal word brk (inOrder ps) := by
  induction ps with
  | nil => exact lineLocal_empty
  | cons p ps ih =>
      apply (h p List.mem_cons_self).seq
      exact ih fun q hq => h q (List.mem_cons_of_mem p hq)

theorem lineLocal_text {classes : List (α → Bool)}
    (h : ∀ accepts ∈ classes, ∀ b, brk b = true → accepts b = false) :
    LineLocal word brk (text classes) := by
  apply lineLocal_inOrder
  intro p hp
  obtain ⟨accepts, haccepts, rfl⟩ := List.mem_map.mp hp
  exact lineLocal_one (h accepts haccepts)

theorem lineLocal_choice {ps : List (Pattern α)} (hp : LineLocal word brk p)
    (hps : ∀ q ∈ ps, LineLocal word brk q) : LineLocal word brk (choice p ps) := by
  induction ps generalizing p with
  | nil => exact hp
  | cons q ps ih =>
      exact hp.alt (ih (hps q List.mem_cons_self) fun q' hq' => hps q' (List.mem_cons_of_mem q hq'))

end Line

end Pattern

section Capture

variable {α : Type} {word brk : α → Bool} {group arg : Pattern α} {c mid last : Cursor α}

theorem mem_of_capture (h : capture word group arg c = some (mid, last)) :
    mid ∈ group.ends word c ∧ last ∈ arg.ends word mid := by
  have hmem := List.mem_of_mem_head? h
  obtain ⟨mid', hmid, hlast⟩ := List.mem_flatMap.mp hmem
  obtain ⟨last', hlast, heq⟩ := List.mem_map.mp hlast
  cases heq
  exact ⟨hmid, hlast⟩

/-- The match on a line is the match on the line alone. -/
theorem capture_line (hgroup : group.LineLocal word brk) (harg : arg.LineLocal word brk) {w : Bool}
    {l tail : List α} {b : α} (hl : BreakFree brk l) (hb : brk b = true) :
    capture word group arg ⟨w, l ++ b :: tail⟩
      = (capture word group arg ⟨w, l⟩).map
          fun m => (m.1.extend (b :: tail), m.2.extend (b :: tail)) := by
  have hmatches : ((group.ends word ⟨w, l ++ b :: tail⟩).flatMap fun mid =>
        (arg.ends word mid).map fun last => (mid, last))
      = ((group.ends word ⟨w, l⟩).flatMap fun mid =>
          (arg.ends word mid).map fun last => (mid, last)).map
            fun m => (m.1.extend (b :: tail), m.2.extend (b :: tail)) := by
    rw [hgroup w l b tail hl hb, List.flatMap_map, List.map_flatMap]
    apply List.flatMap_congr
    intro mid hmid
    have hmidLine : BreakFree brk mid.rest :=
      fun a ha => hl a ((Pattern.suffix_of_mem_ends hmid).subset ha)
    have hends := harg mid.afterWord mid.rest b tail hmidLine hb
    change (arg.ends word (mid.extend (b :: tail))).map _ = _
    rw [show mid.extend (b :: tail) = ⟨mid.afterWord, mid.rest ++ b :: tail⟩ from rfl, hends,
      List.map_map, List.map_map]
    rfl
  rw [capture, hmatches, List.head?_map]
  rfl

end Capture

section Substitute

variable {α : Type} {word brk : α → Bool} {find : Cursor α → Option (List α × Cursor α)}
  {c next : Cursor α} {replacement l tail : List α} {a b : α} {w : Bool} {n : Nat}

def Advances (find : Cursor α → Option (List α × Cursor α)) : Prop :=
  ∀ {c replacement next}, find c = some (replacement, next) →
    next.rest <:+ c.rest ∧ next.rest.length < c.rest.length

theorem substitute_fuel (hfind : Advances find) {m : Nat} (hn : c.rest.length ≤ n)
    (hm : c.rest.length ≤ m) : substitute word find n c = substitute word find m c := by
  induction n generalizing m c with
  | zero =>
      have hrest : c.rest = [] := List.length_eq_zero_iff.mp (Nat.le_zero.mp hn)
      cases m <;> simp [substitute, hrest]
  | succ n ih =>
      cases m with
      | zero =>
          have hrest : c.rest = [] := List.length_eq_zero_iff.mp (Nat.le_zero.mp hm)
          simp [substitute, hrest]
      | succ m =>
          rw [substitute, substitute]
          cases hrest : c.rest with
          | nil => rfl
          | cons a rest =>
              rw [hrest, List.length_cons] at hn hm
              cases hc : find c with
              | none =>
                  simp only
                  rw [ih (c := ⟨word a, rest⟩) (Nat.le_of_succ_le_succ hn)
                    (Nat.le_of_succ_le_succ hm)]
              | some found =>
                  obtain ⟨replacement, next⟩ := found
                  have hnext := (hfind hc).2
                  rw [hrest, List.length_cons] at hnext
                  simp only
                  rw [ih (c := next) (m := m) (by omega) (by omega)]

theorem substituteAll_nil : substituteAll word find ⟨w, []⟩ = [] := rfl

theorem substituteAll_none (hc : find ⟨w, a :: l⟩ = none) :
    substituteAll word find ⟨w, a :: l⟩ = a :: substituteAll word find ⟨word a, l⟩ := by
  simp only [substituteAll, List.length_cons, substitute, hc]

theorem substituteAll_some (hfind : Advances find) (hc : find c = some (replacement, next)) :
    substituteAll word find c = replacement ++ substituteAll word find next := by
  have hnext := (hfind hc).2
  rw [substituteAll, substituteAll]
  cases hrest : c.rest with
  | nil => simp [hrest] at hnext
  | cons a rest =>
      rw [hrest, List.length_cons] at hnext
      rw [List.length_cons, substitute, hrest, hc]
      simp only
      rw [substitute_fuel hfind (Nat.le_of_lt_succ hnext) (Nat.le_refl _)]

/-- What a substitution puts into the text satisfies what the text and the replacements do. -/
theorem forall_mem_substituteAll {P : α → Prop} (hfind : Advances find)
    (hreplacement : ∀ {c replacement next}, find c = some (replacement, next) →
      (∀ a ∈ c.rest, P a) → ∀ a ∈ replacement, P a) (hc : ∀ a ∈ c.rest, P a) :
    ∀ a ∈ substituteAll word find c, P a := by
  obtain ⟨w, text⟩ := c
  induction hn : text.length using Nat.strongRecOn generalizing w text with
  | _ n ih =>
      cases text with
      | nil => simp [substituteAll_nil]
      | cons b l =>
          cases hfound : find ⟨w, b :: l⟩ with
          | none =>
              rw [substituteAll_none hfound]
              intro a ha
              rcases List.mem_cons.mp ha with rfl | hlater
              · exact hc a List.mem_cons_self
              · exact ih l.length (by rw [← hn, List.length_cons]; omega) (word b) l
                  (fun d hd => hc d (List.mem_cons_of_mem b hd)) rfl a hlater
          | some found =>
              obtain ⟨replacement, next⟩ := found
              obtain ⟨hsuffix, hshorter⟩ := hfind hfound
              rw [substituteAll_some hfind hfound]
              intro a ha
              rcases List.mem_append.mp ha with hhere | hlater
              · exact hreplacement hfound hc a hhere
              · exact ih next.rest.length (hn ▸ hshorter) next.afterWord next.rest
                  (fun d hd => hc d (hsuffix.subset hd)) rfl a hlater

def FindsOnLine (brk : α → Bool) (find : Cursor α → Option (List α × Cursor α)) : Prop :=
  ∀ {w l b tail}, BreakFree brk l → brk b = true →
    find ⟨w, l ++ b :: tail⟩ = (find ⟨w, l⟩).map fun m => (m.1, m.2.extend (b :: tail))

theorem Advances.nil (hfind : Advances find) : find ⟨w, []⟩ = none := by
  cases hc : find ⟨w, []⟩ with
  | none => rfl
  | some found => exact absurd (hfind hc).2 (Nat.not_lt_zero _)

/-- **A substitution on lines goes line by line.** -/
theorem substituteAll_line (hfind : Advances find) (hline : FindsOnLine brk find)
    (hword : ∀ b, brk b = true → word b = false) (hl : BreakFree brk l)
    (hb : brk b = true) :
    substituteAll word find ⟨w, l ++ b :: tail⟩
      = substituteAll word find ⟨w, l⟩ ++ b :: substituteAll word find (.start tail) := by
  induction hn : l.length using Nat.strongRecOn generalizing w l with
  | _ n ih =>
      have hfound := @hline w l b tail hl hb
      cases l with
      | nil =>
          rw [hfind.nil] at hfound
          rw [List.nil_append, substituteAll_none hfound, substituteAll_nil, hword b hb]
          rfl
      | cons a l =>
          cases hc : find ⟨w, a :: l⟩ with
          | none =>
              rw [hc, List.cons_append] at hfound
              have hshorter : l.length < n := by
                rw [← hn, List.length_cons]
                omega
              rw [substituteAll_none hc, List.cons_append, substituteAll_none hfound,
                ih l.length hshorter (fun d hd => hl d (List.mem_cons_of_mem a hd)) rfl]
              rfl
          | some found =>
              obtain ⟨replacement, next⟩ := found
              rw [hc] at hfound
              obtain ⟨hsuffix, hshorter⟩ := hfind hc
              rw [substituteAll_some hfind hc, substituteAll_some hfind hfound, List.append_assoc]
              congr 1
              exact ih next.rest.length (hn ▸ hshorter) (fun d hd => hl d (hsuffix.subset hd)) rfl

end Substitute
