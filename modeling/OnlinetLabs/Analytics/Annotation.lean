import OnlinetLabs.Analytics.Totality
import OnlinetLabs.Lib.Dict
import OnlinetLabs.Lib.Margins

/-!
# Annotations and the agreement of their authors

Two annotators label the windows of a session, and Cohen's kappa compares how often they agree with
how often chance would make them. Each division is one that may raise.
-/

namespace OnlinetLabs.Analytics

variable {α β : Type} [DecidableEq α] [DecidableEq β]

/-- Labels over the categories of both lists, `set(labeler_a) | set(labeler_b)`, in some order. -/
def categories (labelerA labelerB : List α) : List α := (labelerA ++ labelerB).eraseDups

/-- `labeler.count(c) / n`. -/
def share (labeler : List α) (n : Nat) (c : α) : Option ℚ := divide (labeler.count c : ℚ) n

def chance (labelerA labelerB : List α) (n : Nat) : Option ℚ := do
  let terms ← (categories labelerA labelerB).mapM fun c => do
    return (← share labelerA n c) * (← share labelerB n c)
  return terms.sum

/-- `cohens_kappa`, `none` where it raises. -/
def cohensKappa (labelerA labelerB : List α) : Option ℚ :=
  let n := labelerA.length
  if n = 0 ∨ n ≠ labelerB.length then some 0
  else do
    let po ← divide (((labelerA.zip labelerB).countP fun xy => xy.1 == xy.2 : Nat) : ℚ) n
    let pe ← chance labelerA labelerB n
    if 1 - pe = 0 then some 1 else divide (po - pe) (1 - pe)

structure RegimeAnnotation where
  sessionId : String
  coderId : String
  windowIndex : Int
  regimeLabel : String
deriving Repr, DecidableEq

/-- `SIM_TRUTH_CODER`: the simulated ground truth shares the table, and is nobody's. -/
def simTruthCoder : String := "sim-truth"

/-- `_labels_by_window`. Of two labels for one window the later row counts. -/
def labelsByWindow (table : List RegimeAnnotation) (sessionId coderId : String) : Dict Int String :=
  if coderId = simTruthCoder then {}
  else
    let rows := table.filter fun r => decide (r.sessionId = sessionId)
        && decide (r.coderId = coderId)
    rows.foldl (fun labels r => labels.set r.windowIndex r.regimeLabel) {}

/-- `sorted(set(a) & set(b))`. -/
def sharedWindows (a b : Dict Int String) : List Int :=
  (a.keys.filter fun i => b.keys.contains i).insertionSort (· ≤ ·)

/-- `inter_rater_kappa`, `none` where it raises. -/
def interRaterKappa (table : List RegimeAnnotation) (sessionId coderA coderB : String) :
    Option ℚ := do
  let a := labelsByWindow table sessionId coderA
  let b := labelsByWindow table sessionId coderB
  let shared := sharedWindows a b
  cohensKappa (← shared.mapM a.get?) (← shared.mapM b.get?)

/-! ### The two sums -/

def shareOf (labeler : List α) (c : α) : ℚ := labeler.count c / labeler.length

def agreedShare (pairs : List (α × α)) (c : α) : ℚ := pairs.count (c, c) / pairs.length

def observed (pairs : List (α × α)) :
    ℚ := (pairs.countP fun xy => xy.1 == xy.2 : Nat) / pairs.length

def expected (labelerA labelerB : List α) : ℚ :=
  ∑ c ∈ (labelerA ++ labelerB).toFinset, shareOf labelerA c * shareOf labelerB c

def coefficient (po pe : ℚ) : ℚ := if 1 - pe = 0 then 1 else (po - pe) / (1 - pe)

section Sums

variable {labelerA labelerB : List α} {pairs pairs' : List (α × α)} {s : Finset α} {c : α}
  {po pe : ℚ}

theorem chance_eq (hlength : labelerA.length = labelerB.length) (hne : labelerA ≠ []) :
    chance labelerA labelerB labelerA.length = some (expected labelerA labelerB) := by
  have hn : (labelerA.length : ℚ) ≠ 0 := length_cast_ne_zero hne
  have hterm : ∀ c ∈ categories labelerA labelerB, (do
        return (← share labelerA labelerA.length c) * (← share labelerB labelerA.length c))
      = some (shareOf labelerA c * shareOf labelerB c) := by
    intro c _
    simp only [share, divide_of_ne hn, shareOf, ← hlength, Option.bind_eq_bind, Option.bind_some,
      Option.pure_def]
  have hcategories : (categories labelerA labelerB).toFinset = (labelerA ++ labelerB).toFinset := by
    ext c
    simp [categories]
  rw [chance, mapM_eq_some_map hterm, expected, ← hcategories]
  exact congrArg some (List.sum_toFinset _ (Distinct.nodup_eraseDups _)).symm

theorem cohensKappa_eq (hlength : labelerA.length = labelerB.length) (hne : labelerA ≠ []) :
    cohensKappa labelerA labelerB
      = some (coefficient (observed (labelerA.zip labelerB)) (expected labelerA labelerB)) := by
  have hn : (labelerA.length : ℚ) ≠ 0 := length_cast_ne_zero hne
  have hzip : (labelerA.zip labelerB).length = labelerA.length := by
    rw [List.length_zip, ← hlength, Nat.min_self]
  have hdefined : ¬(labelerA.length = 0 ∨ labelerA.length ≠ labelerB.length) := by
    rw [not_or, not_not, List.length_eq_zero_iff]
    exact ⟨hne, hlength⟩
  simp only [cohensKappa, if_neg hdefined, divide_of_ne hn, chance_eq hlength hne, observed, hzip,
    coefficient, Option.bind_eq_bind, Option.bind_some]
  split
  · rfl
  · rename_i hpe
    exact divide_of_ne hpe

/-- It raises on no input. -/
theorem exists_cohensKappa (labelerA labelerB : List α) :
    ∃ kappa, cohensKappa labelerA labelerB = some kappa := by
  by_cases h : labelerA.length = 0 ∨ labelerA.length ≠ labelerB.length
  · exact ⟨0, if_pos h⟩
  · rw [not_or, not_not, List.length_eq_zero_iff] at h
    exact ⟨_, cohensKappa_eq h.2 h.1⟩

theorem count_add_count_le (pairs : List (α × α)) (c : α) :
    (pairs.map Prod.fst).count c + (pairs.map Prod.snd).count c ≤ pairs.length
      + pairs.count (c, c) := by
  induction pairs with
  | nil => rfl
  | cons xy pairs ih =>
    obtain ⟨x, y⟩ := xy
    simp only [List.map_cons, List.count_cons, List.length_cons, beq_iff_eq, Prod.mk.injEq]
    by_cases hx : x = c
    · by_cases hy : y = c
      · simp only [hx, hy, and_self, if_true]
        omega
      · simp only [hx, hy, and_false, if_true, if_false]
        omega
    · simp only [hx, false_and, if_false]
      split
      · omega
      · omega

theorem count_agreed_le (pairs : List (α × α)) (c : α) :
    pairs.count (c, c) ≤ (pairs.map Prod.fst).count c
      ∧ pairs.count (c, c) ≤ (pairs.map Prod.snd).count c :=
  ⟨List.count_le_count_map (f := Prod.fst), List.count_le_count_map (f := Prod.snd)⟩

theorem sum_count_agreed (hs : ∀ xy ∈ pairs, xy.1 ∈ s) :
    ∑ c ∈ s, pairs.count (c, c) = pairs.countP fun xy => xy.1 == xy.2 := by
  induction pairs with
  | nil => simp
  | cons xy pairs ih =>
    obtain ⟨x, y⟩ := xy
    obtain ⟨hx, hpairs⟩ := List.forall_mem_cons.mp hs
    simp only [List.count_cons, List.countP_cons, Finset.sum_add_distrib, ih hpairs, beq_iff_eq,
      Prod.mk.injEq]
    by_cases hxy : x = y
    · subst hxy
      simp [hx]
    · have hnone : ∀ c, ¬(x = c ∧ y = c) := fun c h => hxy (h.1.trans h.2.symm)
      simp [hxy, hnone]

theorem sum_shareOf (hlabels : ∀ c ∈ labelerA, c ∈ s) (hne : labelerA ≠ []) :
    ∑ c ∈ s, shareOf labelerA c = 1 := by
  have hcount : ∑ c ∈ s, labelerA.count c = labelerA.length := by
    have hcard := Multiset.sum_count_eq_card (m := (labelerA : Multiset α)) hlabels
    simpa only [Multiset.coe_count, Multiset.coe_card] using hcard
  unfold shareOf
  rw [← Finset.sum_div, ← Nat.cast_sum, hcount, div_self (length_cast_ne_zero hne)]

/-- The labels of two annotators are two gradings of the windows. -/
theorem margins (pairs : List (α × α)) (hne : pairs ≠ []) :
    Margins (pairs.map Prod.fst ++ pairs.map Prod.snd).toFinset (shareOf (pairs.map Prod.fst))
      (shareOf (pairs.map Prod.snd)) (agreedShare pairs) := by
  have hpos : (0 : ℚ) < pairs.length := by
    rw [Nat.cast_pos]
    exact List.length_pos_iff.mpr hne
  have hle : ∀ {m n : Nat}, m ≤ n → (m : ℚ) / pairs.length ≤ n / pairs.length := fun h =>
    div_le_div_of_nonneg_right (Nat.cast_le.mpr h) hpos.le
  refine ⟨fun c _ => ?_, fun c _ => ?_, fun c _ => ?_, fun c _ => ?_, ?_, ?_⟩
  · exact div_nonneg (Nat.cast_nonneg _) hpos.le
  · rw [agreedShare, shareOf, List.length_map]
    exact hle (count_agreed_le pairs c).1
  · rw [agreedShare, shareOf, List.length_map]
    exact hle (count_agreed_le pairs c).2
  · rw [agreedShare, shareOf, shareOf, List.length_map, List.length_map, ← add_div,
      ← div_self hpos.ne', ← add_div]
    rw [← Nat.cast_add, ← Nat.cast_add]
    exact hle (count_add_count_le pairs c)
  · apply sum_shareOf
    · simp +contextual
    · simpa using hne
  · apply sum_shareOf
    · simp +contextual
    · simpa using hne

theorem sum_agreedShare (hs : ∀ xy ∈ pairs, xy.1 ∈ s) :
    ∑ c ∈ s, agreedShare pairs c = observed pairs := by
  unfold agreedShare observed
  rw [← Finset.sum_div, ← Nat.cast_sum, sum_count_agreed hs]

theorem observed_le_one (pairs : List (α × α)) : observed pairs ≤ 1 :=
  div_le_one_of_le₀ (Nat.cast_le.mpr List.countP_le_length) (Nat.cast_nonneg _)

theorem observed_eq_one_iff (hne : pairs ≠ []) :
    observed pairs = 1 ↔ pairs.map Prod.fst = pairs.map Prod.snd := by
  rw [observed, div_eq_one_iff_eq (length_cast_ne_zero hne), Nat.cast_inj, List.countP_eq_length,
    List.map_inj_left]
  simp only [beq_iff_eq]

/-! ### The coefficient -/

theorem coefficient_mem (hpe : pe ≤ 1) (hpo : po ≤ 1) (hle : 2 * pe ≤ 1 + po) :
    -1 ≤ coefficient po pe ∧ coefficient po pe ≤ 1 := by
  unfold coefficient
  split
  · norm_num
  · rename_i hne
    have hpos : 0 < 1 - pe := lt_of_le_of_ne (sub_nonneg.mpr hpe) (Ne.symm hne)
    constructor
    · rw [le_div_iff₀ hpos]
      linarith
    · rw [div_le_one hpos]
      linarith

theorem coefficient_eq_one_iff : coefficient po pe = 1 ↔ pe = 1 ∨ po = 1 := by
  unfold coefficient
  split
  · rename_i hpe
    exact iff_of_true rfl (Or.inl (sub_eq_zero.mp hpe).symm)
  · rename_i hne
    have hpe : ¬pe = 1 := fun h => hne (sub_eq_zero.mpr h.symm)
    rw [div_eq_one_iff_eq hne, sub_left_inj, or_iff_right hpe]

end Sums

/-! ### What the kappa does not depend on -/

section Invariance

variable {labelerA labelerB : List α} {pairs pairs' : List (α × α)} {f : α → β}

theorem expected_comm (labelerA labelerB : List α) :
    expected labelerA labelerB = expected labelerB labelerA := by
  have hcategories : (labelerA ++ labelerB).toFinset = (labelerB ++ labelerA).toFinset := by
    ext c
    simp [or_comm]
  unfold expected
  rw [hcategories]
  exact Finset.sum_congr rfl fun c _ => mul_comm _ _

theorem observed_swap (labelerA labelerB : List α) :
    observed (labelerA.zip labelerB) = observed (labelerB.zip labelerA) := by
  have hswap : (labelerB.zip labelerA) = (labelerA.zip labelerB).map Prod.swap :=
    (List.zip_swap _ _).symm
  have hagree : ((fun xy : α × α => xy.1 == xy.2) ∘ Prod.swap) = fun xy : α × α =>
      xy.1 == xy.2 := by
    funext xy
    exact BEq.comm
  rw [hswap, observed, observed, List.countP_map, List.length_map, hagree]

theorem observed_perm (h : pairs.Perm pairs') : observed pairs = observed pairs' := by
  rw [observed, observed, h.countP_eq, h.length_eq]

theorem expected_perm {labelerA' labelerB' : List α} (hA : labelerA.Perm labelerA')
    (hB : labelerB.Perm labelerB') :
    expected labelerA labelerB = expected labelerA' labelerB' := by
  unfold expected shareOf
  rw [List.toFinset_eq_of_perm _ _ (hA.append hB), hA.length_eq, hB.length_eq]
  exact Finset.sum_congr rfl fun c _ => by rw [hA.count_eq, hB.count_eq]

theorem expected_map (hf : Function.Injective f) :
    expected (labelerA.map f) (labelerB.map f) = expected labelerA labelerB := by
  have himage :
      (labelerA.map f ++ labelerB.map f).toFinset = (labelerA ++ labelerB).toFinset.image f := by
    ext c
    simp [or_and_right, exists_or]
  unfold expected shareOf
  rw [himage, Finset.sum_image fun c _ c' _ h => hf h]
  exact Finset.sum_congr rfl fun c _ => by
    rw [List.count_map_of_injective _ f hf, List.count_map_of_injective _ f hf, List.length_map,
      List.length_map]

theorem observed_map (hf : Function.Injective f) :
    observed ((labelerA.map f).zip (labelerB.map f)) = observed (labelerA.zip labelerB) := by
  have hagree : ((fun xy : β × β => xy.1 == xy.2) ∘ Prod.map f f) = fun xy : α × α =>
      xy.1 == xy.2 := by
    funext xy
    rw [Bool.eq_iff_iff]
    simp [hf.eq_iff]
  rw [List.zip_map, observed, observed, List.countP_map, List.length_map, hagree]

end Invariance

/-! ### The law -/

variable {labelerA labelerB : List α}

/-- What a coefficient of agreement has to be. -/
structure ProperAgreement (labelerA labelerB : List α) (kappa : ℚ) : Prop where
  symm : cohensKappa labelerB labelerA = some kappa
  perm : ∀ labelerA' labelerB' : List α, labelerA'.length = labelerB'.length →
    (labelerA.zip labelerB).Perm (labelerA'.zip labelerB') →
      cohensKappa labelerA' labelerB' = some kappa
  relabel : ∀ (β : Type) [DecidableEq β] (f : α → β), Function.Injective f →
    cohensKappa (labelerA.map f) (labelerB.map f) = some kappa
  mem : -1 ≤ kappa ∧ kappa ≤ 1
  eq_one_iff : kappa = 1 ↔ labelerA = labelerB

/-- **Cohen's kappa is a coefficient of agreement.** -/
theorem exists_properAgreement (labelerA labelerB : List α)
    (hlength : labelerA.length = labelerB.length)
    (hne : labelerA ≠ []) :
    ∃ kappa, cohensKappa labelerA labelerB = some kappa
      ∧ ProperAgreement labelerA labelerB kappa := by
  have hA : (labelerA.zip labelerB).map Prod.fst = labelerA := List.map_fst_zip hlength.le
  have hB : (labelerA.zip labelerB).map Prod.snd = labelerB := List.map_snd_zip hlength.ge
  have hpairs : labelerA.zip labelerB ≠ [] := by
    rintro hnil
    rw [hnil] at hA
    exact hne hA.symm
  have hneB : labelerB ≠ [] := by
    rw [← List.length_pos_iff] at hne ⊢
    omega
  have hmargins := margins (labelerA.zip labelerB) hpairs
  rw [hA, hB] at hmargins
  have hpe : expected labelerA labelerB ≤ 1 := hmargins.expected_le_one
  have hobserved : ∑ c ∈ (labelerA ++ labelerB).toFinset, agreedShare (labelerA.zip labelerB) c
      = observed (labelerA.zip labelerB) := by
    apply sum_agreedShare
    intro xy hxy
    rw [List.mem_toFinset, List.mem_append]
    exact Or.inl (List.of_mem_zip hxy).1
  have hle : 2 * expected labelerA labelerB ≤ 1 + observed (labelerA.zip labelerB) := by
    rw [← hobserved]
    exact hmargins.two_mul_expected_le
  refine ⟨_, cohensKappa_eq hlength hne, ?_, ?_, ?_, ?_, ?_⟩
  · rw [cohensKappa_eq hlength.symm hneB, expected_comm labelerB, observed_swap labelerB]
  · intro labelerA' labelerB' hlength' hperm
    have hpermA := hperm.map Prod.fst
    have hpermB := hperm.map Prod.snd
    rw [hA, List.map_fst_zip hlength'.le] at hpermA
    rw [hB, List.map_snd_zip hlength'.ge] at hpermB
    have hne' : labelerA' ≠ [] := fun hnil => hne (hnil ▸ hpermA).eq_nil
    rw [cohensKappa_eq hlength' hne', observed_perm hperm, expected_perm hpermA hpermB]
  · intro β _ f hf
    have hlength' : (labelerA.map f).length = (labelerB.map f).length := by
      rw [List.length_map, List.length_map, hlength]
    rw [cohensKappa_eq hlength' (by simpa using hne), observed_map hf, expected_map hf]
  · exact coefficient_mem hpe (observed_le_one _) hle
  · rw [coefficient_eq_one_iff, observed_eq_one_iff hpairs, hA, hB]
    constructor
    · rintro (hcertain | heq)
      · obtain ⟨c, -, hshareA, hshareB⟩ := hmargins.exists_of_expected_eq_one hcertain
        rw [shareOf, div_eq_one_iff_eq (length_cast_ne_zero hne), Nat.cast_inj,
          List.count_eq_length] at hshareA
        rw [shareOf, div_eq_one_iff_eq (length_cast_ne_zero hneB), Nat.cast_inj,
          List.count_eq_length] at hshareB
        rw [List.eq_replicate_length.mpr fun x hx => (hshareA x hx).symm,
          List.eq_replicate_length.mpr fun x hx => (hshareB x hx).symm, hlength]
      · exact heq
    · exact Or.inr

/-- The two annotators agree on two windows of three. -/
theorem exists_properAgreement_twoOfThree :
    ∃ kappa, cohensKappa ["a", "b", "a"] ["a", "a", "a"] = some kappa
      ∧ ProperAgreement ["a", "b", "a"] ["a", "a", "a"] kappa :=
  exists_properAgreement ["a", "b", "a"] ["a", "a", "a"] rfl (List.cons_ne_nil _ _)

/-! ### Two annotators of a session -/

theorem exists_mapM_get? {labels : Dict Int String} {windows : List Int}
    (h : ∀ i ∈ windows, i ∈ labels.keys) :
    ∃ found, windows.mapM labels.get? = some found ∧ found.length = windows.length := by
  refine ⟨windows.map fun i => (labels.get? i).getD "", mapM_eq_some_map fun i hi =>
    ?_, List.length_map _⟩
  obtain ⟨label, hlabel⟩ := Option.ne_none_iff_exists'.mp (Dict.mem_keys_iff.mp (h i hi))
  rw [hlabel, Option.getD_some]

/-- The kappa of a session is always defined, and from minus one to one. -/
theorem exists_interRaterKappa (table : List RegimeAnnotation) (sessionId coderA coderB : String) :
    ∃ kappa, interRaterKappa table sessionId coderA coderB = some kappa ∧ -1 ≤ kappa
      ∧ kappa ≤ 1 := by
  have hshared : ∀ i ∈ sharedWindows (labelsByWindow table sessionId coderA)
      (labelsByWindow table sessionId coderB),
      i ∈ (labelsByWindow table sessionId coderA).keys
        ∧ i ∈ (labelsByWindow table sessionId coderB).keys := by
    intro i hi
    have hmem := (List.perm_insertionSort _ _).mem_iff.mp hi
    simpa [List.mem_filter] using hmem
  obtain ⟨a, ha, hlengthA⟩ := exists_mapM_get? fun i hi => (hshared i hi).1
  obtain ⟨b, hb, hlengthB⟩ := exists_mapM_get? fun i hi => (hshared i hi).2
  have hlength : a.length = b.length := hlengthA.trans hlengthB.symm
  simp only [interRaterKappa, ha, hb, Option.bind_eq_bind, Option.bind_some]
  by_cases hne : a = []
  · refine ⟨0, ?_, by norm_num, by norm_num⟩
    rw [hne]
    rfl
  · obtain ⟨kappa, hkappa, hproper⟩ := exists_properAgreement a b hlength hne
    exact ⟨kappa, hkappa, hproper.mem⟩

end OnlinetLabs.Analytics
