import Mathlib.Algebra.BigOperators.Group.List.Basic
import Mathlib.Algebra.Order.BigOperators.Group.List
import Mathlib.Algebra.Order.Floor.Ring
import Mathlib.Data.Int.Log
import Mathlib.Tactic.FieldSimp
import Mathlib.Tactic.Linarith
import Mathlib.Tactic.Positivity
import Mathlib.Tactic.Ring

/-!
# Rounding

To an integer, half to even, and to a number of so many binary digits. The exponent is not bounded,
so that nothing overflows.

Rounding keeps the order. Within one power of two the numbers are evenly spaced, and rounding is
that to an integer; between two powers lies one of them, which is its own rounding.
-/

namespace Rounding

variable {K : Type} [Field K] [LinearOrder K] [FloorRing K]

def roundHalfEven (x : K) : Int :=
  let rest := x - (⌊x⌋ : K)
  if rest < 1 / 2 then ⌊x⌋
  else if 1 / 2 < rest then ⌊x⌋ + 1
  else if ⌊x⌋ % 2 = 0 then ⌊x⌋ else ⌊x⌋ + 1

section Integer

variable {x : K} {n : Int}

theorem floor_le_roundHalfEven (x : K) : ⌊x⌋ ≤ roundHalfEven x := by
  unfold roundHalfEven
  dsimp only
  split_ifs <;> omega

theorem roundHalfEven_le_floor_add_one (x : K) : roundHalfEven x ≤ ⌊x⌋ + 1 := by
  unfold roundHalfEven
  dsimp only
  split_ifs <;> omega

variable [IsStrictOrderedRing K]

@[simp] theorem roundHalfEven_intCast (n : Int) : roundHalfEven (n : K) = n := by
  unfold roundHalfEven
  rw [Int.floor_intCast, sub_self]
  exact if_pos (by positivity)

/-- Between two integers it is a matter of what is left over. -/
theorem roundHalfEven_mono {x y : K} (h : x ≤ y) : roundHalfEven x ≤ roundHalfEven y := by
  rcases (Int.floor_mono h).eq_or_lt with hsame | hless
  · have hrest : x - (⌊x⌋ : K) ≤ y - (⌊y⌋ : K) := by
      rw [hsame]
      exact sub_le_sub_right h _
    unfold roundHalfEven
    rw [hsame] at hrest ⊢
    dsimp only
    by_cases hx : 1 / 2 < x - (⌊y⌋ : K)
    · rw [if_neg hx.not_gt, if_pos hx, if_neg (hx.trans_le hrest).not_gt,
        if_pos (hx.trans_le hrest)]
    · by_cases hy : y - (⌊y⌋ : K) < 1 / 2
      · rw [if_pos (hrest.trans_lt hy), if_pos hy]
      · rw [if_neg hx, if_neg hy]
        split_ifs <;> omega
  · calc roundHalfEven x ≤ ⌊x⌋ + 1 := roundHalfEven_le_floor_add_one x
      _ ≤ ⌊y⌋ := hless
      _ ≤ roundHalfEven y := floor_le_roundHalfEven y

/-- No integer is more than a half away. -/
theorem abs_roundHalfEven_sub_le (x : K) : |(roundHalfEven x : K) - x| ≤ 1 / 2 := by
  have hfloor := Int.floor_le x
  have hnext := Int.lt_floor_add_one x
  unfold roundHalfEven
  dsimp only
  rw [abs_le]
  split_ifs
  all_goals
    push_cast
    constructor <;> linarith

theorem roundHalfEven_le (h : x ≤ n) : roundHalfEven x ≤ n :=
  (roundHalfEven_mono h).trans_eq (roundHalfEven_intCast n)

theorem le_roundHalfEven (h : (n : K) ≤ x) : n ≤ roundHalfEven x :=
  (roundHalfEven_intCast n).symm.trans_le (roundHalfEven_mono h)

end Integer

section Binary

variable [IsStrictOrderedRing K] {fraction : Nat} {x y : K}

/-- How far apart the numbers about this one are, with so many digits after the leading one. -/
def spacing (fraction : Nat) (x : K) : K := 2 ^ (Int.log 2 |x| - fraction)

/-- The nearest number with so many digits after the leading one. -/
def nearest (fraction : Nat) (x : K) :
    K := roundHalfEven (x / spacing fraction x) * spacing fraction x

theorem spacing_pos : 0 < spacing fraction x := zpow_pos two_pos _

@[simp] theorem nearest_zero : nearest fraction (0 : K) = 0 := by
  unfold nearest
  rw [zero_div, ← Int.cast_zero, roundHalfEven_intCast, Int.cast_zero, zero_mul]

theorem two_zpow_log_eq (fraction : Nat) (x : K) :
    (2 : K) ^ Int.log 2 |x| = ((2 ^ fraction : Int) : K) * spacing fraction x := by
  unfold spacing
  rw [zpow_sub₀ two_ne_zero, zpow_natCast, Int.cast_pow, Int.cast_ofNat]
  field_simp

/-- A power of two is not passed from above. -/
theorem le_nearest (hx : 0 < x) : (2 : K) ^ Int.log 2 |x| ≤ nearest fraction x := by
  have hpow : (2 : K) ^ Int.log 2 |x| ≤ x := by
    have hle := Int.zpow_log_le_self (R := K) Nat.one_lt_two (abs_pos.mpr hx.ne')
    rw [Nat.cast_ofNat] at hle
    exact hle.trans_eq (abs_of_pos hx)
  rw [two_zpow_log_eq fraction x] at hpow ⊢
  apply mul_le_mul_of_nonneg_right _ spacing_pos.le
  exact Int.cast_le.mpr (le_roundHalfEven ((le_div_iff₀ spacing_pos).mpr hpow))

/-- Nor is the next one from below. -/
theorem nearest_le : nearest fraction x ≤ (2 : K) ^ (Int.log 2 |x| + 1) := by
  have hpow : x ≤ (2 : K) ^ (Int.log 2 |x| + 1) := by
    have hlt := Int.lt_zpow_succ_log_self (R := K) Nat.one_lt_two |x|
    rw [Nat.cast_ofNat] at hlt
    exact (le_abs_self x).trans hlt.le
  have htwice :
      (2 : K) ^ (Int.log 2 |x| + 1) = ((2 ^ fraction * 2 : Int) : K) * spacing fraction x := by
    rw [zpow_add_one₀ two_ne_zero, two_zpow_log_eq fraction x]
    push_cast
    ring
  rw [htwice] at hpow ⊢
  apply mul_le_mul_of_nonneg_right _ spacing_pos.le
  exact Int.cast_le.mpr (roundHalfEven_le ((div_le_iff₀ spacing_pos).mpr hpow))

/-- **Rounding keeps the order.** -/
theorem nearest_le_nearest (hx : 0 ≤ x) (h : x ≤ y) : nearest fraction x ≤ nearest fraction y := by
  rcases hx.eq_or_lt with rfl | hpos
  · rcases h.eq_or_lt with rfl | hy
    · exact le_rfl
    · rw [nearest_zero]
      exact (zpow_pos two_pos _).le.trans (le_nearest hy)
  · have hy : 0 < y := hpos.trans_le h
    have hlog : Int.log 2 |x| ≤ Int.log 2 |y| := by
      apply Int.log_mono_right (abs_pos.mpr hpos.ne')
      rwa [abs_of_pos hpos, abs_of_pos hy]
    rcases hlog.eq_or_lt with hsame | hless
    · have hspacing : spacing fraction x = spacing fraction y := by
        unfold spacing
        rw [hsame]
      unfold nearest
      rw [hspacing]
      apply mul_le_mul_of_nonneg_right _ spacing_pos.le
      exact Int.cast_le.mpr (roundHalfEven_mono (div_le_div_of_nonneg_right h spacing_pos.le))
    · calc nearest fraction x ≤ (2 : K) ^ (Int.log 2 |x| + 1) := nearest_le
        _ ≤ (2 : K) ^ Int.log 2 |y| := zpow_le_zpow_right₀ one_le_two hless
        _ ≤ nearest fraction y := le_nearest hy

theorem abs_nearest_sub_le (fraction : Nat) (x : K) :
    |nearest fraction x - x| ≤ spacing fraction x / 2 := by
  have hscale : nearest fraction x - x
      = ((roundHalfEven (x / spacing fraction x) : K) - x / spacing fraction x)
        * spacing fraction x := by
    unfold nearest
    rw [sub_mul, div_mul_cancel₀ x spacing_pos.ne']
  rw [hscale, abs_mul, abs_of_pos (spacing_pos (x := x))]
  calc _ ≤ 1 / 2 * spacing fraction x :=
        mul_le_mul_of_nonneg_right (abs_roundHalfEven_sub_le _) spacing_pos.le
    _ = spacing fraction x / 2 := by ring

theorem spacing_le_spacing (fraction : Nat) (hx : 0 < x) (h : x ≤ y) :
    spacing fraction x ≤ spacing fraction y := by
  apply zpow_le_zpow_right₀ one_le_two
  apply sub_le_sub_right
  apply Int.log_mono_right (abs_pos.mpr hx.ne')
  rwa [abs_of_pos hx, abs_of_pos (hx.trans_le h)]

/-- Numbers that lie further apart than the spacing stay apart. -/
theorem nearest_lt_nearest (hx : 0 ≤ x) (h : x + spacing fraction y < y) :
    nearest fraction x < nearest fraction y := by
  have hlt : x < y := lt_trans (lt_add_of_pos_right x spacing_pos) h
  rcases hx.eq_or_lt with rfl | hpos
  · rw [nearest_zero]
    exact (zpow_pos two_pos _).trans_le (le_nearest hlt)
  · have hbelow := (abs_le.mp (abs_nearest_sub_le fraction x)).2
    have habove := (abs_le.mp (abs_nearest_sub_le fraction y)).1
    have hspacing := spacing_le_spacing fraction hpos hlt.le
    linarith

theorem spacing_le {exponent : Int} (hx : 0 < x) (h : x < 2 ^ exponent) :
    spacing fraction x ≤ 2 ^ (exponent - 1 - fraction) := by
  apply zpow_le_zpow_right₀ one_le_two
  have hlog : Int.log 2 |x| < exponent := by
    rw [abs_of_pos hx]
    apply (Int.lt_zpow_iff_log_lt Nat.one_lt_two hx).mp
    rwa [Nat.cast_ofNat]
  omega

/-- Whole numbers of no more digits are their own rounding. -/
theorem nearest_natCast {n : Nat} (h : n < 2 ^ (fraction + 1)) : nearest fraction (n : K) = n := by
  rcases Nat.eq_zero_or_pos n with rfl | hpos
  · rw [Nat.cast_zero, nearest_zero]
  · have hcast : (0 : K) < n := Nat.cast_pos.mpr hpos
    have hlog : Int.log 2 |(n : K)| ≤ fraction := by
      rw [abs_of_pos hcast, Int.log_natCast, Nat.cast_le]
      exact Nat.lt_succ_iff.mp (Nat.log_lt_of_lt_pow hpos.ne' h)
    obtain ⟨gap, hgap⟩ := Int.eq_ofNat_of_zero_le (sub_nonneg.mpr hlog)
    have hspacing : spacing fraction (n : K) = (2 ^ gap)⁻¹ := by
      unfold spacing
      rw [show Int.log 2 |(n : K)| - fraction = -(gap : Int) by omega, zpow_neg, zpow_natCast]
    have hwhole : (n : K) / spacing fraction (n : K) = ((n * 2 ^ gap : Int) : K) := by
      rw [hspacing, div_inv_eq_mul]
      push_cast
      rfl
    unfold nearest
    rw [hwhole, roundHalfEven_intCast, ← hwhole, div_mul_cancel₀ _ spacing_pos.ne']

/-- A double, but for the bounds of its exponent. -/
abbrev binary64 : K → K := nearest 52

/-! ### Sums -/

/-- From the left, each partial sum rounded. -/
def floatSum (xs : List K) : K := xs.foldl (fun total x => binary64 (total + x)) 0

/-- The sum does not depend on the order in which it is taken. -/
def AddsUp (xs : List K) : Prop := ∀ xs', xs'.Perm xs → floatSum xs' = floatSum xs

theorem foldl_binary64_add {xs : List K} (total : Nat) (hxs : ∀ x ∈ xs, ∃ n : Nat, x = n)
    (hsum : total + xs.sum < (2 ^ 53 : Nat)) :
    xs.foldl (fun total x => binary64 (total + x)) (total : K) = total + xs.sum := by
  induction xs generalizing total with
  | nil => rw [List.foldl_nil, List.sum_nil, add_zero]
  | cons x xs ih =>
    obtain ⟨⟨n, rfl⟩, hrest⟩ := List.forall_mem_cons.mp hxs
    have hnonneg : 0 ≤ xs.sum := by
      apply List.sum_nonneg
      intro x hx
      obtain ⟨n, rfl⟩ := hrest x hx
      positivity
    rw [List.sum_cons, ← add_assoc] at hsum ⊢
    have hnext : binary64 ((total : K) + n) = ((total + n : Nat) : K) := by
      rw [← Nat.cast_add]
      apply nearest_natCast
      rw [← Nat.cast_lt (α := K)]
      push_cast at hsum ⊢
      linarith
    rw [List.foldl_cons, hnext, ih (total + n) hrest (by rw [Nat.cast_add]; exact hsum),
      Nat.cast_add]

/-- Whole numbers add up, as long as the sum has no more digits. -/
theorem addsUp_of_natCast {xs : List K} (hxs : ∀ x ∈ xs, ∃ n : Nat, x = n)
    (hsum : xs.sum < (2 ^ 53 : Nat)) :
    AddsUp xs := by
  have hexact : ∀ ys : List K, ys.Perm xs → floatSum ys = xs.sum := by
    intro ys hperm
    have hys := foldl_binary64_add 0 (fun y hy => hxs y (hperm.mem_iff.mp hy))
      (by rwa [Nat.cast_zero, zero_add, hperm.sum_eq])
    rwa [Nat.cast_zero, zero_add, hperm.sum_eq] at hys
  intro ys hperm
  rw [hexact ys hperm, hexact xs (List.Perm.refl xs)]

end Binary

end Rounding
