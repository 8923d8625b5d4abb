import Mathlib.Algebra.Order.Field.Power
import Mathlib.Data.Rat.Cast.Order
import Mathlib.Tactic.FieldSimp
import Mathlib.Tactic.Ring
import QueryDraft.Proofs.Rounding

/-!
Correct rounding, said of all binary64 numbers at once: none is nearer to a decimal than the one it is rounded to.
-/

set_option autoImplicit false

namespace QueryDraft.Number

-- The absolute values.
def Binary64.size (x : Binary64) : ℚ := x.units / 2 ^ 1074

def Decimal.size (d : Decimal) : ℚ := d.coefficient * 10 ^ d.exponent

-- The number has the sign of the decimal, which lies less than half a gap beyond the largest number; no other
-- number is nearer to the decimal, nor as near unless the significand of this one is even.
structure Decimal.RoundsTo (d : Decimal) (x : Binary64) : Prop where
  sign : x.negative = d.negative
  inRange : d.size < 2 ^ 1024 - 2 ^ 970
  nearest : ∀ y : Binary64, |d.size - x.size| ≤ |d.size - y.size|
  even : ∀ y : Binary64, y.size ≠ x.size → |d.size - y.size| ≤ |d.size - x.size| → x.significand % 2 = 0

theorem two_pow_cast (n : Nat) : ((2 ^ n : ℕ) : ℚ) = 2 ^ n := Nat.cast_pow 2 n

/-! ## Neighbours -/

namespace Binary64

theorem units_coarser (x y : Binary64) (coarser : x.scale ≤ y.scale) : ∃ m, y.units = m * 2 ^ x.scale := by
  refine ⟨y.significand * 2 ^ (y.scale - x.scale), ?_⟩
  rw [units, Nat.mul_assoc, ← Nat.pow_add, Nat.sub_add_cancel coarser]

theorem units_finer (x y : Binary64) (finer : y.scale < x.scale) :
    2 * y.units ≤ (2 ^ 53 - 1) * 2 ^ x.scale ∧ 2 ^ 52 ≤ x.significand := by
  have normal : 2 ^ 52 ≤ x.significand := x.normal.resolve_left (by omega)
  refine ⟨?_, normal⟩
  have small : y.significand ≤ 2 ^ 53 - 1 := by
    have below := y.below
    omega
  calc 2 * y.units = y.significand * 2 ^ (y.scale + 1) := by rw [units, Nat.pow_succ]; ring
    _ ≤ (2 ^ 53 - 1) * 2 ^ x.scale := Nat.mul_le_mul small (Nat.pow_le_pow_right (by omega) finer)

theorem units_above (x y : Binary64) (above : x.units < y.units) : x.units + 2 ^ x.scale ≤ y.units := by
  by_cases coarser : x.scale ≤ y.scale
  · obtain ⟨m, grid⟩ := units_coarser x y coarser
    rw [grid, units] at above ⊢
    rw [← Nat.succ_mul]
    exact Nat.mul_le_mul_right _ (Nat.lt_of_mul_lt_mul_right above)
  · obtain ⟨bound, normal⟩ := units_finer x y (by omega)
    have least : 2 ^ 52 * 2 ^ x.scale ≤ x.units := Nat.mul_le_mul_right _ normal
    omega

theorem units_below (x y : Binary64) (below : y.units < x.units) : 2 * y.units + x.gap * 2 ^ x.scale ≤ 2 * x.units := by
  obtain ⟨-, gapHigh⟩ := gap_bounds x
  by_cases coarser : x.scale ≤ y.scale
  · obtain ⟨m, grid⟩ := units_coarser x y coarser
    have most : x.gap * 2 ^ x.scale ≤ 2 * 2 ^ x.scale := Nat.mul_le_mul_right _ gapHigh
    rw [grid, units] at below ⊢
    have less := Nat.mul_le_mul_right (2 ^ x.scale) (Nat.succ_le_of_lt (Nat.lt_of_mul_lt_mul_right below))
    rw [Nat.succ_mul] at less
    omega
  · obtain ⟨bound, normal⟩ := units_finer x y (by omega)
    have room : 2 ^ 53 - 1 + x.gap ≤ 2 * x.significand := by
      unfold gap
      split <;> omega
    have least := Nat.mul_le_mul_right (2 ^ x.scale) room
    rw [Nat.add_mul, Nat.mul_assoc] at least
    change _ ≤ 2 * x.units at least
    omega

theorem units_injective (x y : Binary64) (same : x.units = y.units) :
    x.significand = y.significand ∧ x.scale = y.scale := by
  have value (z : Binary64) : z.interval.value = z.units * (4 * 10 ^ 324) := by
    rw [interval_parts, step, units]
    generalize 10 ^ 324 = t
    ring
  have inside := value_inside y
  rw [value, ← same, ← value] at inside
  exact holds_unique x y _ (value_inside x) inside

/-! ## No number is nearer -/

-- Distances are those between the quotient and the numbers, times the divisor.
theorem near_nearest (x y : Binary64) (num den : Nat) (near : x.Near num den) :
    |(num : ℤ) - (x.units * den : ℕ)| ≤ |(num : ℤ) - (y.units * den : ℕ)| ∧
      (y.units * den ≠ x.units * den → |(num : ℤ) - (y.units * den : ℕ)| ≤ |(num : ℤ) - (x.units * den : ℕ)| →
        x.significand % 2 = 0) := by
  obtain ⟨low, high, even⟩ := near
  have own : 4 * x.significand * (den * 2 ^ x.scale) = 4 * (x.units * den) := by rw [units]; ring
  rw [Nat.sub_mul, own] at low even
  rw [Nat.add_mul, own] at high even
  rw [abs_eq_max_neg, abs_eq_max_neg]
  rcases Nat.lt_trichotomy y.units x.units with less | same | more
  · have apart := Nat.mul_le_mul_right den (units_below x y less)
    have wide : (2 * y.units + x.gap * 2 ^ x.scale) * den = 2 * (y.units * den) + x.gap * (den * 2 ^ x.scale) := by ring
    rw [wide, Nat.mul_assoc] at apart
    omega
  · rw [same]
    omega
  · have apart := Nat.mul_le_mul_right den (units_above x y more)
    have wide : (x.units + 2 ^ x.scale) * den = x.units * den + den * 2 ^ x.scale := by ring
    rw [wide] at apart
    omega

end Binary64

namespace Decimal

open Binary64

/-! ## Decimals as quotients of units -/

def numerator (d : Decimal) : Nat := d.coefficient * 10 ^ d.exponent.toNat * 2 ^ 1074

def denominator (d : Decimal) : Nat := 10 ^ (-d.exponent).toNat

theorem denominator_positive (d : Decimal) : 0 < d.denominator := ten_pow_positive _

theorem divisor_positive (d : Decimal) : (0 : ℚ) < d.denominator * 2 ^ 1074 :=
  mul_pos (Nat.cast_pos.mpr d.denominator_positive) (pow_pos (by norm_num) _)

theorem size_units (d : Decimal) : d.size * (d.denominator * 2 ^ 1074) = d.numerator := by
  obtain ⟨negative, coefficient, exponent⟩ := d
  simp only [size, denominator, numerator, Nat.cast_mul, Nat.cast_pow, Nat.cast_ofNat]
  generalize (2 : ℚ) ^ 1074 = unit
  cases exponent with
  | ofNat e => simp
  | negSucc e =>
      have behind : (-Int.negSucc e).toNat = e + 1 := rfl
      have ahead : (Int.negSucc e).toNat = 0 := rfl
      rw [behind, ahead, zpow_negSucc]
      field_simp

theorem distance_units (d : Decimal) (x : Binary64) :
    |d.size - x.size| * (d.denominator * 2 ^ 1074) =
      (|(d.numerator : ℤ) - (x.units * d.denominator : ℕ)| : ℤ) := by
  have unit : (2 : ℚ) ^ 1074 ≠ 0 := pow_ne_zero _ (by norm_num)
  have size : x.size * (d.denominator * 2 ^ 1074) = x.units * d.denominator := by
    rw [Binary64.size, mul_comm (d.denominator : ℚ), ← mul_assoc, div_mul_cancel₀ _ unit]
  push_cast
  rw [← size, ← size_units, ← sub_mul, abs_mul, abs_of_pos d.divisor_positive]

theorem distance_le (d : Decimal) (x y : Binary64) :
    |d.size - x.size| ≤ |d.size - y.size| ↔
      |(d.numerator : ℤ) - (x.units * d.denominator : ℕ)| ≤ |(d.numerator : ℤ) - (y.units * d.denominator : ℕ)| := by
  rw [← mul_le_mul_iff_left₀ d.divisor_positive, distance_units, distance_units, Int.cast_le]

-- Half a gap beyond the largest number, in quarters of a unit.
theorem top_units : ((2 : ℚ) ^ 1024 - 2 ^ 970) * (4 * 2 ^ 1074) = (2 ^ 55 - 2) * 2 ^ 2045 := by
  have upper : (2 : ℚ) ^ 1024 * (2 ^ 2 * 2 ^ 1074) = 2 ^ 55 * 2 ^ 2045 := by simp only [← pow_add]
  have lower : (2 : ℚ) ^ 970 * (2 ^ 2 * 2 ^ 1074) = 2 ^ 1 * 2 ^ 2045 := by simp only [← pow_add]
  have four : (4 : ℚ) = 2 ^ 2 := by norm_num
  rw [four, sub_mul, upper, lower, sub_mul, pow_one]

theorem below_top (d : Decimal) :
    d.size < 2 ^ 1024 - 2 ^ 970 ↔ 4 * d.numerator < (2 ^ 55 - 2) * (d.denominator * 2 ^ 2045) := by
  have positive : (0 : ℚ) < 4 * (d.denominator * 2 ^ 1074) := mul_pos (by norm_num) d.divisor_positive
  have own : d.size * (4 * (d.denominator * 2 ^ 1074)) = (4 * d.numerator : ℕ) := by
    rw [mul_left_comm, size_units]
    push_cast
    rfl
  have top : ((2 : ℚ) ^ 1024 - 2 ^ 970) * (4 * (d.denominator * 2 ^ 1074)) =
      ((2 ^ 55 - 2) * (d.denominator * 2 ^ 2045) : ℕ) := by
    rw [mul_left_comm 4, mul_left_comm, top_units, ← two_pow_cast 2045]
    generalize 2 ^ 2045 = t
    push_cast
    ring
  rw [← mul_lt_mul_iff_left₀ positive, own, top, Nat.cast_lt]

/-! ## Rounding is correct -/

theorem size_eq_iff (x y : Binary64) : x.size = y.size ↔ x.units = y.units := by
  have unit : (2 : ℚ) ^ 1074 ≠ 0 := pow_ne_zero _ (by norm_num)
  rw [Binary64.size, Binary64.size, div_left_inj' unit, Nat.cast_inj]

theorem rounds_of_near (d : Decimal) (x : Binary64) (sign : x.negative = d.negative)
    (near : x.Near d.numerator d.denominator) : d.RoundsTo x where
  sign := sign
  inRange := (below_top d).mpr (near_below_top x _ _ d.denominator_positive near)
  nearest y := (distance_le d x y).mpr (near_nearest x y _ _ near).1
  even y other close := by
    refine (near_nearest x y _ _ near).2 (fun same => other ?_) ((distance_le d y x).mp close)
    exact (size_eq_iff y x).mpr (Nat.eq_of_mul_eq_mul_right d.denominator_positive same)

-- Between a number and one above it stands the next number, which is odd where the first one is even.
theorem no_tie (d : Decimal) (x y : Binary64) (first : d.RoundsTo x) (second : d.RoundsTo y) :
    ¬ x.units < y.units := by
  intro less
  have other : x.size ≠ y.size := mt (size_eq_iff x y).mp (Nat.ne_of_lt less)
  have evenX := first.even y other.symm (second.nearest x)
  have evenY := second.even x other (first.nearest y)
  have below := x.below
  let z : Binary64 :=
    ⟨x.negative, x.significand + 1, x.scale, by omega, x.inRange, x.normal.imp_right fun _ => by omega⟩
  have next : z.units = x.units + 2 ^ x.scale := Nat.succ_mul _ _
  rcases Nat.lt_or_eq_of_le (units_above x y less) with between | same
  · have spacing : 0 < 2 ^ x.scale := Nat.two_pow_pos _
    have lower := Nat.mul_lt_mul_of_pos_right (show x.units < z.units by omega) d.denominator_positive
    have upper := Nat.mul_lt_mul_of_pos_right (show z.units < y.units by omega) d.denominator_positive
    have nearX := (distance_le d x y).mp (first.nearest y)
    have nearY := (distance_le d y x).mp (second.nearest x)
    have nearZ := (distance_le d x z).mp (first.nearest z)
    rw [abs_eq_max_neg, abs_eq_max_neg] at nearX nearY nearZ
    omega
  · obtain ⟨significand, -⟩ := units_injective z y (next.trans same)
    have odd : y.significand = x.significand + 1 := significand.symm
    omega

theorem rounds_unique (d : Decimal) (x y : Binary64) (first : d.RoundsTo x) (second : d.RoundsTo y) : x = y := by
  have same : x.units = y.units :=
    Nat.le_antisymm (Nat.not_lt.mp (no_tie d y x second first)) (Nat.not_lt.mp (no_tie d x y first second))
  obtain ⟨significand, scale⟩ := units_injective x y same
  exact ext_parts x y (first.sign.trans second.sign.symm) significand scale

theorem ten_pow_large (n : Nat) : 2 ^ (3 * n) ≤ 10 ^ n := by
  rw [Nat.pow_mul]
  exact Nat.pow_le_pow_left (by decide) n

theorem two_pow_products (a b m n : Nat) (ordered : a + b ≤ m + n) : 2 ^ a * 2 ^ b ≤ 2 ^ m * 2 ^ n := by
  rw [← Nat.pow_add, ← Nat.pow_add]
  exact Nat.pow_le_pow_right (by omega) ordered

-- Less than half a unit is nothing.
theorem zero_near (negative : Bool) (num den : Nat) (small : 2 * num ≤ den) : (zero negative).Near num den where
  low := by
    rw [zero, Nat.mul_zero, Nat.zero_sub, Nat.zero_mul]
    exact Nat.zero_le _
  high := by
    rw [zero, Nat.mul_zero, Nat.pow_zero, Nat.mul_one]
    omega
  even _ := rfl

theorem tiny_units (coefficient e : Nat) (tiny : 400 + coefficient.log2 < e) :
    2 * (coefficient * 2 ^ 1074) ≤ 10 ^ (e + 1) := by
  have bits : coefficient < 2 ^ (coefficient.log2 + 1) := Nat.lt_log2_self
  calc 2 * (coefficient * 2 ^ 1074) = 2 * coefficient * 2 ^ 1074 := (Nat.mul_assoc ..).symm
    _ ≤ 2 ^ (coefficient.log2 + 2) * 2 ^ 1074 := Nat.mul_le_mul_right _ (by rw [Nat.pow_succ]; omega)
    _ ≤ 2 ^ (3 * (e + 1)) * 2 ^ 0 := two_pow_products (coefficient.log2 + 2) 1074 (3 * (e + 1)) 0 (by omega)
    _ ≤ 10 ^ (e + 1) := by
        rw [Nat.pow_zero, Nat.mul_one]
        exact ten_pow_large (e + 1)

theorem huge_units (coefficient e : Nat) (some : coefficient ≠ 0) (huge : 400 < e) :
    (2 ^ 55 - 2) * (1 * 2 ^ 2045) ≤ 4 * (coefficient * 10 ^ e * 2 ^ 1074) := by
  have power : 2 ^ (3 * e) ≤ coefficient * 10 ^ e :=
    Nat.le_trans (ten_pow_large e) (Nat.le_mul_of_pos_left _ (Nat.pos_of_ne_zero some))
  have below (t : Nat) : (2 ^ 55 - 2) * (1 * t) ≤ 2 ^ 55 * t := by omega
  calc (2 ^ 55 - 2) * (1 * 2 ^ 2045) ≤ 2 ^ 55 * 2 ^ 2045 := below (2 ^ 2045)
    _ ≤ 2 ^ (3 * e) * 2 ^ 1074 := two_pow_products 55 2045 (3 * e) 1074 (by omega)
    _ ≤ coefficient * 10 ^ e * 2 ^ 1074 := Nat.mul_le_mul_right _ power
    _ ≤ 4 * (coefficient * 10 ^ e * 2 ^ 1074) := Nat.le_mul_of_pos_left _ (by omega)

theorem parts_of_nat (negative : Bool) (coefficient e : Nat) :
    let d : Decimal := ⟨negative, coefficient, .ofNat e⟩
    d.numerator = coefficient * 10 ^ e * 2 ^ 1074 ∧ d.denominator = 1 := by
  refine ⟨rfl, ?_⟩
  have none : (-(Int.ofNat e)).toNat = 0 := by simp
  rw [denominator, none, Nat.pow_zero]

theorem parts_neg_succ (negative : Bool) (coefficient e : Nat) :
    let d : Decimal := ⟨negative, coefficient, .negSucc e⟩
    d.numerator = coefficient * 2 ^ 1074 ∧ d.denominator = 10 ^ (e + 1) := by
  refine ⟨?_, rfl⟩
  have none : (Int.negSucc e).toNat = 0 := rfl
  rw [numerator, none, Nat.pow_zero, Nat.mul_one]

theorem nearest_near (d : Decimal) (x : Binary64) (found : d.nearest = some x) :
    x.negative = d.negative ∧ x.Near d.numerator d.denominator := by
  obtain ⟨negative, coefficient, exponent⟩ := d
  rw [nearest] at found
  by_cases none : coefficient = 0
  · rw [if_pos none] at found
    cases found
    have nothing : (Decimal.mk negative coefficient exponent).numerator = 0 :=
      mul_eq_zero_of_left (mul_eq_zero_of_left none _) _
    exact ⟨rfl, zero_near negative _ _ (by omega)⟩
  · rw [if_neg none] at found
    cases exponent with
    | ofNat e =>
        obtain ⟨top, bottom⟩ := parts_of_nat negative coefficient e
        rw [top, bottom]
        simp only at found
        split at found
        · cases found
        · exact of_units_near negative _ 1 x (by omega) found
    | negSucc e =>
        obtain ⟨top, bottom⟩ := parts_neg_succ negative coefficient e
        rw [top, bottom]
        simp only at found
        split at found
        · rename_i tiny
          cases found
          exact ⟨rfl, zero_near negative _ _ (tiny_units coefficient e tiny)⟩
        · exact of_units_near negative _ _ x (ten_pow_positive (e + 1)) found

theorem nearest_some (d : Decimal) (inRange : 4 * d.numerator < (2 ^ 55 - 2) * (d.denominator * 2 ^ 2045)) :
    ∃ x, d.nearest = some x := by
  obtain ⟨negative, coefficient, exponent⟩ := d
  rw [nearest]
  by_cases none : coefficient = 0
  · rw [if_pos none]
    exact ⟨_, rfl⟩
  · rw [if_neg none]
    cases exponent with
    | ofNat e =>
        obtain ⟨top, bottom⟩ := parts_of_nat negative coefficient e
        rw [top, bottom] at inRange
        have small : ¬ 400 < e := by
          intro huge
          exact Nat.not_le.mpr inRange (huge_units coefficient e none huge)
        simp only [if_neg small]
        exact of_units_some negative _ 1 (by omega) inRange
    | negSucc e =>
        obtain ⟨top, bottom⟩ := parts_neg_succ negative coefficient e
        rw [top, bottom] at inRange
        simp only
        split
        · exact ⟨_, rfl⟩
        · exact of_units_some negative _ _ (ten_pow_positive (e + 1)) inRange

/-- What the decimal is rounded to is the binary64 number nearest to it, by the definition of rounding to nearest with
ties to even; there is one exactly when the decimal lies less than half a gap beyond the largest number. -/
theorem nearest_iff (d : Decimal) (x : Binary64) : d.nearest = some x ↔ d.RoundsTo x := by
  constructor
  · intro found
    obtain ⟨sign, near⟩ := nearest_near d x found
    exact rounds_of_near d x sign near
  · intro rounds
    obtain ⟨y, found⟩ := nearest_some d ((below_top d).mp rounds.inRange)
    obtain ⟨sign, near⟩ := nearest_near d y found
    rw [found, rounds_unique d y x (rounds_of_near d y sign near) rounds]

end Decimal
end QueryDraft.Number
