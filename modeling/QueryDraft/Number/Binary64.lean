import QueryDraft.Number.Digits

/-!
Finite binary64 numbers as integers: a sign, a significand below `2^53` and a scale, standing for
`significand * 2^scale` units of `2^-1074`. Rounding, products and quotients are exact integer
arithmetic followed by one rounding to nearest, a half going to the even neighbour.
-/

set_option autoImplicit false

namespace QueryDraft.Number

structure Binary64 where
  negative : Bool
  significand : Nat
  scale : Nat
  below : significand < 2 ^ 53
  inRange : scale ≤ 2045
  normal : scale = 0 ∨ 2 ^ 52 ≤ significand
deriving DecidableEq, Repr

-- The quotient rounded to an integer, a half going to the even neighbour.
def nearestEven (num den : Nat) : Nat :=
  let q := num / den
  let r := num % den
  if 2 * r < den then q else if den < 2 * r then q + 1 else q + q % 2

theorem nearestEven_le (num den bound : Nat) (positive : 0 < den) (small : num < bound * den) :
    nearestEven num den ≤ bound := by
  have under : num / den < bound := (Nat.div_lt_iff_lt_mul positive).mpr small
  unfold nearestEven
  dsimp only
  split
  · omega
  · split <;> omega

theorem le_nearestEven (num den bound : Nat) (large : bound ≤ num / den) : bound ≤ nearestEven num den := by
  unfold nearestEven
  dsimp only
  split
  · omega
  · split <;> omega

namespace Binary64

def zero (negative : Bool) : Binary64 := ⟨negative, 0, 0, by decide, by decide, .inl rfl⟩

def isZero (x : Binary64) : Bool := x.significand == 0

-- The absolute value in units of `2^-1074`.
def units (x : Binary64) : Nat := x.significand * 2 ^ x.scale

-- The scale at which a quotient of units has 53 significant bits, or 0 for a smaller one.
def scaleOf (num den : Nat) : Nat := (num / den).log2 - 52

theorem significand_le (num den : Nat) (positive : 0 < den) :
    nearestEven num (den * 2 ^ scaleOf num den) ≤ 2 ^ 53 := by
  have wide : 0 < den * 2 ^ scaleOf num den := Nat.mul_pos positive (Nat.two_pow_pos _)
  apply nearestEven_le _ _ _ wide
  have top : num / den < 2 ^ (53 + scaleOf num den) := by
    have under : num / den < 2 ^ ((num / den).log2 + 1) := Nat.lt_log2_self
    exact Nat.lt_of_lt_of_le under (Nat.pow_le_pow_right (by decide) (by unfold scaleOf; omega))
  have cross := (Nat.div_lt_iff_lt_mul positive).mp top
  rw [Nat.pow_add] at cross
  calc num < 2 ^ 53 * 2 ^ scaleOf num den * den := cross
    _ = 2 ^ 53 * (den * 2 ^ scaleOf num den) := by rw [Nat.mul_assoc, Nat.mul_comm den]

theorem le_quotient (num den : Nat) (scaled : scaleOf num den ≠ 0) : 2 ^ 52 ≤ num / (den * 2 ^ scaleOf num den) := by
  rw [← Nat.div_div_eq_div_mul]
  have nonzero : num / den ≠ 0 := by
    intro none
    simp [scaleOf, none] at scaled
  have log : (num / den).log2 = 52 + scaleOf num den := by unfold scaleOf at scaled ⊢; omega
  have under : 2 ^ (num / den).log2 ≤ num / den := Nat.log2_self_le nonzero
  rw [log, Nat.pow_add] at under
  exact (Nat.le_div_iff_mul_le (Nat.two_pow_pos _)).mpr under

theorem le_significand (num den : Nat) (scaled : scaleOf num den ≠ 0) :
    2 ^ 52 ≤ nearestEven num (den * 2 ^ scaleOf num den) :=
  le_nearestEven _ _ _ (le_quotient num den scaled)

-- `num / den` units of `2^-1074` rounded to nearest; nothing when the result is out of range.
def ofUnits (negative : Bool) (num den : Nat) : Option Binary64 :=
  if positive : 0 < den then
    let scale := scaleOf num den
    let s := nearestEven num (den * 2 ^ scale)
    if carry : s = 2 ^ 53 then
      if top : scale + 1 ≤ 2045 then
        some ⟨negative, 2 ^ 52, scale + 1, by decide, top, .inr (Nat.le_refl _)⟩
      else none
    else if top : scale ≤ 2045 then
      some ⟨negative, s, scale, Nat.lt_of_le_of_ne (significand_le num den positive) carry, top,
        (Nat.eq_zero_or_pos scale).imp_right fun h => le_significand num den (Nat.ne_of_gt h)⟩
    else none
  else none

def ofNat (n : Nat) : Option Binary64 := ofUnits false (n * 2 ^ 1074) 1

def mul (x y : Binary64) : Option Binary64 :=
  ofUnits (x.negative != y.negative) (x.units * y.units) (2 ^ 1074)

def div (x y : Binary64) : Option Binary64 :=
  ofUnits (x.negative != y.negative) (x.units * 2 ^ 1074) y.units

end Binary64
end QueryDraft.Number
