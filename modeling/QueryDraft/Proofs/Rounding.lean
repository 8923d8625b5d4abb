import QueryDraft.Proofs.PlainText

/-!
Rounding is to nearest: a quotient inside the rounding interval of a binary64 number rounds to this number.
-/

set_option autoImplicit false

namespace QueryDraft.Number

theorem nearest_even_spec (num den : Nat) (positive : 0 < den) :
    2 * (nearestEven num den * den) ≤ 2 * num + den ∧ 2 * num ≤ 2 * (nearestEven num den * den) + den ∧
      ((2 * (nearestEven num den * den) = 2 * num + den ∨ 2 * num = 2 * (nearestEven num den * den) + den) →
        nearestEven num den % 2 = 0) := by
  have split := Nat.div_add_mod' num den
  have rest := Nat.mod_lt num positive
  have next := Nat.add_one_mul (num / den) den
  unfold nearestEven
  dsimp only
  split
  · omega
  · split
    · omega
    · by_cases even : num / den % 2 = 0
      · rw [even, Nat.add_zero]
        omega
      · have odd : num / den % 2 = 1 := by omega
        rw [odd]
        omega

namespace Binary64

/-! ## Quotients near a number -/

-- The quotient lies between the ends of the rounding interval, both in units of `2^-1074`.
structure Near (x : Binary64) (num den : Nat) : Prop where
  low : (4 * x.significand - x.gap) * (den * 2 ^ x.scale) ≤ 4 * num
  high : 4 * num ≤ (4 * x.significand + 2) * (den * 2 ^ x.scale)
  even : (4 * x.significand - x.gap) * (den * 2 ^ x.scale) = 4 * num ∨
    4 * num = (4 * x.significand + 2) * (den * 2 ^ x.scale) → x.significand % 2 = 0

theorem quarter_unit : 2 ^ 1076 = 4 * 2 ^ 1074 := by decide +kernel

theorem step_scaled (x : Binary64) (den n : Nat) : n * x.step * den = n * (den * 2 ^ x.scale) * 10 ^ 324 := by
  rw [step]
  generalize 10 ^ 324 = t
  rw [Nat.mul_assoc n, Nat.mul_comm _ den, ← Nat.mul_assoc den, ← Nat.mul_assoc n]

theorem near_of_holds (x : Binary64) (num den point : Nat) (cross : point * den = 4 * num * 10 ^ 324)
    (positive : 0 < den) (inside : x.interval.holds point = true) : x.Near num den := by
  obtain ⟨low, high, even⟩ := holds_bounds x point inside
  have ten := ten_pow_positive 324
  have scaled := step_scaled x den
  generalize 10 ^ 324 = t at cross ten scaled
  refine ⟨?_, ?_, ?_⟩
  · apply Nat.le_of_mul_le_mul_right _ ten
    rw [← cross, ← scaled]
    exact Nat.mul_le_mul_right den low
  · apply Nat.le_of_mul_le_mul_right _ ten
    rw [← cross, ← scaled]
    exact Nat.mul_le_mul_right den high
  · rintro (same | same)
    · apply even (.inl _)
      apply Nat.eq_of_mul_eq_mul_right positive
      rw [cross, scaled, same]
    · apply even (.inr _)
      apply Nat.eq_of_mul_eq_mul_right positive
      rw [cross, scaled, same]

theorem holds_of_near (x : Binary64) (num den point : Nat) (cross : point * den = 4 * num * 10 ^ 324)
    (positive : 0 < den) (near : x.Near num den) : x.interval.holds point = true := by
  obtain ⟨low, high, even⟩ := near
  have ten := ten_pow_positive 324
  have scaled := step_scaled x den
  generalize 10 ^ 324 = t at cross ten scaled
  have above : (4 * x.significand - x.gap) * x.step ≤ point := by
    apply Nat.le_of_mul_le_mul_right _ positive
    rw [cross, scaled]
    exact Nat.mul_le_mul_right t low
  have below : point ≤ (4 * x.significand + 2) * x.step := by
    apply Nat.le_of_mul_le_mul_right _ positive
    rw [cross, scaled]
    exact Nat.mul_le_mul_right t high
  rw [interval_parts]
  simp only [Interval.holds]
  split
  · simp [above, below]
  · rename_i odd
    have strict : x.significand % 2 ≠ 0 := by simpa using odd
    have apart : (4 * x.significand - x.gap) * x.step ≠ point := by
      intro same
      apply strict (even (.inl _))
      apply Nat.eq_of_mul_eq_mul_right ten
      rw [← scaled, same, cross]
    have apart' : point ≠ (4 * x.significand + 2) * x.step := by
      intro same
      apply strict (even (.inr _))
      apply Nat.eq_of_mul_eq_mul_right ten
      rw [← scaled, ← same, cross]
    simp
    omega

/-! ## What rounding gives -/

theorem near_of_rounded (x : Binary64) (num den : Nat) (positive : 0 < den)
    (rounded : x.significand = nearestEven num (den * 2 ^ x.scale))
    (large : 0 < x.scale → 2 ^ 52 * (den * 2 ^ x.scale) ≤ num) : x.Near num den := by
  have wide : 0 < den * 2 ^ x.scale := Nat.mul_pos positive (Nat.two_pow_pos _)
  obtain ⟨low, high, even⟩ := nearest_even_spec num (den * 2 ^ x.scale) wide
  rw [← rounded] at low high even
  have four : 4 * x.significand * (den * 2 ^ x.scale) = 4 * (x.significand * (den * 2 ^ x.scale)) := Nat.mul_assoc ..
  by_cases narrow : x.significand = 2 ^ 52 ∧ 0 < x.scale
  · have above := large narrow.2
    have gap : x.gap = 1 := if_pos narrow
    rw [← narrow.1] at above
    constructor
    · rw [gap, Nat.sub_mul, four]
      omega
    · rw [Nat.add_mul, four]
      omega
    · intro _
      rw [narrow.1]
  · have gap : x.gap = 2 := if_neg narrow
    constructor
    · rw [gap, Nat.sub_mul, four]
      omega
    · rw [Nat.add_mul, four]
      omega
    · rw [gap, Nat.sub_mul, Nat.add_mul, four]
      rintro (same | same)
      · by_cases none : x.significand = 0
        · rw [none]
        · have least : den * 2 ^ x.scale ≤ x.significand * (den * 2 ^ x.scale) := Nat.le_mul_of_pos_left _ (by omega)
          exact even (.inl (by omega))
      · exact even (.inr (by omega))

-- A carry to `2^53` is the power of two at the next scale, whose lower gap is half the upper one.
theorem near_of_carry (x : Binary64) (num den : Nat) (positive : 0 < den) (scale : Nat)
    (significand : x.significand = 2 ^ 52) (next : x.scale = scale + 1)
    (carry : nearestEven num (den * 2 ^ scale) = 2 ^ 53) : x.Near num den := by
  have wide : 0 < den * 2 ^ scale := Nat.mul_pos positive (Nat.two_pow_pos _)
  obtain ⟨low, high, -⟩ := nearest_even_spec num (den * 2 ^ scale) wide
  have gap : x.gap = 1 := if_pos ⟨significand, by omega⟩
  have double : den * 2 ^ x.scale = 2 * (den * 2 ^ scale) := by
    rw [next, Nat.pow_succ, ← Nat.mul_assoc, Nat.mul_comm _ 2]
  rw [carry] at low high
  constructor
  · rw [gap, significand, double]
    omega
  · rw [significand, double]
    omega
  · intro _
    rw [significand]

theorem of_units_near (negative : Bool) (num den : Nat) (y : Binary64) (positive : 0 < den)
    (rounded : ofUnits negative num den = some y) : y.negative = negative ∧ y.Near num den := by
  rw [ofUnits, dif_pos positive] at rounded
  dsimp only at rounded
  split at rounded
  · rename_i carry
    split at rounded
    · cases rounded
      exact ⟨rfl, near_of_carry _ num den positive (scaleOf num den) rfl rfl carry⟩
    · cases rounded
  · split at rounded
    · cases rounded
      refine ⟨rfl, near_of_rounded _ num den positive rfl ?_⟩
      intro scaled
      have quotient := le_quotient num den (Nat.ne_of_gt scaled)
      exact (Nat.le_div_iff_mul_le (Nat.mul_pos positive (Nat.two_pow_pos _))).mp quotient
    · cases rounded

theorem scaled_le (den a b : Nat) (ordered : a ≤ b) : den * 2 ^ a ≤ den * 2 ^ b :=
  Nat.mul_le_mul_left den (Nat.pow_le_pow_right (by omega) ordered)

theorem quotient_lt (num den scale : Nat) (positive : 0 < den) (small : num < 2 ^ 53 * (den * 2 ^ scale)) :
    num / den < 2 ^ (53 + scale) := by
  apply (Nat.div_lt_iff_lt_mul positive).mpr
  rwa [Nat.pow_add, Nat.mul_assoc, Nat.mul_comm (2 ^ scale)]

-- Half a unit in the last place beyond the largest number is where rounding begins to fail.
theorem near_below_top (x : Binary64) (num den : Nat) (positive : 0 < den) (near : x.Near num den) :
    4 * num < (2 ^ 55 - 2) * (den * 2 ^ 2045) := by
  have wide : 0 < den * 2 ^ 2045 := Nat.mul_pos positive (Nat.two_pow_pos 2045)
  have grown := scaled_le den x.scale 2045 x.inRange
  have below := x.below
  obtain ⟨-, high, even⟩ := near
  by_cases largest : x.significand = 2 ^ 53 - 1
  · have strict : 4 * num ≠ (4 * x.significand + 2) * (den * 2 ^ x.scale) := by
      intro same
      have parity := even (.inr same)
      omega
    have bound : (4 * x.significand + 2) * (den * 2 ^ x.scale) ≤ (2 ^ 55 - 2) * (den * 2 ^ 2045) :=
      Nat.mul_le_mul (by omega) grown
    omega
  · have bound : (4 * x.significand + 2) * (den * 2 ^ x.scale) ≤ (2 ^ 55 - 6) * (den * 2 ^ 2045) :=
      Nat.mul_le_mul (by omega) grown
    generalize den * 2 ^ 2045 = top at *
    omega

theorem of_units_some (negative : Bool) (num den : Nat) (positive : 0 < den)
    (small : 4 * num < (2 ^ 55 - 2) * (den * 2 ^ 2045)) : ∃ y, ofUnits negative num den = some y := by
  have scale : scaleOf num den ≤ 2045 := by
    have numerator : num < 2 ^ 53 * (den * 2 ^ 2045) := by
      generalize den * 2 ^ 2045 = top at *
      omega
    have quotient := quotient_lt num den 2045 positive numerator
    by_cases none : num / den = 0
    · rw [scaleOf, none]
      exact Nat.zero_le _
    · have log := (Nat.log2_lt none).mpr quotient
      rw [scaleOf]
      omega
  rw [ofUnits, dif_pos positive]
  dsimp only
  split
  · rename_i carry
    have room : scaleOf num den + 1 ≤ 2045 := by
      by_cases full : scaleOf num den = 2045
      · have wide : 0 < den * 2 ^ 2045 := Nat.mul_pos positive (Nat.two_pow_pos 2045)
        obtain ⟨low, -, -⟩ := nearest_even_spec num (den * 2 ^ 2045) wide
        rw [full] at carry
        rw [carry] at low
        generalize den * 2 ^ 2045 = top at *
        omega
      · omega
    rw [dif_pos room]
    exact ⟨_, rfl⟩
  · exact ⟨_, rfl⟩

theorem rounds_to (x : Binary64) (negative : Bool) (num den point : Nat) (positive : 0 < den)
    (cross : point * den = 4 * num * 10 ^ 324) (inside : x.interval.holds point = true) :
    ofUnits negative num den = some { x with negative } := by
  have near := near_of_holds x num den point cross positive inside
  obtain ⟨y, rounded⟩ := of_units_some negative num den positive (near_below_top x num den positive near)
  obtain ⟨sign, nearY⟩ := of_units_near negative num den y positive rounded
  have insideY := holds_of_near y num den point cross positive nearY
  obtain ⟨significand, scale⟩ := holds_unique x y point inside insideY
  rw [rounded]
  exact congrArg some (ext_parts y { x with negative } sign significand.symm scale.symm)

/-! ## Integers without rounding -/

theorem value_inside (x : Binary64) : x.interval.holds x.interval.value = true := by
  have stepPositive := step_positive x
  obtain ⟨gapLow, -⟩ := gap_bounds x
  rw [interval_parts]
  simp only [Interval.holds]
  split
  · have low : (4 * x.significand - x.gap) * x.step ≤ 4 * x.significand * x.step := Nat.mul_le_mul_right _ (Nat.sub_le ..)
    have high : 4 * x.significand * x.step ≤ (4 * x.significand + 2) * x.step := Nat.mul_le_mul_right _ (by omega)
    simp [low, high]
  · rename_i odd
    have some : x.significand % 2 ≠ 0 := by simpa using odd
    have low : (4 * x.significand - x.gap) * x.step < 4 * x.significand * x.step :=
      Nat.mul_lt_mul_of_pos_right (by omega) stepPositive
    have high : 4 * x.significand * x.step < (4 * x.significand + 2) * x.step :=
      Nat.mul_lt_mul_of_pos_right (by omega) stepPositive
    simp [low, high]

theorem of_units_exact (x : Binary64) : ofUnits x.negative x.units 1 = some x := by
  apply rounds_to x x.negative x.units 1 x.interval.value (by omega) _ (value_inside x)
  rw [interval_parts, step, units]
  generalize 10 ^ 324 = t
  simp only [Nat.mul_one, Nat.mul_assoc]

-- A small significand is shifted to the left until its top bit stands in place or the scale is used up.
theorem exists_units (scale : Nat) (inRange : scale ≤ 2045) (significand : Nat) (below : significand < 2 ^ 53) :
    ∃ x : Binary64, x.negative = false ∧ x.units = significand * 2 ^ scale := by
  induction scale generalizing significand with
  | zero => exact ⟨⟨false, significand, 0, below, by omega, .inl rfl⟩, rfl, rfl⟩
  | succ scale ih =>
      by_cases normal : 2 ^ 52 ≤ significand
      · exact ⟨⟨false, significand, scale + 1, below, inRange, .inr normal⟩, rfl, rfl⟩
      · obtain ⟨x, sign, units⟩ := ih (by omega) (significand * 2) (by omega)
        refine ⟨x, sign, ?_⟩
        rw [units, Nat.pow_succ, Nat.mul_comm (2 ^ scale), Nat.mul_assoc]

theorem of_nat_exact (significand shift : Nat) (below : significand < 2 ^ 53) (inRange : shift + 1074 ≤ 2045) :
    ∃ x, ofNat (significand * 2 ^ shift) = some x ∧ x.negative = false ∧
      x.units = significand * 2 ^ shift * 2 ^ 1074 := by
  obtain ⟨x, sign, units⟩ := exists_units (shift + 1074) inRange significand below
  rw [Nat.pow_add, ← Nat.mul_assoc] at units
  have exact := of_units_exact x
  rw [sign, units] at exact
  exact ⟨x, exact, sign, units⟩

end Binary64
end QueryDraft.Number
