import QueryDraft.Proofs.FloatText

/-!
Different binary64 numbers have different plain texts: a text names a decimal between the two ends of the
rounding interval of its number, and no two intervals share a point.
-/

set_option autoImplicit false

namespace QueryDraft.Number

/-! ## The decimal lies in the interval -/

namespace Interval

theorem point_on_some (i : Interval) (tie : Tie) (unit : Nat) (inside : i.holds (i.value / unit * unit) = true) :
    ∃ point, i.pointOn tie unit = some point := by
  cases upper : i.holds ((i.value / unit + 1) * unit) with
  | false => exact ⟨i.value / unit, by simp [pointOn, inside, upper]⟩
  | true =>
      simp only [pointOn, inside, upper]
      split
      · exact ⟨_, rfl⟩
      · split
        · exact ⟨_, rfl⟩
        · cases tie <;> exact ⟨_, rfl⟩

theorem coarsest_holds (i : Interval) (tie : Tie) (unit grid : Nat) (finest : i.holds (i.value / unit * unit) = true) :
    i.holds ((i.coarsest tie unit grid).1 * (10 ^ (i.coarsest tie unit grid).2 * unit)) = true := by
  induction grid with
  | zero =>
      obtain ⟨point, found⟩ := point_on_some i tie unit finest
      have inside := point_on_holds i tie unit point found
      simpa [coarsest, found] using inside
  | succ grid ih =>
      cases found : i.pointOn tie (10 ^ (grid + 1) * unit) with
      | none => simpa only [coarsest, found] using ih
      | some point => simpa only [coarsest, found] using point_on_holds i tie _ point found

end Interval

namespace Binary64

def step (x : Binary64) : Nat := 2 ^ x.scale * 10 ^ 324

theorem step_positive (x : Binary64) : 0 < x.step := Nat.mul_pos (Nat.two_pow_pos _) (ten_pow_positive 324)

-- The gap below is half the gap above at a power of two.
def gap (x : Binary64) : Nat := if x.significand = 2 ^ 52 ∧ 0 < x.scale then 1 else 2

theorem interval_parts (x : Binary64) :
    x.interval = ⟨(4 * x.significand - x.gap) * x.step, 4 * x.significand * x.step, (4 * x.significand + 2) * x.step,
      x.significand % 2 == 0⟩ := rfl

theorem gap_bounds (x : Binary64) : 1 ≤ x.gap ∧ x.gap ≤ 2 := by
  unfold gap
  split <;> omega

-- The units are smaller than the gaps, so that the multiple of the unit under the number is inside.
theorem finest_inside (x : Binary64) (nonzero : x.isZero = false) :
    x.interval.holds (x.interval.value / 2 ^ 1076 * 2 ^ 1076) = true := by
  have significand : x.significand ≠ 0 := by simpa [isZero] using nonzero
  have unit : 2 ^ 1076 ≤ x.step := by
    have small : 2 ^ 1076 ≤ 10 ^ 324 := by decide +kernel
    exact Nat.le_trans small (Nat.le_mul_of_pos_left _ (Nat.two_pow_pos _))
  have positive : 0 < 2 ^ 1076 := Nat.two_pow_pos 1076
  obtain ⟨gapLow, gapHigh⟩ := gap_bounds x
  generalize 2 ^ 1076 = u at *
  rw [interval_parts]
  have split : 4 * x.significand * x.step / u * u + 4 * x.significand * x.step % u = 4 * x.significand * x.step :=
    Nat.div_add_mod' _ _
  have rest := Nat.mod_lt (4 * x.significand * x.step) positive
  have low : (4 * x.significand - x.gap) * x.step + x.step ≤ 4 * x.significand * x.step := by
    rw [← Nat.succ_mul]
    exact Nat.mul_le_mul_right _ (by omega)
  have high : 4 * x.significand * x.step < (4 * x.significand + 2) * x.step :=
    Nat.mul_lt_mul_of_pos_right (by omega) (step_positive x)
  simp only [Interval.holds]
  generalize 4 * x.significand * x.step / u * u = point at *
  split
  · simp
    omega
  · simp
    omega

/-! ## Intervals share no point -/

theorem holds_bounds (x : Binary64) (point : Nat) (inside : x.interval.holds point = true) :
    (4 * x.significand - x.gap) * x.step ≤ point ∧ point ≤ (4 * x.significand + 2) * x.step ∧
      ((point = (4 * x.significand - x.gap) * x.step ∨ point = (4 * x.significand + 2) * x.step) →
        x.significand % 2 = 0) := by
  rw [interval_parts] at inside
  simp only [Interval.holds] at inside
  split at inside
  · rename_i even
    obtain ⟨low, high⟩ := by simpa using inside
    exact ⟨low, high, fun _ => by simpa using even⟩
  · obtain ⟨low, high⟩ := by simpa using inside
    refine ⟨Nat.le_of_lt low, Nat.le_of_lt high, ?_⟩
    rintro (same | same)
    · omega
    · omega

-- Seen in steps of the number of smaller scale, the other number stands on a grid of `times` steps.
theorem ends_meet (x y : Binary64) (times point : Nat) (coarser : y.step = times * x.step)
    (inX : x.interval.holds point = true) (inY : y.interval.holds point = true) :
    (4 * y.significand - y.gap) * times ≤ 4 * x.significand + 2 ∧
      ((4 * y.significand - y.gap) * times = 4 * x.significand + 2 →
        x.significand % 2 = 0 ∧ y.significand % 2 = 0) := by
  obtain ⟨-, high, highEven⟩ := holds_bounds x point inX
  obtain ⟨low, -, lowEven⟩ := holds_bounds y point inY
  rw [coarser, ← Nat.mul_assoc] at low lowEven
  refine ⟨Nat.le_of_mul_le_mul_right (Nat.le_trans low high) (step_positive x), ?_⟩
  intro meet
  rw [meet] at low lowEven
  have same : point = (4 * x.significand + 2) * x.step := Nat.le_antisymm high low
  exact ⟨highEven (.inr same), lowEven (.inl same)⟩

theorem same_scale_apart (x y : Binary64) (point : Nat) (scale : x.scale = y.scale) (less : x.significand < y.significand)
    (inX : x.interval.holds point = true) (inY : y.interval.holds point = true) : False := by
  have steps : y.step = 1 * x.step := by rw [step, step, scale, Nat.one_mul]
  obtain ⟨bound, meet⟩ := ends_meet x y 1 point steps inX inY
  obtain ⟨gapLow, gapHigh⟩ := gap_bounds y
  have ends : (4 * y.significand - y.gap) * 1 = 4 * x.significand + 2 := by omega
  obtain ⟨evenX, evenY⟩ := meet ends
  omega

theorem smaller_scale_apart (x y : Binary64) (point : Nat) (scale : x.scale < y.scale)
    (inX : x.interval.holds point = true) (inY : y.interval.holds point = true) : False := by
  obtain ⟨times, twice, steps⟩ : ∃ times, 2 ≤ times ∧ y.step = times * x.step := by
    refine ⟨2 ^ (y.scale - x.scale), ?_, ?_⟩
    · exact Nat.le_trans (by omega) (Nat.pow_le_pow_right (by omega) (Nat.sub_pos_of_lt scale))
    · rw [step, step, ← Nat.mul_assoc, ← Nat.pow_add, Nat.sub_add_cancel (Nat.le_of_lt scale)]
  obtain ⟨bound, meet⟩ := ends_meet x y times point steps inX inY
  have below := x.below
  have normal : 2 ^ 52 ≤ y.significand := y.normal.resolve_left (by omega)
  have low : 2 ^ 54 - 1 ≤ 4 * y.significand - y.gap := by
    unfold gap
    split <;> omega
  have least : (2 ^ 54 - 1) * 2 ≤ (4 * y.significand - y.gap) * times := Nat.mul_le_mul low twice
  have ends : (4 * y.significand - y.gap) * times = 4 * x.significand + 2 := by omega
  obtain ⟨even, -⟩ := meet ends
  omega

theorem holds_unique (x y : Binary64) (point : Nat) (inX : x.interval.holds point = true)
    (inY : y.interval.holds point = true) : x.significand = y.significand ∧ x.scale = y.scale := by
  rcases Nat.lt_trichotomy x.scale y.scale with less | same | more
  · exact absurd (smaller_scale_apart x y point less inX inY) id
  · rcases Nat.lt_trichotomy x.significand y.significand with less | equal | more
    · exact absurd (same_scale_apart x y point same less inX inY) id
    · exact ⟨equal, same⟩
    · exact absurd (same_scale_apart y x point same.symm more inY inX) id
  · exact absurd (smaller_scale_apart y x point more inY inX) id

theorem ext_parts (x y : Binary64) (sign : x.negative = y.negative) (significand : x.significand = y.significand)
    (scale : x.scale = y.scale) : x = y := by
  cases x
  cases y
  cases sign
  cases significand
  cases scale
  rfl

end Binary64

/-! ## Texts name decimals -/

theorem positional_value (digits : List Digit) (point : Int) :
    valueOf ((positional digits point).1 ++ (positional digits point).2) =
        valueOf digits * 10 ^ (point - digits.length).toNat ∧
      (positional digits point).2.length = (digits.length - point).toNat := by
  cases point with
  | negSucc n =>
      have none : (Int.negSucc n - digits.length).toNat = 0 := by omega
      have zeros := value_of_zeros (n + 2) digits
      rw [List.replicate_succ, List.cons_append] at zeros
      refine ⟨?_, ?_⟩
      · rw [none, Nat.pow_zero, Nat.mul_one]
        exact zeros
      · simp only [positional, List.length_append, List.length_replicate]
        omega
  | ofNat n =>
      by_cases zero : n = 0
      · subst zero
        have none : (Int.ofNat 0 - (digits.length : Int)).toNat = 0 := by simp
        have zeros := value_of_zeros 1 digits
        refine ⟨?_, ?_⟩
        · rw [none, Nat.pow_zero, Nat.mul_one]
          exact zeros
        · simp [positional]
      · simp only [positional, if_neg zero, Int.ofNat_eq_natCast]
        refine ⟨?_, by rw [List.length_drop]; omega⟩
        by_cases inside : n ≤ digits.length
        · have none : n - digits.length = 0 := by omega
          have exponent : ((n : Int) - digits.length).toNat = 0 := by omega
          rw [none, exponent, List.replicate_zero, List.append_nil, List.take_append_drop, Nat.pow_zero, Nat.mul_one]
        · have exponent : ((n : Int) - digits.length).toNat = n - digits.length := by omega
          rw [exponent, List.take_of_length_le (by omega), List.drop_of_length_le (by omega), List.append_nil]
          exact value_of_trailing_zeros digits (n - digits.length)

theorem text_injective (n m : Numeral) (properN : n.Proper) (properM : m.Proper) (same : n.text = m.text) : n = m := by
  have first := Json.numeral_read n properN [] Json.delimited_nil
  have second := Json.numeral_read m properM [] Json.delimited_nil
  rw [same, second] at first
  cases first
  rfl

namespace Binary64

-- The magnitude of the shortest decimal in units of `10^-324`.
def magnitude (x : Binary64) : Nat := (x.shortest .away).coefficient * 10 ^ ((x.shortest .away).exponent + 324).toNat

theorem shortest_inside (tie : Tie) (x : Binary64) :
    x.interval.holds ((x.shortest tie).coefficient * 10 ^ ((x.shortest tie).exponent + 324).toNat * 2 ^ 1076) = true := by
  cases zero : x.isZero with
  | true =>
      have significand : x.significand = 0 := by simpa [isZero] using zero
      have none : (x.shortest tie).coefficient = 0 := by rw [shortest, if_pos zero]
      generalize 2 ^ 1076 = unit
      rw [none, Nat.zero_mul, Nat.zero_mul, interval_parts, significand]
      simp [Interval.holds]
  | false =>
      have inside := Interval.coarsest_holds x.interval tie _ 633 (finest_inside x zero)
      have parts : x.shortest tie = ⟨x.negative, (x.interval.coarsest tie (2 ^ 1076) 633).1,
          (((x.interval.coarsest tie (2 ^ 1076) 633).2 : Nat) : Int) - 324⟩ := by
        simp only [shortest, zero, Bool.false_eq_true, if_false]
      generalize x.interval.coarsest tie (2 ^ 1076) 633 = found at inside parts
      have grid : ((found.2 : Int) - 324 + 324).toNat = found.2 := by omega
      rw [parts]
      simp only [grid]
      rwa [Nat.mul_assoc]

theorem magnitude_inside (x : Binary64) : x.interval.holds (x.magnitude * 2 ^ 1076) = true := shortest_inside .away x

theorem exponent_low (x : Binary64) : -324 ≤ (x.shortest .away).exponent := by
  cases zero : x.isZero with
  | true => simp [shortest, zero]
  | false =>
      simp only [shortest, zero, Bool.false_eq_true, if_false]
      omega

-- The digits on both sides of the point in the plain text.
def plainNumeral (x : Binary64) : Numeral :=
  ⟨x.negative, (positional (x.shortest .away).placed.1 (x.shortest .away).placed.2).1,
    (positional (x.shortest .away).placed.1 (x.shortest .away).placed.2).2, none⟩

theorem plain_text (x : Binary64) : x.plain = x.plainNumeral.text := rfl

theorem plain_proper (x : Binary64) : x.plainNumeral.Proper := proper_positional _ _ _ (placed_leading .away x)

theorem plain_magnitude (x : Binary64) :
    x.magnitude = valueOf (x.plainNumeral.whole ++ x.plainNumeral.fraction) *
      10 ^ (324 - x.plainNumeral.fraction.length) := by
  have low := exponent_low x
  obtain ⟨value, places⟩ := positional_value (x.shortest .away).placed.1 (x.shortest .away).placed.2
  rw [plainNumeral, value, places, magnitude]
  generalize x.shortest .away = d at low
  have ahead : (d.placed.2 - d.placed.1.length).toNat = d.exponent.toNat := by
    simp only [Decimal.placed]
    omega
  have behind : (d.placed.1.length - d.placed.2).toNat = (-d.exponent).toNat := by
    simp only [Decimal.placed]
    omega
  have exponent : (d.exponent + 324).toNat = d.exponent.toNat + (324 - (-d.exponent).toNat) := by omega
  have digits : valueOf d.placed.1 = d.coefficient := valueOf_digitsOf d.coefficient
  rw [ahead, behind, exponent, digits, Nat.pow_add, Nat.mul_assoc]

theorem zero_of_magnitude (x : Binary64) : x.magnitude = 0 ↔ x.isZero = true := by
  constructor
  · intro none
    cases zero : x.isZero with
    | true => rfl
    | false =>
        have positive := shortest_coefficient_positive .away x zero
        have some : 0 < x.magnitude := Nat.mul_pos positive (ten_pow_positive _)
        omega
  · intro zero
    rw [magnitude, shortest, if_pos zero, Nat.zero_mul]

theorem plain_injective (x y : Binary64) (same : x.plain = y.plain) : x = y := by
  have numerals : x.plainNumeral = y.plainNumeral :=
    text_injective _ _ (plain_proper x) (plain_proper y) same
  have sign : x.negative = y.negative := congrArg Numeral.negative numerals
  have magnitudes : x.magnitude = y.magnitude := by rw [plain_magnitude, plain_magnitude, numerals]
  cases zero : x.isZero with
  | true =>
      have none : y.isZero = true := by rwa [← zero_of_magnitude, ← magnitudes, zero_of_magnitude]
      have first : x.significand = 0 := by simpa [isZero] using zero
      have second : y.significand = 0 := by simpa [isZero] using none
      have scaleX : x.scale = 0 := x.normal.resolve_right (by omega)
      have scaleY : y.scale = 0 := y.normal.resolve_right (by omega)
      exact ext_parts x y sign (by rw [first, second]) (by rw [scaleX, scaleY])
  | false =>
      have nonzero : y.isZero = false := by
        rw [Bool.eq_false_iff, ne_eq, ← zero_of_magnitude, ← magnitudes, zero_of_magnitude, zero]
        exact Bool.false_ne_true
      have inX := magnitude_inside x
      have inY := magnitude_inside y
      rw [← magnitudes] at inY
      obtain ⟨significand, scale⟩ := holds_unique x y _ inX inY
      exact ext_parts x y sign significand scale

end Binary64
end QueryDraft.Number
