import QueryDraft.Proofs.TypedNumbers

/-!
Operands that are inferred once more from what is shown of them: the literal stays the same but for minus zero and for
numbers too large to be integers of 64 bits.
-/

set_option autoImplicit false

namespace QueryDraft

namespace Number

/-! ## Grids of integers -/

theorem Interval.coarsest_grid (i : Interval) (tie : Tie) (unit grid fine : Nat) (finer : fine ≤ grid)
    (hit : ∃ point, i.pointOn tie (10 ^ fine * unit) = some point) : fine ≤ (i.coarsest tie unit grid).2 := by
  induction grid with
  | zero => omega
  | succ grid ih =>
      rw [Interval.coarsest]
      split
      · exact finer
      · rename_i missed
        by_cases top : fine = grid + 1
        · obtain ⟨point, found⟩ := hit
          rw [top, missed] at found
          cases found
        · exact ih (by omega)

theorem Interval.grid_of_multiple (i : Interval) (tie : Tie) (unit grid fine m : Nat) (finer : fine ≤ grid)
    (multiple : i.value = m * (10 ^ fine * unit)) (inside : i.holds i.value = true) :
    fine ≤ (i.coarsest tie unit grid).2 := by
  apply Interval.coarsest_grid i tie unit grid fine finer
  apply Interval.point_on_some
  have divides : 10 ^ fine * unit ∣ i.value := multiple ▸ Nat.dvd_mul_left _ m
  rwa [Nat.div_mul_cancel divides]

namespace Binary64

theorem scale_of_large (x : Binary64) (large : 2 ^ 63 * 2 ^ 1074 ≤ x.units) : 1074 ≤ x.scale := by
  by_cases low : x.scale ≤ 1074
  · have small : x.units ≤ 2 ^ 53 * 2 ^ x.scale := Nat.mul_le_mul_right _ (Nat.le_of_lt x.below)
    have power := scaled_le (2 ^ 53) x.scale 1074 low
    have positive : 0 < 2 ^ 1074 := Nat.two_pow_pos 1074
    generalize 2 ^ 1074 = unit at *
    omega
  · omega

-- An integer lies on the grid of integers, so that the search ends there at the latest.
theorem exponent_of_large (x : Binary64) (integral : 1074 ≤ x.scale) : 0 ≤ (x.shortest .away).exponent := by
  cases zero : x.isZero with
  | true =>
      rw [shortest, if_pos zero]
  | false =>
      have power : 2 ^ x.scale = 2 ^ (x.scale - 1074) * 2 ^ 1074 := (Nat.pow_sub_mul_pow 2 integral).symm
      have grid := Interval.grid_of_multiple x.interval .away (2 ^ 1076) 633 324
        (x.significand * 2 ^ (x.scale - 1074)) (by decide) (by
          rw [interval_parts, step, power, quarter_unit]
          generalize 10 ^ 324 = t
          generalize 2 ^ 1074 = unit
          ring) (value_inside x)
      simp only [shortest, zero, Bool.false_eq_true, if_false]
      omega

theorem fraction_length (x : Binary64) : x.plainNumeral.fraction.length = (-(x.shortest .away).exponent).toNat := by
  obtain ⟨-, places⟩ := positional_value (x.shortest .away).placed.1 (x.shortest .away).placed.2
  rw [plainNumeral, places]
  simp only [Decimal.placed]
  omega

theorem whole_of_large (x : Binary64) (large : 2 ^ 63 * 2 ^ 1074 ≤ x.units) : x.plainNumeral.fraction = [] := by
  have exponent := exponent_of_large x (scale_of_large x large)
  have length := fraction_length x
  exact List.length_eq_zero_iff.mp (by omega)

/-! ## What is shown of a number -/

-- The decimal that the plain text names.
def shown (x : Binary64) : Decimal :=
  ⟨x.negative, valueOf (x.plainNumeral.whole ++ x.plainNumeral.fraction), 0 - x.plainNumeral.fraction.length⟩

theorem shown_parts (x : Binary64) :
    x.shown.numerator = valueOf (x.plainNumeral.whole ++ x.plainNumeral.fraction) * 2 ^ 1074 ∧
      x.shown.denominator = 10 ^ x.plainNumeral.fraction.length := by
  have exponent : x.shown.exponent = -(x.plainNumeral.fraction.length : Int) := Int.zero_sub _
  have ahead : x.shown.exponent.toNat = 0 := by omega
  have behind : (-x.shown.exponent).toNat = x.plainNumeral.fraction.length := by omega
  rw [Decimal.numerator, Decimal.denominator, ahead, behind, Nat.pow_zero, Nat.mul_one]
  exact ⟨rfl, rfl⟩

theorem shown_near (x : Binary64) : x.Near x.shown.numerator x.shown.denominator := by
  obtain ⟨top, bottom⟩ := shown_parts x
  have low := exponent_low x
  have length := fraction_length x
  have magnitude := plain_magnitude x
  rw [top, bottom]
  generalize x.plainNumeral.fraction.length = places at *
  refine near_of_holds x _ _ (x.magnitude * 2 ^ 1076) ?_ (ten_pow_positive places) (magnitude_inside x)
  have whole : 10 ^ 324 = 10 ^ (324 - places) * 10 ^ places := by rw [← Nat.pow_add, Nat.sub_add_cancel (by omega)]
  rw [magnitude, quarter_unit, whole]
  generalize 2 ^ 1074 = unit
  ring

theorem shown_rounds (x : Binary64) : x.shown.RoundsTo x := Decimal.rounds_of_near x.shown x rfl (shown_near x)

theorem plain_parts (x : Binary64) :
    x.plain = signText x.negative ++ (digitText x.plainNumeral.whole ++ pointText x.plainNumeral.fraction) := by
  rw [plain_text, text_parts]
  simp [plainNumeral, powerText]

theorem shown_pointed (x : Binary64) (some : x.plainNumeral.fraction ≠ []) : PointedText x.plain x.shown := by
  have tail : pointText x.plainNumeral.fraction = '.' :: (digitText x.plainNumeral.fraction ++ []) := by
    rw [pointText, if_neg (by simpa using some), List.append_nil]
  rw [plain_parts, tail]
  exact .point _ _ _ _ [] 0 (sign_text x.negative) (List.append_ne_nil_of_right_ne_nil _ some) .none

theorem shown_integer (x : Binary64) (none : x.plainNumeral.fraction = []) :
    IntegerText x.plain (signedValue x.negative x.plainNumeral.whole) := by
  have tail : pointText x.plainNumeral.fraction = [] := by rw [none]; rfl
  rw [plain_parts, tail, List.append_nil]
  exact .digits _ _ _ (sign_text x.negative) (leading_nonempty _ (plain_proper x).leading)

/-! ## Numbers beyond 64 bits -/

-- The integer that is shown is not farther away than half a gap.
theorem integer_bounds (x : Binary64) (none : x.plainNumeral.fraction = []) :
    4 * x.units ≤ 4 * (valueOf x.plainNumeral.whole * 2 ^ 1074) + x.gap * 2 ^ x.scale ∧
      4 * (valueOf x.plainNumeral.whole * 2 ^ 1074) ≤ 4 * x.units + 2 * 2 ^ x.scale := by
  obtain ⟨top, bottom⟩ := shown_parts x
  obtain ⟨low, high, -⟩ := shown_near x
  rw [none, List.append_nil] at top
  rw [none, List.length_nil, Nat.pow_zero] at bottom
  rw [top, bottom, Nat.one_mul, Nat.sub_mul, Nat.mul_assoc] at low
  rw [top, bottom, Nat.one_mul, Nat.add_mul, Nat.mul_assoc 4 x.significand] at high
  exact ⟨Nat.sub_le_iff_le_add.mp low, high⟩

-- The number `2^63`, or minus it.
def limit (negative : Bool) : Binary64 := ⟨negative, 4503599627370496, 1085, by decide, by decide, by decide⟩

theorem limit_units (negative : Bool) : (limit negative).units = 2 ^ 63 * 2 ^ 1074 := by
  cases negative <;> decide +kernel

theorem limit_magnitude (negative : Bool) : (limit negative).magnitude = 9223372036854776000 * 10 ^ 324 := by
  cases negative <;> decide +kernel

theorem integer_small (x : Binary64) (none : x.plainNumeral.fraction = []) (small : x.units < 2 ^ 63 * 2 ^ 1074) :
    valueOf x.plainNumeral.whole < 2 ^ 63 := by
  obtain ⟨-, high⟩ := integer_bounds x none
  have apart := units_above x (limit true)
  have positive := Nat.two_pow_pos x.scale
  rw [limit_units] at apart
  generalize 2 ^ 1074 = unit at *
  specialize apart small
  by_contra large
  have most := Nat.mul_le_mul_right unit (Nat.not_lt.mp large)
  omega

theorem integer_large (x : Binary64) (none : x.plainNumeral.fraction = []) (large : 2 ^ 63 * 2 ^ 1074 ≤ x.units) :
    2 ^ 63 < valueOf x.plainNumeral.whole := by
  rcases Nat.lt_or_eq_of_le large with more | same
  · obtain ⟨low, -⟩ := integer_bounds x none
    have apart := units_below x (limit true)
    rw [limit_units] at apart
    generalize 2 ^ 1074 = unit at *
    specialize apart more
    by_contra small
    have most := Nat.mul_le_mul_right unit (Nat.not_lt.mp small)
    omega
  · have own : x = limit x.negative := by
      obtain ⟨significand, scale⟩ := units_injective x (limit x.negative) (by rw [limit_units, same])
      exact ext_parts x (limit x.negative) rfl significand scale
    have magnitude : valueOf x.plainNumeral.whole * 10 ^ 324 = 9223372036854776000 * 10 ^ 324 := by
      rw [← limit_magnitude x.negative, ← own, plain_magnitude, none, List.append_nil, List.length_nil, Nat.sub_zero]
    rw [Nat.eq_of_mul_eq_mul_right (ten_pow_positive 324) magnitude]
    decide

theorem size_lt_iff (x : Binary64) : x.size < 2 ^ 63 ↔ x.units < 2 ^ 63 * 2 ^ 1074 := by
  have positive : (0 : ℚ) < 2 ^ 1074 := pow_pos (by norm_num) _
  rw [size, div_lt_iff₀ positive, ← two_pow_cast 1074]
  generalize 2 ^ 1074 = unit
  rw [← Nat.cast_lt (α := ℚ)]
  push_cast
  rfl

theorem value_eq_zero (x : Binary64) (none : x.plainNumeral.fraction = []) :
    valueOf x.plainNumeral.whole = 0 ↔ x.isZero = true := by
  rw [← zero_of_magnitude, plain_magnitude, none, List.append_nil]
  have ten := ten_pow_positive (324 - ([] : List Digit).length)
  rw [Nat.mul_eq_zero]
  omega

theorem minus_zero_iff (x : Binary64) : x = zero true ↔ x.negative = true ∧ x.isZero = true := by
  constructor
  · rintro rfl
    exact ⟨rfl, rfl⟩
  · rintro ⟨sign, none⟩
    have significand : x.significand = 0 := by simpa [isZero] using none
    exact ext_parts x (zero true) sign significand (x.normal.resolve_right (by omega))

-- The integer with the digits that are shown is written with the same sign unless there is none.
theorem shown_again (x : Binary64) (none : x.plainNumeral.fraction = []) :
    Numeral.ofInt (signedValue x.negative x.plainNumeral.whole) = x.plainNumeral ↔ x ≠ zero true := by
  have size : (signedValue x.negative x.plainNumeral.whole).natAbs = valueOf x.plainNumeral.whole := by
    rw [signedValue]
    split <;> omega
  have digits := digits_of_value x.plainNumeral.whole (plain_proper x).leading
  have parts : x.plainNumeral = ⟨x.negative, x.plainNumeral.whole, [], .none⟩ := by rw [← none]; rfl
  have sign : decide (signedValue x.negative x.plainNumeral.whole < 0) = x.negative ↔ x ≠ zero true := by
    rw [ne_eq, minus_zero_iff, ← value_eq_zero x none, signedValue]
    cases x.negative <;> simp
    omega
  rw [Numeral.ofInt, size, digits, ← sign]
  constructor
  · intro same
    exact congrArg Numeral.negative same
  · intro same
    rw [same]
    exact parts.symm

end Binary64

end Number

namespace Operand

open Number

theorem infer_shown_pointed (x : Binary64) (some : x.plainNumeral.fraction ≠ []) :
    infer (plainText (.float x)) = .float x := by
  rw [infer_iff]
  refine .float x.shown x ?_ x.shown_rounds
  rw [plainText, trim_number x.plain (number_char_plain x)]
  exact x.shown_pointed some

theorem shown_fits (x : Binary64) (none : x.plainNumeral.fraction = []) (small : x.size < 2 ^ 63) :
    (Int64.ofInt (signedValue x.negative x.plainNumeral.whole)).toInt =
      signedValue x.negative x.plainNumeral.whole := by
  have bound := x.integer_small none (x.size_lt_iff.mp small)
  rw [signedValue]
  apply Int64.toInt_ofInt_of_le
  · split <;> omega
  · split <;> omega

theorem infer_shown_whole (x : Binary64) (none : x.plainNumeral.fraction = []) (small : x.size < 2 ^ 63) :
    infer (plainText (.float x)) = .int (Int64.ofInt (signedValue x.negative x.plainNumeral.whole)) := by
  rw [infer_iff]
  refine .int _ ?_
  rw [plainText, trim_number x.plain (number_char_plain x), shown_fits x none small]
  exact x.shown_integer none

theorem infer_shown_large (x : Binary64) (large : ¬ x.size < 2 ^ 63) :
    infer (plainText (.float x)) = .text (plainText (.float x)) := by
  have beyond : 2 ^ 63 * 2 ^ 1074 ≤ x.units := Nat.not_lt.mp (mt x.size_lt_iff.mpr large)
  have none := x.whole_of_large beyond
  have bound := x.integer_large none beyond
  have integer := x.shown_integer none
  rw [infer_iff]
  have trimmed := trim_number x.plain (number_char_plain x)
  refine .text (fun i other => ?_) (fun d y pointed => ?_)
  · rw [plainText, trimmed] at other
    have value := integer_text_unique _ _ _ integer other
    have low := i.le_toInt
    have high := i.toInt_lt
    rw [← value, signedValue] at low high
    by_cases sign : x.negative = true
    · rw [if_pos sign] at low
      omega
    · rw [if_neg sign] at high
      omega
  · rw [plainText, trimmed] at pointed
    exact absurd pointed (integer_not_pointed _ _ d integer)

/-! ## Literals -/

theorem literal_integer (i : Int64) : (Operand.int i).literal = String.ofList (Numeral.ofInt i.toInt).text := rfl

theorem literal_number (x : Binary64) : (Operand.float x).literal = String.ofList x.plain := rfl

theorem quoted_no_number (x : Binary64) :
    (Operand.text (plainText (.float x))).literal ≠ (Operand.float x).literal := by
  intro same
  have mark : '\'' ∈ x.plain := by
    have chars := congrArg String.toList same
    rw [literal_number, String.toList_ofList] at chars
    rw [← chars, literal]
    simp [Text.stringLiteral, Text.quote]
  exact (number_char_inert '\'' (number_char_plain x '\'' mark)).2.2 rfl

theorem stable_iff (x : Binary64) :
    (infer (plainText (.float x))).literal = (Operand.float x).literal ↔ x ≠ .zero true ∧ x.size < 2 ^ 63 := by
  by_cases small : x.size < 2 ^ 63
  · by_cases none : x.plainNumeral.fraction = []
    · have same : (infer (plainText (.float x))).literal =
          String.ofList (Numeral.ofInt (signedValue x.negative x.plainNumeral.whole)).text := by
        rw [infer_shown_whole x none small, literal_integer, shown_fits x none small]
      rw [same, literal_number, String.ofList_inj, Binary64.plain_text, and_iff_left small, ← x.shown_again none]
      exact ⟨text_injective _ _ (proper_of_int _) (Binary64.plain_proper x), congrArg Numeral.text⟩
    · have minus : x ≠ .zero true := by
        rintro rfl
        exact none rfl
      rw [infer_shown_pointed x none]
      exact iff_of_true rfl ⟨minus, small⟩
  · rw [infer_shown_large x small]
    exact iff_of_false (quoted_no_number x) fun stable => small stable.2

/-- An operand inferred again from what is shown of it has the literal it had, unless it is minus zero or a binary64
number of size `2^63` or more: these are shown without a point, and read as the integer 0 or as an integer too large
to be one of 64 bits, which stays a text. -/
theorem redisplay_stable_iff (typed : String) :
    (infer (infer typed).plainText).literal = (infer typed).literal ↔
      ∀ x, infer typed = .float x → x ≠ .zero true ∧ x.size < 2 ^ 63 := by
  cases inferred : infer typed with
  | int i => exact iff_of_true (congrArg literal (infer_shown_integer i)) nofun
  | text s =>
      obtain rfl : s = typed := by
        cases (infer_iff typed (.text s)).mp inferred
        rfl
      exact iff_of_true (congrArg literal inferred) nofun
  | float x =>
      rw [stable_iff]
      constructor
      · rintro stable y same
        cases same
        exact stable
      · exact fun all => all x rfl

theorem redisplay_drifts :
    (infer (infer "-0.0").plainText).literal ≠ (infer "-0.0").literal ∧
      (infer (infer "1.0e19").plainText).literal ≠ (infer "1.0e19").literal := by
  decide +kernel

end Operand
end QueryDraft
