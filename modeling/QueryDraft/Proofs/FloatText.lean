import QueryDraft.Proofs.NumeralText

/-!
The texts of binary64 numbers: their digits never begin with a superfluous zero, and a JSON number that
stands for one is never an integer.
-/

set_option autoImplicit false

namespace QueryDraft.Number

/-! ## Points of an interval -/

namespace Interval

theorem holds_positive (i : Interval) (x : Nat) (low : 0 < i.low) (inside : i.holds x = true) : 0 < x := by
  unfold holds at inside
  split at inside
  · obtain ⟨above, _⟩ := by simpa using inside
    omega
  · obtain ⟨above, _⟩ := by simpa using inside
    omega

theorem point_on_holds (i : Interval) (tie : Tie) (unit point : Nat) (found : i.pointOn tie unit = some point) :
    i.holds (point * unit) = true := by
  cases lower : i.holds (i.value / unit * unit) with
  | true =>
      cases upper : i.holds ((i.value / unit + 1) * unit) with
      | true =>
          have near : point = i.value / unit ∨ point = i.value / unit + 1 := by
            simp only [pointOn, lower, upper] at found
            cases tie <;> grind
          rcases near with rfl | rfl
          · exact lower
          · exact upper
      | false =>
          obtain rfl : i.value / unit = point := by simpa [pointOn, lower, upper] using found
          exact lower
  | false =>
      cases upper : i.holds ((i.value / unit + 1) * unit) with
      | true =>
          obtain rfl : i.value / unit + 1 = point := by simpa [pointOn, lower, upper] using found
          exact upper
      | false => simp [pointOn, lower, upper] at found

theorem point_on_positive (i : Interval) (tie : Tie) (unit point : Nat) (low : 0 < i.low)
    (found : i.pointOn tie unit = some point) : 0 < point := by
  have inside := holds_positive i _ low (point_on_holds i tie unit point found)
  exact Nat.pos_of_mul_pos_right inside

theorem coarsest_positive (i : Interval) (tie : Tie) (unit grid : Nat) (low : 0 < i.low) (room : 0 < i.value / unit) :
    0 < (i.coarsest tie unit grid).1 := by
  induction grid with
  | zero =>
      rw [coarsest]
      cases found : i.pointOn tie unit with
      | none => exact room
      | some point => exact point_on_positive i tie unit point low found
  | succ grid ih =>
      rw [coarsest]
      cases found : i.pointOn tie (10 ^ (grid + 1) * unit) with
      | none => exact ih
      | some point => exact point_on_positive i tie _ point low found

end Interval

namespace Binary64

theorem ten_pow_positive (n : Nat) : 0 < 10 ^ n := Nat.pow_pos (by omega)

theorem interval_low_positive (x : Binary64) (nonzero : x.isZero = false) : 0 < x.interval.low := by
  have significand : x.significand ≠ 0 := by simpa [isZero] using nonzero
  have step : 0 < 2 ^ x.scale * 10 ^ 324 := Nat.mul_pos (Nat.two_pow_pos _) (ten_pow_positive 324)
  simp only [interval]
  apply Nat.mul_pos _ step
  split <;> omega

theorem interval_value_room (x : Binary64) (nonzero : x.isZero = false) : 0 < x.interval.value / 2 ^ 1076 := by
  have significand : x.significand ≠ 0 := by simpa [isZero] using nonzero
  have unit : 2 ^ 1076 ≤ 10 ^ 324 := by decide +kernel
  apply Nat.div_pos _ (Nat.two_pow_pos _)
  calc 2 ^ 1076 ≤ 10 ^ 324 := unit
    _ ≤ 2 ^ x.scale * 10 ^ 324 := Nat.le_mul_of_pos_left _ (Nat.two_pow_pos _)
    _ ≤ 4 * x.significand * (2 ^ x.scale * 10 ^ 324) := Nat.le_mul_of_pos_left _ (by omega)

theorem shortest_coefficient_positive (tie : Tie) (x : Binary64) (nonzero : x.isZero = false) :
    0 < (x.shortest tie).coefficient := by
  have found := Interval.coarsest_positive x.interval tie (2 ^ 1076) 633 (interval_low_positive x nonzero)
    (interval_value_room x nonzero)
  simp only [shortest, nonzero, Bool.false_eq_true, if_false]
  exact found

end Binary64

/-! ## Digits on both sides of the point -/

theorem positional_leading (d : Digit) (rest : List Digit) (positive : 0 < d.val) (point : Int) :
    Leading (positional (d :: rest) point).1 := by
  cases point with
  | negSucc n =>
      intro _
      rfl
  | ofNat n =>
      cases n with
      | zero =>
          intro _
          rfl
      | succ n =>
          intro zero
          omega

theorem proper_positional (negative : Bool) (whole fraction : List Digit) (leading : Leading whole) :
    (Numeral.mk negative whole fraction none).Proper where
  leading := leading
  power := by
    intro _ _ shape
    cases shape

theorem placed_leading (tie : Tie) (x : Binary64) :
    Leading (positional (x.shortest tie).placed.1 (x.shortest tie).placed.2).1 := by
  cases zero : x.isZero with
  | true =>
      have none : x.shortest tie = ⟨x.negative, 0, 0⟩ := by rw [Binary64.shortest, if_pos zero]
      rw [none]
      intro _
      rfl
  | false =>
      obtain ⟨d, rest, shape, positive⟩ := digits_of_front _ (Binary64.shortest_coefficient_positive tie x zero)
      have digits : (x.shortest tie).placed.1 = d :: rest := shape
      rw [digits]
      exact positional_leading d rest positive _

theorem numeral_proper (x : Binary64) : x.numeral.Proper := by
  unfold Binary64.numeral
  dsimp only
  split
  · exact proper_positional _ _ _ (placed_leading .toEven x)
  · obtain ⟨d, rest, shape⟩ := List.exists_cons_of_ne_nil (digits_of_nonempty (x.shortest .toEven).coefficient)
    have digits : (x.shortest .toEven).placed.1 = d :: rest := shape
    constructor
    · rw [digits]
      intro _
      rfl
    · intro negative power same
      obtain ⟨-, rfl⟩ := by simpa using same
      exact digits_of_nonempty _

theorem numeral_floating (x : Binary64) : x.numeral.fraction.isEmpty = false ∨ x.numeral.exponent.isNone = false := by
  unfold Binary64.numeral
  dsimp only
  split
  · left
    dsimp only
    split
    · rfl
    · rename_i fraction
      exact Bool.eq_false_iff.mpr fraction
  · right
    rfl

end QueryDraft.Number
