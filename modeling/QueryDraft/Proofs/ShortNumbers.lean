import QueryDraft.Json.Amount
import QueryDraft.Proofs.Rounding

/-!
JSON numbers with few digits and a small power of ten are read exactly, so that the numbers they were
written for come back.
-/

set_option autoImplicit false

namespace QueryDraft.Json

open Number

/-! ## The digits of a numeral -/

theorem intake_all (digits : List Digit) (word : Nat) (fits : digits.foldl (fun n d => 10 * n + d.val) word < wordLimit) :
    intake word digits = (digits.foldl (fun n d => 10 * n + d.val) word, 0) := by
  induction digits generalizing word with
  | nil => rfl
  | cons d rest ih =>
      rw [List.foldl_cons] at fits ⊢
      have grown : 10 * word + d.val ≤ rest.foldl (fun n d => 10 * n + d.val) (10 * word + d.val) := by
        rw [foldl_digits]
        exact Nat.le_trans (Nat.le_mul_of_pos_right _ (Nat.pow_pos (by omega))) (Nat.le_add_right ..)
      rw [intake, if_pos (by omega), ih _ fits]

theorem approximate_digits (n : Numeral) (fits : valueOf (n.whole ++ n.fraction) < wordLimit) :
    approximate n = (scaled (valueOf (n.whole ++ n.fraction)) (exponentValue n.exponent - n.fraction.length)).map
      fun x => { x with negative := n.negative } := by
  rw [valueOf, List.foldl_append] at fits
  have whole : intake 0 n.whole = (valueOf n.whole, 0) := by
    apply intake_all
    rw [foldl_digits] at fits
    exact Nat.lt_of_le_of_lt (Nat.le_trans (Nat.le_mul_of_pos_right _ (Nat.pow_pos (by omega))) (Nat.le_add_right ..))
      fits
  have fraction := intake_all n.fraction (valueOf n.whole) fits
  have digits : n.fraction.foldl (fun n d => 10 * n + d.val) (valueOf n.whole) = valueOf (n.whole ++ n.fraction) := by
    rw [valueOf, valueOf, List.foldl_append]
  rw [digits] at fraction
  have exponent : ((0 : Nat) : Int) - ((n.fraction.length : Int) - (0 : Nat)) + exponentValue n.exponent =
      exponentValue n.exponent - n.fraction.length := by
    omega
  rw [approximate]
  simp only [whole, fraction, exponent]
  cases scaled (valueOf (n.whole ++ n.fraction)) (exponentValue n.exponent - n.fraction.length) <;> rfl

theorem placed_digits (d : Decimal) : valueOf d.placed.1 = d.coefficient := valueOf_digitsOf d.coefficient

theorem signed_power (power : Int) :
    exponentValue (some (decide (power < 0), digitsOf power.natAbs)) = power := by
  by_cases negative : power < 0
  · simp only [negative, decide_true, exponentValue, valueOf_digitsOf]
    omega
  · simp only [negative, decide_false, exponentValue, valueOf_digitsOf]
    omega

-- The digits may go on with zeros, which the power of ten then makes up for.
theorem numeral_scale (x : Binary64) :
    ∃ zeros : Nat, valueOf (x.numeral.whole ++ x.numeral.fraction) = (x.shortest .toEven).coefficient * 10 ^ zeros ∧
      exponentValue x.numeral.exponent - x.numeral.fraction.length = (x.shortest .toEven).exponent - zeros := by
  generalize shape : x.shortest .toEven = d
  have digits := placed_digits d
  have point : d.placed.2 = d.placed.1.length + d.exponent := rfl
  rw [Binary64.numeral, shape]
  dsimp only
  split
  · obtain ⟨value, places⟩ := positional_value d.placed.1 d.placed.2
    rw [digits] at value
    dsimp only
    split
    · rename_i whole
      rw [List.isEmpty_iff] at whole
      rw [whole] at value places
      rw [List.append_nil] at value
      refine ⟨d.exponent.toNat + 1, ?_, ?_⟩
      · have power : (d.placed.2 - d.placed.1.length).toNat = d.exponent.toNat := by omega
        rw [power] at value
        rw [valueOf_append, value, Nat.pow_succ, Nat.mul_assoc]
        rfl
      · rw [List.length_nil] at places
        simp only [exponentValue, List.length_cons, List.length_nil]
        omega
    · refine ⟨d.exponent.toNat, ?_, ?_⟩
      · have power : (d.placed.2 - d.placed.1.length).toNat = d.exponent.toNat := by omega
        rw [value, power]
      · simp only [exponentValue, places]
        omega
  · refine ⟨0, ?_, ?_⟩
    · rw [List.take_append_drop, digits, Nat.pow_zero, Nat.mul_one]
    · have some : 0 < d.placed.1.length := List.length_pos_iff.mpr (digits_of_nonempty d.coefficient)
      dsimp only
      rw [signed_power, List.length_drop]
      omega

theorem numeral_inside (x : Binary64) (low : -324 ≤ exponentValue x.numeral.exponent - x.numeral.fraction.length) :
    x.interval.holds (valueOf (x.numeral.whole ++ x.numeral.fraction) *
      10 ^ (exponentValue x.numeral.exponent - x.numeral.fraction.length + 324).toNat * 2 ^ 1076) = true := by
  obtain ⟨zeros, digits, power⟩ := numeral_scale x
  have inside := Binary64.shortest_inside .toEven x
  have split : ((x.shortest .toEven).exponent + 324).toNat =
      zeros + ((x.shortest .toEven).exponent - zeros + 324).toNat := by
    omega
  rw [split, Nat.pow_add, ← Nat.mul_assoc] at inside
  rw [digits, power]
  exact inside

/-! ## One rounding -/

theorem power_exact (n : Nat) (small : n ≤ 22) :
    ∃ p, power? n = some p ∧ p.negative = false ∧ p.units = 10 ^ n * 2 ^ 1074 := by
  have odd : 5 ^ n < 2 ^ 53 := Nat.lt_of_le_of_lt (Nat.pow_le_pow_right (by omega) small) (by decide)
  obtain ⟨p, exact, sign, units⟩ := Binary64.of_nat_exact (5 ^ n) n odd (by omega)
  rw [← Nat.mul_pow] at exact units
  refine ⟨p, ?_, sign, units⟩
  rw [power?, if_pos (by omega)]
  exact exact

theorem product_cross (word power unit ten : Nat) :
    word * (power * ten) * (4 * unit) * unit = 4 * (word * unit * (power * unit)) * ten := by
  simp only [Nat.mul_assoc, Nat.mul_comm, Nat.mul_left_comm]

theorem quotient_cross (word power unit rest : Nat) :
    word * rest * (4 * unit) * (power * unit) = 4 * (word * unit * unit) * (rest * power) := by
  simp only [Nat.mul_assoc, Nat.mul_comm, Nat.mul_left_comm]

theorem scaled_short (x : Binary64) (word : Nat) (exponent : Int) (digits : word < 2 ^ 53) (low : -22 ≤ exponent)
    (high : exponent ≤ 22) (inside : x.interval.holds (word * 10 ^ (exponent + 324).toNat * 2 ^ 1076) = true) :
    scaled word exponent = some { x with negative := false } := by
  obtain ⟨w, exact, sign, units⟩ := Binary64.of_nat_exact word 0 digits (by omega)
  rw [Nat.pow_zero, Nat.mul_one] at exact units
  rw [Binary64.quarter_unit] at inside
  cases exponent with
  | ofNat n =>
      rw [Int.ofNat_eq_natCast] at high inside
      obtain ⟨p, power, plain, scale⟩ := power_exact n (by omega)
      have exponents : ((n : Int) + 324).toNat = n + 324 := by omega
      rw [exponents, Nat.pow_add] at inside
      have cross := product_cross word (10 ^ n) (2 ^ 1074) (10 ^ 324)
      have rounded := Binary64.rounds_to x false _ _ _ (Nat.two_pow_pos 1074) cross inside
      simp only [scaled, exact, power, Option.bind_eq_bind, Option.bind_some]
      rw [Binary64.mul, sign, plain, units, scale]
      exact rounded
  | negSucc n =>
      obtain ⟨p, power, plain, scale⟩ := power_exact (n + 1) (by omega)
      have exponents : (Int.negSucc n + 324).toNat = 324 - (n + 1) := by omega
      have whole : 10 ^ 324 = 10 ^ (324 - (n + 1)) * 10 ^ (n + 1) := by
        rw [← Nat.pow_add, Nat.sub_add_cancel (by omega)]
      rw [exponents] at inside
      have cross := quotient_cross word (10 ^ (n + 1)) (2 ^ 1074) (10 ^ (324 - (n + 1)))
      rw [← whole] at cross
      have positive : 0 < 10 ^ (n + 1) * 2 ^ 1074 :=
        Nat.mul_pos (Binary64.ten_pow_positive (n + 1)) (Nat.two_pow_pos 1074)
      have rounded := Binary64.rounds_to x false _ _ _ positive cross inside
      simp only [scaled, exact, scaleDown, power, Option.bind_eq_bind, Option.bind_some]
      rw [Binary64.div, sign, plain, units, scale]
      exact rounded

-- The digits make up an integer, and the point stands at a power of ten, that are binary64 numbers themselves.
structure Short (n : Numeral) : Prop where
  digits : valueOf (n.whole ++ n.fraction) < 2 ^ 53
  low : -22 ≤ exponentValue n.exponent - n.fraction.length
  high : exponentValue n.exponent - n.fraction.length ≤ 22

-- Only the product or the quotient of the two is rounded.
theorem approximate_short (x : Binary64) (short : Short x.numeral) : approximate x.numeral = some x := by
  obtain ⟨digits, low, high⟩ := short
  have inside := numeral_inside x (by omega)
  have fits : valueOf (x.numeral.whole ++ x.numeral.fraction) < wordLimit := by
    rw [wordLimit]
    omega
  rw [approximate_digits x.numeral fits, scaled_short x _ _ digits low high inside]
  have sign : x.numeral.negative = x.negative := by
    rw [Binary64.numeral]
    dsimp only
    split <;> rfl
  rw [sign]
  rfl

end QueryDraft.Json
