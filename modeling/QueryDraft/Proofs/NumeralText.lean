import QueryDraft.Json.Amount
import QueryDraft.Json.Scan

/-!
JSON numbers are read back from their texts, digit by digit.
-/

set_option autoImplicit false

namespace QueryDraft.Number

/-! ## Digits in front of a point -/

-- JSON asks for one digit at least, and lets no digit follow a zero in front.
def Leading : List Digit → Prop
  | [] => False
  | d :: rest => d.val = 0 → rest = []

theorem leading_nonempty (digits : List Digit) (leading : Leading digits) : digits ≠ [] := by
  rintro rfl
  exact leading

theorem push_digits_front (fuel n : Nat) (low : List Digit) (enough : n < fuel) (positive : 0 < n) :
    ∃ d rest, pushDigits fuel n low = d :: rest ∧ 0 < d.val := by
  induction fuel generalizing n low with
  | zero => omega
  | succ fuel ih =>
      by_cases small : n < 10
      · refine ⟨⟨n % 10, Nat.mod_lt n (by omega)⟩, low, ?_, ?_⟩
        · rw [pushDigits, if_pos small]
        · have digit : n % 10 = n := Nat.mod_eq_of_lt small
          show 0 < n % 10
          omega
      · rw [pushDigits, if_neg small]
        exact ih (n / 10) _ (by omega) (by omega)

theorem digits_of_front (n : Nat) (positive : 0 < n) : ∃ d rest, digitsOf n = d :: rest ∧ 0 < d.val :=
  push_digits_front (n + 1) n [] (Nat.lt_succ_self n) positive

theorem digits_of_leading (n : Nat) : Leading (digitsOf n) := by
  by_cases zero : n = 0
  · subst zero
    intro _
    rfl
  · obtain ⟨d, rest, shape, positive⟩ := digits_of_front n (Nat.pos_of_ne_zero zero)
    rw [shape]
    intro none
    omega

theorem digits_of_nonempty (n : Nat) : digitsOf n ≠ [] := leading_nonempty _ (digits_of_leading n)

theorem value_of_zeros (count : Nat) (digits : List Digit) :
    valueOf (List.replicate count ⟨0, by omega⟩ ++ digits) = valueOf digits := by
  induction count with
  | zero => rfl
  | succ count ih =>
      rw [List.replicate_succ, List.cons_append]
      exact ih

theorem value_of_trailing_zeros (digits : List Digit) (count : Nat) :
    valueOf (digits ++ List.replicate count ⟨0, by omega⟩) = valueOf digits * 10 ^ count := by
  have zeros : valueOf (List.replicate count ⟨0, by omega⟩ : List Digit) = 0 := by
    have leading := value_of_zeros count []
    rwa [List.append_nil] at leading
  rw [valueOf_append, zeros, List.length_replicate, Nat.add_zero]

theorem value_cons (d : Digit) (rest : List Digit) : valueOf (d :: rest) = d.val * 10 ^ rest.length + valueOf rest := by
  have front := valueOf_append [d] rest
  rw [List.singleton_append] at front
  rw [front]
  simp [valueOf]

theorem value_concat (digits : List Digit) (d : Digit) : valueOf (digits ++ [d]) = valueOf digits * 10 + d.val := by
  rw [valueOf_append, List.length_singleton, Nat.pow_one]
  simp [valueOf]

theorem push_digits_value (fuel : Nat) (high low : List Digit) (leading : Leading high) (enough : valueOf high < fuel) :
    pushDigits fuel (valueOf high) low = high ++ low := by
  induction fuel generalizing high low with
  | zero => omega
  | succ fuel ih =>
      obtain none | ⟨front, d, rfl⟩ := List.eq_nil_or_concat high
      · exact absurd none (leading_nonempty high leading)
      · rw [List.concat_eq_append] at *
        rw [value_concat] at enough ⊢
        have digit := d.isLt
        have last : (valueOf front * 10 + d.val) % 10 = d.val := by omega
        cases front with
        | nil =>
            have single : valueOf ([] : List Digit) = 0 := rfl
            rw [pushDigits, if_pos (by omega)]
            simp [last]
        | cons a rest =>
            have first : a.val ≠ 0 := by
              intro zero
              have nothing := leading zero
              simp at nothing
            have positive : 0 < valueOf (a :: rest) := by
              rw [value_cons]
              exact Nat.add_pos_left (Nat.mul_pos (Nat.pos_of_ne_zero first) (Nat.pow_pos (by omega))) _
            have higher : (valueOf (a :: rest) * 10 + d.val) / 10 = valueOf (a :: rest) := by omega
            rw [pushDigits, if_neg (by omega), higher, ih (a :: rest) _ (fun zero => absurd zero first) (by omega)]
            simp [last]

theorem digits_of_value (digits : List Digit) (leading : Leading digits) : digitsOf (valueOf digits) = digits := by
  rw [digitsOf, push_digits_value _ digits [] leading (Nat.lt_succ_self _), List.append_nil]

theorem digit_char_range (d : Digit) : 48 ≤ d.char.toNat ∧ d.char.toNat ≤ 57 := by
  revert d
  decide

theorem char_of_digit (c : Char) (d : Digit) (read : Digit.ofChar c = some d) : c = d.char := by
  unfold Digit.ofChar at read
  split at read
  · rename_i shown
    cases read
    have code : 48 + (c.toNat - 48) = c.toNat := by omega
    rw [Digit.char, code, Char.ofNat_toNat]
  · cases read

/-! ## The parts of a numeral's text -/

def pointText (fraction : List Digit) : List Char := if fraction.isEmpty then [] else '.' :: digitText fraction

def powerText : Option (Bool × List Digit) → List Char
  | none => []
  | some (negative, digits) => 'e' :: (if negative then '-' else '+') :: digitText digits

theorem text_parts (n : Numeral) :
    n.text = signText n.negative ++ (digitText n.whole ++ (pointText n.fraction ++ powerText n.exponent)) := by
  obtain ⟨negative, whole, fraction, exponent⟩ := n
  cases exponent <;> simp [Numeral.text, pointText, powerText]

-- What follows a run of digits and is no digit itself.
def Bounded (text : List Char) : Prop := ∀ c, text.head? = some c → Digit.ofChar c = none

theorem bounded_cons (c : Char) (text : List Char) (none : Digit.ofChar c = none) : Bounded (c :: text) := by
  intro d front
  obtain rfl : c = d := by simpa using front
  exact none

theorem bounded_power (e : Option (Bool × List Digit)) (after : List Char) (ends : Bounded after) :
    Bounded (powerText e ++ after) := by
  cases e with
  | none => exact ends
  | some power => exact bounded_cons 'e' _ rfl

theorem bounded_point (fraction : List Digit) (after : List Char) (ends : Bounded after) :
    Bounded (pointText fraction ++ after) := by
  cases fraction with
  | nil => exact ends
  | cons d rest => exact bounded_cons '.' _ rfl

theorem digit_run_text (digits : List Digit) (after : List Char) (ends : Bounded after) :
    digitRun (digitText digits ++ after) = (digits, after) :=
  digitRun_append digits after ends

theorem signed_text (negative : Bool) (after : List Char) :
    signed ((if negative then '-' else '+') :: after) = (negative, after) := by
  cases negative <;> rfl

/-! ## The parts of a numeral -/

structure Numeral.Proper (n : Numeral) : Prop where
  leading : Leading n.whole
  power : ∀ negative digits, n.exponent = some (negative, digits) → digits ≠ []

theorem proper_of_int (i : Int) : (Numeral.ofInt i).Proper where
  leading := digits_of_leading i.natAbs
  power := by
    intro negative digits shape
    cases shape

end QueryDraft.Number

namespace QueryDraft.Json

open Number

-- What may follow a value inside an array or an object; at the end of a text nothing does.
def Delimited (text : List Char) : Prop := ∀ c, text.head? = some c → c = ',' ∨ c = ']' ∨ c = '\x7d'

theorem delimited_nil : Delimited [] := by
  intro c front
  cases front

theorem delimited_cons (c : Char) (text : List Char) (delimiter : c = ',' ∨ c = ']' ∨ c = '\x7d') :
    Delimited (c :: text) := by
  intro d front
  obtain rfl : c = d := by simpa using front
  exact delimiter

theorem bounded_of_delimited (text : List Char) (ends : Delimited text) : Bounded text := by
  intro c front
  rcases ends c front with rfl | rfl | rfl <;> rfl

theorem exponent_part_read (e : Option (Bool × List Digit)) (after : List Char)
    (power : ∀ negative digits, e = some (negative, digits) → digits ≠ []) (ends : Delimited after) :
    exponentPart (powerText e ++ after) = some (e, after) := by
  cases e with
  | none =>
      cases after with
      | nil => rfl
      | cons c rest =>
          have plain : ¬ (c = 'e' ∨ c = 'E') := by
            rcases ends c rfl with rfl | rfl | rfl <;> decide
          rw [powerText, List.nil_append, exponentPart, if_neg plain]
  | some parts =>
      obtain ⟨negative, digits⟩ := parts
      have run := digit_run_text digits after (bounded_of_delimited after ends)
      cases digits with
      | nil => exact absurd rfl (power negative [] rfl)
      | cons d rest =>
          simp only [powerText, List.cons_append, exponentPart, true_or, if_true, signed_text, run]

theorem fraction_part_read (fraction : List Digit) (after : List Char) (ends : Bounded after)
    (plain : after.head? ≠ some '.') : fractionPart (pointText fraction ++ after) = some (fraction, after) := by
  cases fraction with
  | nil =>
      cases after with
      | nil => rfl
      | cons c rest =>
          have other : c ≠ '.' := fun same => plain (by rw [same]; rfl)
          simp [pointText, fractionPart, other]
  | cons d rest =>
      have run := digit_run_text (d :: rest) after ends
      simp [pointText, fractionPart, run]

theorem whole_part_read (whole : List Digit) (after : List Char) (leading : Leading whole) (ends : Bounded after) :
    wholePart (digitText whole ++ after) = some (whole, after) := by
  rw [wholePart, digit_run_text whole after ends]
  match whole, leading with
  | [d], _ => rfl
  | d :: e :: rest, leading =>
      have nonzero : d.val ≠ 0 := fun zero => by cases leading zero
      exact if_neg nonzero

theorem minus_read (negative : Bool) (d : Digit) (after : List Char) :
    minus (signText negative ++ d.char :: after) = (negative, d.char :: after) := by
  cases negative with
  | true => rfl
  | false =>
      have digit : d.char ≠ '-' := by
        intro same
        have range := digit_char_range d
        rw [same] at range
        exact absurd range.1 (by decide)
      simp [signText, minus, digit]

theorem numeral_read (n : Numeral) (proper : n.Proper) (after : List Char) (ends : Delimited after) :
    numeral (n.text ++ after) = some (n, after) := by
  have bounded := bounded_of_delimited after ends
  have power := exponent_part_read n.exponent after proper.power ends
  have point := fraction_part_read n.fraction (powerText n.exponent ++ after) (bounded_power _ _ bounded) (by
    intro front
    cases shape : n.exponent with
    | none =>
        rw [shape] at front
        rcases ends '.' front with same | same | same <;> cases same
    | some e =>
        rw [shape] at front
        cases front)
  have whole := whole_part_read n.whole (pointText n.fraction ++ (powerText n.exponent ++ after)) proper.leading
    (bounded_point _ _ (bounded_power _ _ bounded))
  have sign : minus (n.text ++ after) =
      (n.negative, digitText n.whole ++ (pointText n.fraction ++ (powerText n.exponent ++ after))) := by
    rw [text_parts]
    simp only [List.append_assoc]
    cases shape : n.whole with
    | nil => exact absurd shape (leading_nonempty _ proper.leading)
    | cons d rest => exact minus_read n.negative d _
  simp [numeral, sign, whole, point, power]

end QueryDraft.Json
