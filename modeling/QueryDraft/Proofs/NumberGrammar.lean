import QueryDraft.Number.Shape
import QueryDraft.Proofs.ShownNumbers

/-!
The grammar of integers and of numbers with a decimal point. The readers accept it, the shapes admit it, and what has
the shape of the one is never the text of the other.
-/

set_option autoImplicit false

namespace QueryDraft

namespace Number

/-! ## The grammar of numbers -/

inductive SignText : List Char → Bool → Prop
  | none : SignText [] false
  | plus : SignText ['+'] false
  | minus : SignText ['-'] true

def signedValue (negative : Bool) (digits : List Digit) : Int :=
  if negative then -(valueOf digits : Int) else valueOf digits

inductive IntegerText : List Char → Int → Prop
  | digits (sign : List Char) (negative : Bool) (digits : List Digit) (mark : SignText sign negative)
      (some : digits ≠ []) : IntegerText (sign ++ digitText digits) (signedValue negative digits)

inductive ExponentText : List Char → Int → Prop
  | none : ExponentText [] 0
  | power (letter : Char) (text : List Char) (exponent : Int) (marked : letter = 'e' ∨ letter = 'E')
      (integer : IntegerText text exponent) : ExponentText (letter :: text) exponent

-- Digits may be missing on one side of the point.
inductive PointedText : List Char → Decimal → Prop
  | point (sign : List Char) (negative : Bool) (whole fraction : List Digit) (tail : List Char) (exponent : Int)
      (mark : SignText sign negative) (some : whole ++ fraction ≠ []) (power : ExponentText tail exponent) :
      PointedText (sign ++ (digitText whole ++ '.' :: (digitText fraction ++ tail)))
        ⟨negative, valueOf (whole ++ fraction), exponent - fraction.length⟩

/-! ## Signs and runs of digits -/

def Unsigned (text : List Char) : Prop := ∀ c, text.head? = some c → c ≠ '+' ∧ c ≠ '-'

theorem unsigned_digits (digits : List Digit) (after : List Char) (ends : Unsigned after) :
    Unsigned (digitText digits ++ after) := by
  cases digits with
  | nil => exact ends
  | cons d rest =>
      intro c front
      obtain rfl : d.char = c := by simpa [digitText] using front
      clear front
      revert d
      decide

theorem unsigned_point (behind : List Char) : Unsigned ('.' :: behind) := by
  intro c front
  cases front
  decide

theorem signed_sound (text : List Char) : ∃ sign, text = sign ++ (signed text).2 ∧ SignText sign (signed text).1 := by
  unfold signed
  split
  · exact ⟨['-'], rfl, .minus⟩
  · exact ⟨['+'], rfl, .plus⟩
  · exact ⟨[], rfl, .none⟩

theorem sign_text (negative : Bool) : SignText (signText negative) negative := by
  cases negative with
  | true => exact .minus
  | false => exact .none

theorem signed_complete (sign : List Char) (negative : Bool) (mark : SignText sign negative) (rest : List Char)
    (unsigned : Unsigned rest) : signed (sign ++ rest) = (negative, rest) := by
  cases mark with
  | plus => rfl
  | minus => rfl
  | none =>
      rw [List.nil_append, signed.eq_def]
      split
      · exact absurd rfl (unsigned '-' rfl).2
      · exact absurd rfl (unsigned '+' rfl).1
      · rfl

theorem digit_run_sound (text : List Char) : text = digitText (digitRun text).1 ++ (digitRun text).2 := by
  induction text with
  | nil => rfl
  | cons c rest ih =>
      rw [digitRun]
      split
      · rename_i d read
        exact congrArg₂ List.cons (char_of_digit c d read) ih
      · rfl

theorem integer_text_iff (text : List Char) (i : Int) :
    IntegerText text i ↔ ∃ negative rest d low, signed text = (negative, rest) ∧ digitRun rest = (d :: low, []) ∧
      i = signedValue negative (d :: low) := by
  constructor
  · rintro ⟨sign, negative, digits, mark, some⟩
    obtain ⟨d, low, rfl⟩ := List.exists_cons_of_ne_nil some
    have unsigned := unsigned_digits (d :: low) [] nofun
    have run := digit_run_text (d :: low) [] nofun
    rw [List.append_nil] at unsigned run
    exact ⟨negative, digitText (d :: low), d, low, signed_complete sign negative mark _ unsigned, run, rfl⟩
  · rintro ⟨negative, rest, d, low, front, run, rfl⟩
    obtain ⟨sign, whole, mark⟩ := signed_sound text
    have digits := digit_run_sound rest
    rw [front] at whole mark
    rw [run, List.append_nil] at digits
    rw [whole, digits]
    exact .digits sign negative (d :: low) mark (List.cons_ne_nil d low)

theorem read_integer_iff (text : List Char) (i : Int) : readInteger text = some i ↔ IntegerText text i := by
  rw [integer_text_iff, readInteger]
  generalize signed text = front
  obtain ⟨negative, rest⟩ := front
  simp only
  generalize run : digitRun rest = found
  obtain ⟨digits, after⟩ := found
  constructor
  · intro read
    cases digits with
    | nil => cases read
    | cons d low =>
        cases after with
        | nil =>
            cases read
            exact ⟨negative, rest, d, low, rfl, run, rfl⟩
        | cons c behind => cases read
  · rintro ⟨_, _, d, low, same, again, rfl⟩
    cases same
    rw [run] at again
    cases again
    rfl

theorem integer_text_of_int (i : Int) : IntegerText (Numeral.ofInt i).text i := by
  have text : (Numeral.ofInt i).text = signText (decide (i < 0)) ++ digitText (digitsOf i.natAbs) := by
    simp [Numeral.text, Numeral.ofInt]
  have value : signedValue (decide (i < 0)) (digitsOf i.natAbs) = i := by
    rw [signedValue, valueOf_digitsOf]
    by_cases negative : i < 0
    · rw [decide_eq_true negative, if_pos rfl]
      omega
    · rw [decide_eq_false negative, if_neg Bool.false_ne_true]
      omega
  have given := IntegerText.digits _ _ _ (sign_text (decide (i < 0))) (digits_of_nonempty i.natAbs)
  rwa [← text, value] at given

/-! ## Numbers with a point -/

theorem exponent_part_sound (text : List Char) (e : Option (Bool × List Digit))
    (read : exponentPart text = some (e, [])) : ExponentText text (exponentValue e) := by
  cases text with
  | nil =>
      cases read
      exact .none
  | cons c rest =>
      rw [exponentPart] at read
      by_cases letter : c = 'e' ∨ c = 'E'
      · rw [if_pos letter] at read
        generalize front : signed rest = parts at read
        obtain ⟨negative, behind⟩ := parts
        simp only at read
        generalize run : digitRun behind = found at read
        obtain ⟨digits, after⟩ := found
        cases digits with
        | nil => cases read
        | cons d low =>
            cases read
            refine .power c rest _ letter ((integer_text_iff rest _).mpr ⟨negative, behind, d, low, front, run, ?_⟩)
            cases negative <;> rfl
      · rw [if_neg letter] at read
        cases read

theorem exponent_part_complete (text : List Char) (exponent : Int) (given : ExponentText text exponent) :
    Bounded text ∧ ∃ e, exponentPart text = some (e, []) ∧ exponentValue e = exponent := by
  cases given with
  | none => exact ⟨nofun, none, rfl, rfl⟩
  | power letter text exponent marked integer =>
      obtain ⟨negative, rest, d, low, front, run, rfl⟩ := (integer_text_iff text exponent).mp integer
      refine ⟨bounded_cons letter text (by rcases marked with rfl | rfl <;> rfl), some (negative, d :: low), ?_, ?_⟩
      · rw [exponentPart, if_pos marked, front]
        simp only [run]
      · cases negative <;> rfl

theorem sign_unpointed (sign : List Char) (negative : Bool) (mark : SignText sign negative) : '.' ∉ sign := by
  cases mark <;> decide

theorem digits_unpointed (digits : List Digit) : '.' ∉ digitText digits := by
  intro member
  obtain ⟨d, -, point⟩ := List.mem_map.mp member
  revert d
  decide

theorem integer_unpointed (text : List Char) (i : Int) (integer : IntegerText text i) : '.' ∉ text := by
  obtain ⟨sign, negative, digits, mark, some⟩ := integer
  rw [List.mem_append, not_or]
  exact ⟨sign_unpointed sign negative mark, digits_unpointed digits⟩

theorem exponent_unpointed (text : List Char) (exponent : Int) (given : ExponentText text exponent) : '.' ∉ text := by
  cases given with
  | none => exact List.not_mem_nil
  | power letter text exponent marked integer =>
      rw [List.mem_cons, not_or]
      exact ⟨by rcases marked with rfl | rfl <;> decide, integer_unpointed text exponent integer⟩

theorem decimal_parts (text : List Char) (d : Decimal) (read : Decimal.read text = some d) :
    ∃ negative rest whole behind fraction tail e, signed text = (negative, rest) ∧ digitRun rest = (whole, behind) ∧
      fractionPart behind = (fraction, tail) ∧ whole ++ fraction ≠ [] ∧ exponentPart tail = some (e, []) ∧
        d = ⟨negative, valueOf (whole ++ fraction), exponentValue e - fraction.length⟩ := by
  rw [Decimal.read] at read
  generalize front : signed text = parts at read
  obtain ⟨negative, rest⟩ := parts
  simp only at read
  generalize run : digitRun rest = parts at read
  obtain ⟨whole, behind⟩ := parts
  simp only at read
  generalize split : fractionPart behind = parts at read
  obtain ⟨fraction, tail⟩ := parts
  simp only at read
  by_cases none : (whole ++ fraction).isEmpty = true
  · rw [if_pos none] at read
    cases read
  · rw [if_neg none] at read
    have some : whole ++ fraction ≠ [] := by simpa using none
    cases power : exponentPart tail with
    | none =>
        rw [power] at read
        cases read
    | some part =>
        obtain ⟨e, after⟩ := part
        rw [power] at read
        cases after with
        | nil =>
            cases read
            exact ⟨negative, rest, whole, behind, fraction, tail, e, rfl, run, split, some, power, rfl⟩
        | cons c more => cases read

theorem fraction_part_cases (text : List Char) :
    (∃ rest, text = '.' :: rest ∧ fractionPart text = digitRun rest) ∨ fractionPart text = ([], text) := by
  rw [fractionPart.eq_def]
  split
  · exact .inl ⟨_, rfl, rfl⟩
  · exact .inr rfl

theorem pointed_sound (text : List Char) (d : Decimal) (read : Decimal.read text = some d) (point : '.' ∈ text) :
    PointedText text d := by
  obtain ⟨negative, rest, whole, behind, fraction, tail, e, front, run, split, some, part, rfl⟩ :=
    decimal_parts text d read
  obtain ⟨sign, parts, mark⟩ := signed_sound text
  have digits := digit_run_sound rest
  rw [front] at parts mark
  rw [run] at digits
  have power := exponent_part_sound tail e part
  rw [parts, digits] at point ⊢
  rcases fraction_part_cases behind with ⟨after, rfl, same⟩ | same
  · have decimals := digit_run_sound after
    rw [← same, split] at decimals
    rw [decimals]
    exact .point sign negative whole fraction tail _ mark some power
  · rw [split] at same
    cases same
    -- Without a fraction part there is no place for the point.
    rw [List.mem_append, List.mem_append] at point
    rcases point with inSign | inDigits | inPower
    · exact absurd inSign (sign_unpointed sign negative mark)
    · exact absurd inDigits (digits_unpointed whole)
    · exact absurd inPower (exponent_unpointed _ _ power)

theorem pointed_complete (text : List Char) (d : Decimal) (pointed : PointedText text d) :
    '.' ∈ text ∧ Decimal.read text = some d := by
  obtain ⟨sign, negative, whole, fraction, tail, exponent, mark, some, power⟩ := pointed
  obtain ⟨bounded, e, part, value⟩ := exponent_part_complete tail exponent power
  refine ⟨by simp, ?_⟩
  have unsigned := unsigned_digits whole _ (unsigned_point (digitText fraction ++ tail))
  have first := digit_run_text whole _ (bounded_cons '.' (digitText fraction ++ tail) rfl)
  have second : fractionPart ('.' :: (digitText fraction ++ tail)) = (fraction, tail) :=
    digit_run_text fraction tail bounded
  have digits : (whole ++ fraction).isEmpty = false := by simpa using some
  rw [Decimal.read, signed_complete sign negative mark _ unsigned]
  simp only [first, second, digits, part, value]
  rfl

/-! ## One meaning for a text -/

theorem integer_text_unique (text : List Char) (i j : Int) (first : IntegerText text i) (second : IntegerText text j) :
    i = j := by
  rw [← read_integer_iff] at first second
  exact Option.some.inj (first.symm.trans second)

theorem pointed_unique (text : List Char) (d e : Decimal) (first : PointedText text d) (second : PointedText text e) :
    d = e :=
  Option.some.inj ((pointed_complete text d first).2.symm.trans (pointed_complete text e second).2)

theorem integer_not_pointed (text : List Char) (i : Int) (d : Decimal) (integer : IntegerText text i) :
    ¬ PointedText text d :=
  fun pointed => integer_unpointed text i integer (pointed_complete text d pointed).1

/-! ## Shapes -/

theorem is_digit_char (d : Digit) : isDigit d.char = true := by
  revert d
  decide

theorem digit_text_digits (digits : List Digit) : ∀ c ∈ digitText digits, isDigit c = true := by
  intro c member
  obtain ⟨d, -, rfl⟩ := List.mem_map.mp member
  exact is_digit_char d

theorem integer_shape (text : List Char) (i : Int) (integer : IntegerText text i) : isIntegerShape text = true := by
  obtain ⟨sign, negative, digits, mark, some⟩ := integer
  have unsigned := unsigned_digits digits [] nofun
  rw [List.append_nil] at unsigned
  have present : (digitText digits).isEmpty = false := by simpa [digitText] using some
  rw [isIntegerShape, signed_complete sign negative mark _ unsigned]
  simp only [present, Bool.not_false, Bool.true_and, List.all_eq_true]
  exact digit_text_digits digits

theorem integer_shape_unpointed (text : List Char) (shape : isIntegerShape text = true) : '.' ∉ text := by
  obtain ⟨sign, parts, mark⟩ := signed_sound text
  simp only [isIntegerShape, Bool.and_eq_true, List.all_eq_true] at shape
  rw [parts, List.mem_append, not_or]
  exact ⟨sign_unpointed sign _ mark, fun member => absurd (shape.2 '.' member) (by decide)⟩

theorem power_shape (text : List Char) (exponent : Int) (given : ExponentText text exponent) :
    isPowerShape text = true ∧ ∀ c, text.head? = some c → isDigit c = false := by
  cases given with
  | none => exact ⟨rfl, nofun⟩
  | power letter text exponent marked integer =>
      rw [isPowerShape, integer_shape text exponent integer]
      rcases marked with rfl | rfl
      · exact ⟨rfl, fun c front => by cases front; decide⟩
      · exact ⟨rfl, fun c front => by cases front; decide⟩

-- A run of digits ends where something else begins.
theorem digits_spanned (digits : List Digit) (after : List Char) (ends : ∀ c, after.head? = some c → isDigit c = false) :
    (digitText digits ++ after).takeWhile isDigit = digitText digits ∧
      (digitText digits ++ after).dropWhile isDigit = after := by
  have run := digit_text_digits digits
  rw [List.takeWhile_append_of_pos run, List.dropWhile_append_of_pos run]
  cases after with
  | nil => simp
  | cons c rest => simp [ends c rfl]

theorem pointed_shape (text : List Char) (d : Decimal) (pointed : PointedText text d) : isPointedShape text = true := by
  obtain ⟨sign, negative, whole, fraction, tail, exponent, mark, some, power⟩ := pointed
  obtain ⟨shape, ends⟩ := power_shape tail exponent power
  have unsigned := unsigned_digits whole _ (unsigned_point (digitText fraction ++ tail))
  obtain ⟨first, behind⟩ := digits_spanned whole ('.' :: (digitText fraction ++ tail)) (by
    intro c front
    cases front
    decide)
  obtain ⟨second, last⟩ := digits_spanned fraction tail ends
  have digits : (digitText whole ++ digitText fraction).isEmpty = false := by simpa [digitText] using some
  rw [isPointedShape, signed_complete sign negative mark _ unsigned]
  simp only [first, behind, second, last, digits, shape]
  rfl

theorem pointed_shape_point (text : List Char) (shape : isPointedShape text = true) : '.' ∈ text := by
  obtain ⟨sign, parts, -⟩ := signed_sound text
  simp only [isPointedShape] at shape
  split at shape
  · rename_i rest found
    have member : '.' ∈ (signed text).2.dropWhile isDigit := by
      rw [found]
      exact List.mem_cons_self
    rw [parts]
    exact List.mem_append_right sign ((List.dropWhile_sublist isDigit).subset member)
  · cases shape

end Number
end QueryDraft
