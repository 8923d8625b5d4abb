import QueryDraft.Proofs.CorrectRounding
import QueryDraft.Proofs.NumberGrammar

/-!
What may be typed for a number: operands are inferred by the grammar of integers and of numbers with a decimal point,
and by nothing else.
-/

set_option autoImplicit false

namespace QueryDraft

/-! ## What is inferred -/

namespace Operand

open Number

-- What a text means by the grammar. Blanks around it do not count, but a text that is no number keeps them.
inductive Means (typed : String) : Operand → Prop
  | int (i : Int64) (integer : IntegerText (Text.trim typed.toList) i.toInt) : Means typed (.int i)
  | float (d : Decimal) (x : Binary64) (pointed : PointedText (Text.trim typed.toList) d) (rounds : d.RoundsTo x) :
      Means typed (.float x)
  | text (integer : ∀ i : Int64, ¬ IntegerText (Text.trim typed.toList) i.toInt)
      (pointed : ∀ d x, PointedText (Text.trim typed.toList) d → ¬ d.RoundsTo x) : Means typed (.text typed)

theorem means_infer (typed : String) : Means typed (infer typed) := by
  simp only [infer]
  by_cases shape : isIntegerShape (Text.trim typed.toList) = true
  · have other : ∀ d, ¬ PointedText (Text.trim typed.toList) d := fun d pointed =>
      integer_shape_unpointed _ shape (pointed_complete _ d pointed).1
    rw [if_pos shape]
    cases integer : readInteger (Text.trim typed.toList) with
    | some n =>
        have given := (read_integer_iff _ n).mp integer
        simp only
        by_cases fits : -(2 ^ 63) ≤ n ∧ n < 2 ^ 63
        · rw [if_pos fits]
          refine .int _ ?_
          rwa [Int64.toInt_ofInt_of_le fits.1 fits.2]
        · rw [if_neg fits]
          refine .text (fun i same => fits ?_) fun d x pointed => absurd pointed (other d)
          rw [integer_text_unique _ n i.toInt given same]
          exact ⟨i.le_toInt, i.toInt_lt⟩
    | none =>
        refine .text (fun i given => ?_) fun d x pointed => absurd pointed (other d)
        rw [← read_integer_iff, integer] at given
        cases given
  · have other : ∀ i : Int64, ¬ IntegerText (Text.trim typed.toList) i.toInt := fun i integer =>
      shape (integer_shape _ _ integer)
    rw [if_neg shape]
    by_cases point : isPointedShape (Text.trim typed.toList) = true
    · rw [if_pos point]
      cases found : (Decimal.read (Text.trim typed.toList)).bind Decimal.nearest with
      | some x =>
          obtain ⟨d, read, nearest⟩ := Option.bind_eq_some_iff.mp found
          have pointed := pointed_sound _ d read (pointed_shape_point _ point)
          exact .float d x pointed ((Decimal.nearest_iff d x).mp nearest)
      | none =>
          refine .text other fun d x pointed rounds => ?_
          rw [(pointed_complete _ d pointed).2, Option.bind_some, (Decimal.nearest_iff d x).mpr rounds] at found
          cases found
    · rw [if_neg point]
      exact .text other fun d x pointed => absurd (pointed_shape _ d pointed) point

theorem means_unique (typed : String) (o p : Operand) (first : Means typed o) (second : Means typed p) : o = p := by
  cases first with
  | int i integer =>
      cases second with
      | int j other => rw [Int64.toInt_inj.mp (integer_text_unique _ i.toInt j.toInt integer other)]
      | float d x pointed => exact absurd pointed (integer_not_pointed _ i.toInt d integer)
      | text none => exact absurd integer (none i)
  | float d x pointed rounds =>
      cases second with
      | int i integer => exact absurd pointed (integer_not_pointed _ i.toInt d integer)
      | float e y other again =>
          cases pointed_unique _ d e pointed other
          rw [Decimal.rounds_unique d x y rounds again]
      | text _ none => exact absurd rounds (none d x pointed)
  | text noInteger noPointed =>
      cases second with
      | int i integer => exact absurd integer (noInteger i)
      | float d x pointed rounds => exact absurd rounds (noPointed d x pointed)
      | text => rfl

theorem infer_iff (typed : String) (o : Operand) : infer typed = o ↔ Means typed o := by
  constructor
  · rintro rfl
    exact means_infer typed
  · exact means_unique typed (infer typed) o (means_infer typed)

theorem trim_number (text : List Char) (number : ∀ c ∈ text, isNumberChar c = true) :
    Text.trim (String.ofList text).toList = text := by
  rw [String.toList_ofList]
  exact Text.trim_inert text fun c member => (number_char_inert c (number c member)).1

theorem infer_shown_integer (i : Int64) : infer (plainText (.int i)) = .int i := by
  rw [infer_iff]
  refine .int i ?_
  rw [plainText, trim_number _ (number_char_text (Numeral.ofInt i.toInt) rfl)]
  exact integer_text_of_int i.toInt

/-- Operands are inferred by the grammar of numbers and by nothing else: an integer of 64 bits from the text of one, a
binary64 number from the text of a decimal with a point that rounds to it, and every other text is kept as it was
typed, blanks included. What is shown of an integer is inferred as this integer. -/
theorem infer_exact (typed : String) :
    (∀ n : Int, (∃ i : Int64, infer typed = .int i ∧ i.toInt = n) ↔
      IntegerText (Text.trim typed.toList) n ∧ -(2 ^ 63) ≤ n ∧ n < 2 ^ 63) ∧
    (∀ x, infer typed = .float x ↔ ∃ d, PointedText (Text.trim typed.toList) d ∧ d.RoundsTo x) ∧
    (∀ s, infer typed = .text s ↔ s = typed ∧
      (∀ n, IntegerText (Text.trim typed.toList) n → ¬ (-(2 ^ 63) ≤ n ∧ n < 2 ^ 63)) ∧
      ∀ d x, PointedText (Text.trim typed.toList) d → ¬ d.RoundsTo x) ∧
    ∀ i, infer (plainText (.int i)) = .int i := by
  simp only [infer_iff]
  refine ⟨fun n => ?_, fun x => ?_, fun s => ?_, fun i => (infer_iff _ _).mp (infer_shown_integer i)⟩
  · constructor
    · rintro ⟨i, means, rfl⟩
      cases means with
      | int _ integer => exact ⟨integer, i.le_toInt, i.toInt_lt⟩
    · rintro ⟨integer, low, high⟩
      have same := Int64.toInt_ofInt_of_le low high
      exact ⟨Int64.ofInt n, .int _ (same.symm ▸ integer), same⟩
  · constructor
    · intro means
      cases means with
      | float d _ pointed rounds => exact ⟨d, pointed, rounds⟩
    · rintro ⟨d, pointed, rounds⟩
      exact .float d x pointed rounds
  · constructor
    · intro means
      cases means with
      | text noInteger noPointed =>
          refine ⟨rfl, fun n integer ⟨low, high⟩ => noInteger (Int64.ofInt n) ?_, noPointed⟩
          rwa [Int64.toInt_ofInt_of_le low high]
    · rintro ⟨rfl, noInteger, noPointed⟩
      exact .text (fun i integer => noInteger _ integer ⟨i.le_toInt, i.toInt_lt⟩) noPointed

end Operand
end QueryDraft
