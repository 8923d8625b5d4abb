/-!
Decimal digits, the runs they form in a text, and the numbers they stand for.
-/

set_option autoImplicit false

-- `^` means the power of the core library in every module, also in those that import an algebra library.
attribute [instance (high), default_instance (high + 1)] instPowNat

namespace QueryDraft.Number

abbrev Digit := Fin 10

def Digit.char (d : Digit) : Char := Char.ofNat (48 + d.val)

def Digit.ofChar (c : Char) : Option Digit :=
  if shown : 48 ≤ c.toNat ∧ c.toNat ≤ 57 then some ⟨c.toNat - 48, by omega⟩ else none

def valueOf (digits : List Digit) : Nat := digits.foldl (fun n d => 10 * n + d.val) 0

def pushDigits : Nat → Nat → List Digit → List Digit
  | 0, _, low => low
  | fuel + 1, n, low =>
    let last : Digit := ⟨n % 10, Nat.mod_lt n (by decide)⟩
    if n < 10 then last :: low else pushDigits fuel (n / 10) (last :: low)

-- The digits of a number without leading zeros; `[0]` for 0.
def digitsOf (n : Nat) : List Digit := pushDigits (n + 1) n []

def digitText (digits : List Digit) : List Char := digits.map Digit.char

def natText (n : Nat) : String := String.ofList (digitText (digitsOf n))

def digitRun : List Char → List Digit × List Char
  | [] => ([], [])
  | c :: rest =>
    match Digit.ofChar c with
    | some d => let (run, after) := digitRun rest; (d :: run, after)
    | none => ([], c :: rest)

theorem ofChar_char (d : Digit) : Digit.ofChar d.char = some d := by
  revert d
  decide

theorem foldl_digits (n : Nat) (low : List Digit) :
    low.foldl (fun n d => 10 * n + d.val) n = n * 10 ^ low.length + valueOf low := by
  induction low generalizing n with
  | nil => simp [valueOf]
  | cons d rest ih =>
    have front : valueOf (d :: rest) = d.val * 10 ^ rest.length + valueOf rest := by
      simpa [valueOf] using ih (10 * 0 + d.val)
    rw [List.foldl_cons, ih, front, List.length_cons, Nat.pow_succ, Nat.add_mul, Nat.add_assoc, Nat.mul_comm 10 n,
      Nat.mul_assoc, Nat.mul_comm 10]

theorem valueOf_append (high low : List Digit) :
    valueOf (high ++ low) = valueOf high * 10 ^ low.length + valueOf low := by
  rw [valueOf, List.foldl_append]
  exact foldl_digits _ _

theorem valueOf_pushDigits (fuel n : Nat) (low : List Digit) (enough : n < fuel) :
    valueOf (pushDigits fuel n low) = n * 10 ^ low.length + valueOf low := by
  induction fuel generalizing n low with
  | zero => omega
  | succ fuel ih =>
    have front : ∀ (d : Digit), valueOf (d :: low) = d.val * 10 ^ low.length + valueOf low := fun d => by
      simpa [valueOf] using valueOf_append [d] low
    by_cases small : n < 10
    · simp [pushDigits, small, front, Nat.mod_eq_of_lt small]
    · rw [pushDigits, if_neg small, ih _ _ (by omega), front, List.length_cons, Nat.pow_succ, ← Nat.add_assoc,
        Nat.mul_comm (10 ^ _) 10, ← Nat.mul_assoc, ← Nat.add_mul, Nat.mul_comm (n / 10)]
      simp only [Nat.div_add_mod]

theorem valueOf_digitsOf (n : Nat) : valueOf (digitsOf n) = n := by
  rw [digitsOf, valueOf_pushDigits _ _ _ (Nat.lt_succ_self n)]
  simp [valueOf]

theorem digitRun_append (digits : List Digit) (after : List Char)
    (ends : ∀ c, after.head? = some c → Digit.ofChar c = none) :
    digitRun (digitText digits ++ after) = (digits, after) := by
  induction digits with
  | nil =>
    cases after with
    | nil => rfl
    | cons c rest => simp [digitText, digitRun, ends c rfl]
  | cons d rest ih =>
    rw [digitText] at ih
    simp [digitText, digitRun, ofChar_char, ih]

end QueryDraft.Number
