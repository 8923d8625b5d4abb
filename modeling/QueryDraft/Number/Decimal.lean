import QueryDraft.Number.Binary64
import QueryDraft.Number.Digits

/-!
Decimal numbers, their texts, and the binary64 number nearest to one.
-/

set_option autoImplicit false

namespace QueryDraft.Number

-- `coefficient * 10^exponent` with a sign, so that minus zero is a number of its own.
structure Decimal where
  negative : Bool
  coefficient : Nat
  exponent : Int
deriving DecidableEq, Repr

def signed : List Char → Bool × List Char
  | '-' :: rest => (true, rest)
  | '+' :: rest => (false, rest)
  | text => (false, text)

-- An optional exponent part, which is not an exponent at all without a digit in it.
def exponentPart : List Char → Option (Option (Bool × List Digit) × List Char)
  | [] => some (none, [])
  | c :: rest =>
    if c = 'e' ∨ c = 'E' then
      let (negative, rest) := signed rest
      match digitRun rest with
      | ([], _) => none
      | (digits, after) => some (some (negative, digits), after)
    else some (none, c :: rest)

def exponentValue : Option (Bool × List Digit) → Int
  | none => 0
  | some (true, digits) => -(valueOf digits : Int)
  | some (false, digits) => valueOf digits

def readInteger (text : List Char) : Option Int :=
  let (negative, text) := signed text
  match digitRun text with
  | ([], _) => none
  | (digits, []) => some (if negative then -(valueOf digits : Int) else valueOf digits)
  | _ => none

def fractionPart : List Char → List Digit × List Char
  | '.' :: rest => digitRun rest
  | text => ([], text)

namespace Decimal

def read (text : List Char) : Option Decimal :=
  let (negative, text) := signed text
  let (whole, text) := digitRun text
  let (fraction, text) := fractionPart text
  if (whole ++ fraction).isEmpty then none
  else
    match exponentPart text with
    | some (e, []) => some ⟨negative, valueOf (whole ++ fraction), exponentValue e - fraction.length⟩
    | _ => none

-- The nearest binary64 number, a half going to the even neighbour; nothing when it is out of range. Exponents
-- beyond all finite numbers are settled without computing the power of ten.
def nearest (d : Decimal) : Option Binary64 :=
  if d.coefficient = 0 then some (.zero d.negative)
  else
    match d.exponent with
    | .ofNat e => if 400 < e then none else Binary64.ofUnits d.negative (d.coefficient * 10 ^ e * 2 ^ 1074) 1
    | .negSucc e =>
      if 400 + d.coefficient.log2 < e then some (.zero d.negative)
      else Binary64.ofUnits d.negative (d.coefficient * 2 ^ 1074) (10 ^ (e + 1))

end Decimal
end QueryDraft.Number
