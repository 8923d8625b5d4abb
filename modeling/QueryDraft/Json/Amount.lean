import QueryDraft.Json.Value

/-!
The amounts that JSON numbers are read as: an integer of 64 bits where the numeral is one, otherwise a
binary64 number. The latter comes from the leading digits as a 64-bit integer and one product or
quotient with a power of ten, so it can miss the nearest number by a unit or so in the last place.
-/

set_option autoImplicit false

namespace QueryDraft.Json

open Number (Digit Binary64 Numeral valueOf exponentValue)

def wordLimit : Nat := 2 ^ 64

-- Takes digits into the word while it holds them. The digits from the first one that does not fit are counted
-- only.
def intake (word : Nat) : List Digit → Nat × Nat
  | [] => (word, 0)
  | d :: rest => if 10 * word + d.val < wordLimit then intake (10 * word + d.val) rest else (word, rest.length + 1)

-- The power of ten as a binary64 number, for the powers up to the largest that is one.
def power? (n : Nat) : Option Binary64 := if n ≤ 308 then Binary64.ofNat (10 ^ n) else none

-- The quotient by `10^n`, taken in steps of `10^308`. Zero stays zero, so few steps are ever left.
def scaleDown : Nat → Binary64 → Nat → Option Binary64
  | 0, _, _ => some (.zero false)
  | steps + 1, x, n =>
    match power? n with
    | some p => x.div p
    | none => if x.isZero then some x else do scaleDown steps (← x.div (← power? 308)) (n - 308)

def scaled (word : Nat) (exponent : Int) : Option Binary64 := do
  let x ← Binary64.ofNat word
  match exponent with
  | .ofNat n =>
    match power? n with
    | some p => x.mul p
    | none => if x.isZero then some x else none
  | .negSucc n => scaleDown 4 x (n + 1)

-- The binary64 number that the numeral is read as; nothing when it is out of range.
def approximate (n : Numeral) : Option Binary64 := do
  let (word, dropped) := intake 0 n.whole
  let (word, missed) := intake word n.fraction
  let places : Int := n.fraction.length - missed
  let x ← scaled word (dropped - places + exponentValue n.exponent)
  return { x with negative := n.negative }

inductive Amount where
  | natural (n : UInt64)
  | negative (i : Int64)
  | float (x : Binary64)
deriving DecidableEq

-- Minus zero is no integer.
def amount (n : Numeral) : Option Amount :=
  let size := valueOf n.whole
  if n.fraction.isEmpty && n.exponent.isNone && !n.negative && size < 2 ^ 64 then
    some (.natural (UInt64.ofNat size))
  else if n.fraction.isEmpty && n.exponent.isNone && n.negative && 0 < size && size ≤ 2 ^ 63 then
    some (.negative (Int64.ofInt (-(size : Int))))
  else (approximate n).map .float

end QueryDraft.Json
