import QueryDraft.Number.Shortest

/-!
How numbers are written: plain, with as many zeros as it takes, or as a JSON number.
-/

set_option autoImplicit false

namespace QueryDraft.Number

-- The parts of a number as JSON writes it. There is a point exactly when there are fraction digits.
structure Numeral where
  negative : Bool
  whole : List Digit
  fraction : List Digit
  exponent : Option (Bool × List Digit)
deriving DecidableEq, Repr

def signText (negative : Bool) : List Char := if negative then ['-'] else []

def Numeral.text (n : Numeral) : List Char :=
  let point := if n.fraction.isEmpty then [] else '.' :: digitText n.fraction
  let power := match n.exponent with
    | none => []
    | some (negative, digits) => 'e' :: (if negative then '-' else '+') :: digitText digits
  signText n.negative ++ digitText n.whole ++ point ++ power

def Numeral.ofInt (i : Int) : Numeral := ⟨decide (i < 0), digitsOf i.natAbs, [], none⟩

-- The digits of a decimal and the place of its point: the value is `0.d₁d₂… * 10^point`.
def Decimal.placed (d : Decimal) : List Digit × Int :=
  let digits := digitsOf d.coefficient
  (digits, digits.length + d.exponent)

def positional (digits : List Digit) (point : Int) : List Digit × List Digit :=
  match point with
  | .ofNat n => if n = 0 then ([0], digits) else (digits.take n ++ List.replicate (n - digits.length) 0, digits.drop n)
  | .negSucc n => ([0], List.replicate (n + 1) 0 ++ digits)

-- The plain text of a number: no exponent, and no point for an integer.
def Binary64.plain (x : Binary64) : List Char :=
  let (digits, point) := (x.shortest .away).placed
  let (whole, fraction) := positional digits point
  (Numeral.mk x.negative whole fraction none).text

-- The number as JSON writes it: positional with at least one fraction digit while the point stands within
-- sixteen digits after the first one or four zeros before it, and otherwise with one digit before the point
-- and an exponent.
def Binary64.numeral (x : Binary64) : Numeral :=
  let (digits, point) := (x.shortest .toEven).placed
  if -5 < point ∧ point ≤ 16 then
    let (whole, fraction) := positional digits point
    ⟨x.negative, whole, if fraction.isEmpty then [0] else fraction, none⟩
  else
    ⟨x.negative, digits.take 1, digits.drop 1, some (decide (point - 1 < 0), digitsOf (point - 1).natAbs)⟩

end QueryDraft.Number
