import QueryDraft.Number.Decimal

/-!
The shortest decimal of a binary64 number: among the decimals that round to the number, one with the
fewest digits, and among those the nearest. It is found on the coarsest grid of multiples of a power
of ten that has a point between the two ends of the rounding interval.
-/

set_option autoImplicit false

namespace QueryDraft.Number

-- Which of two equally near decimals is taken: the one of larger magnitude, or the even one.
inductive Tie where
  | away
  | toEven
deriving DecidableEq, Repr

structure Interval where
  low : Nat
  value : Nat
  high : Nat
  closed : Bool
deriving DecidableEq, Repr

namespace Interval

def holds (i : Interval) (x : Nat) : Bool :=
  if i.closed then i.low ≤ x && x ≤ i.high else i.low < x && x < i.high

-- The multiple of the unit that the interval holds, the nearer one where it holds two.
def pointOn (i : Interval) (tie : Tie) (unit : Nat) : Option Nat :=
  let under := i.value / unit
  let rest := i.value % unit
  match i.holds (under * unit), i.holds ((under + 1) * unit) with
  | true, false => some under
  | false, true => some (under + 1)
  | false, false => none
  | true, true =>
    if 2 * rest < unit then some under
    else if unit < 2 * rest then some (under + 1)
    else match tie with
      | .away => some (under + 1)
      | .toEven => some (if under % 2 = 0 then under else under + 1)

-- The first hit from the grid of step `10^grid * unit` down to the grid of step `unit`.
def coarsest (i : Interval) (tie : Tie) (unit : Nat) : Nat → Nat × Nat
  | 0 => ((i.pointOn tie unit).getD (i.value / unit), 0)
  | grid + 1 =>
    match i.pointOn tie (10 ^ (grid + 1) * unit) with
    | some point => (point, grid + 1)
    | none => coarsest i tie unit grid

end Interval

namespace Binary64

-- The numbers that round to `x`, in units of `10^-324 / 2^1076`. The gap below a power of two is half the gap
-- above it, unless the number is as small as the finest spacing.
def interval (x : Binary64) : Interval :=
  let step := 2 ^ x.scale * 10 ^ 324
  let lower := if x.significand = 2 ^ 52 ∧ 0 < x.scale then 1 else 2
  { low := (4 * x.significand - lower) * step
    value := 4 * x.significand * step
    high := (4 * x.significand + 2) * step
    closed := x.significand % 2 == 0 }

def shortest (tie : Tie) (x : Binary64) : Decimal :=
  if x.isZero then ⟨x.negative, 0, 0⟩
  else
    let (point, grid) := x.interval.coarsest tie (2 ^ 1076) 633
    ⟨x.negative, point, (grid : Int) - 324⟩

end Binary64
end QueryDraft.Number
