import QueryDraft.Json.Codec
import QueryDraft.Number.Shape
import QueryDraft.Text.Quoted

/-!
Operands of filters. Numbers stand bare in a statement, texts in quote marks.
-/

set_option autoImplicit false

namespace QueryDraft

open Number (Binary64 Decimal Numeral isIntegerShape isPointedShape readInteger)

inductive Operand where
  | int (i : Int64)
  | float (x : Binary64)
  | text (s : String)
deriving DecidableEq

namespace Operand

-- What a text typed into a value box means: an integer of 64 bits, a number with a decimal point that
-- binary64 reaches, or else the text itself as it was typed.
def infer (typed : String) : Operand :=
  let trimmed := Text.trim typed.toList
  if isIntegerShape trimmed then
    match readInteger trimmed with
    | some i => if -(2 ^ 63) ≤ i ∧ i < 2 ^ 63 then .int (Int64.ofInt i) else .text typed
    | none => .text typed
  else if isPointedShape trimmed then
    match (Decimal.read trimmed).bind Decimal.nearest with
    | some x => .float x
    | none => .text typed
  else .text typed

-- The empty text counts as no operand yet.
def isSet : Operand → Bool
  | .text s => s ≠ ""
  | _ => true

def plainText : Operand → String
  | .int i => String.ofList (Numeral.ofInt i.toInt).text
  | .float x => String.ofList x.plain
  | .text s => s

def literal : Operand → String
  | .text s => Text.stringLiteral s
  | number => number.plainText

-- The parts between commas, trimmed, each a literal of its own.
def listLiteral (operand : Operand) : String :=
  let parts := operand.plainText.toList.splitOn ','
  "(" ++ ", ".intercalate (parts.map fun part => Text.stringLiteral (String.ofList (Text.trim part))) ++ ")"

-- Integers beyond 64 bits with a sign are read as floats.
def ofAmount : Json.Amount → Option Operand
  | .natural n => if n.toNat < 2 ^ 63 then some (.int (Int64.ofInt n.toNat)) else .float <$> Binary64.ofNat n.toNat
  | .negative i => some (.int i)
  | .float x => some (.float x)

def codec : Json.Codec Operand where
  write
    | .int i => .number (.ofInt i.toInt)
    | .float x => .number x.numeral
    | .text s => .string s
  read
    | .number n =>
      match (Json.amount n).bind ofAmount with
      | some operand => .ok operand
      | none => .error .malformed
    | .text (some s) => .ok (.text s)
    | _ => .error .malformed

end Operand
end QueryDraft
