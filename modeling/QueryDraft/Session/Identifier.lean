import QueryDraft.Json.Codec

/-!
Identifiers of 128 bits, written in five groups of lower-case hexadecimal digits.
-/

set_option autoImplicit false

namespace QueryDraft

open Json (Codec hexDigit hexValue)

structure Identifier where
  digits : List (Fin 16)
  complete : digits.length = 32
deriving DecidableEq, Repr

namespace Identifier

def groupText (digits : List (Fin 16)) : List Char := digits.map fun d => hexDigit d.val

def text (i : Identifier) : String :=
  let group (start size : Nat) := groupText ((i.digits.drop start).take size)
  String.ofList
    (['-'].intercalate [group 0 8, group 8 4, group 12 4, group 16 4, group 20 12])

def digit? (c : Char) : Option (Fin 16) := (hexValue c).bind fun n => if h : n < 16 then some ⟨n, h⟩ else none

def ofDigits (chars : List Char) : Option Identifier := do
  let digits ← chars.mapM digit?
  if complete : digits.length = 32 then some ⟨digits, complete⟩ else none

def ungroup (chars : List Char) : Option (List Char) :=
  match chars.splitOn '-' with
  | [a, b, c, d, e] =>
    if a.length = 8 ∧ b.length = 4 ∧ c.length = 4 ∧ d.length = 4 ∧ e.length = 12 then some (a ++ b ++ c ++ d ++ e)
    else none
  | _ => none

-- What follows the scheme `urn:uuid:`, whose letters may have either case.
def afterScheme? (chars : List Char) : Option (List Char) :=
  let scheme := "urn:uuid:".toList
  if (chars.take scheme.length).map Char.toLower = scheme then some (chars.drop scheme.length) else none

-- Groups, which braces or the scheme `urn:uuid:` may stand around, or bare digits.
def read (text : String) : Option Identifier :=
  let chars := text.toList
  if '-' ∉ chars then ofDigits chars
  else
    let grouped :=
      match afterScheme? chars with
      | some rest => rest
      | none =>
        match chars with
        | '\x7b' :: rest => if rest.getLast? = some '\x7d' then rest.dropLast else chars
        | _ => chars
    (ungroup grouped).bind ofDigits

def codec : Codec Identifier where
  write i := .string i.text
  read
    | .text (some s) =>
      match read s with
      | some i => .ok i
      | none => .error .malformed
    | _ => .error .malformed

end Identifier
end QueryDraft
