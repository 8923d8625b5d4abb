import QueryDraft.Json.Value

/-!
The compact text of a JSON value: no spaces, members in order, only quote marks, backslashes and
control characters escaped.
-/

set_option autoImplicit false

namespace QueryDraft.Json

open Number (digitText)

def hexDigit (n : Nat) : Char := if n < 10 then Char.ofNat (48 + n) else Char.ofNat (87 + n)

def escape (c : Char) : List Char :=
  if c = '"' then ['\\', '"']
  else if c = '\\' then ['\\', '\\']
  else if c = '\n' then ['\\', 'n']
  else if c = '\r' then ['\\', 'r']
  else if c = '\t' then ['\\', 't']
  else if c.toNat = 8 then ['\\', 'b']
  else if c.toNat = 12 then ['\\', 'f']
  else if c.toNat < 32 then ['\\', 'u', '0', '0', hexDigit (c.toNat / 16), hexDigit (c.toNat % 16)]
  else [c]

def stringText (s : List Char) : List Char := '"' :: s.flatMap escape ++ ['"']

mutual

-- A broken value, or a string without content, has no text; the others have exactly one.
def Value.chars : Value → List Char
  | .null => ['n', 'u', 'l', 'l']
  | .flag true => ['t', 'r', 'u', 'e']
  | .flag false => ['f', 'a', 'l', 's', 'e']
  | .number n => n.text
  | .text (some s) => stringText s.toList
  | .text none => []
  | .array items _ => '[' :: itemChars items ++ [']']
  | .object members _ => '\x7b' :: memberChars members ++ ['\x7d']
  | .broken => []

def itemChars : List Value → List Char
  | [] => []
  | [v] => v.chars
  | v :: rest => v.chars ++ ',' :: itemChars rest

def memberChars : List Member → List Char
  | [] => []
  | [(k, v)] => stringText (k.getD "").toList ++ ':' :: v.chars
  | (k, v) :: rest => stringText (k.getD "").toList ++ ':' :: v.chars ++ ',' :: memberChars rest

end

def Value.print (v : Value) : String := String.ofList v.chars

end QueryDraft.Json
