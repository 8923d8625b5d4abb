import QueryDraft.Number.Layout

/-!
JSON values as far as a text goes. A value read from a faulty text keeps what stands before the fault:
an array or object that is not closed ends there, and `broken` marks a value that is no value at all.
So a later reading meets all faults of a text in the order of the text.
-/

set_option autoImplicit false

namespace QueryDraft.Json

open Number (Numeral)

-- The content of a written string is nothing when its escapes name half a surrogate pair. Members keep their
-- order, repeated names included.
inductive Value where
  | null
  | flag (value : Bool)
  | number (value : Numeral)
  | text (content : Option String)
  | array (items : List Value) (closed : Bool)
  | object (members : List (Option String × Value)) (closed : Bool)
  | broken

abbrev Member := Option String × Value

mutual

-- The text of the value follows the grammar to its end.
def Value.whole : Value → Bool
  | .array items closed => closed && wholeItems items
  | .object members closed => closed && wholeMembers members
  | .broken => false
  | _ => true

def wholeItems : List Value → Bool
  | [] => true
  | v :: rest => v.whole && wholeItems rest

def wholeMembers : List Member → Bool
  | [] => true
  | (_, v) :: rest => v.whole && wholeMembers rest

end

mutual

-- Arrays and objects around one another, a plain value counting none.
def Value.depth : Value → Nat
  | .array items _ => depthItems items + 1
  | .object members _ => depthMembers members + 1
  | _ => 0

def depthItems : List Value → Nat
  | [] => 0
  | v :: rest => max v.depth (depthItems rest)

def depthMembers : List Member → Nat
  | [] => 0
  | (_, v) :: rest => max v.depth (depthMembers rest)

end

def Value.string (s : String) : Value := .text (some s)

def Value.list (items : List Value) : Value := .array items true

def Value.record (members : List (String × Value)) : Value := .object (members.map fun (k, v) => (some k, v)) true

end QueryDraft.Json
