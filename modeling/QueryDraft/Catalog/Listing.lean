import QueryDraft.Catalog.Basic

/-!
Catalog listings. A listing is checked as a whole before anything is taken from it: its text must be
sound and nested less than 128 deep, and of members with one name the last one counts.
-/

set_option autoImplicit false

namespace QueryDraft

open Json (Codec Fault Member Value)

namespace Json

-- Of members with one name only the last.
def lastMembers : List Member → List Member
  | [] => []
  | (name, v) :: rest =>
    if rest.any fun m => m.1 = name then lastMembers rest else (name, v) :: lastMembers rest

mutual

def Value.settle : Value → Value
  | .array items closed => .array (settleItems items) closed
  | .object members closed => .object (lastMembers (settleMembers members)) closed
  | v => v

def settleItems : List Value → List Value
  | [] => []
  | v :: rest => v.settle :: settleItems rest

def settleMembers : List Member → List Member
  | [] => []
  | (name, v) :: rest => (name, v.settle) :: settleMembers rest

end

end Json

namespace Catalog

def nestingLimit : Nat := 128

def entries (listing : String) : Except Fault (List TableEntry) :=
  let (v, rest) := Json.front listing.toList
  if v.sound && v.depth < nestingLimit && Json.ended rest then (Codec.list TableEntry.codec).read v.settle
  else .error .malformed

def load (listing : String) (limit : Nat) : Except Fault Catalog := do
  return ofEntries (← entries listing) limit

end Catalog
end QueryDraft
