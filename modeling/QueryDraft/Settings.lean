/-!
Settings of a session.
-/

set_option autoImplicit false

namespace QueryDraft

-- Whether an OFFSET stands without a LIMIT, and how many catalog tables are offered.
structure Settings where
  loneOffset : Bool := true
  catalogLimit : Nat := 300
deriving DecidableEq, Repr

namespace Settings

def standard : Settings := {}

def strictOffset : Settings := { standard with loneOffset := false }

def withCatalogLimit (s : Settings) (catalogLimit : Nat) : Settings := { s with catalogLimit }

end Settings
end QueryDraft
