import QueryDraft.Text.UpperTable

/-!
Upper-casing of texts, for all scripts.
-/

set_option autoImplicit false

namespace QueryDraft.Text

def UpperRun.holds (run : UpperRun) (n : Nat) : Bool :=
  run.first ≤ n && n ≤ run.last && (n - run.first) % run.step == 0

-- The upper case of one character, which may be several; a character without one is its own.
def upperChar (c : Char) : List Char :=
  let n := c.toNat
  match upperExpansions.lookup n with
  | some codes => codes.map Char.ofNat
  | none =>
    match upperRuns.find? fun run => run.holds n with
    | some run => [Char.ofNat (run.upper + (n - run.first))]
    | none => [c]

def upper (text : List Char) : List Char := text.flatMap upperChar

end QueryDraft.Text
