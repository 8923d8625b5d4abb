import QueryDraft.Keyword.Comparison
import QueryDraft.Keyword.JoinKind

/-!
Joins, and how a list of joins lines up with a list of tables: every table after the first owns one.
-/

set_option autoImplicit false

namespace QueryDraft

open Json (Codec Field Shape)

-- The left column belongs to an earlier table, the right one to the table that is joined.
structure Join where
  kind : JoinKind
  left : String
  operator : Comparison
  right : String
deriving DecidableEq, Repr

inductive JoinEdit where
  | kind (kind : JoinKind)
  | left (column : String)
  | operator (operator : Comparison)
  | right (column : String)
deriving DecidableEq, Repr

namespace Join

def blank : Join := ⟨.inner, "", .eq, ""⟩

def isComplete (j : Join) : Bool := j.left ≠ "" && j.right ≠ ""

def apply (j : Join) : JoinEdit → Join
  | .kind kind => { j with kind }
  | .left left => { j with left }
  | .operator operator => { j with operator }
  | .right right => { j with right }

def codec : Codec Join :=
  Shape.codec
    [ Field.of "join_type" JoinKind.codec (·.kind) fun kind j => { j with kind },
      Field.of "left_column" .text (·.left) fun left j => { j with left },
      Field.of "operator" Comparison.codec (·.operator) fun operator j => { j with operator },
      Field.of "right_column" .text (·.right) fun right j => { j with right } ]
    blank

end Join

inductive Alignment where
  | aligned
  | missing (joins : Nat)
  | surplus (joins : Nat)
deriving DecidableEq, Repr

namespace Alignment

def ofCounts (tables joins : Nat) : Alignment :=
  let expected := tables - 1
  if joins = expected then .aligned
  else if joins < expected then .missing (expected - joins)
  else .surplus (joins - expected)

theorem of_counts_aligned (tables joins : Nat) : ofCounts tables joins = .aligned ↔ joins = tables - 1 := by
  unfold ofCounts
  dsimp only
  split
  · simp [*]
  · split <;> simp [*]

theorem of_counts_missing (tables joins n : Nat) :
    ofCounts tables joins = .missing n ↔ n ≠ 0 ∧ tables = joins + n + 1 := by
  unfold ofCounts
  dsimp only
  split
  · simp only [reduceCtorEq, false_iff]
    omega
  · split
    · simp only [missing.injEq]
      omega
    · simp only [reduceCtorEq, false_iff]
      omega

theorem of_counts_surplus (tables joins n : Nat) :
    ofCounts tables joins = .surplus n ↔ n ≠ 0 ∧ joins = tables - 1 + n := by
  unfold ofCounts
  dsimp only
  split
  · simp only [reduceCtorEq, false_iff]
    omega
  · split
    · simp only [reduceCtorEq, false_iff]
      omega
    · simp only [surplus.injEq]
      omega

-- One table and one join less drift as before, as long as a table is left.
theorem of_counts_succ (tables joins : Nat) (some : 0 < tables) :
    ofCounts (tables + 1) (joins + 1) = ofCounts tables joins := by
  unfold ofCounts
  have expected : tables + 1 - 1 = tables - 1 + 1 := by omega
  simp only [expected, Nat.add_right_cancel_iff, Nat.add_lt_add_iff_right, Nat.add_sub_add_right]

def isAligned : Alignment → Bool
  | .aligned => true
  | _ => false

theorem is_aligned_iff (tables joins : Nat) : (ofCounts tables joins).isAligned = true ↔ joins = tables - 1 := by
  rw [← of_counts_aligned]
  cases ofCounts tables joins <;> simp [isAligned]

def text : Alignment → String
  | .aligned => "aligned"
  | .missing n => Number.natText n ++ " table(s) without a join"
  | .surplus n => Number.natText n ++ " join(s) without a table"

end Alignment
end QueryDraft
