import Mathlib.Data.List.Basic
import Mathlib.Logic.Function.Iterate
import QueryDraft.Proofs.EditEffects

/-!
Tables and the joins that attach them, through edits that change how many there are. A table that is removed takes
its own join along and no other, and a join that is edited before it is there is made like one that is added.
-/

set_option autoImplicit false

namespace QueryDraft

namespace Query

variable (q : Query) (idx : Nat)

/-! ## Removing a table -/

-- The tables after the first, each with its join; one that waits for its join has none.
def pairings : List (Source × Option Join) := (q.sources.drop 1).mapIdx fun k s => (s, q.joins[k]?)

-- The joins that have no table.
def surplusJoins : List Join := q.joins.drop (q.sources.length - 1)

theorem pairing_at (k : Nat) : q.pairings[k]? = (q.joined? k).map fun s => (s, q.joins[k]?) := by
  rw [pairings, List.getElem?_mapIdx, List.getElem?_drop, Nat.add_comm, joined?]

theorem remove_behind (behind : 1 ≤ idx) (inside : idx < q.sources.length) :
    q.removeTable idx = { q with sources := q.sources.eraseIdx idx, joins := q.joins.eraseIdx (idx - 1) } := by
  rw [removeTable, if_pos inside, if_neg (Nat.ne_of_gt behind)]

theorem pairings_removed (behind : 1 ≤ idx) (inside : idx < q.sources.length) :
    (q.removeTable idx).pairings = q.pairings.eraseIdx (idx - 1) := by
  apply List.ext_getElem?
  intro k
  rw [List.getElem?_eraseIdx, pairing_at, pairing_at, pairing_at, q.remove_behind idx behind inside]
  simp only [joined?, List.getElem?_eraseIdx]
  by_cases before : k < idx - 1
  · have joined : k + 1 < idx := by omega
    rw [if_pos before, if_pos before, if_pos joined]
  · have joined : ¬ k + 1 < idx := by omega
    rw [if_neg before, if_neg before, if_neg joined]

theorem surplus_removed (behind : 1 ≤ idx) (inside : idx < q.sources.length) :
    (q.removeTable idx).surplusJoins = q.surplusJoins := by
  rw [surplusJoins, surplusJoins, q.remove_behind idx behind inside]
  dsimp only
  rw [List.length_eraseIdx_of_lt inside]
  apply List.ext_getElem?
  intro k
  have after : ¬ q.sources.length - 1 - 1 + k < idx - 1 := by omega
  have next : q.sources.length - 1 - 1 + k + 1 = q.sources.length - 1 + k := by omega
  rw [List.getElem?_drop, List.getElem?_drop, List.getElem?_eraseIdx, if_neg after, next]

theorem alignment_removed (behind : 1 ≤ idx) (inside : idx < q.sources.length) (joined : idx ≤ q.joins.length) :
    (q.removeTable idx).alignment = q.alignment := by
  have tables : q.sources.length = q.sources.length - 1 + 1 := by omega
  have joins : q.joins.length = q.joins.length - 1 + 1 := by omega
  rw [alignment, alignment, q.remove_behind idx behind inside]
  dsimp only
  rw [List.length_eraseIdx_of_lt inside, List.length_eraseIdx_of_lt (by omega)]
  conv => rhs; rw [tables, joins]
  exact (Alignment.of_counts_succ _ _ (by omega)).symm

theorem waiting_removed (behind : 1 ≤ idx) (inside : idx < q.sources.length) (waits : q.joins.length < idx) :
    ∃ n, q.alignment = .missing (n + 1) ∧ (q.removeTable idx).alignment = if n = 0 then .aligned else .missing n := by
  refine ⟨q.sources.length - q.joins.length - 2, ?_, ?_⟩
  · rw [alignment, Alignment.of_counts_missing]
    omega
  · rw [alignment, q.remove_behind idx behind inside]
    dsimp only
    rw [List.length_eraseIdx_of_lt inside, List.eraseIdx_of_length_le (by omega)]
    split
    · rw [Alignment.of_counts_aligned]
      omega
    · rw [Alignment.of_counts_missing]
      omega

/-- A table behind the first one goes with its own join. All other tables keep their joins, and what is missing or
too much stays so, but that one join less is missing where the removed table still waited for its own. -/
theorem table_removed (behind : 1 ≤ idx) (inside : idx < q.sources.length) :
    let left := q.removeTable idx
    left.pairings = q.pairings.eraseIdx (idx - 1) ∧ left.sources.head? = q.sources.head? ∧
      left.surplusJoins = q.surplusJoins ∧ left.joins = q.joins.eraseIdx (idx - 1) ∧
      { left with sources := q.sources, joins := q.joins } = q ∧
      (q.alignment = .aligned → left.alignment = .aligned) ∧
      (idx ≤ q.joins.length → left.alignment = q.alignment) ∧
      (q.joins.length < idx →
        ∃ n, q.alignment = .missing (n + 1) ∧ left.alignment = if n = 0 then .aligned else .missing n) := by
  intro left
  have removed : left = { q with sources := q.sources.eraseIdx idx, joins := q.joins.eraseIdx (idx - 1) } :=
    q.remove_behind idx behind inside
  have drift := q.alignment_removed idx behind inside
  refine ⟨q.pairings_removed idx behind inside, ?_, q.surplus_removed idx behind inside, by rw [removed], by rw [removed],
    fun aligned => ?_, drift, q.waiting_removed idx behind inside⟩
  · rw [removed, List.head?_eq_getElem?, List.head?_eq_getElem?, List.getElem?_eraseIdx_of_lt behind]
  · have joins := (Alignment.of_counts_aligned _ _).mp aligned
    exact (drift (by omega)).trans aligned

-- The items go with the join that attaches them; the tags behind them keep theirs, and the notes still wait.
theorem table_removed_example :
    let q : Query :=
      { empty with
        sources := [⟨"1", "users", none⟩, ⟨"2", "items", none⟩, ⟨"3", "tags", none⟩, ⟨"4", "notes", none⟩]
        joins := [⟨.inner, "users.id", .eq, "items.user_id"⟩, ⟨.left, "users.id", .eq, "tags.user_id"⟩] }
    let left := q.removeTable 1
    left.pairings =
        [(⟨"3", "tags", none⟩, some ⟨.left, "users.id", .eq, "tags.user_id"⟩), (⟨"4", "notes", none⟩, none)] ∧
      left.pairings = q.pairings.eraseIdx 0 ∧ left.alignment = q.alignment ∧ left.alignment = .missing 1 ∧
      (q.removeTable 3).alignment = .aligned := by
  intro q left
  obtain ⟨pairings, -, -, -, -, -, drift, -⟩ := q.table_removed 1 (by decide) (by decide)
  exact ⟨by decide, pairings, drift (by decide), by decide, by decide⟩

/-! ## Making joins -/

theorem add_joins (k : Nat) : addJoin^[k] q = { q with joins := q.joins ++ List.replicate k .blank } := by
  induction k with
  | zero => rw [List.replicate_zero, List.append_nil, Function.iterate_zero_apply]
  | succ k ih => rw [Function.iterate_succ_apply', ih, addJoin, List.append_assoc, ← List.replicate_succ']

theorem add_joins_length (k : Nat) : (addJoin^[k] q).joins.length = q.joins.length + k := by
  rw [add_joins, List.length_append, List.length_replicate]

theorem add_joins_sources (k : Nat) : (addJoin^[k] q).sources = q.sources := by
  rw [add_joins]

-- The query after joins are added until there is one at a position.
def FilledTo (idx : Nat) (q r : Query) : Prop :=
  ∃ k, r = addJoin^[k] q ∧ idx < r.joins.length ∧ ∀ fewer < k, (addJoin^[fewer] q).joins.length ≤ idx

theorem filled_to :
    FilledTo idx q { q with joins := q.joins ++ List.replicate (idx + 1 - q.joins.length) .blank } := by
  refine ⟨idx + 1 - q.joins.length, (q.add_joins _).symm, ?_, fun fewer bound => ?_⟩
  · rw [List.length_append, List.length_replicate]
    omega
  · rw [add_joins_length]
    omega

variable (e : JoinEdit)

theorem edit_join_filled (made : idx < q.joins.length ∨ (q.joined? idx).isSome = true) :
    ∃ r j, FilledTo idx q r ∧ r.joins[idx]? = some j ∧
      q.editJoin idx e = { r with joins := r.joins.set idx (j.apply e) } := by
  have waiting : idx < q.joins.length ∨ idx + 1 < q.sources.length := by
    simpa [joined?] using made
  obtain ⟨-, -, inside, -⟩ := q.filled_to idx
  have found := List.getElem?_eq_getElem inside
  refine ⟨_, _, q.filled_to idx, found, ?_⟩
  rw [editJoin, if_pos waiting]
  dsimp only
  rw [List.modify_eq_set_getElem?, found]
  rfl

theorem edit_join_refused (none : ¬ (idx < q.joins.length ∨ (q.joined? idx).isSome = true)) : q.editJoin idx e = q := by
  rw [editJoin, if_neg]
  simpa [joined?] using none

theorem edit_join_elsewhere (k : Nat) (there : k < q.joins.length) (other : k ≠ idx) :
    (q.editJoin idx e).joins[k]? = q.joins[k]? := by
  rw [editJoin]
  split
  · dsimp only
    rw [List.getElem?_modify_ne _ _ other.symm, List.getElem?_append_left there]
  · rfl

/-- Editing a join is the same as adding joins until it is there and then editing it, if a table waits for it, and
changes no other join. As many joins as are missing have to be added, or the last of them edited, to line up. -/
theorem join_edited :
    (idx < q.joins.length ∨ (q.joined? idx).isSome = true → ∃ r j, FilledTo idx q r ∧ r.joins[idx]? = some j ∧
        q.editJoin idx e = { r with joins := r.joins.set idx (j.apply e) }) ∧
      (¬ (idx < q.joins.length ∨ (q.joined? idx).isSome = true) → q.editJoin idx e = q) ∧
      (∀ k < q.joins.length, k ≠ idx → (q.editJoin idx e).joins[k]? = q.joins[k]?) ∧
      ∀ n, q.alignment = .missing n → (addJoin^[n] q).alignment = .aligned ∧
        (∀ fewer < n, (addJoin^[fewer] q).alignment ≠ .aligned) ∧
        (q.editJoin (q.sources.length - 2) e).alignment = .aligned := by
  refine ⟨q.edit_join_filled idx e, q.edit_join_refused idx e, q.edit_join_elsewhere idx e, fun n missing => ?_⟩
  obtain ⟨positive, tables⟩ := (Alignment.of_counts_missing _ _ n).mp missing
  refine ⟨?_, fun fewer bound aligned => ?_, ?_⟩
  · rw [alignment, Alignment.of_counts_aligned, add_joins_length, add_joins_sources]
    omega
  · rw [alignment, Alignment.of_counts_aligned, add_joins_length, add_joins_sources] at aligned
    omega
  · have sources : (q.editJoin (q.sources.length - 2) e).sources = q.sources :=
      (apply_ite Query.sources _ _ _).trans (ite_self _)
    rw [alignment, Alignment.of_counts_aligned, edit_join_length, sources, if_pos (by omega)]
    omega

-- Of three joins that are missing, editing the second makes two; the one that was there is left alone.
theorem join_edited_example :
    let q : Query :=
      { empty with
        sources := [.blank, .blank, .blank, .blank, .blank]
        joins := [⟨.left, "a.id", .eq, "b.id"⟩] }
    let edited := q.editJoin 2 (.right "d.id")
    edited.joins = [⟨.left, "a.id", .eq, "b.id"⟩, .blank, { Join.blank with right := "d.id" }] ∧
      (∃ r j, FilledTo 2 q r ∧ r.joins[2]? = some j ∧
        edited = { r with joins := r.joins.set 2 (j.apply (.right "d.id")) }) ∧
      q.alignment = .missing 3 ∧ (addJoin^[3] q).alignment = .aligned ∧ (addJoin^[2] q).alignment ≠ .aligned ∧
      (q.editJoin 3 (.right "d.id")).alignment = .aligned ∧ q.editJoin 4 (.right "d.id") = q := by
  intro q edited
  obtain ⟨made, -, -, lines⟩ := q.join_edited 2 (.right "d.id")
  obtain ⟨aligned, fewer, last⟩ := lines 3 (by decide)
  exact ⟨by decide, made (by decide), by decide, aligned, fewer 2 (by decide), last,
    (q.join_edited 4 (.right "d.id")).2.1 (by decide)⟩

end Query
end QueryDraft
