import QueryDraft.Proofs.Snapshot
import QueryDraft.Proofs.TimestampText
import QueryDraft.Session.Saved

/-!
Saved records are read back from their texts, with the query that was saved as its snapshot restores it.
-/

set_option autoImplicit false

namespace QueryDraft

open Json

/-! ## Identifiers -/

namespace Identifier

theorem digit_read (d : Fin 16) : digit? (hexDigit d.val) = some d := by
  revert d
  decide

-- No hexadecimal digit is a hyphen, a brace or the first letter of the scheme.
theorem digit_plain (d : Fin 16) :
    hexDigit d.val ≠ '-' ∧ hexDigit d.val ≠ '\x7b' ∧ (hexDigit d.val).toLower ≠ 'u' := by
  revert d
  decide

theorem group_plain (digits : List (Fin 16)) : '-' ∉ groupText digits := by
  intro member
  obtain ⟨d, -, same⟩ := List.mem_map.mp member
  exact (digit_plain d).1 same

theorem group_read (digits : List (Fin 16)) : (groupText digits).mapM digit? = some digits := by
  induction digits with
  | nil => rfl
  | cons d rest ih =>
      rw [groupText] at ih
      rw [groupText, List.map_cons, List.mapM_cons, digit_read, ih]
      rfl

def groups (i : Identifier) : List (List Char) :=
  [(0, 8), (8, 4), (12, 4), (16, 4), (20, 12)].map fun (start, size) => groupText ((i.digits.drop start).take size)

theorem text_groups (i : Identifier) : i.text.toList = ['-'].intercalate i.groups := by
  rw [text, String.toList_ofList]
  rfl

theorem groups_split (i : Identifier) : i.text.toList.splitOn '-' = i.groups := by
  rw [text_groups]
  apply List.splitOn_intercalate
  · intro group member
    obtain ⟨⟨start, size⟩, -, rfl⟩ := List.mem_map.mp member
    exact group_plain _
  · exact nofun

theorem drop_group (digits : List (Fin 16)) (start size : Nat) :
    groupText ((digits.drop start).take size) ++ groupText (digits.drop (start + size)) =
      groupText (digits.drop start) := by
  rw [groupText, groupText, ← List.map_append, ← List.drop_drop, List.take_append_drop]
  rfl

theorem groups_flatten (i : Identifier) : i.groups.flatten = groupText i.digits := by
  have last := drop_group i.digits 20 12
  have done : i.digits.drop 32 = [] := List.drop_of_length_le (Nat.le_of_eq i.complete)
  rw [done] at last
  simp only [groups, List.map_cons, List.map_nil, List.flatten_cons, List.flatten_nil]
  rw [show ([] : List Char) = groupText [] from rfl, last, drop_group i.digits 16 4, drop_group i.digits 12 4,
    drop_group i.digits 8 4, drop_group i.digits 0 8]
  rfl

theorem ungroup_text (i : Identifier) : ungroup i.text.toList = some (groupText i.digits) := by
  have flat := groups_flatten i
  have size := i.complete
  rw [ungroup, groups_split]
  simp only [groups, List.map_cons, List.map_nil, List.flatten_cons, List.flatten_nil, List.append_nil] at flat ⊢
  have lengths : ∀ start size, start + size ≤ 32 → (groupText ((i.digits.drop start).take size)).length = size := by
    intro start size inside
    simp [groupText]
    omega
  rw [if_pos ⟨lengths 0 8 (by omega), lengths 8 4 (by omega), lengths 12 4 (by omega), lengths 16 4 (by omega),
    lengths 20 12 (by omega)⟩]
  simp only [List.append_assoc, flat]

theorem text_front (i : Identifier) : ∃ d tail, i.text.toList = hexDigit (d : Fin 16).val :: tail := by
  cases shape : i.digits with
  | nil =>
      have size := i.complete
      rw [shape] at size
      cases size
  | cons d rest =>
      have front : i.text.toList.head? = some (hexDigit d.val) := by
        rw [text_groups]
        simp [groups, shape, groupText, List.intercalate_cons_cons]
      exact ⟨d, List.head?_eq_some_iff.mp front⟩

theorem scheme_absent (i : Identifier) : afterScheme? i.text.toList = none := by
  obtain ⟨d, tail, front⟩ := text_front i
  have other : ¬ ((i.text.toList.take "urn:uuid:".toList.length).map Char.toLower = "urn:uuid:".toList) := by
    intro same
    rw [front] at same
    have heads := congrArg List.head? same
    exact (digit_plain d).2.2 (by simpa using heads)
  exact if_neg other

theorem of_digits_group (i : Identifier) : ofDigits (groupText i.digits) = some i := by
  simp [ofDigits, group_read, i.complete]

theorem read_text (i : Identifier) : read i.text = some i := by
  have hyphen : '-' ∈ i.text.toList := by
    rw [text_groups]
    simp [groups, List.intercalate_cons_cons]
  have scheme := scheme_absent i
  have ungrouped := ungroup_text i
  obtain ⟨d, tail, front⟩ := text_front i
  have brace := (digit_plain d).2.1
  rw [front] at hyphen scheme ungrouped
  simp only [read, front, hyphen, not_true_eq_false, if_false, scheme]
  simp [brace, ungrouped, of_digits_group]

theorem lossless : codec.Lossless := by
  intro i
  refine ⟨rfl, ?_⟩
  simp [codec, Value.string, read_text, outcome]

end Identifier

/-! ## Records -/

namespace SavedQuery

def rereadSnapshot : Option Query → Option (Option Query)
  | none => some none
  | some q => q.reread.map some

def reread (r : SavedQuery) : Option SavedQuery := (rereadSnapshot r.snapshot).map fun snapshot => { r with snapshot }

theorem snapshot_returns (snapshot : Option Query) :
    (Codec.optional Query.codec).Returns snapshot (rereadSnapshot snapshot) := by
  cases snapshot with
  | none => exact ⟨trivial, rfl⟩
  | some q => exact optional_some _ q q.reread (query_returns q) nofun

theorem returns (r : SavedQuery) (proper : r.createdAt.Proper) : codec.Returns r r.reread :=
  Shape.codec_returns _ _ _ _ _
    (.cons (needed_returns _ _ _ (field_lossless _ _ _ _ _ Identifier.lossless))
      (.cons (needed_returns _ _ _ (field_lossless _ _ _ _ _ text_lossless))
        (.cons (needed_returns _ _ _ (field_lossless _ _ _ _ _ text_lossless))
          (.cons (needed_returns _ _ _ (field_lossless _ _ _ _ _ text_lossless))
            (.cons (needed_returns _ _ _ (field_lossless _ _ _ _ _ text_lossless))
              (.cons (needed_returns _ _ _ (field_lossless _ _ _ _ _ flag_lossless))
                (.cons (field_returns _ _ _ _ _ _ (snapshot_returns r.snapshot))
                  (.cons (needed_returns _ _ _ (field_returns _ _ _ _ _ _ (r.createdAt.returns proper))) .nil))))))))
    (by decide) (by
      rw [reread]
      cases rereadSnapshot r.snapshot <;> rfl)

theorem parse_record (r : SavedQuery) (proper : r.createdAt.Proper) :
    codec.parse (codec.print r) = outcome r.reread :=
  parse_print codec r r.reread (returns r proper)

end SavedQuery
end QueryDraft
