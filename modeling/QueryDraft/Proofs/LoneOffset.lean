import QueryDraft.Proofs.Compilation

/-!
What the settings change in a statement: the one text that they decide on is an OFFSET that has no LIMIT to stand
with.
-/

set_option autoImplicit false

namespace QueryDraft

open Number (natText)

namespace Query

variable (q : Query) (a b : Settings)

theorem trailer_alone (offset : UInt64) (unlimited : q.limit = none) (given : q.offset = some offset) :
    q.trailer a = if a.loneOffset then " OFFSET " ++ natText offset.toNat else "" := by
  rw [trailer, unlimited, given]

theorem trailer_silent (silent : q.limit ≠ none ∨ q.offset = none) : q.trailer a = "" := by
  unfold trailer
  split
  · rename_i limit offset
    rcases silent with limited | without
    · exact absurd limit limited
    · rw [without] at offset
      cases offset
  · rfl

theorem offset_text_ne_empty (offset : UInt64) : " OFFSET " ++ natText offset.toNat ≠ "" := by
  intro empty
  have chars := congrArg String.toList empty
  simp at chars

theorem trailer_eq_iff :
    q.trailer a = q.trailer b ↔ ¬ (q.limit = none ∧ q.offset ≠ none ∧ a.loneOffset ≠ b.loneOffset) := by
  by_cases silent : q.limit ≠ none ∨ q.offset = none
  · rw [trailer_silent q a silent, trailer_silent q b silent]
    exact iff_of_true rfl fun alone => silent.elim (absurd alone.1) alone.2.1
  · obtain ⟨limited, given⟩ := not_or.mp silent
    have unlimited := Classical.not_not.mp limited
    obtain ⟨offset, found⟩ := Option.ne_none_iff_exists'.mp given
    have text := offset_text_ne_empty offset
    rw [trailer_alone q a offset unlimited found, trailer_alone q b offset unlimited found]
    cases a.loneOffset <;> cases b.loneOffset <;> simp [unlimited, given, text, text.symm]

-- A query that fails does so before the settings are looked at.
theorem compile_eq_iff : q.compile a = q.compile b ↔ (q.issues = [] → q.trailer a = q.trailer b) := by
  by_cases valid : q.issues = []
  · rw [compile_of_valid a q valid, compile_of_valid b q valid, Except.ok.injEq, String.append_left_inj,
      String.append_right_inj]
    exact (imp_iff_right valid).symm
  · rw [compile_of_issues a q valid, compile_of_issues b q valid]
    exact iff_of_true rfl fun passes => absurd passes valid

-- Without its OFFSET a query has the same issues, and the same lines if it has no LIMIT.
theorem compile_without_offset (valid : q.issues = []) (unlimited : q.limit = none) :
    ({ q with offset := none } : Query).compile a = .ok ("\n".intercalate q.clauseLines ++ ";") := by
  have lines : ({ q with offset := none } : Query).clauseLines = q.clauseLines := by
    have limits : ({ q with offset := none } : Query).limitClause? = q.limitClause? := by
      rw [limitClause?, limitClause?, unlimited]
      rfl
    rw [clauseLines, clauseLines, limits]
    rfl
  rw [compile_of_valid a { q with offset := none } valid, lines, trailer_silent _ a (.inr rfl), String.append_empty]

/-- Under two settings a query compiles alike unless it has no issues, no LIMIT and an OFFSET of which one setting
makes nothing. Then the OFFSET stands at the very end of the one text, and the other is that of the query without
it. How many tables a catalog may offer is never asked. -/
theorem settings_matter :
    (q.compile a = q.compile b ↔
      ¬ (q.issues = [] ∧ q.limit = none ∧ q.offset ≠ none ∧ a.loneOffset ≠ b.loneOffset)) ∧
      (∀ offset, q.issues = [] → q.limit = none → q.offset = some offset → a.loneOffset = true → b.loneOffset = false →
        ∃ body, q.compile a = .ok (body ++ " OFFSET " ++ natText offset.toNat ++ ";") ∧
          q.compile b = .ok (body ++ ";") ∧
          ∀ settings, ({ q with offset := none } : Query).compile settings = .ok (body ++ ";")) ∧
      ∀ catalogLimit, q.compile (a.withCatalogLimit catalogLimit) = q.compile a := by
  refine ⟨?_, fun offset valid unlimited given permissive strict => ?_, fun catalogLimit => ?_⟩
  · rw [compile_eq_iff, trailer_eq_iff, ← not_and]
  · refine ⟨"\n".intercalate q.clauseLines, ?_, ?_, fun settings => q.compile_without_offset settings valid unlimited⟩
    · rw [compile_of_valid a q valid, trailer_alone q a offset unlimited given, if_pos permissive, ← String.append_assoc]
    · have silent : ¬ b.loneOffset = true := by rw [strict]; exact Bool.false_ne_true
      rw [compile_of_valid b q valid, trailer_alone q b offset unlimited given, if_neg silent, String.append_empty]
  · rw [compile_eq_iff, trailer_eq_iff]
    exact fun _ differs => differs.2.2 rfl

-- The OFFSET stands behind the last clause, which is an ORDER BY here.
theorem settings_matter_example :
    let q : Query :=
      { empty with
        sources := [⟨"t_users", "users", none⟩]
        computed := [⟨"COUNT(*)", "n"⟩]
        sorting := [⟨some (.output "n"), .desc⟩]
        offset := some 20 }
    let strict := "SELECT COUNT(*) AS \"n\"\nFROM users\nORDER BY \"n\" DESC"
    q.issues = [] ∧ q.limit = none ∧ q.compile .strictOffset = .ok (strict ++ ";") ∧
      q.compile .standard = .ok (strict ++ " OFFSET 20;") ∧ q.compile .standard ≠ q.compile .strictOffset ∧
      ({ q with offset := none } : Query).compile .standard = .ok (strict ++ ";") := by
  intro q strict
  obtain ⟨alike, alone, -⟩ := q.settings_matter .standard .strictOffset
  obtain ⟨body, permissive, plain, without⟩ := alone 20 (by decide) rfl rfl rfl rfl
  have text : q.compile .strictOffset = .ok (strict ++ ";") :=
    (compile_of_valid .strictOffset q (by decide)).trans (congrArg Except.ok (by decide +kernel))
  obtain rfl : strict = body := by
    rw [text, Except.ok.injEq, String.append_left_inj] at plain
    exact plain
  refine ⟨by decide, rfl, text, permissive, fun same => ?_, without .standard⟩
  exact alike.mp same ⟨by decide, rfl, by decide, by decide⟩

end Query
end QueryDraft
