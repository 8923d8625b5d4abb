import QueryDraft.Proofs.Blanks
import QueryDraft.Proofs.ClauseLines
import QueryDraft.Proofs.TimestampText
import QueryDraft.Session.Basic

/-!
Previewing and saving. A session saves exactly the queries whose preview shows a statement, and the record
carries that statement, the query itself, and a name without blanks around it.
-/

set_option autoImplicit false

namespace QueryDraft

open Number
open Text (isBlank)

/-! ## Names -/

theorem digit_text_back (digits : List Digit) (some : digits ≠ []) :
    ∃ c, (digitText digits).getLast? = .some c ∧ isBlank c = false := by
  refine ⟨(digits.getLast some).char, ?_, Timestamp.digit_not_blank _⟩
  rw [digitText, List.getLast?_map, List.getLast?_eq_some_getLast some]
  rfl

theorem default_name_tidy (t : Timestamp) : Text.Tidy (SavedQuery.defaultName t).toList := by
  obtain ⟨c, last, plain⟩ := digit_text_back (digitsOf t.millis.natAbs) (digits_of_nonempty _)
  have whole : (SavedQuery.defaultName t).toList =
      ("Saved Query ".toList ++ signText (decide (t.millis < 0))) ++ digitText (digitsOf t.millis.natAbs) := by
    simp [SavedQuery.defaultName, Numeral.text, Numeral.ofInt]
  rw [whole]
  refine ⟨⟨'S', rfl, by decide⟩, c, ?_, plain⟩
  rw [List.getLast?_append, last]
  rfl

theorem name_given (text : String) (t : Timestamp) (present : ∃ c ∈ text.toList, isBlank c = false) :
    Text.Tidy (SavedQuery.nameOf (some text) t).toList ∧
      Text.Keeps text.toList (SavedQuery.nameOf (some text) t).toList := by
  have kept : Text.trim text.toList ≠ [] := by
    rw [ne_eq, Text.trim_eq_nil]
    obtain ⟨c, member, plain⟩ := present
    intro blanks
    rw [blanks c member] at plain
    cases plain
  have name : (SavedQuery.nameOf (some text) t).toList = Text.trim text.toList := by
    obtain ⟨c, rest, front⟩ := List.exists_cons_of_ne_nil kept
    simp [SavedQuery.nameOf, front]
  rw [name]
  exact ⟨Text.trim_tidy _ kept, Text.trim_keeps _⟩

theorem name_not_given (name : Option String) (t : Timestamp)
    (blanks : ∀ text, name = some text → ∀ c ∈ text.toList, isBlank c = true) :
    SavedQuery.nameOf name t = SavedQuery.defaultName t := by
  cases name with
  | none => rfl
  | some text => simp [SavedQuery.nameOf, (Text.trim_eq_nil _).mpr (blanks text rfl)]

/-! ## The type of a statement -/

theorem query_type_select (rest : String) : SavedQuery.queryTypeOf ("SELECT " ++ rest) = "SELECT" := by
  have split : ("SELECT " ++ rest).toList = "SELECT".toList ++ ' ' :: rest.toList := by
    rw [String.toList_append]
    rfl
  have plain : Text.Each (fun c => isBlank c = false) "SELECT" := by decide
  rw [SavedQuery.queryTypeOf, split, Text.words_front "SELECT".toList _ ' ' (by decide) plain (by decide)]
  change String.ofList (Text.upper ("SELECT".toList.reverse.dropWhile fun c => c = ';').reverse) = "SELECT"
  decide

theorem Query.statement_front (settings : Settings) (q : Query) (valid : q.issues = []) :
    ∃ rest, q.statement settings = "SELECT " ++ rest := by
  obtain ⟨head, member, rest, select⟩ := q.select_opens
  obtain rfl := List.mem_singleton.mp member
  obtain ⟨behind, text⟩ := q.statement_opens settings valid
  refine ⟨rest ++ "\n" ++ behind, ?_⟩
  rw [text, select]
  simp only [String.append_assoc]
  rfl

/-! ## Sessions -/

-- What is left of a session in the record it saves.
structure SavedQuery.Packs (record : SavedQuery) (s : Session) (name : Option String) : Prop where
  sql : record.sql = s.recompile.1.sql
  snapshot : record.snapshot = some s.query
  queryType : record.queryType = "SELECT"
  tidy : Text.Tidy record.name.toList
  given : ∀ text, name = some text → (∃ c ∈ text.toList, isBlank c = false) → Text.Keeps text.toList record.name.toList
  notGiven : (∀ text, name = some text → ∀ c ∈ text.toList, isBlank c = true) →
    record.name = SavedQuery.defaultName record.createdAt

namespace Session

variable (s : Session)

theorem recompiled_sql : s.recompile.1.sql = s.query.statement s.settings := by
  by_cases valid : s.query.issues = []
  · rw [recompile, valid]
    rfl
  · have some : ¬ s.query.issues.isEmpty = true := by simpa using valid
    rw [s.query.statement_of_issues s.settings valid]
    exact if_neg some

theorem statement_present : s.query.statement s.settings ≠ "" ↔ s.query.issues = [] := by
  by_cases valid : s.query.issues = []
  · simp only [valid, iff_true, s.query.statement_of_valid s.settings valid]
    exact Query.closed_ne_empty _
  · simp [valid, s.query.statement_of_issues s.settings valid]

theorem saved_record (id : Identifier) (createdAt : Timestamp) (database : String) (name : Option String)
    (record : SavedQuery) :
    (s.save id createdAt database name).1 = some record ↔ s.query.issues = [] ∧
      record = .create id createdAt database name (s.query.statement s.settings) (some s.query) := by
  rw [save, ← statement_present]
  by_cases empty : s.query.statement s.settings = ""
  · simp [empty]
  · simp [empty, eq_comm]

theorem saved_sql (id : Identifier) (createdAt : Timestamp) (database : String) (name : Option String)
    (valid : s.query.issues = []) :
    (s.save id createdAt database name).1.map SavedQuery.sql = some (s.query.statement s.settings) := by
  rw [(saved_record s id createdAt database name _).mpr ⟨valid, rfl⟩]
  rfl

theorem saves_iff (id : Identifier) (createdAt : Timestamp) (database : String) (name : Option String) :
    (s.save id createdAt database name).1.isSome = true ↔ s.query.issues = [] := by
  rw [Option.isSome_iff_exists]
  simp only [saved_record, exists_and_left, exists_eq, and_true]

theorem record_packs (id : Identifier) (createdAt : Timestamp) (database : String) (name : Option String)
    (valid : s.query.issues = []) :
    (SavedQuery.create id createdAt database name (s.query.statement s.settings) (some s.query)).Packs s name := by
  have unnamed := name_not_given name createdAt
  constructor
  case sql => exact (recompiled_sql s).symm
  case snapshot => rfl
  case queryType =>
    obtain ⟨rest, front⟩ := s.query.statement_front s.settings valid
    dsimp only [SavedQuery.create]
    rw [front, query_type_select]
  case tidy =>
    by_cases given : ∃ text, name = some text ∧ ∃ c ∈ text.toList, isBlank c = false
    · obtain ⟨text, rfl, present⟩ := given
      exact (name_given text createdAt present).1
    · have blanks : ∀ text, name = some text → ∀ c ∈ text.toList, isBlank c = true := by
        simpa only [not_exists, not_and, Bool.not_eq_false] using given
      change Text.Tidy (SavedQuery.nameOf name createdAt).toList
      rw [unnamed blanks]
      exact default_name_tidy createdAt
  case given =>
    rintro text rfl present
    exact (name_given text createdAt present).2
  case notGiven => exact unnamed

/-- A query is saved exactly when its preview shows no issue, and exactly when it shows a statement; the record
carries this statement, whatever is selected first. -/
theorem saved_as_previewed (id : Identifier) (createdAt : Timestamp) (database : String) (name : Option String) :
    (s.recompile.1.issues = [] ↔ s.recompile.1.sql ≠ "") ∧
      (s.recompile.1.sql ≠ "" ↔ (s.save id createdAt database name).1.isSome = true) ∧
      ∀ record, (s.save id createdAt database name).1 = some record → record.Packs s name := by
  rw [recompiled_sql, statement_present, saves_iff]
  refine ⟨by simp [recompile], Iff.rfl, fun record saved => ?_⟩
  obtain ⟨valid, rfl⟩ := (saved_record s id createdAt database name record).mp saved
  exact record_packs s id createdAt database name valid

theorem saved_as_previewed_example :
    let s : Session := ⟨.standard, .empty, .spendings⟩
    let id : Identifier := ⟨List.replicate 32 ⟨7, by decide⟩, rfl⟩
    let noon : Timestamp := ⟨19875, 43200, 0⟩
    ∃ record, (s.save id noon "db" (some "\tTop customers ")).1 = some record ∧ record.name = "Top customers" ∧
      record.Packs s (some "\tTop customers ") := by
  intro s id noon
  have saved := (saved_record s id noon "db" (some "\tTop customers ") _).mpr ⟨by decide, rfl⟩
  have name : SavedQuery.nameOf (some "\tTop customers ") noon = "Top customers" := by decide
  exact ⟨_, saved, name, (saved_as_previewed s id noon "db" (some "\tTop customers ")).2.2 _ saved⟩

end Session
end QueryDraft
