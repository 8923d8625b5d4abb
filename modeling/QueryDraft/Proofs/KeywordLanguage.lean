import Mathlib
import QueryDraft.Keyword.Aggregate
import QueryDraft.Keyword.Comparison
import QueryDraft.Keyword.Connective
import QueryDraft.Keyword.JoinKind
import QueryDraft.Proofs.Blanks

/-!
The languages of the six kinds of keyword. A text is read by its normal form alone, its words in upper case with
one space between them, so that neither the case of its letters nor the blanks around its words matter.
-/

set_option autoImplicit false

namespace QueryDraft

/-! ## Normal forms -/

namespace Keyword

theorem blank_upper (c : Char) : Text.isBlank c.toUpper = Text.isBlank c := by
  by_cases lower : c.isLower = true
  · have range : 97 ≤ c.toNat ∧ c.toNat ≤ 122 := by
      simp only [Char.isLower, Bool.and_eq_true, decide_eq_true_eq, ge_iff_le, UInt32.le_iff_toNat_le] at lower
      exact lower
    have valid : (c.toNat - 32).isValidChar := .inl (by omega)
    have code : c.toUpper.toNat = c.toNat - 32 := by
      rw [Char.toUpper_eq_of_isLower lower, Char.toNat_ofNat, if_pos valid]
    rw [Bool.eq_iff_iff]
    simp [Text.isBlank, code]
    omega
  · rw [Char.toUpper_eq_of_not_isLower lower]

theorem normalize_chars_upper (text : List Char) :
    normalizeChars text = [' '].intercalate (Text.words (text.map Char.toUpper)) := by
  rw [normalizeChars, Text.words_map _ blank_upper]

theorem normalize_chars_again (text : List Char) : normalizeChars (normalizeChars text) = normalizeChars text := by
  have words : Text.words (normalizeChars text) = Text.words (text.map Char.toUpper) := by
    rw [normalize_chars_upper]
    exact Text.words_intercalate _ (Text.mem_words _)
  have upper : (text.map Char.toUpper).map Char.toUpper = text.map Char.toUpper := by
    rw [List.map_map]
    exact List.map_congr_left fun c _ => Char.toUpper_toUpper_eq_toUpper c
  calc normalizeChars (normalizeChars text)
    _ = [' '].intercalate ((Text.words (text.map Char.toUpper)).map fun word => word.map Char.toUpper) := by
        rw [normalizeChars, words]
    _ = [' '].intercalate (Text.words (text.map Char.toUpper)) := by rw [← Text.words_map _ blank_upper, upper]
    _ = normalizeChars text := (normalize_chars_upper text).symm

theorem normalize_again (text : String) : normalize (normalize text) = normalize text := by
  rw [normalize, normalize, String.toList_ofList, normalize_chars_again]

end Keyword

/-! ## Other spellings of a text -/

-- One change of a text that leaves its words as they are, up to the case of ASCII letters.
inductive Respelled : List Char → List Char → Prop
  | cased (front back : List Char) (c d : Char) (same : d = c.toUpper ∨ d = c.toLower) :
      Respelled (front ++ c :: back) (front ++ d :: back)
  | blankReplaced (front back : List Char) (c d : Char) (blank : Text.isBlank c = true) (other : Text.isBlank d = true) :
      Respelled (front ++ c :: back) (front ++ d :: back)
  | blankRepeated (front back : List Char) (c d : Char) (blank : Text.isBlank c = true) (other : Text.isBlank d = true) :
      Respelled (front ++ c :: back) (front ++ c :: d :: back)
  | blankInFront (text : List Char) (c : Char) (blank : Text.isBlank c = true) : Respelled text (c :: text)
  | blankBehind (text : List Char) (c : Char) (blank : Text.isBlank c = true) : Respelled text (text ++ [c])

-- Any number of such changes, each made or undone.
def SpelledAlike (text other : String) : Prop := Relation.EqvGen Respelled text.toList other.toList

namespace Keyword

theorem normalize_chars_respelled (text other : List Char) (step : Respelled text other) :
    normalizeChars other = normalizeChars text := by
  cases step with
  | cased front back c d same =>
      have upper : d.toUpper = c.toUpper := by
        rcases same with rfl | rfl
        · exact Char.toUpper_toUpper_eq_toUpper c
        · exact Char.toUpper_toLower_eq_toUpper c
      rw [normalize_chars_upper, normalize_chars_upper]
      simp only [List.map_append, List.map_cons, upper]
  | blankReplaced front back c d blank other =>
      rw [normalizeChars, Text.words_break front back d other, normalizeChars, Text.words_break front back c blank]
  | blankRepeated front back c d blank other =>
      have repeated : Text.words (d :: back) = Text.words back := Text.words_break [] back d other
      rw [normalizeChars, Text.words_break front (d :: back) c blank, repeated, normalizeChars,
        Text.words_break front back c blank]
  | blankInFront _ c blank =>
      have inFront : Text.words (c :: text) = Text.words text := Text.words_break [] text c blank
      rw [normalizeChars, inFront, normalizeChars]
  | blankBehind _ c blank =>
      have behind : Text.words (text ++ [c]) = Text.words text := by
        rw [Text.words_break text [] c blank]
        exact List.append_nil _
      rw [normalizeChars, behind, normalizeChars]

theorem normalize_alike (text other : String) (alike : SpelledAlike text other) : normalize other = normalize text := by
  have chars : ∀ a b, Relation.EqvGen Respelled a b → normalizeChars b = normalizeChars a := by
    intro a b changed
    induction changed with
    | rel _ _ step => exact normalize_chars_respelled _ _ step
    | refl _ => rfl
    | symm _ _ _ same => exact same.symm
    | trans _ _ _ _ _ first second => exact second.trans first
  rw [normalize, chars _ _ alike, normalize]

/-! ## Tables of spellings -/

variable {α : Type}

-- A text is read as a value exactly when its normal form is a spelling of it; any other fails with the text as given.
structure Reads (kind : KeywordKind) (parse : String → Except UnknownKeyword α) (spelled : α → List String) : Prop where
  ok : ∀ text a, parse text = .ok a ↔ normalize text ∈ spelled a
  error : ∀ text e, parse text = .error e ↔ e = ⟨kind, text⟩ ∧ ∀ a, normalize text ∉ spelled a

theorem reads_of_ok (kind : KeywordKind) (parse : String → Except UnknownKeyword α) (spelled : α → List String)
    (ok : ∀ text a, parse text = .ok a ↔ normalize text ∈ spelled a)
    (fails : ∀ text e, parse text = .error e → e = ⟨kind, text⟩) : Reads kind parse spelled := by
  refine ⟨ok, fun text e => ⟨fun failed => ⟨fails text e failed, fun a spelling => ?_⟩, ?_⟩⟩
  · rw [(ok text a).mpr spelling] at failed
    cases failed
  · rintro ⟨shape, foreign⟩
    cases result : parse text with
    | ok a => exact absurd ((ok text a).mp result) (foreign a)
    | error other => rw [fails text other result, shape]

theorem read_alike (kind : KeywordKind) (parse : String → Except UnknownKeyword α) (spelled : α → List String)
    (reads : Reads kind parse spelled) (text other : String) (alike : SpelledAlike text other) :
    (parse other).toOption = (parse text).toOption := by
  have same := normalize_alike text other alike
  cases result : parse text with
  | ok a =>
      have spelling := (reads.ok text a).mp result
      rw [← same] at spelling
      rw [(reads.ok other a).mpr spelling]
  | error e =>
      obtain ⟨-, foreign⟩ := (reads.error text e).mp result
      rw [← same] at foreign
      rw [(reads.error other ⟨kind, other⟩).mpr ⟨rfl, foreign⟩]
      rfl

theorem lookup_iff (spellings : List (String × α)) (distinct : (spellings.map Prod.fst).Nodup) (key : String) (a : α) :
    spellings.lookup key = some a ↔ (key, a) ∈ spellings := by
  induction spellings with
  | nil => simp
  | cons entry rest ih =>
      obtain ⟨first, b⟩ := entry
      obtain ⟨fresh, others⟩ := List.nodup_cons.mp distinct
      rw [List.lookup_cons]
      by_cases same : key = first
      · have absent : (key, a) ∉ rest := fun member => fresh (same ▸ List.mem_map.mpr ⟨_, member, rfl⟩)
        simp [same, same ▸ absent, eq_comm]
      · simp [beq_eq_false_iff_ne.mpr same, same, ih others]

theorem parse_fails (kind : KeywordKind) (spellings : List (String × α)) (text : String) (e : UnknownKeyword)
    (failed : parse kind spellings text = .error e) : e = ⟨kind, text⟩ := by
  unfold parse at failed
  split at failed
  · cases failed
  · cases failed
    rfl

theorem reads_of_table (kind : KeywordKind) (spellings : List (String × α)) (spelled : α → List String)
    (distinct : (spellings.map Prod.fst).Nodup) (table : ∀ key a, (key, a) ∈ spellings ↔ key ∈ spelled a) :
    Reads kind (parse kind spellings) spelled := by
  refine reads_of_ok kind _ spelled (fun text a => ?_) (parse_fails kind spellings)
  rw [← table, ← lookup_iff spellings distinct, parse]
  cases spellings.lookup (normalize text) <;> simp

-- Most kinds have one spelling for each value, the text that is shown for it.
theorem reads_of_texts (kind : KeywordKind) (all : List α) (shown : α → String) (complete : ∀ a, a ∈ all)
    (distinct : (all.map shown).Nodup) : Reads kind (parse kind (all.map fun a => (shown a, a))) fun a => [shown a] := by
  refine reads_of_table kind _ _ ?_ fun key a => ?_
  · rwa [List.map_map]
  · simp [complete, eq_comm]

end Keyword

/-! ## The six kinds -/

open Keyword (Reads)

-- Inequality has a second spelling.
def Comparison.spelled : Comparison → List String
  | .ne => ["!=", "<>"]
  | c => [c.text]

def FilterOp.spelled : FilterOp → List String
  | .compare c => c.spelled
  | op => [op.text]

-- Each with the word JOIN behind it at most once.
def JoinKind.spelled : JoinKind → List String
  | .inner => ["INNER", "INNER JOIN"]
  | .left => ["LEFT", "LEFT JOIN", "LEFT OUTER", "LEFT OUTER JOIN"]
  | .right => ["RIGHT", "RIGHT JOIN", "RIGHT OUTER", "RIGHT OUTER JOIN"]
  | .fullOuter => ["FULL", "FULL JOIN", "FULL OUTER", "FULL OUTER JOIN"]

theorem aggregate_reads : Reads .aggregation Aggregate.parse fun a => [a.text] :=
  Keyword.reads_of_texts _ _ _ (fun a => by cases a <;> decide) (by decide)

theorem connective_reads : Reads .connective Connective.parse fun c => [c.text] :=
  Keyword.reads_of_texts _ _ _ (fun c => by cases c <;> decide) (by decide)

theorem direction_reads : Reads .direction Direction.parse fun d => [d.text] :=
  Keyword.reads_of_texts _ _ _ (fun d => by cases d <;> decide) (by decide)

theorem comparison_reads : Reads .comparison Comparison.parse Comparison.spelled := by
  refine Keyword.reads_of_table _ _ _ (by decide) fun key c => ?_
  cases c <;> simp [Comparison.spellings, Comparison.all, Comparison.spelled, Comparison.text, or_comm]

namespace JoinKind

theorem drop_join_appended (head : String) : dropJoin (head ++ " JOIN") = head := by
  have found : " JOIN".toList.isSuffixOf? (head ++ " JOIN").toList = some head.toList := by
    rw [List.isSuffixOf?_eq_some_iff_append_eq, String.toList_append]
  simp only [dropJoin, found, String.ofList_toList]

theorem drop_join_cases (spelling : String) :
    spelling = dropJoin spelling ++ " JOIN" ∨ spelling = dropJoin spelling := by
  cases found : " JOIN".toList.isSuffixOf? spelling.toList with
  | none => exact .inr (by simp only [dropJoin, found])
  | some head =>
      have parts := List.isSuffixOf?_eq_some_iff_append_eq.mp found
      refine .inl (String.toList_injective ?_)
      simp only [dropJoin, found, String.toList_append, String.toList_ofList, parts]

-- No head ends in the word that is dropped.
theorem heads_kept : ∀ entry ∈ heads, dropJoin entry.1 = entry.1 := by decide

theorem heads_distinct : (heads.map Prod.fst).Nodup := by decide

theorem head_iff (spelling : String) (k : JoinKind) :
    heads.lookup (dropJoin spelling) = some k ↔
      ∃ head, (head, k) ∈ heads ∧ (spelling = head ∨ spelling = head ++ " JOIN") := by
  rw [Keyword.lookup_iff heads heads_distinct]
  constructor
  · intro member
    exact ⟨dropJoin spelling, member, (drop_join_cases spelling).symm⟩
  · rintro ⟨head, member, rfl | rfl⟩
    · rwa [heads_kept _ member]
    · rwa [drop_join_appended]

theorem spelled_iff (spelling : String) (k : JoinKind) :
    spelling ∈ k.spelled ↔ ∃ head, (head, k) ∈ heads ∧ (spelling = head ∨ spelling = head ++ " JOIN") := by
  cases k <;> simp [heads, spelled, or_assoc]

end JoinKind

theorem join_kind_reads : Reads .joinKind JoinKind.parse JoinKind.spelled := by
  refine Keyword.reads_of_ok _ _ _ (fun text k => ?_) fun text e failed => ?_
  · unfold JoinKind.parse
    rw [JoinKind.spelled_iff, ← JoinKind.head_iff]
    cases JoinKind.heads.lookup (JoinKind.dropJoin (Keyword.normalize text)) <;> simp
  · unfold JoinKind.parse at failed
    split at failed
    · cases failed
    · cases failed
      rfl

theorem mem_filter_ops (op : FilterOp) : op ∈ FilterOp.all := by
  cases op with
  | compare c => cases c <;> decide
  | like | notLike | isIn | notIn | isNull | isNotNull => decide

-- No other operator shares a spelling with a comparison.
theorem spelled_once (c : Comparison) (op : FilterOp) (key : String) (first : key ∈ c.spelled)
    (second : key ∈ op.spelled) : op = .compare c := by
  have once : ∀ key ∈ c.spelled, ∀ op ∈ FilterOp.all, key ∈ op.spelled → op = .compare c := by cases c <;> decide
  exact once key first op (mem_filter_ops op) second

-- Comparisons are tried first. Where none is read, the texts of the comparisons in the table of all operators
-- are out of reach.
theorem filter_op_reads : Reads .filterOp FilterOp.parse FilterOp.spelled := by
  have texts : Reads .filterOp (Keyword.parse .filterOp (FilterOp.all.map fun op => (op.text, op))) fun op => [op.text] :=
    Keyword.reads_of_texts _ _ _ mem_filter_ops (by decide)
  refine Keyword.reads_of_ok _ _ _ (fun text op => ?_) fun text e failed => ?_
  · cases first : Comparison.parse text with
    | ok c =>
        have spelling := (comparison_reads.ok text c).mp first
        simp only [FilterOp.parse, first, Except.ok.injEq]
        constructor
        · rintro rfl
          exact spelling
        · intro other
          exact (spelled_once c op _ spelling other).symm
    | error e =>
        obtain ⟨-, foreign⟩ := (comparison_reads.error text e).mp first
        simp only [FilterOp.parse, first]
        rw [texts.ok]
        cases op with
        | compare c =>
            have shown : c.text ∈ c.spelled := by cases c <;> decide
            have other : Keyword.normalize text ≠ c.text := fun same => foreign c (same ▸ shown)
            simp [FilterOp.spelled, foreign, FilterOp.text, other]
        | like | notLike | isIn | notIn | isNull | isNotNull => rfl
  · unfold FilterOp.parse at failed
    split at failed
    · cases failed
    · exact Keyword.parse_fails _ _ _ _ failed

/-! ## Any kind -/

namespace KeywordKind

def Value : KeywordKind → Type
  | aggregation => Aggregate
  | comparison => Comparison
  | filterOp => FilterOp
  | joinKind => JoinKind
  | connective => Connective
  | direction => Direction

def parse : (kind : KeywordKind) → String → Except UnknownKeyword kind.Value
  | aggregation => Aggregate.parse
  | comparison => Comparison.parse
  | filterOp => FilterOp.parse
  | joinKind => JoinKind.parse
  | connective => Connective.parse
  | direction => Direction.parse

def spelled : (kind : KeywordKind) → kind.Value → List String
  | aggregation => fun a : Aggregate => [a.text]
  | comparison => Comparison.spelled
  | filterOp => FilterOp.spelled
  | joinKind => JoinKind.spelled
  | connective => fun c : Connective => [c.text]
  | direction => fun d : Direction => [d.text]

theorem reads (kind : KeywordKind) : Reads kind kind.parse kind.spelled := by
  cases kind with
  | aggregation => exact aggregate_reads
  | comparison => exact comparison_reads
  | filterOp => exact filter_op_reads
  | joinKind => exact join_kind_reads
  | connective => exact connective_reads
  | direction => exact direction_reads

/-- A text is read as a value of a kind exactly when its normal form is one of the value's spellings, and otherwise
fails with the kind and the text as it was given. Comparisons are read alike as such and as operators of filters. What
is read does not change with the case of ASCII letters nor with the blanks before, behind and between the words, and
a normal form is its own normal form. -/
theorem keyword_language (kind : KeywordKind) (text : String) :
    (∀ value, kind.parse text = .ok value ↔ Keyword.normalize text ∈ kind.spelled value) ∧
      (∀ e, kind.parse text = .error e ↔
        e = ⟨kind, text⟩ ∧ ∀ value, Keyword.normalize text ∉ kind.spelled value) ∧
      (∀ c, Comparison.parse text = .ok c ↔ FilterOp.parse text = .ok (.compare c)) ∧
      (∀ other, SpelledAlike text other → (kind.parse other).toOption = (kind.parse text).toOption) ∧
      Keyword.normalize (Keyword.normalize text) = Keyword.normalize text := by
  refine ⟨kind.reads.ok text, kind.reads.error text, fun c => ?_, ?_, Keyword.normalize_again text⟩
  · rw [comparison_reads.ok, filter_op_reads.ok]
    rfl
  · exact fun other => Keyword.read_alike _ _ _ kind.reads text other

theorem keyword_language_example :
    SpelledAlike "left join" "Left\u00a0join\n" ∧
      (joinKind.parse "Left\u00a0join\n").toOption = some JoinKind.left ∧
      joinKind.parse "left join join" = .error ⟨.joinKind, "left join join"⟩ := by
  have cased : SpelledAlike "left join" "Left join" := .rel _ _ (.cased [] "eft join".toList 'l' 'L' (.inl rfl))
  have replaced : SpelledAlike "Left join" "Left\u00a0join" :=
    .rel _ _ (.blankReplaced "Left".toList "join".toList ' ' '\u00a0' rfl rfl)
  have longer : SpelledAlike "Left\u00a0join" "Left\u00a0join\n" := .rel _ _ (.blankBehind _ '\n' rfl)
  have alike := (cased.trans _ _ _ replaced).trans _ _ _ longer
  obtain ⟨-, -, -, read, -⟩ := keyword_language .joinKind "left join"
  obtain ⟨-, fails, -, -, -⟩ := keyword_language .joinKind "left join join"
  refine ⟨alike, (read _ alike).trans rfl, (fails _).mpr ⟨rfl, fun value => ?_⟩⟩
  cases value <;> decide

end KeywordKind
end QueryDraft
