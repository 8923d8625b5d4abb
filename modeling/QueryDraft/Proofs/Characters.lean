import QueryDraft.Proofs.Lexemes
import QueryDraft.Query.Statement

/-!
What all characters of a text have in common, carried from the texts of a query to the items and clauses
put together from them. Keywords and numbers add ordinary characters only: neither quote marks nor line
feeds.
-/

set_option autoImplicit false

namespace QueryDraft

open Number (Digit Numeral digitText natText)

namespace Text

def Each (P : Char → Prop) (text : String) : Prop := ∀ c ∈ text.toList, P c

def Ordinary (c : Char) : Prop := isMark c = false ∧ c ≠ '\n'

instance (c : Char) : Decidable (Ordinary c) := inferInstanceAs (Decidable (isMark c = false ∧ c ≠ '\n'))

-- Decided over the text: to decide it over all characters is beyond evaluation.
instance (P : Char → Prop) [DecidablePred P] (text : String) : Decidable (Each P text) :=
  List.decidableBAll P text.toList

theorem each_append (P : Char → Prop) (a b : String) : Each P (a ++ b) ↔ Each P a ∧ Each P b := by
  rw [Each, String.toList_append, List.forall_mem_append]
  rfl

theorem each_intercalate (P : Char → Prop) (separator : String) (items : List String) (between : Each P separator)
    (each : ∀ item ∈ items, Each P item) : Each P (separator.intercalate items) := by
  induction items with
  | nil => exact nofun
  | cons first rest ih =>
      obtain ⟨head, tail⟩ := List.forall_mem_cons.mp each
      cases rest with
      | nil => simpa using head
      | cons second others =>
          rw [String.intercalate_cons_cons, each_append, each_append]
          exact ⟨⟨head, between⟩, ih tail⟩

end Text

open Text (Each Ordinary Unmarked each_append isMark)

/-! ## Keywords -/

theorem aggregate_ordinary (a : Aggregate) : Each Ordinary a.text := by
  cases a <;> decide

theorem comparison_ordinary (c : Comparison) : Each Ordinary c.text := by
  cases c <;> decide

theorem operator_ordinary (op : FilterOp) : Each Ordinary op.text := by
  rcases op with c | _ | _ | _ | _ | _ | _
  · exact comparison_ordinary c
  all_goals decide

theorem join_kind_ordinary (kind : JoinKind) : Each Ordinary kind.text := by
  cases kind <;> decide

theorem connective_ordinary (c : Connective) : Each Ordinary (" " ++ c.text ++ " ") := by
  cases c <;> decide

theorem direction_ordinary (d : Direction) : Each Ordinary d.text := by
  cases d <;> decide

theorem digit_ordinary (d : Digit) : Ordinary d.char := by
  revert d
  decide

theorem digits_ordinary (digits : List Digit) : ∀ c ∈ digitText digits, Ordinary c := by
  intro c member
  obtain ⟨d, -, rfl⟩ := List.mem_map.mp member
  exact digit_ordinary d

theorem nat_ordinary (n : Nat) : Each Ordinary (natText n) := by
  rw [Each, natText, String.toList_ofList]
  exact digits_ordinary _

theorem numeral_ordinary (n : Numeral) : ∀ c ∈ n.text, Ordinary c := by
  obtain ⟨negative, whole, fraction, exponent⟩ := n
  simp only [Numeral.text, List.forall_mem_append]
  refine ⟨⟨⟨?_, digits_ordinary whole⟩, ?_⟩, ?_⟩
  · cases negative with
    | false => exact nofun
    | true => exact List.forall_mem_singleton.mpr (by decide)
  · split
    · exact nofun
    · exact List.forall_mem_cons.mpr ⟨by decide, digits_ordinary fraction⟩
  · cases exponent with
    | none => exact nofun
    | some power =>
        refine List.forall_mem_cons.mpr ⟨by decide, List.forall_mem_cons.mpr ⟨?_, digits_ordinary power.2⟩⟩
        split <;> decide

theorem number_ordinary (operand : Operand) (number : ∀ s, operand ≠ .text s) : Each Ordinary operand.plainText := by
  cases operand with
  | int i =>
      rw [Each, Operand.plainText, String.toList_ofList]
      exact numeral_ordinary _
  | float x =>
      rw [Each, Operand.plainText, String.toList_ofList]
      exact numeral_ordinary _
  | text s => exact absurd rfl (number s)

/-! ## Items -/

section

variable {P : Char → Prop} (ordinary : ∀ c, Ordinary c → P c)
include ordinary

theorem each_of_ordinary (text : String) (each : Each Ordinary text) : Each P text :=
  fun c member => ordinary c (each c member)

theorem each_spaced (a b : String) (first : Each P a) (second : Each P b) : Each P (a ++ " " ++ b) := by
  rw [each_append, each_append]
  exact ⟨⟨first, each_of_ordinary ordinary " " (by decide)⟩, second⟩

theorem each_named (a b : String) (first : Each P a) (second : Each P b) : Each P (a ++ " AS " ++ b) := by
  rw [each_append, each_append]
  exact ⟨⟨first, each_of_ordinary ordinary " AS " (by decide)⟩, second⟩

theorem each_commas (items : List String) (each : ∀ item ∈ items, Each P item) : Each P (", ".intercalate items) :=
  Text.each_intercalate P ", " items (each_of_ordinary ordinary ", " (by decide)) each

theorem each_applied (a : Aggregate) (column : String) (each : Each P column) : Each P (a.applyTo column) := by
  rw [Aggregate.applyTo, each_append, each_append, each_append]
  have name := each_of_ordinary ordinary _ (aggregate_ordinary a)
  exact ⟨⟨⟨name, each_of_ordinary ordinary "(" (by decide)⟩, each⟩, each_of_ordinary ordinary ")" (by decide)⟩

theorem each_expression (c : SelectedColumn) (name : Each P c.name) : Each P c.expression := by
  unfold SelectedColumn.expression
  split
  · exact each_applied ordinary _ _ name
  · exact name

theorem each_source (s : Source) (name : Each P s.name) (asName : ∀ asName, s.asName = some asName → Each P asName) :
    Each P (s.text s.name) := by
  unfold Source.text
  split
  · rename_i text found
    exact each_named ordinary _ _ name (asName text found)
  · exact name

theorem each_join (j : Join) (source : String) (left : Each P j.left) (right : Each P j.right)
    (attached : Each P source) : Each P (j.item source) := by
  have head := each_spaced ordinary _ _ (each_of_ordinary ordinary _ (join_kind_ordinary j.kind)) attached
  have middle : Each P (j.kind.text ++ " " ++ source ++ " ON " ++ j.left) := by
    rw [each_append, each_append]
    exact ⟨⟨head, each_of_ordinary ordinary " ON " (by decide)⟩, left⟩
  have operator := each_of_ordinary ordinary _ (comparison_ordinary j.operator)
  exact each_spaced ordinary _ _ (each_spaced ordinary _ _ middle operator) right

theorem each_group_filter (f : GroupFilter) (column : Each P f.column) (bound : Each P f.bound) : Each P f.item := by
  have operator := each_of_ordinary ordinary _ (comparison_ordinary f.operator)
  exact each_spaced ordinary _ _ (each_spaced ordinary _ _ (each_applied ordinary _ _ column) operator) bound

theorem each_filter_head (f : Filter) (subject : Each P f.subject) : Each P (f.subject ++ " " ++ f.operator.text) :=
  each_spaced ordinary _ _ subject (each_of_ordinary ordinary _ (operator_ordinary f.operator))

theorem each_connect (items : List (Connective × String)) (each : ∀ item ∈ items, Each P item.2) :
    Each P (connect items) := by
  cases items with
  | nil => exact nofun
  | cons first rest =>
      obtain ⟨head, tail⟩ := List.forall_mem_cons.mp each
      rw [connect, each_append]
      refine ⟨head, ?_⟩
      intro c member
      simp only [String.toList_join, List.mem_flatMap, List.mem_map] at member
      obtain ⟨_, ⟨item, inside, rfl⟩, char⟩ := member
      have written := (each_append P _ _).mpr
        ⟨each_of_ordinary ordinary _ (connective_ordinary item.1), tail item inside⟩
      exact written c char

/-! ## Clauses -/

namespace Query

variable (q : Query)

theorem each_source_lines
    (sources : ∀ s ∈ q.sources, Each P s.name ∧ ∀ asName, s.asName = some asName → Each P asName) :
    ∀ line ∈ (q.sources.take 1).map (fun s => "FROM " ++ s.text s.name), Each P line := by
  intro line member
  obtain ⟨s, first, rfl⟩ := List.mem_map.mp member
  obtain ⟨name, asName⟩ := sources s (List.mem_of_mem_take first)
  rw [each_append]
  exact ⟨each_of_ordinary ordinary "FROM " (by decide), each_source ordinary s name asName⟩

theorem each_join_lines
    (sources : ∀ s ∈ q.sources, Each P s.name ∧ ∀ asName, s.asName = some asName → Each P asName)
    (joins : ∀ j ∈ q.joins, Each P j.left ∧ Each P j.right) :
    ∀ line ∈ List.zipWith (fun j s => j.item (s.text s.name)) q.joins (q.sources.drop 1), Each P line := by
  intro line member
  rw [← List.map_uncurry_zip_eq_zipWith] at member
  obtain ⟨⟨j, s⟩, pair, rfl⟩ := List.mem_map.mp member
  obtain ⟨left, right⟩ := joins j (List.of_mem_zip pair).1
  obtain ⟨name, asName⟩ := sources s (List.mem_of_mem_drop (List.of_mem_zip pair).2)
  exact each_join ordinary j _ left right (each_source ordinary s name asName)

theorem each_clause (keyword body : String) (word : Each Ordinary (keyword ++ " ")) (each : Each P body) :
    ∀ line ∈ (clause? keyword body).toList, Each P line := by
  intro line member
  unfold clause? at member
  split at member
  · cases member
  · obtain rfl : line = keyword ++ " " ++ body := by simpa using member
    rw [each_append]
    exact ⟨each_of_ordinary ordinary _ word, each⟩

theorem each_group_by (grouping : ∀ name ∈ q.grouping.items, Each P name) :
    ∀ line ∈ q.groupByClause?.toList, Each P line := by
  intro line member
  unfold groupByClause? at member
  split at member
  · cases member
  · obtain rfl : line = "GROUP BY " ++ ", ".intercalate q.grouping.items := by simpa using member
    rw [each_append]
    exact ⟨each_of_ordinary ordinary "GROUP BY " (by decide), each_commas ordinary _ grouping⟩

theorem each_having
    (groupFilters : ∀ f ∈ q.groupFilters, f.isRenderable = true → Each P f.column ∧ Each P f.bound) :
    ∀ line ∈ (clause? "HAVING" (havingBody q.groupFilters)).toList, Each P line := by
  refine each_clause ordinary _ _ (by decide) (each_connect ordinary _ fun entry member => ?_)
  obtain ⟨f, shown, rfl⟩ := List.mem_map.mp member
  obtain ⟨column, bound⟩ := groupFilters f (List.mem_of_mem_filter shown) (List.of_mem_filter shown)
  exact each_group_filter ordinary f column bound

omit ordinary

theorem limit_ordinary : ∀ line ∈ q.limitClause?.toList, Each Ordinary line := by
  intro line member
  obtain ⟨limit, -, rfl⟩ := Option.map_eq_some_iff.mp (Option.mem_toList.mp member)
  have count : Each Ordinary ("LIMIT " ++ natText limit.toNat) :=
    (each_append _ _ _).mpr ⟨by decide, nat_ordinary _⟩
  cases q.offset with
  | none => exact count
  | some offset =>
      have named := (each_append _ _ " OFFSET ").mpr ⟨count, by decide⟩
      exact (each_append _ _ _).mpr ⟨named, nat_ordinary offset.toNat⟩

theorem trailer_ordinary (settings : Settings) : Each Ordinary (q.trailer settings) := by
  unfold trailer
  split
  · split
    · exact (each_append _ _ _).mpr ⟨by decide, nat_ordinary _⟩
    · decide
  · decide

end Query
end

/-! ## Texts without quote marks -/

instance (text : List Char) : Decidable (Unmarked text) := List.decidableBAll (fun c => isMark c = false) text

theorem unmarked_of_ordinary (c : Char) (ordinary : Ordinary c) : isMark c = false := ordinary.1

theorem unmarked_strings (a b : String) (first : Unmarked a.toList) (second : Unmarked b.toList) :
    Unmarked (a ++ b).toList :=
  (each_append _ a b).mpr ⟨first, second⟩

end QueryDraft
