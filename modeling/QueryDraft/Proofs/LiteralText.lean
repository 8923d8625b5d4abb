import QueryDraft.Proofs.Blanks
import QueryDraft.Proofs.Masking

/-!
Literals read back. A quoted text is read as what was quoted wherever no further quote mark follows it, and a
list in parentheses as the parts between the commas of its operand, without the blanks around them.
-/

set_option autoImplicit false

namespace QueryDraft

namespace Text

/-! ## Quoted texts -/

theorem unquote_iff (q : Char) (text content after : List Char) :
    unquote q text = some (content, after) ↔ text = quote q content ++ after ∧ after.head? ≠ some q := by
  constructor
  · intro read
    cases text with
    | nil => simp [unquote] at read
    | cons c rest =>
        by_cases mark : c = q
        · subst mark
          rw [unquote, if_pos rfl] at read
          obtain ⟨written, apart⟩ := undouble_some c rest content after read
          refine ⟨?_, apart⟩
          rw [written]
          simp [quote]
        · simp [unquote, mark] at read
  · intro written
    rw [written.1]
    exact unquote_quote q content after written.2

theorem quote_injective (q : Char) : Function.Injective (quote q) := by
  intro text other same
  have first := unquote_quote q text [] nofun
  have second := unquote_quote q other [] nofun
  rw [same, second] at first
  cases first
  rfl

theorem unquote_shorter (q : Char) (text content after : List Char)
    (read : unquote q text = some (content, after)) : after.length < text.length := by
  obtain ⟨written, -⟩ := (unquote_iff q text content after).mp read
  rw [written, quote]
  simp only [List.length_append, List.length_cons]
  omega

/-! ## Lists of quoted texts -/

-- Quoted texts with a comma and a blank between them, up to the parenthesis that closes the list.
def unquoteItems (text : List Char) : Option (List (List Char) × List Char) :=
  match read : unquote '\'' text with
  | some (item, ')' :: after) => some ([item], after)
  | some (item, ',' :: ' ' :: more) =>
    have := unquote_shorter '\'' text item _ read
    (unquoteItems more).map fun (items, after) => (item :: items, after)
  | _ => none
termination_by text.length
decreasing_by
  simp only [List.length_cons] at this
  omega

def unquoteList : List Char → Option (List (List Char) × List Char)
  | '(' :: text => unquoteItems text
  | _ => none

theorem unquote_items_last (item after : List Char) :
    unquoteItems (quote '\'' item ++ ')' :: after) = some ([item], after) := by
  have read := unquote_quote '\'' item (')' :: after) (by simp)
  rw [unquoteItems]
  split
  · rename_i same
    rw [read] at same
    cases same
    rfl
  · rename_i same
    rw [read] at same
    cases same
  · rename_i other _
    exact absurd read (other item after)

theorem unquote_items_more (item more : List Char) :
    unquoteItems (quote '\'' item ++ ',' :: ' ' :: more) =
      (unquoteItems more).map fun (items, after) => (item :: items, after) := by
  have read := unquote_quote '\'' item (',' :: ' ' :: more) (by simp)
  rw [unquoteItems]
  split
  · rename_i same
    rw [read] at same
    cases same
  · rename_i same
    rw [read] at same
    cases same
    rfl
  · rename_i other
    exact absurd read (other item more)

-- What follows an item is a comma or the parenthesis, so that no mark goes on with it.
theorem unquote_items_written (items : List (List Char)) (after : List Char) (present : items ≠ []) :
    unquoteItems ([',', ' '].intercalate (items.map (quote '\'')) ++ ')' :: after) = some (items, after) := by
  induction items with
  | nil => exact absurd rfl present
  | cons item rest ih =>
      cases rest with
      | nil =>
          rw [List.map_singleton, List.intercalate_singleton]
          exact unquote_items_last item after
      | cons next others =>
          have behind := ih (List.cons_ne_nil next others)
          rw [List.map_cons] at behind
          rw [List.map_cons, List.map_cons, List.intercalate_cons_cons, List.append_assoc, List.append_assoc,
            List.cons_append, List.cons_append, List.nil_append, unquote_items_more, behind]
          rfl

/-! ## Parts of a text -/

-- What stands between the commas, be it nothing, without the blanks around it.
def HasParts (text : List Char) (parts : List (List Char)) : Prop :=
  ∃ pieces, pieces ≠ [] ∧ [','].intercalate pieces = text ∧ (∀ piece ∈ pieces, ',' ∉ piece) ∧
    List.Forall₂ Trimmed pieces parts

theorem has_parts_iff (text : List Char) (parts : List (List Char)) :
    HasParts text parts ↔ parts = (text.splitOn ',').map trim := by
  constructor
  · intro parted
    obtain ⟨pieces, present, joined, plain, trimmed⟩ := parted
    have each : List.Forall₂ Eq parts (pieces.map trim) :=
      List.forall₂_map_right_iff.mpr (trimmed.flip.imp fun kept piece => trimmed_unique piece kept)
    rw [← joined, List.splitOn_intercalate ',' plain present]
    rwa [List.forall₂_eq_eq_eq] at each
  · intro parted
    refine ⟨text.splitOn ',', List.splitOn_ne_nil ',' text, List.intercalate_splitOn ',', ?_, ?_⟩
    · intro piece member comma
      have other := pieces_plain (· == ',') text piece member ',' comma
      simp at other
    · rw [parted]
      exact List.forall₂_map_right_iff.mpr (List.forall₂_same.mpr fun piece _ => trim_trimmed piece)

end Text

/-! ## Literals -/

namespace Operand

variable (operand : Operand)

theorem list_literal_chars :
    operand.listLiteral.toList = '(' :: ([',', ' '].intercalate (operand.parts.map (Text.quote '\'')) ++ [')']) := by
  simp [listLiteral, parts, Text.stringLiteral, String.toList_intercalate, Function.comp_def]

theorem list_read (after : List Char) :
    Text.unquoteList (operand.listLiteral.toList ++ after) = some (operand.parts, after) := by
  have present : operand.parts ≠ [] := by
    rw [parts, ne_eq, List.map_eq_nil_iff]
    exact List.splitOn_ne_nil ',' _
  rw [list_literal_chars, List.cons_append, List.append_assoc, List.singleton_append]
  exact Text.unquote_items_written operand.parts after present

/-- A literal is read back as the text it was made of, unless a quote mark follows that would go on with it; a list
is read back, whatever follows, as the parts of its operand, which are one more than its commas. Different texts
have different literals. -/
theorem literals_read_back :
    (∀ text after : String,
      Text.unquote '\'' (Text.stringLiteral text ++ after).toList = some (text.toList, after.toList) ↔
        after.toList.head? ≠ some '\'') ∧
    (∀ text after : String,
      Text.unquote '"' (Text.nameLiteral text ++ after).toList = some (text.toList, after.toList) ↔
        after.toList.head? ≠ some '"') ∧
    (∀ (operand : Operand) (after : String),
      Text.unquoteList (operand.listLiteral ++ after).toList = some (operand.parts, after.toList) ∧
        (∀ parts, Text.HasParts operand.plainText.toList parts ↔ parts = operand.parts) ∧
        operand.parts.length = operand.plainText.toList.count ',' + 1) ∧
    Function.Injective Text.stringLiteral ∧ Function.Injective Text.nameLiteral := by
  have quoted : ∀ (q : Char) (text after : String),
      Text.unquote q (String.ofList (Text.quote q text.toList) ++ after).toList = some (text.toList, after.toList) ↔
        after.toList.head? ≠ some q := by
    intro q text after
    rw [String.toList_append, String.toList_ofList, Text.unquote_iff]
    exact and_iff_right rfl
  have injective : ∀ q, Function.Injective fun text : String => String.ofList (Text.quote q text.toList) :=
    fun q text other same => String.toList_injective (Text.quote_injective q (String.ofList_injective same))
  refine ⟨quoted '\'', quoted '"', ?_, injective '\'', injective '"'⟩
  intro operand after
  refine ⟨?_, fun parts => Text.has_parts_iff _ parts, ?_⟩
  · rw [String.toList_append]
    exact operand.list_read after.toList
  · rw [parts, List.length_map, length_splitOn]

example : listLiteral (.text "it's, ,b") = "('it''s', '', 'b')" := by decide

end Operand
end QueryDraft
