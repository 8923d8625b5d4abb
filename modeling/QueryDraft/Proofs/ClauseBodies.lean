import QueryDraft.Proofs.ClauseLines

/-!
The bodies of the WHERE and HAVING clauses. The body of two lists of entries one after another is put together
from their own bodies, and a body is its rendered entries with one connective between neighbours.
-/

set_option autoImplicit false

namespace QueryDraft

/-! ## Parts of a body -/

inductive Part where
  | item (text : String)
  | word (c : Connective)
deriving DecidableEq, Repr

namespace Part

def text : Part → String
  | item text => text
  | word c => " " ++ c.text ++ " "

def item? : Part → Option String
  | item text => some text
  | word _ => none

def word? : Part → Option Connective
  | item _ => none
  | word c => some c

end Part

-- Items with one word between neighbours, so that no word stands in front of them or behind them.
inductive Alternate : List Part → Prop
  | last (text : String) : Alternate [.item text]
  | before (text : String) (c : Connective) {rest : List Part} (behind : Alternate rest) :
      Alternate (.item text :: .word c :: rest)

-- How the body of a clause depends on its entries. The connective of an entry links it to the shown entries before
-- it, in the same list or in a list that comes before.
structure Linked {α : Type} (keyword : String) (body : List α → String) (shown : α → Bool) (word : α → Connective)
    (item : α → String) : Prop where
  append : ∀ a b, body (a ++ b) =
    match a.find? shown, b.find? shown with
    | none, _ => body b
    | some _, none => body a
    | some _, some first => body a ++ " " ++ (word first).text ++ " " ++ body b
  absent : ∀ entries, clause? keyword (body entries) = none ↔ entries.countP shown = 0
  parts : ∀ entries, entries.countP shown ≠ 0 → ∃ parts, Alternate parts ∧
    clause? keyword (body entries) = some (keyword ++ " " ++ String.join (parts.map Part.text)) ∧
    parts.filterMap Part.item? = (entries.filter shown).map item ∧
    parts.filterMap Part.word? = ((entries.filter shown).drop 1).map word ∧
    (parts.filterMap Part.word?).length = entries.countP shown - 1

/-! ## Connecting -/

theorem connect_append (first second : Connective × String) (front rest : List (Connective × String)) :
    connect (first :: front ++ second :: rest) =
      connect (first :: front) ++ " " ++ second.1.text ++ " " ++ connect (second :: rest) := by
  simp only [connect, List.cons_append, List.map_append, List.map_cons, String.join_append, String.join_cons,
    String.append_assoc]

theorem connect_parts (first : Connective × String) (rest : List (Connective × String)) :
    ∃ parts, Alternate parts ∧ connect (first :: rest) = String.join (parts.map Part.text) ∧
      parts.filterMap Part.item? = first.2 :: rest.map Prod.snd ∧ parts.filterMap Part.word? = rest.map Prod.fst := by
  induction rest generalizing first with
  | nil => exact ⟨[.item first.2], .last _, by simp [connect, Part.text], rfl, rfl⟩
  | cons second rest ih =>
      obtain ⟨parts, alternate, text, items, words⟩ := ih second
      refine ⟨.item first.2 :: .word second.1 :: parts, .before _ _ alternate, ?_, ?_, ?_⟩
      · rw [← List.singleton_append, connect_append, text]
        simp [connect, Part.text, String.append_assoc]
      · exact congrArg (first.2 :: ·) items
      · exact congrArg (second.1 :: ·) words

theorem linked_connect {α : Type} (keyword : String) (shown : α → Bool) (word : α → Connective) (item : α → String)
    (written : ∀ a, item a ≠ "") :
    Linked keyword (fun entries => connect ((entries.filter shown).map fun a => (word a, item a))) shown word item := by
  have absent := fun entries => connect_shown_eq_empty entries shown word item written
  constructor
  case append =>
    intro a b
    rw [← List.head?_filter, ← List.head?_filter, List.filter_append, List.map_append]
    cases a.filter shown with
    | nil => rfl
    | cons first front =>
        cases b.filter shown with
        | nil => exact congrArg connect (List.append_nil _)
        | cons second rest => exact connect_append _ _ _ _
  case absent =>
    intro entries
    rw [List.countP_eq_length_filter, List.length_eq_zero_iff, ← absent, clause?]
    simp only [ite_eq_left_iff, reduceCtorEq, imp_false, not_not]
  case parts =>
    intro entries some
    rw [List.countP_eq_length_filter] at some ⊢
    have present := mt (absent entries).mp (mt List.length_eq_zero_iff.mpr some)
    rw [clause?, if_neg present]
    cases rendered : entries.filter shown with
    | nil => exact absurd (congrArg List.length rendered) some
    | cons first rest =>
        obtain ⟨parts, alternate, text, items, words⟩ :=
          connect_parts (word first, item first) (rest.map fun a => (word a, item a))
        rw [List.map_map] at items words
        refine ⟨parts, alternate, ?_, items, words, ?_⟩
        · rw [← text]
          rfl
        · rw [words, List.length_map]
          rfl

namespace Query

/-- The bodies of both clauses link the rendered entries in their order, each but the first by its connective. -/
theorem bodies_linked :
    Linked "WHERE" whereBody Filter.isRenderable Filter.connective Filter.item ∧
      Linked "HAVING" havingBody GroupFilter.isRenderable GroupFilter.connective GroupFilter.item :=
  ⟨linked_connect _ _ _ _ filter_item_ne_empty, linked_connect _ _ _ _ group_filter_item_ne_empty⟩

-- The unfinished filter brings no connective, and the first rendered one does not need its own.
example :
    whereBody [.blank, ⟨"a", .isNull, .text "", .or⟩, { Filter.blank with connective := .or },
        ⟨"b", .like, .text "x%", .or⟩] = "a IS NULL OR b LIKE 'x%'" := by decide

end Query
end QueryDraft
