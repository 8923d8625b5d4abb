import Mathlib.Data.List.DropRight
import QueryDraft.Text.Blank

/-!
Blanks in a text: what trimming keeps of it, and how they divide it into words.
-/

set_option autoImplicit false

namespace QueryDraft.Text

-- The first and the last character are there and not blank.
structure Tidy (text : List Char) : Prop where
  front : ∃ c, text.head? = some c ∧ isBlank c = false
  back : ∃ c, text.getLast? = some c ∧ isBlank c = false

-- What is kept of a text is all but blanks in front and behind.
def Keeps (text kept : List Char) : Prop :=
  ∃ front back, text = front ++ kept ++ back ∧ (∀ c ∈ front, isBlank c = true) ∧ ∀ c ∈ back, isBlank c = true

-- All of a text but the blanks in front and behind.
structure Trimmed (text kept : List Char) : Prop where
  keeps : Keeps text kept
  tidy : kept ≠ [] → Tidy kept

theorem trim_eq (text : List Char) : trim text = (text.dropWhile isBlank).rdropWhile isBlank := rfl

theorem trim_eq_nil (text : List Char) : trim text = [] ↔ ∀ c ∈ text, isBlank c = true := by
  rw [trim_eq, List.rdropWhile_eq_nil_iff]
  constructor
  · intro rest c member
    rw [← List.takeWhile_append_dropWhile (p := isBlank) (l := text), List.mem_append] at member
    exact member.elim List.mem_takeWhile_imp (rest c)
  · intro blanks c member
    exact blanks c ((List.dropWhile_sublist isBlank).subset member)

theorem trim_keeps (text : List Char) : Keeps text (trim text) := by
  refine ⟨text.takeWhile isBlank, (text.dropWhile isBlank).rtakeWhile isBlank, ?_, fun _ => List.mem_takeWhile_imp,
    fun _ => List.mem_rtakeWhile_imp⟩
  rw [trim_eq, List.append_assoc, List.rdropWhile_append_rtakeWhile, List.takeWhile_append_dropWhile]

theorem mem_of_mem_trim (c : Char) (text : List Char) (member : c ∈ trim text) : c ∈ text := by
  obtain ⟨front, back, split, -⟩ := trim_keeps text
  rw [split]
  exact List.mem_append_left _ (List.mem_append_right _ member)

theorem trim_inert (text : List Char) (inert : ∀ c ∈ text, isBlank c = false) : trim text = text := by
  have front : text.dropWhile isBlank = text :=
    List.dropWhile_eq_self_iff.mpr fun inside => by simp [inert _ (List.getElem_mem inside)]
  rw [trim_eq, front]
  exact List.rdropWhile_eq_self_iff.mpr fun present => by simp [inert _ (List.getLast_mem present)]

theorem trim_tidy (text : List Char) (present : trim text ≠ []) : Tidy (trim text) := by
  constructor
  · obtain ⟨c, rest, front⟩ := List.exists_cons_of_ne_nil present
    obtain ⟨back, split⟩ := List.rdropWhile_prefix isBlank (text.dropWhile isBlank)
    have plain := List.head?_dropWhile_not isBlank text
    rw [← split, ← trim_eq, front] at plain
    exact ⟨c, by rw [front]; rfl, plain⟩
  · refine ⟨_, List.getLast?_eq_some_getLast present, ?_⟩
    exact Bool.not_eq_true _ ▸ List.rdropWhile_last_not isBlank (text.dropWhile isBlank) present

theorem trim_trimmed (text : List Char) : Trimmed text (trim text) := ⟨trim_keeps text, trim_tidy text⟩

theorem trimmed_unique (text kept : List Char) (trimmed : Trimmed text kept) : kept = trim text := by
  obtain ⟨⟨before, behind, rfl, blanksBefore, blanksBehind⟩, tidy⟩ := trimmed
  rw [trim_eq, List.append_assoc, List.dropWhile_append_of_pos blanksBefore]
  cases kept with
  | nil =>
      rw [List.nil_append, List.dropWhile_eq_nil_iff.mpr blanksBehind]
      rfl
  | cons c rest =>
      obtain ⟨⟨first, head, front⟩, ⟨last, tail, back⟩⟩ := tidy (List.cons_ne_nil c rest)
      cases head
      have closed : (c :: rest).rdropWhile isBlank = c :: rest := by
        refine List.rdropWhile_eq_self_iff.mpr fun present => ?_
        rw [List.getLast?_eq_some_getLast present] at tail
        cases tail
        simp [back]
      rw [List.cons_append, List.dropWhile_cons_of_neg (by simp [front]), ← List.cons_append, List.rdropWhile,
        List.reverse_append, List.dropWhile_append_of_pos fun d member => blanksBehind d (List.mem_reverse.mp member)]
      exact closed.symm

/-! ## Words -/

-- Nearly all there is to know about words follows from this one equation.
theorem words_break (before behind : List Char) (c : Char) (blank : isBlank c = true) :
    words (before ++ c :: behind) = words before ++ words behind := by
  rw [words, List.splitOnP_append_cons before behind blank, List.filter_append]
  rfl

theorem words_whole (word : List Char) (present : word ≠ []) (plain : ∀ c ∈ word, isBlank c = false) :
    words word = [word] := by
  rw [words, List.splitOnP_eq_singleton plain, List.filter_cons_of_pos (by simpa using present), List.filter_nil]

-- A word in front of a blank is the first of the words.
theorem words_front (word rest : List Char) (c : Char) (present : word ≠ []) (plain : ∀ d ∈ word, isBlank d = false)
    (blank : isBlank c = true) : words (word ++ c :: rest) = word :: words rest := by
  rw [words_break word rest c blank, words_whole word present plain, List.singleton_append]

theorem words_intercalate (parts : List (List Char)) (given : ∀ word ∈ parts, word ≠ [] ∧ ∀ c ∈ word, isBlank c = false) :
    words ([' '].intercalate parts) = parts := by
  induction parts with
  | nil => rfl
  | cons word rest ih =>
      obtain ⟨⟨present, plain⟩, others⟩ := List.forall_mem_cons.mp given
      cases rest with
      | nil =>
          rw [List.intercalate_singleton]
          exact words_whole word present plain
      | cons next after =>
          rw [List.intercalate_cons_cons, List.append_assoc, List.singleton_append,
            words_front word _ ' ' present plain rfl, ih others]

-- No piece of a text has a character in it that the text is cut at.
theorem pieces_plain (cut : Char → Bool) (text : List Char) :
    ∀ piece ∈ text.splitOnP cut, ∀ c ∈ piece, cut c = false := by
  induction text with
  | nil =>
      intro piece member
      rw [List.splitOnP_nil, List.mem_singleton] at member
      rw [member]
      exact nofun
  | cons c rest ih =>
      rw [List.splitOnP_cons_eq_if_modifyHead]
      cases here : cut c with
      | true =>
          rw [if_pos rfl]
          exact List.forall_mem_cons.mpr ⟨nofun, ih⟩
      | false =>
          obtain ⟨piece, pieces, split⟩ := List.exists_cons_of_ne_nil (List.splitOnP_ne_nil cut rest)
          rw [split] at ih ⊢
          obtain ⟨first, others⟩ := List.forall_mem_cons.mp ih
          exact List.forall_mem_cons.mpr ⟨List.forall_mem_cons.mpr ⟨here, first⟩, others⟩

theorem mem_words (text word : List Char) (member : word ∈ words text) : word ≠ [] ∧ ∀ c ∈ word, isBlank c = false := by
  obtain ⟨piece, present⟩ := List.mem_filter.mp member
  exact ⟨by simpa using present, pieces_plain isBlank text word piece⟩

-- Where blanks stay blanks and nothing else becomes one, the words are changed one by one.
theorem words_map (f : Char → Char) (keeps : ∀ c, isBlank (f c) = isBlank c) (text : List Char) :
    words (text.map f) = (words text).map fun word => word.map f := by
  have pieces : (text.map f).splitOnP isBlank = (text.splitOnP isBlank).map fun piece => piece.map f := by
    induction text with
    | nil => rfl
    | cons c rest ih =>
        rw [List.map_cons, List.splitOnP_cons_eq_if_modifyHead, List.splitOnP_cons_eq_if_modifyHead, keeps, ih]
        split
        · rfl
        · cases rest.splitOnP isBlank <;> rfl
  rw [words, pieces, List.filter_map, words]
  simp [Function.comp_def]

end QueryDraft.Text
