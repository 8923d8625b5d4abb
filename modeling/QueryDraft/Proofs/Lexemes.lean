import Mathlib.Data.List.Forall2
import QueryDraft.Text.Quoted

/-!
A text read as a run of lexemes: quoted tokens, and the characters between them. Masking a text empties
its tokens and keeps everything else.
-/

set_option autoImplicit false

namespace QueryDraft.Text

def isMark (c : Char) : Bool := c == '\'' || c == '"'

inductive Lexeme where
  | plain (c : Char)
  | quoted (mark : Char) (content : List Char)
deriving DecidableEq, Repr

namespace Lexeme

def spelled : Lexeme → List Char
  | .plain c => [c]
  | .quoted mark content => quote mark content

def emptied : Lexeme → Lexeme
  | .plain c => .plain c
  | .quoted mark _ => .quoted mark []

def content? : Lexeme → Option (List Char)
  | .plain _ => none
  | .quoted _ content => some content

end Lexeme

-- A mark behind the closing one would have been read as half of a doubled mark.
theorem undouble_some (q : Char) (text content after : List Char) (read : undouble q text = some (content, after)) :
    text = double q content ++ q :: after ∧ after.head? ≠ some q := by
  induction text using undouble.induct q generalizing content with
  | case1 => simp [undouble] at read
  | case2 =>
      simp only [undouble, if_true, Option.some.injEq, Prod.mk.injEq] at read
      obtain ⟨rfl, rfl⟩ := read
      exact ⟨rfl, by simp⟩
  | case3 rest ih =>
      simp only [undouble, if_true, Option.map_eq_some_iff, Prod.exists, Prod.mk.injEq] at read
      obtain ⟨inner, tail, inside, rfl, rfl⟩ := read
      obtain ⟨written, apart⟩ := ih inner inside
      exact ⟨by simp [double, written], apart⟩
  | case4 d rest different =>
      simp only [undouble, if_true, if_neg different, Option.some.injEq, Prod.mk.injEq] at read
      obtain ⟨rfl, rfl⟩ := read
      exact ⟨rfl, by simpa using different⟩
  | case5 c rest different ih =>
      rw [undouble.eq_def] at read
      simp only [if_neg different, Option.map_eq_some_iff, Prod.exists, Prod.mk.injEq] at read
      obtain ⟨inner, tail, inside, rfl, rfl⟩ := read
      obtain ⟨written, apart⟩ := ih inner inside
      exact ⟨by simp [double, different, written], apart⟩

theorem undouble_shorter (q : Char) (text content after : List Char)
    (read : undouble q text = some (content, after)) : after.length < text.length := by
  rw [(undouble_some q text content after read).1]
  simp
  omega

-- A quote mark that is never closed stands for itself.
def lexemes : List Char → List Lexeme
  | [] => []
  | c :: rest =>
    if isMark c then
      match read : undouble c rest with
      | some (content, after) =>
        have := undouble_shorter c rest content after read
        .quoted c content :: lexemes after
      | none => .plain c :: lexemes rest
    else .plain c :: lexemes rest
termination_by text => text.length

theorem lexemes_plain (c : Char) (rest : List Char) (plain : isMark c = false) :
    lexemes (c :: rest) = .plain c :: lexemes rest := by
  rw [lexemes, plain]
  simp

theorem lexemes_token (q : Char) (rest content after : List Char) (mark : isMark q = true)
    (read : undouble q rest = some (content, after)) :
    lexemes (q :: rest) = .quoted q content :: lexemes after := by
  rw [lexemes, if_pos mark]
  split
  · rename_i other tail same
    rw [read] at same
    cases same
    rfl
  · rename_i none
    rw [read] at none
    cases none

theorem lexemes_open (q : Char) (rest : List Char) (unclosed : undouble q rest = none) :
    lexemes (q :: rest) = .plain q :: lexemes rest := by
  rw [lexemes]
  split
  · split
    · rename_i same
      rw [unclosed] at same
      cases same
    · rfl
  · rfl

/-- The lexemes of a text spell it again: reading it loses nothing. -/
theorem spelled_lexemes (text : List Char) : (lexemes text).flatMap Lexeme.spelled = text := by
  induction text using lexemes.induct with
  | case1 => simp [lexemes]
  | case2 c rest mark content after read _ ih =>
      rw [lexemes_token c rest content after mark read, List.flatMap_cons, ih,
        (undouble_some c rest content after read).1]
      simp [Lexeme.spelled, quote]
  | case3 c rest mark unclosed ih => rw [lexemes_open c rest unclosed, List.flatMap_cons, ih]; rfl
  | case4 c rest plain ih => rw [lexemes_plain c rest (by simpa using plain), List.flatMap_cons, ih]; rfl

/-! ## Masks and contents -/

def maskChars (text : List Char) : List Char := ((lexemes text).map Lexeme.emptied).flatMap Lexeme.spelled

-- Every quoted token replaced by its empty pair of quote marks.
def mask (text : String) : String := String.ofList (maskChars text.toList)

def contents (text : String) : List String := ((lexemes text.toList).filterMap Lexeme.content?).map String.ofList

/-! ## Texts read piece by piece -/

-- Nothing that could go on with a token just closed.
def Apart (text : List Char) : Prop := ∀ c, text.head? = some c → isMark c = false

-- The text ends between two lexemes, whatever else follows.
def Reads (text : List Char) (pieces : List Lexeme) : Prop :=
  ∀ after, Apart after → lexemes (text ++ after) = pieces ++ lexemes after

def Unmarked (text : List Char) : Prop := ∀ c ∈ text, isMark c = false

theorem apart_of_unmarked (text : List Char) (unmarked : Unmarked text) : Apart text :=
  fun c head => unmarked c (List.mem_of_mem_head? head)

theorem apart_append (a b : List Char) (first : Apart a) (second : Apart b) : Apart (a ++ b) := by
  cases a with
  | nil => simpa using second
  | cons c rest => simpa [Apart] using first

theorem lexemes_unmarked (text after : List Char) (unmarked : Unmarked text) :
    lexemes (text ++ after) = text.map .plain ++ lexemes after := by
  induction text with
  | nil => rfl
  | cons c rest ih =>
      rw [List.cons_append, lexemes_plain c _ (unmarked c (by simp)), ih fun d member => unmarked d (by simp [member])]
      rfl

theorem reads_unmarked (text : List Char) (unmarked : Unmarked text) : Reads text (text.map .plain) :=
  fun after _ => lexemes_unmarked text after unmarked

theorem reads_quote (q : Char) (content : List Char) (mark : isMark q = true) :
    Reads (quote q content) [.quoted q content] := by
  intro after apart
  have other : after.head? ≠ some q := by
    intro same
    have unmarked := apart q same
    rw [mark] at unmarked
    cases unmarked
  rw [quote, List.append_assoc, List.cons_append]
  exact lexemes_token q _ content after mark (undouble_double q content after other)

theorem reads_append (a b : List Char) (first second : List Lexeme) (apart : Apart b)
    (readsFirst : Reads a first) (readsSecond : Reads b second) : Reads (a ++ b) (first ++ second) := by
  intro after apartAfter
  rw [List.append_assoc, readsFirst _ (apart_append b after apart apartAfter), readsSecond after apartAfter,
    List.append_assoc]

theorem reads_unmarked_append (a b : List Char) (pieces : List Lexeme) (unmarked : Unmarked a)
    (reads : Reads b pieces) : Reads (a ++ b) (a.map .plain ++ pieces) := by
  intro after apart
  rw [List.append_assoc, lexemes_unmarked a _ unmarked, reads after apart, List.append_assoc]

-- The separator is what keeps a token apart from the next one, so it may not be empty.
theorem reads_intercalate (separator : List Char) (texts : List (List Char)) (pieces : List (List Lexeme))
    (unmarked : Unmarked separator) (present : separator ≠ []) (reads : List.Forall₂ Reads texts pieces) :
    Reads (separator.intercalate texts) ((separator.map .plain).intercalate pieces) := by
  induction reads with
  | nil => intro after _; rfl
  | @cons text piece texts pieces first rest ih =>
      cases rest with
      | nil => simpa only [List.intercalate_singleton] using first
      | cons second others =>
          rw [List.intercalate_cons_cons, List.intercalate_cons_cons, List.append_assoc, List.append_assoc]
          refine reads_append text _ piece _ ?_ first (reads_unmarked_append _ _ _ unmarked ih)
          obtain ⟨c, tail, rfl⟩ := List.exists_cons_of_ne_nil present
          intro d head
          simp only [List.cons_append, List.head?_cons, Option.some.injEq] at head
          exact unmarked d (by simp [head])

theorem lexemes_of_reads (text : List Char) (pieces : List Lexeme) (reads : Reads text pieces) :
    lexemes text = pieces := by
  have whole := reads [] (by simp [Apart])
  simpa [lexemes] using whole

end QueryDraft.Text
