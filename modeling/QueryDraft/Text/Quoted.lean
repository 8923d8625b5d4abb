/-!
Quoted text: a quote mark inside the text is written twice. `unquote` reads one quoted text from the
front of a longer one.
-/

set_option autoImplicit false

namespace QueryDraft.Text

def double (q : Char) : List Char → List Char
  | [] => []
  | c :: rest => if c = q then q :: q :: double q rest else c :: double q rest

def quote (q : Char) (text : List Char) : List Char := q :: double q text ++ [q]

-- Reads up to a quote mark that stands alone, a doubled one meaning the mark itself.
def undouble (q : Char) : List Char → Option (List Char × List Char)
  | [] => none
  | c :: rest =>
    if c = q then
      match rest with
      | [] => some ([], [])
      | d :: rest' =>
        if d = q then (undouble q rest').map fun (text, after) => (q :: text, after) else some ([], d :: rest')
    else (undouble q rest).map fun (text, after) => (c :: text, after)

def unquote (q : Char) : List Char → Option (List Char × List Char)
  | [] => none
  | c :: rest => if c = q then undouble q rest else none

theorem undouble_double (q : Char) (text after : List Char) (apart : after.head? ≠ some q) :
    undouble q (double q text ++ q :: after) = some (text, after) := by
  induction text with
  | nil =>
    cases after with
    | nil => simp [double, undouble]
    | cons d rest =>
      have other : d ≠ q := by simpa using apart
      simp [double, undouble, other]
  | cons c rest ih =>
    by_cases same : c = q
    · simp [double, undouble, same, ih]
    · rw [double, if_neg same, List.cons_append, undouble.eq_def]
      simp only [if_neg same, ih, Option.map_some]

theorem unquote_quote (q : Char) (text after : List Char) (apart : after.head? ≠ some q) :
    unquote q (quote q text ++ after) = some (text, after) := by
  simpa [unquote, quote] using undouble_double q text after apart

def stringLiteral (text : String) : String := String.ofList (quote '\'' text.toList)

def nameLiteral (text : String) : String := String.ofList (quote '"' text.toList)

end QueryDraft.Text
