import QueryDraft.Text.Blank

/-!
Keyword texts. They are compared after normalisation: words in upper case with one space between them.
Only ASCII letters have an upper case here.
-/

set_option autoImplicit false

namespace QueryDraft

inductive KeywordKind where
  | aggregation
  | comparison
  | filterOp
  | joinKind
  | connective
  | direction
deriving DecidableEq, Repr

def KeywordKind.name : KeywordKind → String
  | .aggregation => "aggregation"
  | .comparison => "comparison operator"
  | .filterOp => "condition operator"
  | .joinKind => "join type"
  | .connective => "logic"
  | .direction => "sort direction"

-- A text that is no keyword of its kind.
structure UnknownKeyword where
  kind : KeywordKind
  text : String
deriving DecidableEq, Repr

def UnknownKeyword.message (e : UnknownKeyword) : String := "unknown " ++ e.kind.name ++ " '" ++ e.text ++ "'"

namespace Keyword

def normalizeChars (text : List Char) : List Char :=
  [' '].intercalate ((Text.words text).map fun word => word.map Char.toUpper)

def normalize (text : String) : String := String.ofList (normalizeChars text.toList)

-- The first value whose spelling the text is, once normalised.
def parse {α : Type} (kind : KeywordKind) (spellings : List (String × α)) (text : String) : Except UnknownKeyword α :=
  match spellings.lookup (normalize text) with
  | some a => .ok a
  | none => .error ⟨kind, text⟩

end Keyword
end QueryDraft
