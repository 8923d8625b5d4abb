import QueryDraft.Proofs.Blanks
import QueryDraft.Proofs.PlainText
import QueryDraft.Proofs.QuotedText
import QueryDraft.Proofs.Snapshot

/-!
Numbers in the conditions of a statement: reading the filters back leaves the statement as it is exactly
when the numbers in it are read back as themselves.
-/

set_option autoImplicit false

namespace QueryDraft

open Json
open Number

/-! ## Numbers in a text -/

-- The characters that a plain number is made of.
def isNumberChar (c : Char) : Bool := (Digit.ofChar c).isSome || c == '-' || c == '.'

theorem number_char_digits (digits : List Digit) : ∀ c ∈ digitText digits, isNumberChar c = true := by
  intro c member
  obtain ⟨d, -, rfl⟩ := List.mem_map.mp member
  rw [isNumberChar, ofChar_char]
  rfl

theorem number_char_text (n : Numeral) (positional : n.exponent = none) : ∀ c ∈ n.text, isNumberChar c = true := by
  intro c member
  rw [text_parts, positional] at member
  simp only [List.mem_append] at member
  rcases member with sign | whole | point | power
  · cases negative : n.negative with
    | true =>
        rw [negative] at sign
        obtain rfl : c = '-' := by simpa [signText] using sign
        rfl
    | false =>
        rw [negative] at sign
        cases sign
  · exact number_char_digits _ c whole
  · rw [pointText] at point
    split at point
    · cases point
    · rcases List.mem_cons.mp point with rfl | fraction
      · rfl
      · exact number_char_digits _ c fraction
  · cases power

theorem number_char_plain (x : Binary64) : ∀ c ∈ x.plain, isNumberChar c = true := number_char_text x.plainNumeral rfl

-- Two texts that begin with a run of such characters are alike only where the runs are.
theorem run_cancel {α : Type} (p : α → Bool) (a b u v : List α) (inA : ∀ c ∈ a, p c = true) (inB : ∀ c ∈ b, p c = true)
    (endsU : ∀ c, u.head? = some c → p c = false) (endsV : ∀ c, v.head? = some c → p c = false)
    (same : a ++ u = b ++ v) : a = b ∧ u = v := by
  induction a generalizing b with
  | nil =>
      cases b with
      | nil => exact ⟨rfl, same⟩
      | cons d rest =>
          have inside := inB d List.mem_cons_self
          rw [List.nil_append] at same
          rw [endsU d (by rw [same]; rfl)] at inside
          cases inside
  | cons c rest ih =>
      cases b with
      | nil =>
          have inside := inA c List.mem_cons_self
          rw [List.nil_append] at same
          rw [endsV c (by rw [← same]; rfl)] at inside
          cases inside
      | cons d others =>
          obtain ⟨rfl, tails⟩ := List.cons.inj same
          obtain ⟨runs, ends⟩ := ih others (fun e member => inA e (List.mem_cons_of_mem c member))
            (fun e member => inB e (List.mem_cons_of_mem c member)) tails
          exact ⟨congrArg (c :: ·) runs, ends⟩

-- What stands behind a number and is no part of it.
def Stops (text : List Char) : Prop := ∀ c, text.head? = some c → isNumberChar c = false

theorem stops_nil : Stops [] := nofun

theorem stops_cons (c : Char) (text : List Char) (other : isNumberChar c = false) : Stops (c :: text) := by
  intro d front
  obtain rfl : c = d := by simpa using front
  exact other

theorem stops_append (a b : List Char) (first : Stops a) (second : Stops b) : Stops (a ++ b) := by
  cases a with
  | nil => exact second
  | cons c rest => exact stops_cons c _ (first c rfl)

theorem plain_cancel (x y : Binary64) (u v : List Char) (endsU : Stops u) (endsV : Stops v)
    (same : x.plain ++ u = y.plain ++ v) : x = y ∧ u = v := by
  obtain ⟨plain, rest⟩ := run_cancel isNumberChar _ _ u v (number_char_plain x) (number_char_plain y) endsU endsV same
  exact ⟨Binary64.plain_injective x y plain, rest⟩

/-! ## Numbers in filters -/

theorem number_char_inert (c : Char) (number : isNumberChar c = true) : Text.isBlank c = false ∧ c ≠ ',' ∧ c ≠ '\'' := by
  simp only [isNumberChar, Bool.or_eq_true, beq_iff_eq] at number
  rcases number with (digit | rfl) | rfl
  · obtain ⟨d, read⟩ := Option.isSome_iff_exists.mp digit
    obtain rfl := char_of_digit c d read
    revert d
    decide
  · decide
  · decide

theorem double_inert (q : Char) (text : List Char) (inert : ∀ c ∈ text, c ≠ q) : Text.double q text = text := by
  induction text with
  | nil => rfl
  | cons c rest ih =>
      rw [Text.double, if_neg (inert c List.mem_cons_self), ih fun d member => inert d (List.mem_cons_of_mem c member)]

theorem list_literal_float (x : Binary64) :
    (Operand.float x).listLiteral.toList = ['(', '\''] ++ (x.plain ++ ['\'', ')']) := by
  have inert := fun c member => number_char_inert c (number_char_plain x c member)
  have single : x.plain.splitOn ',' = [x.plain] :=
    List.splitOn_eq_singleton fun member => (inert ',' member).2.1 rfl
  have trimmed := Text.trim_inert x.plain fun c member => (inert c member).1
  have kept := double_inert '\'' x.plain fun c member => (inert c member).2.2
  simp [Operand.listLiteral, Operand.plainText, single, trimmed, Text.stringLiteral, Text.quote, kept]

namespace Filter

-- The number in the item of this filter, where there is one, is read back as itself.
def Steady (f : Filter) : Prop :=
  ∀ x, f.operator.isNullary = false → f.operand = .float x → approximate x.numeral = some x

theorem item_of_number (f : Filter) (takes : f.operator.isNullary = false) :
    ∃ before after, Stops after ∧
      ∀ y : Binary64, ({ f with operand := .float y } : Filter).item.toList = before ++ (y.plain ++ after) := by
  cases list : f.operator.isList with
  | true =>
      refine ⟨(f.subject ++ " " ++ f.operator.text ++ " ").toList ++ ['(', '\''], ['\'', ')'], stops_cons _ _ rfl, ?_⟩
      intro y
      simp only [item, takes, list, Bool.false_eq_true, if_false, if_true, String.toList_append, list_literal_float,
        List.append_assoc]
  | false =>
      refine ⟨(f.subject ++ " " ++ f.operator.text ++ " ").toList, [], stops_nil, ?_⟩
      intro y
      simp only [item, takes, list, Bool.false_eq_true, if_false, String.toList_append, Operand.literal,
        Operand.plainText, String.toList_ofList, List.append_nil]

-- What reading a filter back does to it.
inductive Reread : Filter → Filter → Prop
  | same (f : Filter) (plain : ∀ x, f.operand ≠ .float x) : Reread f f
  | number (f : Filter) (x y : Binary64) (float : f.operand = .float x) (read : approximate x.numeral = some y) :
      Reread f { f with operand := .float y }

theorem reread_cases (f g : Filter) (read : f.reread = some g) : Reread f g := by
  obtain ⟨subject, operator, operand, connective⟩ := f
  cases operand with
  | int i =>
      cases read
      exact .same _ nofun
  | text s =>
      cases read
      exact .same _ nofun
  | float x =>
      cases found : approximate x.numeral with
      | none => simp [reread, Operand.reread, found] at read
      | some y =>
          obtain rfl := by simpa [reread, Operand.reread, found] using read
          exact .number _ x y rfl found

theorem renderable_reread (f g : Filter) (read : Reread f g) : g.isRenderable = f.isRenderable := by
  cases read with
  | same => rfl
  | number x y float => simp [isRenderable, hasSubject, Operand.isSet, float]

-- Texts behind the items do not hide a difference between the numbers in them.
theorem item_cancel (f g : Filter) (read : Reread f g) (t u : List Char) (endsT : Stops t) (endsU : Stops u)
    (same : f.item.toList ++ t = g.item.toList ++ u) :
    f.Steady ∧ t = u := by
  cases read with
  | same plain => exact ⟨fun x _ float => absurd float (plain x), List.append_cancel_left same⟩
  | number x y float read =>
      cases nullary : f.operator.isNullary with
      | true =>
          rw [item_of_nullary f (.float y) nullary] at same
          refine ⟨?_, List.append_cancel_left same⟩
          intro z takes
          rw [nullary] at takes
          cases takes
      | false =>
          obtain ⟨before, after, ends, shape⟩ := item_of_number f nullary
          have own : f.item.toList = before ++ (x.plain ++ after) := by
            rw [← shape x, ← float]
          rw [own, shape y, List.append_assoc, List.append_assoc, List.append_assoc, List.append_assoc] at same
          obtain ⟨rfl, rest⟩ := plain_cancel x y _ _ (stops_append _ _ ends endsT) (stops_append _ _ ends endsU)
            (List.append_cancel_left same)
          refine ⟨?_, List.append_cancel_left rest⟩
          intro z _ other
          rw [float] at other
          cases other
          exact read

theorem item_kept (f g : Filter) (read : Reread f g) (steady : f.Steady) : g.item = f.item := by
  cases read with
  | same => rfl
  | number x y float read =>
      cases nullary : f.operator.isNullary with
      | true => exact item_of_nullary f (.float y) nullary
      | false =>
          have again := steady x nullary float
          rw [read] at again
          cases again
          rw [← float]

theorem reread_isSome (f : Filter) :
    f.reread.isSome = true ↔ ∀ x, f.operand = .float x → (approximate x.numeral).isSome = true := by
  obtain ⟨subject, operator, operand, connective⟩ := f
  cases operand with
  | int i => simp [reread, Operand.reread]
  | text s => simp [reread, Operand.reread]
  | float x => simp [reread, Operand.reread]

theorem rereads (fs gs : List Filter) (read : fs.mapM reread = some gs) : List.Forall₂ Reread fs gs := by
  induction fs generalizing gs with
  | nil =>
      cases read
      exact .nil
  | cons f rest ih =>
      rw [List.mapM_cons] at read
      obtain ⟨g, first, read⟩ := Option.bind_eq_some_iff.mp read
      obtain ⟨others, following, same⟩ := Option.bind_eq_some_iff.mp read
      cases same
      exact .cons (reread_cases f g first) (ih others following)

theorem rereads_isSome (fs : List Filter) :
    (fs.mapM reread).isSome = true ↔ ∀ f ∈ fs, f.reread.isSome = true := by
  induction fs with
  | nil => simp
  | cons f rest ih =>
      rw [List.mapM_cons, List.forall_mem_cons, ← ih]
      cases f.reread with
      | none => simp
      | some g => cases rest.mapM reread <;> simp

end Filter

/-! ## Numbers in the conditions of a statement -/

-- The items behind the first one, each behind its connective.
def following (filters : List Filter) : List Char :=
  (String.join (filters.map fun f => " " ++ f.connective.text ++ " " ++ f.item)).toList

theorem following_cons (f : Filter) (rest : List Filter) :
    following (f :: rest) = (" " ++ f.connective.text ++ " ").toList ++ (f.item.toList ++ following rest) := by
  simp [following, String.toList_join, List.append_assoc]

theorem following_stops (filters : List Filter) : Stops (following filters) := by
  cases filters with
  | nil => exact stops_nil
  | cons f rest =>
      rw [following_cons, String.toList_append, String.toList_append]
      exact stops_cons ' ' _ rfl

theorem connective_reread (f g : Filter) (read : f.Reread g) : g.connective = f.connective := by
  cases read <;> rfl

theorem following_cancel (fs gs : List Filter) (read : List.Forall₂ Filter.Reread fs gs)
    (same : following fs = following gs) : ∀ f ∈ fs, f.Steady := by
  induction read with
  | nil => nofun
  | @cons f g fs gs first rest ih =>
      rw [following_cons, following_cons, connective_reread f g first] at same
      obtain ⟨steady, tails⟩ := Filter.item_cancel f g first _ _ (following_stops fs) (following_stops gs)
        (List.append_cancel_left same)
      exact List.forall_mem_cons.mpr ⟨steady, ih tails⟩

theorem following_kept (fs gs : List Filter) (read : List.Forall₂ Filter.Reread fs gs) (steady : ∀ f ∈ fs, f.Steady) :
    following gs = following fs := by
  induction read with
  | nil => rfl
  | @cons f g fs gs first rest ih =>
      obtain ⟨head, tail⟩ := List.forall_mem_cons.mp steady
      rw [following_cons, following_cons, connective_reread f g first, Filter.item_kept f g first head, ih tail]

theorem connect_cons (f : Filter) (rest : List Filter) :
    (connect ((f :: rest).map fun f => (f.connective, f.item))).toList = f.item.toList ++ following rest := by
  rw [List.map_cons, connect, String.toList_append, following, List.map_map]
  rfl

theorem connect_reread (fs gs : List Filter) (read : List.Forall₂ Filter.Reread fs gs) :
    connect (gs.map fun f => (f.connective, f.item)) = connect (fs.map fun f => (f.connective, f.item)) ↔
      ∀ f ∈ fs, f.Steady := by
  cases read with
  | nil => simp
  | @cons f g fs gs first rest =>
      rw [← String.toList_inj, connect_cons, connect_cons]
      constructor
      · intro same
        obtain ⟨steady, tails⟩ := Filter.item_cancel f g first _ _ (following_stops fs) (following_stops gs) same.symm
        exact List.forall_mem_cons.mpr ⟨steady, following_cancel fs gs rest tails⟩
      · intro steady
        obtain ⟨head, tail⟩ := List.forall_mem_cons.mp steady
        rw [Filter.item_kept f g first head, following_kept fs gs rest tail]

namespace Query

theorem where_body_reread (fs gs : List Filter) (read : List.Forall₂ Filter.Reread fs gs) :
    whereBody gs = whereBody fs ↔ ∀ f ∈ fs, f.isRenderable = true → f.Steady := by
  have shown : List.Forall₂ Filter.Reread (fs.filter Filter.isRenderable) (gs.filter Filter.isRenderable) :=
    List.rel_filter (fun f g pair => iff_of_eq (congrArg (· = true) (Filter.renderable_reread f g pair).symm)) read
  rw [whereBody, whereBody, connect_reread _ _ shown]
  simp only [List.mem_filter, and_imp]

theorem where_body_present (fs gs : List Filter) (read : List.Forall₂ Filter.Reread fs gs) :
    whereBody gs = "" ↔ whereBody fs = "" := by
  rw [where_body_eq_empty, where_body_eq_empty]
  induction read with
  | nil => rfl
  | @cons f g fs gs first rest ih =>
      simp only [List.filter_cons, Filter.renderable_reread f g first]
      split
      · simp
      · exact ih

end Query

-- A line stands between the same texts, whatever it says.
theorem lines_around (before after : List String) :
    ∃ front back : String, ∀ line, "\n".intercalate (before ++ line :: after) = front ++ line ++ back := by
  induction before with
  | nil =>
      cases after with
      | nil => exact ⟨"", "", fun line => by simp⟩
      | cons next rest =>
          refine ⟨"", "\n" ++ "\n".intercalate (next :: rest), fun line => ?_⟩
          rw [List.nil_append, String.intercalate_cons_cons, String.empty_append, String.append_assoc]
  | cons first rest ih =>
      obtain ⟨front, back, shape⟩ := ih
      refine ⟨first ++ "\n" ++ front, back, fun line => ?_⟩
      have some : rest ++ line :: after ≠ [] := by simp
      rw [List.cons_append, String.intercalate_cons_of_ne_nil some, shape line]
      simp only [String.append_assoc]

namespace Query

variable (settings : Settings) (q : Query)

theorem issues_filters (filters : List Filter) : ({ q with filters } : Query).issues = q.issues := rfl

theorem trailer_filters (filters : List Filter) :
    ({ q with filters } : Query).trailer settings = q.trailer settings := rfl

theorem lines_filters : ∃ before after : List String, ∀ filters,
    ({ q with filters } : Query).clauseLines = before ++ ((clause? "WHERE" (whereBody filters)).toList ++ after) := by
  refine ⟨q.selectClause :: (q.sources.take 1).map (fun s => "FROM " ++ s.text s.name) ++
    List.zipWith (fun j s => j.item (s.text s.name)) q.joins (q.sources.drop 1), q.groupByClause?.toList ++
      (clause? "HAVING" (havingBody q.groupFilters)).toList ++ (orderByClause? q.sorting).toList ++
        q.limitClause?.toList, ?_⟩
  intro filters
  rw [clause_lines_eq]
  simp only [List.append_assoc]
  rfl

theorem statement_filters (filters : List Filter) (valid : q.issues = [])
    (present : whereBody filters = "" ↔ whereBody q.filters = "") :
    ({ q with filters } : Query).statement settings = q.statement settings ↔ whereBody filters = whereBody q.filters := by
  obtain ⟨before, after, lines⟩ := lines_filters q
  have own : q.clauseLines = before ++ ((clause? "WHERE" (whereBody q.filters)).toList ++ after) := lines q.filters
  rw [statement_of_valid settings { q with filters } valid, statement_of_valid settings q valid, lines filters, own,
    trailer_filters]
  by_cases absent : whereBody q.filters = ""
  · rw [present.mpr absent, absent]
    simp
  · have absent' : whereBody filters ≠ "" := fun empty => absent (present.mp empty)
    rw [clause?, clause?, if_neg absent, if_neg absent']
    obtain ⟨front, back, shape⟩ := lines_around before after
    simp only [Option.toList_some, List.singleton_append, shape]
    constructor
    · intro same
      have chars := congrArg String.toList same
      simp only [String.toList_append, List.append_cancel_right_eq, List.append_cancel_left_eq] at chars
      exact String.toList_inj.mp chars
    · intro same
      rw [same]

end Query

end QueryDraft
