import QueryDraft.Json.Print
import QueryDraft.Proofs.NumeralText

/-!
JSON values are read back from their texts.
-/

set_option autoImplicit false

namespace QueryDraft.Json

open Number

/-! ## Strings -/

theorem hex_value_digit (n : Nat) (small : n < 16) : hexValue (hexDigit n) = some n := by
  revert n
  decide

-- The unit that the scanner makes of an escaped character: control characters without a letter of
-- their own come back as code units, all others as themselves.
def unitOf (c : Char) : Unit16 :=
  if c.toNat < 32 ∧ c ≠ '\n' ∧ c ≠ '\r' ∧ c ≠ '\t' ∧ c.toNat ≠ 8 ∧ c.toNat ≠ 12 then .unit c.toNat else .char c

theorem escape_plain (c : Char) (quote : c ≠ '"') (slash : c ≠ '\\') (control : ¬ c.toNat < 32) : escape c = [c] := by
  have others : c ≠ '\n' ∧ c ≠ '\r' ∧ c ≠ '\t' := by
    refine ⟨?_, ?_, ?_⟩ <;> rintro rfl <;> exact control (by decide)
  have back : c.toNat ≠ 8 := by omega
  have form : c.toNat ≠ 12 := by omega
  simp [escape, quote, slash, others, back, form, control]

theorem units_control (c : Char) (rest : List Char) (us : List Unit16) (after : List Char) (control : c.toNat < 32)
    (inside : units rest = some (us, after)) : units (escape c ++ rest) = some (unitOf c :: us, after) := by
  by_cases named : c = '\n' ∨ c = '\r' ∨ c = '\t' ∨ c.toNat = 8 ∨ c.toNat = 12
  · rcases named with rfl | rfl | rfl | same | same
    · simp [escape, units, unescape, unitOf, inside]
    · simp [escape, units, unescape, unitOf, inside]
    · simp [escape, units, unescape, unitOf, inside]
    · obtain rfl : c = '\x08' := Char.toNat_inj.mp same
      simp [escape, units, unescape, unitOf, inside]
    · obtain rfl : c = '\x0c' := Char.toNat_inj.mp same
      simp [escape, units, unescape, unitOf, inside]
  · obtain ⟨notLine, notReturn, notTab, notBack, notForm⟩ := by simpa only [not_or] using named
    have notQuote : c ≠ '"' := by
      rintro rfl
      exact absurd control (by decide)
    have notSlash : c ≠ '\\' := by
      rintro rfl
      exact absurd control (by decide)
    have high := hex_value_digit (c.toNat / 16) (by omega)
    have low := hex_value_digit (c.toNat % 16) (by omega)
    have zero : hexValue '0' = some 0 := rfl
    have code : c.toNat / 16 * 16 + c.toNat % 16 = c.toNat := by omega
    simp [escape, notQuote, notSlash, notLine, notReturn, notTab, notBack, notForm, control, units, zero, high, low,
      inside, unitOf, code]

theorem units_escape (c : Char) (rest : List Char) (us : List Unit16) (after : List Char)
    (inside : units rest = some (us, after)) : units (escape c ++ rest) = some (unitOf c :: us, after) := by
  by_cases control : c.toNat < 32
  · exact units_control c rest us after control inside
  · by_cases quote : c = '"'
    · subst quote
      simp [escape, units, unescape, unitOf, inside]
    · by_cases slash : c = '\\'
      · subst slash
        simp [escape, units, unescape, unitOf, inside]
      · have kept : unitOf c = .char c := if_neg fun small => control small.1
        rw [escape_plain c quote slash control, kept, List.singleton_append, units, inside]
        · simp [quote, slash, control]
        -- The two patterns that begin with a backslash do not apply.
        · intro _ _ _ _ _ same
          exact absurd same slash
        · intro _ _ same
          exact absurd same slash

theorem units_string (s : List Char) (after : List Char) :
    units (s.flatMap escape ++ '"' :: after) = some (s.map unitOf, after) := by
  induction s with
  | nil =>
      rw [List.flatMap_nil, List.nil_append, units]
      · simp
      · intro _ _ _ _ _ same
        cases same
      · intro _ _ same
        cases same
  | cons c rest ih =>
      rw [List.flatMap_cons, List.append_assoc]
      exact units_escape c _ _ _ ih

theorem compose_unit (n : Nat) (rest : List Unit16) (small : n < 32) :
    compose (.unit n :: rest) = (Char.ofNat n :: ·) <$> compose rest := by
  have high : ¬ (0xD800 ≤ n ∧ n < 0xDC00) := by omega
  have low : ¬ (0xDC00 ≤ n ∧ n < 0xE000) := by omega
  rw [compose.eq_def]
  dsimp only
  rw [if_neg high, if_neg low]

theorem compose_units (s : List Char) : compose (s.map unitOf) = some s := by
  induction s with
  | nil => rfl
  | cons c rest ih =>
      rw [List.map_cons]
      by_cases control : c.toNat < 32 ∧ c ≠ '\n' ∧ c ≠ '\r' ∧ c ≠ '\t' ∧ c.toNat ≠ 8 ∧ c.toNat ≠ 12
      · rw [unitOf, if_pos control, compose_unit c.toNat _ control.1, ih, Char.ofNat_toNat]
        rfl
      · rw [unitOf, if_neg control, compose, ih]
        rfl

theorem string_read (s : String) (after : List Char) :
    string (s.toList.flatMap escape ++ '"' :: after) = some (some s, after) := by
  simp [string, units_string, compose_units]

/-! ## Values with a text -/

mutual

-- What the printer writes and the scanner can read: strings with a content, numerals of the grammar,
-- arrays and objects that are closed.
def Value.Printable : Value → Prop
  | .number n => n.Proper
  | .text content => content.isSome = true
  | .array items closed => closed = true ∧ PrintableItems items
  | .object members closed => closed = true ∧ PrintableMembers members
  | .broken => False
  | _ => True

def PrintableItems : List Value → Prop
  | [] => True
  | v :: rest => v.Printable ∧ PrintableItems rest

def PrintableMembers : List Member → Prop
  | [] => True
  | (name, v) :: rest => name.isSome = true ∧ v.Printable ∧ PrintableMembers rest

end

theorem printable_items (items : List Value) (each : ∀ v ∈ items, v.Printable) : PrintableItems items := by
  induction items with
  | nil => exact trivial
  | cons v rest ih => exact ⟨each v (by simp), ih fun w member => each w (List.mem_cons_of_mem v member)⟩

theorem printable_list (items : List Value) (each : ∀ v ∈ items, v.Printable) : (Value.list items).Printable :=
  ⟨rfl, printable_items items each⟩

theorem printable_record (members : List (String × Value)) (each : ∀ m ∈ members, m.2.Printable) :
    (Value.record members).Printable := by
  refine ⟨rfl, ?_⟩
  induction members with
  | nil => exact trivial
  | cons m rest ih =>
      exact ⟨rfl, each m (by simp), ih fun w member => each w (List.mem_cons_of_mem m member)⟩

-- The first character of a value tells its kind. It is neither a space nor an end of a list.
def Opens (text : List Char) : Prop := ∃ c rest, text = c :: rest ∧ isSpace c = false ∧ c ≠ ']'

theorem opens_append (text after : List Char) (opens : Opens text) : Opens (text ++ after) := by
  obtain ⟨c, rest, rfl, space, other⟩ := opens
  exact ⟨c, rest ++ after, rfl, space, other⟩

theorem skip_space_opens (text : List Char) (opens : Opens text) : skipSpace text = text := by
  obtain ⟨c, rest, rfl, space, _⟩ := opens
  rw [skipSpace, List.dropWhile_cons_of_neg (by simp [space])]

-- No other value begins like a number.
def BeginsNumber (c : Char) : Prop :=
  isSpace c = false ∧ c ≠ ']' ∧ c ≠ '"' ∧ c ≠ '[' ∧ c ≠ '\x7b' ∧ c ≠ 'n' ∧ c ≠ 't' ∧ c ≠ 'f'

theorem digit_begins_number (d : Digit) : BeginsNumber d.char := by
  revert d
  unfold BeginsNumber
  decide

theorem numeral_text_front (n : Numeral) (proper : n.Proper) : ∃ c rest, n.text = c :: rest ∧ BeginsNumber c := by
  rw [text_parts]
  cases sign : n.negative with
  | true => exact ⟨'-', _, rfl, by unfold BeginsNumber; decide⟩
  | false =>
      cases shape : n.whole with
      | nil => exact absurd shape (leading_nonempty _ proper.leading)
      | cons d rest => exact ⟨d.char, _, rfl, digit_begins_number d⟩

theorem opens_value (v : Value) (printable : v.Printable) : Opens v.chars := by
  cases v with
  | null => exact ⟨'n', _, by rw [Value.chars], rfl, by decide⟩
  | flag b =>
      cases b with
      | true => exact ⟨'t', _, by rw [Value.chars], rfl, by decide⟩
      | false => exact ⟨'f', _, by rw [Value.chars], rfl, by decide⟩
  | number n =>
      obtain ⟨c, rest, shape, kind⟩ := numeral_text_front n printable
      exact ⟨c, rest, by rw [Value.chars, shape], kind.1, kind.2.1⟩
  | text content =>
      cases content with
      | none => cases printable
      | some s => exact ⟨'"', _, by rw [Value.chars, stringText, List.cons_append], rfl, by decide⟩
  | array items closed => exact ⟨'[', _, by rw [Value.chars, List.cons_append], rfl, by decide⟩
  | object members closed => exact ⟨'\x7b', _, by rw [Value.chars, List.cons_append], rfl, by decide⟩
  | broken => exact absurd printable id

theorem opens_items (v : Value) (rest : List Value) (printable : v.Printable) : Opens (itemChars (v :: rest)) := by
  cases rest with
  | nil =>
      rw [itemChars]
      exact opens_value v printable
  | cons w others =>
      rw [itemChars]
      · exact opens_append _ _ (opens_value v printable)
      · simp

/-! ## Values -/

theorem number_read (n : Numeral) (proper : n.Proper) (fuel : Nat) (after : List Char) (ends : Delimited after) :
    value (fuel + 1) (n.text ++ after) = (.number n, some after) := by
  have read := numeral_read n proper after ends
  obtain ⟨c, rest, shape, kind⟩ := numeral_text_front n proper
  have front : skipSpace (n.text ++ after) = n.text ++ after :=
    skip_space_opens _ (opens_append _ _ ⟨c, rest, shape, kind.1, kind.2.1⟩)
  obtain ⟨-, -, quote, bracket, brace, null, yes, no⟩ := kind
  rw [shape, List.cons_append] at read front
  rw [shape, List.cons_append, value, front]
  simp only [quote, bracket, brace, null, yes, no, if_false, read]

theorem item_chars_cons (v w : Value) (rest : List Value) :
    itemChars (v :: w :: rest) = v.chars ++ ',' :: itemChars (w :: rest) := by
  rw [itemChars]
  simp

theorem member_chars_cons (name : String) (v : Value) (m : Member) (rest : List Member) :
    memberChars ((some name, v) :: m :: rest) =
      stringText name.toList ++ ':' :: (v.chars ++ ',' :: memberChars (m :: rest)) := by
  rw [memberChars]
  · simp
  · simp

theorem member_chars_front (m : Member) (rest : List Member) : ∃ tail, memberChars (m :: rest) = '"' :: tail := by
  obtain ⟨name, v⟩ := m
  cases rest with
  | nil => exact ⟨_, by rw [memberChars, stringText, List.cons_append, List.cons_append]⟩
  | cons n others =>
      refine ⟨(name.getD "").toList.flatMap escape ++ '"' :: ':' :: (v.chars ++ ',' :: memberChars (n :: others)), ?_⟩
      rw [memberChars, stringText]
      · simp
      · simp

theorem skip_space_cons (c : Char) (text : List Char) (plain : isSpace c = false) :
    skipSpace (c :: text) = c :: text := by
  rw [skipSpace, List.dropWhile_cons_of_neg (by simp [plain])]

theorem array_read (v : Value) (rest : List Value) (fuel : Nat) (after : List Char) (printable : v.Printable)
    (read : items fuel (itemChars (v :: rest) ++ ']' :: after) = (v :: rest, some after)) :
    value (fuel + 1) ((Value.array (v :: rest) true).chars ++ after) = (.array (v :: rest) true, some after) := by
  have opens := opens_append _ (']' :: after) (opens_items v rest printable)
  have front := skip_space_opens _ opens
  obtain ⟨c, tail, shape, -, other⟩ := opens
  rw [shape] at read front
  have text : (Value.array (v :: rest) true).chars ++ after = '[' :: c :: tail := by
    rw [Value.chars, ← shape]
    simp
  have start : skipSpace ('[' :: c :: tail) = '[' :: c :: tail := skip_space_cons '[' _ rfl
  rw [text]
  simp [value, start, front, other, read]

theorem object_read (m : Member) (rest : List Member) (fuel : Nat) (after : List Char)
    (read : members fuel (memberChars (m :: rest) ++ '\x7d' :: after) = (m :: rest, some after)) :
    value (fuel + 1) ((Value.object (m :: rest) true).chars ++ after) = (.object (m :: rest) true, some after) := by
  obtain ⟨tail, shape⟩ := member_chars_front m rest
  rw [shape, List.cons_append] at read
  have text : (Value.object (m :: rest) true).chars ++ after = '\x7b' :: '"' :: (tail ++ '\x7d' :: after) := by
    rw [Value.chars, shape]
    simp
  rw [text]
  simp [value, skipSpace, isSpace, read]

-- The fuel is twice what is left of the text: one unit for the list an item stands in, one for the item.
mutual

theorem value_read (v : Value) (printable : v.Printable) (fuel : Nat) (after : List Char)
    (enough : 2 * v.chars.length < fuel) (ends : Delimited after) :
    value fuel (v.chars ++ after) = (v, some after) := by
  cases fuel with
  | zero => omega
  | succ fuel =>
      cases v with
      | null => simp [Value.chars, value, skipSpace, isSpace, after?]
      | flag b => cases b <;> simp [Value.chars, value, skipSpace, isSpace, after?]
      | number n =>
          rw [Value.chars]
          exact number_read n printable fuel after ends
      | text content =>
          cases content with
          | none => cases printable
          | some s =>
              rw [Value.chars, stringText]
              simp [value, skipSpace, isSpace, string_read]
      | array items closed =>
          obtain ⟨rfl, each⟩ := printable
          rw [Value.chars] at enough
          cases items with
          | nil => simp [Value.chars, itemChars, value, skipSpace, isSpace]
          | cons v rest =>
              simp only [List.length_append, List.length_cons, List.length_nil] at enough
              have read := items_read v rest each fuel after (by omega)
              exact array_read v rest fuel after each.1 read
      | object members closed =>
          obtain ⟨rfl, each⟩ := printable
          rw [Value.chars] at enough
          cases members with
          | nil => simp [Value.chars, memberChars, value, skipSpace, isSpace]
          | cons m rest =>
              simp only [List.length_append, List.length_cons, List.length_nil] at enough
              have read := members_read m rest each fuel after (by omega)
              exact object_read m rest fuel after read
      | broken => exact absurd printable id
termination_by fuel

theorem items_read (v : Value) (rest : List Value) (printable : PrintableItems (v :: rest)) (fuel : Nat)
    (after : List Char) (enough : 2 * (itemChars (v :: rest)).length + 1 < fuel) :
    items fuel (itemChars (v :: rest) ++ ']' :: after) = (v :: rest, some after) := by
  cases fuel with
  | zero => omega
  | succ fuel =>
      cases rest with
      | nil =>
          have single : itemChars [v] = v.chars := by rw [itemChars]
          rw [single] at enough ⊢
          have first := value_read v printable.1 fuel (']' :: after) (by omega) (delimited_cons ']' _ (by decide))
          simp [items, first, skipSpace, isSpace]
      | cons w others =>
          rw [item_chars_cons] at enough ⊢
          simp only [List.length_append, List.length_cons] at enough
          have first := value_read v printable.1 fuel (',' :: (itemChars (w :: others) ++ ']' :: after)) (by omega)
            (delimited_cons ',' _ (by decide))
          have others := items_read w others printable.2 fuel after (by omega)
          simp [items, first, others, skipSpace, isSpace]
termination_by fuel

theorem members_read (m : Member) (rest : List Member) (printable : PrintableMembers (m :: rest)) (fuel : Nat)
    (after : List Char) (enough : 2 * (memberChars (m :: rest)).length + 1 < fuel) :
    members fuel (memberChars (m :: rest) ++ '\x7d' :: after) = (m :: rest, some after) := by
  cases fuel with
  | zero => omega
  | succ fuel =>
      obtain ⟨name, v⟩ := m
      cases name with
      | none => cases printable.1
      | some name =>
          cases rest with
          | nil =>
              have single : memberChars [(some name, v)] = stringText name.toList ++ ':' :: v.chars := by
                rw [memberChars]
                rfl
              rw [single] at enough ⊢
              simp only [List.length_append, List.length_cons] at enough
              have first := value_read v printable.2.1 fuel ('\x7d' :: after) (by omega)
                (delimited_cons '\x7d' _ (by decide))
              simp [stringText, members, string_read, first, skipSpace, isSpace]
          | cons m others =>
              rw [member_chars_cons] at enough ⊢
              simp only [List.length_append, List.length_cons] at enough
              have first := value_read v printable.2.1 fuel (',' :: (memberChars (m :: others) ++ '\x7d' :: after))
                (by omega) (delimited_cons ',' _ (by decide))
              have others := members_read m others printable.2.2 fuel after (by omega)
              simp [stringText, members, string_read, first, others, skipSpace, isSpace]
termination_by fuel

end

theorem front_read (v : Value) (printable : v.Printable) : front v.chars = (v, some []) := by
  have read := value_read v printable (2 * v.chars.length + 1) [] (Nat.lt_succ_self _) delimited_nil
  rwa [List.append_nil] at read

end QueryDraft.Json
