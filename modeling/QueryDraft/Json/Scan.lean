import QueryDraft.Json.Value

/-!
Reading JSON texts. Every reader takes the characters still to come and gives back what it read and
what follows, or nothing in the place of what follows when the text breaks off the grammar.
-/

set_option autoImplicit false

namespace QueryDraft.Json

open Number (Digit Numeral digitRun exponentPart)

def isSpace (c : Char) : Bool := c == ' ' || c == '\t' || c == '\n' || c == '\r'

def skipSpace (text : List Char) : List Char := text.dropWhile isSpace

def after? : List Char → List Char → Option (List Char)
  | [], text => some text
  | _ :: _, [] => none
  | c :: expected, d :: text => if c = d then after? expected text else none

/-! ## Numbers -/

-- A point is followed by a digit.
def fractionPart : List Char → Option (List Digit × List Char)
  | '.' :: rest =>
    match digitRun rest with
    | ([], _) => none
    | (digits, after) => some (digits, after)
  | text => some ([], text)

-- No digit follows a leading zero.
def wholePart (text : List Char) : Option (List Digit × List Char) :=
  match digitRun text with
  | ([], _) => none
  | (d :: e :: digits, after) => if d.val = 0 then none else some (d :: e :: digits, after)
  | (digits, after) => some (digits, after)

def minus : List Char → Bool × List Char
  | '-' :: rest => (true, rest)
  | text => (false, text)

def numeral (text : List Char) : Option (Numeral × List Char) := do
  let (negative, text) := minus text
  let (whole, text) ← wholePart text
  let (fraction, text) ← fractionPart text
  let (exponent, text) ← exponentPart text
  return (⟨negative, whole, fraction, exponent⟩, text)

/-! ## Strings -/

-- A character as it stands, or a code unit named by an escape.
inductive Unit16 where
  | char (c : Char)
  | unit (n : Nat)

def hexValue (c : Char) : Option Nat :=
  let n := c.toNat
  if 48 ≤ n ∧ n ≤ 57 then some (n - 48)
  else if 97 ≤ n ∧ n ≤ 102 then some (n - 87)
  else if 65 ≤ n ∧ n ≤ 70 then some (n - 55)
  else none

def unescape (c : Char) : Option Char :=
  if c = '"' ∨ c = '\\' ∨ c = '/' then some c
  else if c = 'b' then some '\x08'
  else if c = 'f' then some '\x0c'
  else if c = 'n' then some '\n'
  else if c = 'r' then some '\r'
  else if c = 't' then some '\t'
  else none

def units : List Char → Option (List Unit16 × List Char)
  | '\\' :: 'u' :: a :: b :: c :: d :: rest => do
    let n := (((← hexValue a) * 16 + (← hexValue b)) * 16 + (← hexValue c)) * 16 + (← hexValue d)
    let (us, after) ← units rest
    return (.unit n :: us, after)
  | '\\' :: c :: rest => do
    let c ← unescape c
    let (us, after) ← units rest
    return (.char c :: us, after)
  | c :: rest =>
    if c = '"' then some ([], rest)
    else if c.toNat < 32 ∨ c = '\\' then none
    else do
      let (us, after) ← units rest
      return (.char c :: us, after)
  | [] => none

-- The characters that the units stand for; nothing when half a surrogate pair stands alone.
def compose : List Unit16 → Option (List Char)
  | [] => some []
  | .char c :: rest => (c :: ·) <$> compose rest
  | .unit n :: rest =>
    if 0xD800 ≤ n ∧ n < 0xDC00 then
      match rest with
      | .unit m :: rest' =>
        if 0xDC00 ≤ m ∧ m < 0xE000 then
          (Char.ofNat (0x10000 + (n - 0xD800) * 0x400 + (m - 0xDC00)) :: ·) <$> compose rest'
        else none
      | _ => none
    else if 0xDC00 ≤ n ∧ n < 0xE000 then none
    else (Char.ofNat n :: ·) <$> compose rest

def string (text : List Char) : Option (Option String × List Char) := do
  let (us, after) ← units text
  return ((compose us).map String.ofList, after)

/-! ## Values -/

mutual

-- The fuel bounds the nesting and the number of items; twice the length of the text is enough.
def value : Nat → List Char → Value × Option (List Char)
  | 0, _ => (.broken, none)
  | fuel + 1, text =>
    match skipSpace text with
    | [] => (.broken, none)
    | c :: rest =>
      if c = '"' then
        match string rest with
        | some (s, after) => (.text s, some after)
        | none => (.broken, none)
      else if c = '[' then
        match skipSpace rest with
        | ']' :: after => (.array [] true, some after)
        | rest => let (vs, after) := items fuel rest; (.array vs after.isSome, after)
      else if c = '\x7b' then
        match skipSpace rest with
        | '\x7d' :: after => (.object [] true, some after)
        | rest => let (ms, after) := members fuel rest; (.object ms after.isSome, after)
      else if c = 'n' then
        match after? ['u', 'l', 'l'] rest with
        | some after => (.null, some after)
        | none => (.broken, none)
      else if c = 't' then
        match after? ['r', 'u', 'e'] rest with
        | some after => (.flag true, some after)
        | none => (.broken, none)
      else if c = 'f' then
        match after? ['a', 'l', 's', 'e'] rest with
        | some after => (.flag false, some after)
        | none => (.broken, none)
      else
        match numeral (c :: rest) with
        | some (n, after) => (.number n, some after)
        | none => (.broken, none)

def items : Nat → List Char → List Value × Option (List Char)
  | 0, _ => ([], none)
  | fuel + 1, text =>
    match value fuel text with
    | (v, none) => ([v], none)
    | (v, some rest) =>
      match skipSpace rest with
      | ',' :: rest => let (vs, after) := items fuel rest; (v :: vs, after)
      | ']' :: after => ([v], some after)
      | _ => ([v], none)

def members : Nat → List Char → List Member × Option (List Char)
  | 0, _ => ([], none)
  | fuel + 1, text =>
    match skipSpace text with
    | '"' :: rest =>
      match string rest with
      | none => ([], none)
      | some (name, rest) =>
        match skipSpace rest with
        | ':' :: rest =>
          match value fuel rest with
          | (v, none) => ([(name, v)], none)
          | (v, some rest) =>
            match skipSpace rest with
            | ',' :: rest => let (ms, after) := members fuel rest; ((name, v) :: ms, after)
            | '\x7d' :: after => ([(name, v)], some after)
            | _ => ([(name, v)], none)
        | _ => ([(name, .broken)], none)
    | _ => ([], none)

end

def front (text : List Char) : Value × Option (List Char) := value (2 * text.length + 1) text

def ended (rest : Option (List Char)) : Bool := rest.any fun rest => (skipSpace rest).isEmpty

end QueryDraft.Json
