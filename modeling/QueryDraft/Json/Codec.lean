import QueryDraft.Json.Amount
import QueryDraft.Json.Print
import QueryDraft.Json.Scan
import QueryDraft.Keyword.Basic

/-!
Codecs pair the writing of a type with its reading. A record is described once, field by field, and
that description gives both directions: it is written as an object with all its fields, and read from
an object, unknown members skipped and missing ones left as they were, or from an array of its fields.
Readers go through a value in the order of its text, so the first fault is the one reported.
-/

set_option autoImplicit false

namespace QueryDraft.Json

open Number (Numeral digitsOf)

-- Why a value was not read: a word stands where a keyword of some kind is expected, or anything else.
inductive Fault where
  | malformed
  | unknown (keyword : UnknownKeyword)
deriving DecidableEq, Repr

structure Codec (α : Type) where
  write : α → Value
  read : Value → Except Fault α

namespace Codec

variable {α : Type}

def text : Codec String where
  write := .string
  read
    | .text (some s) => .ok s
    | _ => .error .malformed

def flag : Codec Bool where
  write := .flag
  read
    | .flag b => .ok b
    | _ => .error .malformed

-- Integers from 0 to `2^64 - 1`.
def natural : Codec UInt64 where
  write n := .number (.ofInt n.toNat)
  read
    | .number n =>
      match amount n with
      | some (.natural n) => .ok n
      | _ => .error .malformed
    | _ => .error .malformed

-- `null` stands for nothing.
def optional (item : Codec α) : Codec (Option α) where
  write
    | none => .null
    | some a => item.write a
  read
    | .null => .ok none
    | v => some <$> item.read v

def list (item : Codec α) : Codec (List α) where
  write items := .list (items.map item.write)
  read
    | .array vs closed => do
      let items ← vs.mapM item.read
      if closed then return items else throw .malformed
    | _ => .error .malformed

-- The values of an enumeration by their names. A name may also be the only member of an object, with `null`
-- as its value.
def choice (name : α → String) (all : List α) : Codec α where
  write a := .string (name a)
  read
    | .text (some s)
    | .object [(some s, .null)] true =>
      match all.find? fun a => name a = s with
      | some a => .ok a
      | none => .error .malformed
    | _ => .error .malformed

end Codec

/-! ## Records -/

structure Field (σ : Type) where
  name : String
  required : Bool
  write : σ → Value
  read : Value → σ → Except Fault σ

def Field.of {σ α : Type} (name : String) (codec : Codec α) (get : σ → α) (set : α → σ → σ) : Field σ where
  name := name
  required := false
  write s := codec.write (get s)
  read v s := do return set (← codec.read v) s

def Field.needed {σ : Type} (f : Field σ) : Field σ := { f with required := true }

abbrev Shape (σ : Type) := List (Field σ)

namespace Shape

variable {σ : Type}

-- Fields that must be there and are not among the names.
def lacking (shape : Shape σ) (names : List String) : Bool :=
  shape.any fun f => f.required && !names.contains f.name

def readMembers (shape : Shape σ) (closed : Bool) : List String → List Member → σ → Except Fault σ
  | seen, [], s => if closed && !shape.lacking seen then .ok s else .error .malformed
  | _, (none, _) :: _, _ => .error .malformed
  | seen, (some name, v) :: rest, s =>
    match shape.find? fun f => f.name = name with
    | none => if v.whole then readMembers shape closed seen rest s else .error .malformed
    | some f =>
      if seen.contains name then .error .malformed
      else do readMembers shape closed (name :: seen) rest (← f.read v s)

def readItems (closed : Bool) : Shape σ → List Value → σ → Except Fault σ
  | [], _ :: _, _ => .error .malformed
  | shape, [], s => if closed && !shape.lacking [] then .ok s else .error .malformed
  | f :: shape, v :: rest, s => do readItems closed shape rest (← f.read v s)

-- Missing fields are those of `start`.
def codec (shape : Shape σ) (start : σ) : Codec σ where
  write s := .record (shape.map fun f => (f.name, f.write s))
  read
    | .object members closed => shape.readMembers closed [] members start
    | .array items closed => shape.readItems closed items start
    | _ => .error .malformed

end Shape

/-! ## Texts -/

namespace Codec

variable {α : Type}

def print (codec : Codec α) (a : α) : String := (codec.write a).print

def parse (codec : Codec α) (text : String) : Except Fault α := do
  let (v, rest) := front text.toList
  let a ← codec.read v
  if ended rest then return a else throw .malformed

end Codec

-- Every string has a content and every number an amount.
def Value.sound (v : Value) : Bool := check v
where
  check : Value → Bool
    | .number n => (amount n).isSome
    | .text s => s.isSome
    | .array items closed => closed && checkItems items
    | .object members closed => closed && checkMembers members
    | .broken => false
    | _ => true
  checkItems : List Value → Bool
    | [] => true
    | v :: rest => check v && checkItems rest
  checkMembers : List Member → Bool
    | [] => true
    | (k, v) :: rest => k.isSome && check v && checkMembers rest

end QueryDraft.Json
