import QueryDraft.Json.Codec
import QueryDraft.Session.Calendar

/-!
Moments of universal time. They are written as in RFC 3339 with the letter Z, and read from any offset;
the reading is lenient about blanks, short fields and leap seconds.
-/

set_option autoImplicit false

namespace QueryDraft

open Json (Codec)
open Number (Digit digitRun digitText digitsOf valueOf)
open Text (isBlank trimStart)

-- Days from 1970-01-01, seconds of the day, nanoseconds of the second. A leap second is the last second of a
-- minute gone on for more than its thousand million nanoseconds.
structure Timestamp where
  day : Int
  second : Nat
  nanosecond : Nat
deriving DecidableEq, Repr

namespace Timestamp

def ofMillis (millis : Int) : Timestamp :=
  let seconds := millis.fdiv 1000
  ⟨seconds.fdiv 86400, (seconds.fmod 86400).toNat, (millis.fmod 1000).toNat * 1000000⟩

def millis (t : Timestamp) : Int := (t.day * 86400 + t.second) * 1000 + (t.nanosecond / 1000000 : Nat)

/-! ## Writing -/

def padded (width n : Nat) : List Char :=
  let digits := digitsOf n
  List.replicate (width - digits.length) '0' ++ digitText digits

def yearText (year : Int) : List Char :=
  if 0 ≤ year ∧ year ≤ 9999 then padded 4 year.toNat
  else (if year < 0 then '-' else '+') :: padded 4 year.natAbs

-- No fraction, or 3, 6 or 9 digits: the fewest that are exact.
def fractionText (nanosecond : Nat) : List Char :=
  if nanosecond = 0 then []
  else if nanosecond % 1000000 = 0 then '.' :: padded 3 (nanosecond / 1000000)
  else if nanosecond % 1000 = 0 then '.' :: padded 6 (nanosecond / 1000)
  else '.' :: padded 9 nanosecond

def text (t : Timestamp) : String :=
  let date := Date.ofDays t.day
  let leap := t.nanosecond / 1000000000
  String.ofList
    (yearText date.year ++ '-' :: padded 2 date.month ++ '-' :: padded 2 date.day ++
      'T' :: padded 2 (t.second / 3600) ++ ':' :: padded 2 (t.second / 60 % 60) ++
      ':' :: padded 2 (t.second % 60 + leap) ++ fractionText (t.nanosecond % 1000000000) ++ ['Z'])

/-! ## Reading -/

def number (width : Nat) (text : List Char) : Option (Nat × List Char) :=
  match (digitRun (text.take width)).1 with
  | [] => none
  | digits => some (valueOf digits, text.drop digits.length)

def field (low high : Nat) (text : List Char) : Option (Nat × List Char) := do
  let (n, rest) ← number 2 (trimStart text)
  if low ≤ n ∧ n ≤ high then return (n, rest) else none

-- Four digits or fewer, or any number of them behind a sign.
def year (text : List Char) : Option (Int × List Char) := do
  let text := trimStart text
  let (year, rest) ← match text with
    | '-' :: rest => (fun (n, rest) => (-(n : Int), rest)) <$> number rest.length rest
    | '+' :: rest => (fun (n, rest) => ((n : Int), rest)) <$> number rest.length rest
    | _ => (fun (n, rest) => ((n : Int), rest)) <$> number 4 text
  if -262143 ≤ year ∧ year ≤ 262142 then return (year, rest) else none

def separator (c : Char) (text : List Char) : Option (List Char) :=
  match trimStart text with
  | d :: rest => if d = c then some rest else none
  | [] => none

-- Nanoseconds behind a point; digits after the ninth are passed over.
def fraction : List Char → Option (Nat × List Char)
  | '.' :: text => do
    let (n, rest) ← number 9 text
    let size := text.length - rest.length
    return (n * 10 ^ (9 - size), (digitRun rest).2)
  | text => some (0, text)

def twoDigits (text : List Char) : Option (Nat × List Char) := do
  let (n, rest) ← number 2 text
  if text.length - rest.length = 2 then return (n, rest) else none

-- Seconds east of Greenwich: Z, UTC, or hours and minutes behind a sign.
def offset (text : List Char) : Option (Int × List Char) :=
  if (text.take 3).map Char.toUpper = ['U', 'T', 'C'] then some (0, text.drop 3)
  else
    match text with
    | [] => none
    | c :: rest => do
      if c = 'Z' ∨ c = 'z' then return (0, rest)
      let east : Int ← if c = '+' then some 1 else if c = '-' ∨ c = '\u2212' then some (-1) else none
      let (hours, rest) ← twoDigits rest
      let (minutes, rest) ← twoDigits (rest.dropWhile fun c => c = ':' || isBlank c)
      let seconds := hours * 3600 + minutes * 60
      if minutes < 60 ∧ seconds < 86400 then return (east * seconds, rest) else none

def readDate (text : List Char) : Option (Date × List Char) := do
  let (year, text) ← year text
  let (month, text) ← field 1 12 (← separator '-' text)
  let (day, text) ← field 1 31 (← separator '-' text)
  if day ≤ Date.daysIn year month then return (⟨year, month, day⟩, text) else none

def readTime (text : List Char) : Option ((Nat × Nat) × List Char) := do
  let (hour, text) ← field 0 23 text
  let (minute, text) ← field 0 59 (← separator ':' text)
  let (second, text) ← field 0 60 (← separator ':' text)
  let (nanosecond, text) ← fraction text
  let start := hour * 3600 + minute * 60
  return (if second = 60 then (start + 59, 1000000000 + nanosecond) else (start + second, nanosecond), text)

def read (text : String) : Option Timestamp := do
  let (date, text) ← readDate text.toList
  let (first, text) ← match text with
    | c :: text => some (c, text)
    | [] => none
  if first ≠ 't' ∧ first ≠ 'T' ∧ first ≠ ' ' then none
  let ((second, nanosecond), text) ← readTime text
  let (east, text) ← offset (trimStart text)
  if !(trimStart text).isEmpty then none
  let seconds := date.toDays * 86400 + second - east
  let day := seconds.fdiv 86400
  let year := (Date.ofDays day).year
  if -262143 ≤ year ∧ year ≤ 262142 then return ⟨day, (seconds.fmod 86400).toNat, nanosecond⟩ else none

def codec : Codec Timestamp where
  write t := .string t.text
  read
    | .text (some s) =>
      match read s with
      | some t => .ok t
      | none => .error .malformed
    | _ => .error .malformed

end Timestamp
end QueryDraft
