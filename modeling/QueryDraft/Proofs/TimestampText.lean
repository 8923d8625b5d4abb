import QueryDraft.Proofs.Calendar
import QueryDraft.Proofs.CodecLaws
import QueryDraft.Session.Timestamp

/-!
Moments are read back from their texts.
-/

set_option autoImplicit false

namespace QueryDraft

open Json
open Number
open Text (isBlank trimStart)

/-! ## Numbers of a fixed width -/

theorem push_digits_length (fuel n width : Nat) (low : List Digit) (enough : n < fuel) (small : n < 10 ^ (width + 1)) :
    (pushDigits fuel n low).length ≤ low.length + width + 1 := by
  induction fuel generalizing n width low with
  | zero => omega
  | succ fuel ih =>
      by_cases single : n < 10
      · rw [pushDigits, if_pos single, List.length_cons]
        omega
      · cases width with
        | zero => omega
        | succ width =>
            have fewer : n / 10 < 10 ^ (width + 1) := by
              rw [Nat.div_lt_iff_lt_mul (by omega), ← Nat.pow_succ]
              exact small
            have bound := ih (n / 10) width (⟨n % 10, Nat.mod_lt n (by omega)⟩ :: low) (by omega) fewer
            rw [pushDigits, if_neg single]
            rw [List.length_cons] at bound
            omega

theorem digits_of_length (n width : Nat) (small : n < 10 ^ (width + 1)) : (digitsOf n).length ≤ width + 1 := by
  have bound := push_digits_length (n + 1) n width [] (Nat.lt_succ_self n) small
  rw [List.length_nil] at bound
  rw [digitsOf]
  omega

namespace Timestamp

theorem padded_digits (width n : Nat) : ∃ digits, padded width n = digitText digits ∧ valueOf digits = n ∧
    digits.length = max width (digitsOf n).length := by
  refine ⟨List.replicate (width - (digitsOf n).length) ⟨0, by omega⟩ ++ digitsOf n, ?_, ?_, ?_⟩
  · rw [digitText, List.map_append, List.map_replicate]
    rfl
  · rw [value_of_zeros, valueOf_digitsOf]
  · rw [List.length_append, List.length_replicate]
    omega

theorem bounded_take (size : Nat) (text : List Char) (ends : Bounded text) : Bounded (text.take size) := by
  intro c front
  cases text with
  | nil => simp at front
  | cons d rest =>
      cases size with
      | zero => cases front
      | succ size => exact ends c front

theorem number_digits (width : Nat) (digits : List Digit) (after : List Char) (some : digits ≠ [])
    (fits : digits.length ≤ width) (ends : digits.length = width ∨ Bounded after) :
    number width (digitText digits ++ after) = .some (valueOf digits, after) := by
  have size : (digitText digits).length = digits.length := List.length_map _
  have run : digitRun ((digitText digits ++ after).take width) = (digits, after.take (width - digits.length)) := by
    rw [List.take_append, List.take_of_length_le (by omega), size]
    apply digit_run_text
    rcases ends with full | bounded
    · rw [full, Nat.sub_self, List.take_zero]
      intro c front
      cases front
    · exact bounded_take _ _ bounded
  rw [number, run]
  cases digits with
  | nil => exact absurd rfl some
  | cons d rest =>
      simp only
      rw [← size, List.drop_left]

theorem padded_exact (size n : Nat) (positive : 0 < size) (small : n < 10 ^ size) :
    ∃ digits, padded size n = digitText digits ∧ valueOf digits = n ∧ digits.length = size := by
  obtain ⟨digits, text, value, length⟩ := padded_digits size n
  obtain ⟨size, rfl⟩ : ∃ k, size = k + 1 := ⟨size - 1, by omega⟩
  have bound := digits_of_length n size small
  exact ⟨digits, text, value, by omega⟩

theorem padded_length (size n : Nat) (positive : 0 < size) (small : n < 10 ^ size) : (padded size n).length = size := by
  obtain ⟨digits, text, -, length⟩ := padded_exact size n positive small
  rw [text, digitText, List.length_map, length]

theorem number_padded (width size n : Nat) (after : List Char) (positive : 0 < size) (small : n < 10 ^ size)
    (fits : size ≤ width) (ends : size = width ∨ Bounded after) :
    number width (padded size n ++ after) = some (n, after) := by
  obtain ⟨digits, text, value, length⟩ := padded_exact size n positive small
  have nonempty : digits ≠ [] := by
    rintro rfl
    rw [List.length_nil] at length
    omega
  rw [text, number_digits width digits after nonempty (by omega) (by rw [length]; exact ends), value]

theorem padded_front (size n : Nat) (positive : 0 < size) : ∃ d rest, padded size n = (d : Digit).char :: rest := by
  obtain ⟨digits, text, -, length⟩ := padded_digits size n
  cases digits with
  | nil =>
      rw [List.length_nil] at length
      omega
  | cons d rest => exact ⟨d, _, text⟩

theorem trim_front (c : Char) (rest : List Char) (plain : isBlank c = false) : trimStart (c :: rest) = c :: rest := by
  rw [trimStart, List.dropWhile_cons_of_neg (by simp [plain])]

theorem digit_not_blank (d : Digit) : isBlank d.char = false := by
  revert d
  decide

theorem digit_no_sign (d : Digit) : d.char ≠ '-' ∧ d.char ≠ '+' := by
  revert d
  decide

theorem trim_padded (size n : Nat) (after : List Char) (positive : 0 < size) :
    trimStart (padded size n ++ after) = padded size n ++ after := by
  obtain ⟨d, rest, front⟩ := padded_front size n positive
  rw [front, List.cons_append, trim_front _ _ (digit_not_blank d)]

/-! ## Parts of a date and of a time -/

theorem field_padded (low high n : Nat) (after : List Char) (above : low ≤ n) (below : n ≤ high) (small : n < 100) :
    field low high (padded 2 n ++ after) = some (n, after) := by
  have read := number_padded 2 2 n after (by omega) (by omega) (by omega) (.inl rfl)
  rw [field, trim_padded 2 n after (by omega), read]
  simp [above, below]

theorem separator_cons (c : Char) (after : List Char) (plain : isBlank c = false) :
    separator c (c :: after) = some after := by
  rw [separator, trim_front c after plain]
  simp

theorem number_signed (n : Nat) (after : List Char) (ends : Bounded after) :
    number (padded 4 n ++ after).length (padded 4 n ++ after) = some (n, after) := by
  obtain ⟨digits, text, value, length⟩ := padded_digits 4 n
  have size : (digitText digits).length = digits.length := List.length_map _
  have nonempty : digits ≠ [] := by
    rintro rfl
    rw [List.length_nil] at length
    omega
  rw [text, number_digits _ digits after nonempty (by rw [List.length_append]; omega) (.inr ends), value]

theorem year_read (y : Int) (after : List Char) (low : -262143 ≤ y) (high : y ≤ 262142) (ends : Bounded after) :
    year (yearText y ++ after) = some (y, after) := by
  by_cases plain : 0 ≤ y ∧ y ≤ 9999
  · obtain ⟨d, rest, front⟩ := padded_front 4 y.toNat (by omega)
    have read := number_padded 4 4 y.toNat after (by omega) (by omega) (by omega) (.inl rfl)
    have trimmed := trim_padded 4 y.toNat after (by omega)
    have natural : ((y.toNat : Nat) : Int) = y := Int.toNat_of_nonneg plain.1
    obtain ⟨notMinus, notPlus⟩ := digit_no_sign d
    rw [yearText, if_pos plain, year, trimmed]
    rw [front, List.cons_append] at read ⊢
    simp [notMinus, notPlus, read, natural, low, high]
  · have read := number_signed y.natAbs after ends
    by_cases negative : y < 0
    · have back : -((y.natAbs : Nat) : Int) = y := by omega
      rw [yearText, if_neg plain, if_pos negative, List.cons_append, year, trim_front _ _ rfl]
      generalize padded 4 y.natAbs ++ after = rest at read
      generalize y.natAbs = n at read back
      simp [read, back, low, high]
    · have back : ((y.natAbs : Nat) : Int) = y := by omega
      rw [yearText, if_neg plain, if_neg negative, List.cons_append, year, trim_front _ _ rfl]
      generalize padded 4 y.natAbs ++ after = rest at read
      generalize y.natAbs = n at read back
      simp [read, back, low, high]

theorem read_date_text (d : Date) (after : List Char) (proper : d.Proper) (low : -262143 ≤ d.year)
    (high : d.year ≤ 262142) :
    readDate (yearText d.year ++ '-' :: (padded 2 d.month ++ '-' :: (padded 2 d.day ++ after))) = some (d, after) := by
  obtain ⟨month, day⟩ := proper
  have short : Date.daysIn d.year d.month ≤ 31 := by
    unfold Date.daysIn
    split
    · split <;> omega
    · split <;> omega
  have years := year_read d.year ('-' :: (padded 2 d.month ++ '-' :: (padded 2 d.day ++ after))) low high
    (bounded_cons '-' _ rfl)
  have months := field_padded 1 12 d.month ('-' :: (padded 2 d.day ++ after)) month.1 month.2 (by omega)
  have days := field_padded 1 31 d.day after day.1 (by omega) (by omega)
  simp [readDate, years, months, days, separator_cons, isBlank, day.2]

theorem fraction_digits (size n : Nat) (after : List Char) (positive : 0 < size) (fits : size ≤ 9) (small : n < 10 ^ size)
    (ends : Bounded after) : fraction ('.' :: (padded size n ++ after)) = some (n * 10 ^ (9 - size), after) := by
  have read := number_padded 9 size n after positive small fits (.inr ends)
  have length := padded_length size n positive small
  have rest : (digitRun after).2 = after := by
    have run := digit_run_text [] after ends
    rw [digitText, List.map_nil, List.nil_append] at run
    rw [run]
  rw [fraction, read]
  simp [length, rest]

theorem fraction_read (nanosecond : Nat) (after : List Char) (small : nanosecond < 1000000000) (ends : Bounded after)
    (plain : after.head? ≠ some '.') : fraction (fractionText nanosecond ++ after) = some (nanosecond, after) := by
  unfold fractionText
  split
  · rename_i zero
    subst zero
    cases after with
    | nil => rfl
    | cons c rest =>
        have other : c ≠ '.' := fun same => plain (by rw [same]; rfl)
        simp [fraction, other]
  · split
    · rename_i millis
      rw [List.cons_append, fraction_digits 3 _ after (by omega) (by omega) (by omega) ends]
      congr
      omega
    · split
      · rw [List.cons_append, fraction_digits 6 _ after (by omega) (by omega) (by omega) ends]
        congr
        omega
      · rw [List.cons_append, fraction_digits 9 _ after (by omega) (by omega) (by omega) ends]
        congr
        omega

theorem read_time_text (hour minute second nanosecond : Nat) (after : List Char) (hours : hour < 24)
    (minutes : minute < 60) (seconds : second ≤ 60) (small : nanosecond < 1000000000) (ends : Bounded after)
    (plain : after.head? ≠ some '.') :
    readTime (padded 2 hour ++ ':' :: (padded 2 minute ++ ':' :: (padded 2 second ++
        (fractionText nanosecond ++ after)))) =
      some (if second = 60 then (hour * 3600 + minute * 60 + 59, 1000000000 + nanosecond)
        else (hour * 3600 + minute * 60 + second, nanosecond), after) := by
  have first := field_padded 0 23 hour
    (':' :: (padded 2 minute ++ ':' :: (padded 2 second ++ (fractionText nanosecond ++ after))))
    (by omega) (by omega) (by omega)
  have middle := field_padded 0 59 minute (':' :: (padded 2 second ++ (fractionText nanosecond ++ after))) (by omega)
    (by omega) (by omega)
  have last := field_padded 0 60 second (fractionText nanosecond ++ after) (by omega) seconds (by omega)
  have rest := fraction_read nanosecond after small ends plain
  simp [readTime, first, middle, last, rest, separator_cons, isBlank]

-- What the clock gives: a moment that has a date, and more than a second of nanoseconds in a leap second only.
structure Proper (t : Timestamp) : Prop where
  year : -262143 ≤ (Date.ofDays t.day).year ∧ (Date.ofDays t.day).year ≤ 262142
  second : t.second < 86400
  nanosecond : t.nanosecond < 1000000000 ∨ t.second % 60 = 59 ∧ t.nanosecond < 2000000000

theorem text_parts (t : Timestamp) :
    t.text.toList = yearText (Date.ofDays t.day).year ++ '-' :: (padded 2 (Date.ofDays t.day).month ++
      '-' :: (padded 2 (Date.ofDays t.day).day ++ 'T' :: (padded 2 (t.second / 3600) ++
      ':' :: (padded 2 (t.second / 60 % 60) ++ ':' :: (padded 2 (t.second % 60 + t.nanosecond / 1000000000) ++
      (fractionText (t.nanosecond % 1000000000) ++ ['Z'])))))) := by
  rw [text, String.toList_ofList]
  simp only [List.append_assoc, List.cons_append]

theorem moment_again (day : Int) (second : Nat) (inside : second < 86400) :
    (day * 86400 + second).fdiv 86400 = day ∧ ((day * 86400 + second).fmod 86400).toNat = second := by
  rw [Int.fdiv_eq_ediv_of_nonneg _ (by omega), Int.fmod_eq_emod_of_nonneg _ (by omega)]
  omega

-- A leap second stands as second 60 in the text and as an overfull second 59 in the moment.
theorem clock_again (second nanosecond : Nat)
    (nanos : nanosecond < 1000000000 ∨ second % 60 = 59 ∧ nanosecond < 2000000000) :
    (if second % 60 + nanosecond / 1000000000 = 60 then
      (second / 3600 * 3600 + second / 60 % 60 * 60 + 59, 1000000000 + nanosecond % 1000000000)
    else (second / 3600 * 3600 + second / 60 % 60 * 60 + (second % 60 + nanosecond / 1000000000),
      nanosecond % 1000000000)) = (second, nanosecond) := by
  by_cases whole : nanosecond < 1000000000
  · have seconds : second / 3600 * 3600 + second / 60 % 60 * 60 + (second % 60 + nanosecond / 1000000000) = second := by
      omega
    have rest : nanosecond % 1000000000 = nanosecond := Nat.mod_eq_of_lt whole
    rw [if_neg (by omega), seconds, rest]
  · obtain ⟨last, leap⟩ := nanos.resolve_left whole
    have seconds : second / 3600 * 3600 + second / 60 % 60 * 60 + 59 = second := by omega
    have rest : 1000000000 + nanosecond % 1000000000 = nanosecond := by omega
    rw [if_pos (by omega), seconds, rest]

theorem read_text (t : Timestamp) (proper : t.Proper) : read t.text = some t := by
  have parts := text_parts t
  obtain ⟨day, second, nanosecond⟩ := t
  obtain ⟨year, seconds, nanos⟩ := proper
  simp only at year seconds nanos parts
  have time := read_time_text (second / 3600) (second / 60 % 60) (second % 60 + nanosecond / 1000000000)
    (nanosecond % 1000000000) ['Z'] (by omega) (by omega) (by omega) (by omega) (bounded_cons 'Z' [] rfl) (by simp)
  rw [clock_again second nanosecond nanos] at time
  have date := read_date_text (Date.ofDays day) ('T' :: (padded 2 (second / 3600) ++
    ':' :: (padded 2 (second / 60 % 60) ++ ':' :: (padded 2 (second % 60 + nanosecond / 1000000000) ++
    (fractionText (nanosecond % 1000000000) ++ ['Z']))))) (Date.of_days_proper day) year.1 year.2
  obtain ⟨dayAgain, secondAgain⟩ := moment_again day second seconds
  have zone : offset (trimStart ['Z']) = some (0, []) := rfl
  have done : trimStart ([] : List Char) = [] := rfl
  rw [read, parts, date]
  simp only [Option.bind_eq_bind, Option.bind_some]
  generalize padded 2 (second / 3600) ++ _ = clock at time
  have letter : ¬ ('T' ≠ 't' ∧ 'T' ≠ 'T' ∧ 'T' ≠ ' ') := by simp
  simp only [if_neg letter, time, zone, done, List.isEmpty_nil, Bool.not_true, Bool.false_eq_true, if_false,
    Option.bind_some, Date.to_days_of_days, Int.sub_zero, dayAgain, secondAgain, if_pos year, pure]

theorem returns (t : Timestamp) (proper : t.Proper) : codec.Returns t (some t) := by
  refine ⟨rfl, ?_⟩
  simp [codec, Value.string, read_text t proper, outcome]

end Timestamp
end QueryDraft
