import QueryDraft.Session.Calendar

/-!
Dates and day numbers stand for one another.
-/

set_option autoImplicit false

namespace QueryDraft.Date

-- A day of an era of 400 years that start in March: whole centuries, whole spans of four years, whole
-- years and days. The last day of a span exists only where its last year is a leap year.
structure DayOfEra (day century span year rest : Nat) : Prop where
  total : day = 36524 * century + 1461 * span + 365 * year + rest
  centuries : century ≤ 3
  spans : span ≤ 24
  years : year ≤ 3
  days : rest ≤ 365
  leap : rest = 365 → year = 3 ∧ (span < 24 ∨ century = 3)

theorem day_of_era (day : Nat) (inside : day < 146097) :
    ∃ century span year rest, DayOfEra day century span year rest := by
  obtain ⟨century, inCentury, centuries, c, m⟩ : ∃ century inCentury, century ≤ 3 ∧
      day = 36524 * century + inCentury ∧ (inCentury < 36524 ∨ century = 3 ∧ inCentury = 36524) := by
    by_cases last : day = 146096
    · exact ⟨3, 36524, by omega, by omega, by omega⟩
    · exact ⟨day / 36524, day % 36524, by omega, by omega, by omega⟩
  have spanBound : inCentury / 1461 ≤ 24 := by omega
  obtain ⟨year, rest, years, split, low⟩ : ∃ year rest, year ≤ 3 ∧ inCentury % 1461 = 365 * year + rest ∧
      (rest < 365 ∨ year = 3 ∧ rest = 365) := by
    by_cases last : inCentury % 1461 = 1460
    · exact ⟨3, 365, by omega, by omega, by omega⟩
    · exact ⟨inCentury % 1461 / 365, inCentury % 1461 % 365, by omega, by omega, by omega⟩
  exact ⟨century, inCentury / 1461, year, rest, by omega, centuries, spanBound, years, by omega, by omega⟩

section

variable {day century span year rest : Nat} (shape : DayOfEra day century span year rest)

include shape

-- A span of four years is one day longer than four times 365, so that the days over add up to one more
-- quotient at the end of long eras only; the other two quotients correct for the centuries.
theorem year_of_era : (day - day / 1460 + day / 36524 - day / 146096) / 365 = 100 * century + 4 * span + year := by
  obtain ⟨total, centuries, spans, years, days, leap⟩ := shape
  have fours : day / 1460 = 25 * century + span ∧ 24 * century + span + 365 * year + rest < 1460 ∨
      day / 1460 = 25 * century + span + 1 ∧ 1460 ≤ 24 * century + span + 365 * year + rest := by omega
  have hundreds : day < 146096 ∧ day / 36524 = century ∧ day / 146096 = 0 ∨
      day = 146096 ∧ day / 36524 = century + 1 ∧ day / 146096 = 1 := by omega
  have balance : ∃ left, left < 365 ∧
      day - day / 1460 + day / 36524 - day / 146096 = 365 * (100 * century + 4 * span + year) + left := by
    rcases fours with ⟨short, few⟩ | ⟨long, many⟩
    · have early : rest < 365 := by omega
      have inside : day < 146096 := by omega
      obtain ⟨-, hundred, era⟩ := hundreds.resolve_right (by omega)
      exact ⟨rest, early, by rw [short, hundred, era]; omega⟩
    · have late : 0 < rest := by omega
      refine ⟨rest - 1, by omega, ?_⟩
      rcases hundreds with ⟨inside, hundred, era⟩ | ⟨last, hundred, era⟩
      · rw [long, hundred, era]
        omega
      · rw [long, hundred, era]
        omega
  obtain ⟨left, small, sum⟩ := balance
  rw [sum]
  omega

theorem day_of_year :
    day - (365 * (100 * century + 4 * span + year) + (100 * century + 4 * span + year) / 4 -
      (100 * century + 4 * span + year) / 100) = rest := by
  obtain ⟨total, centuries, spans, years, days, leap⟩ := shape
  have fours : (100 * century + 4 * span + year) / 4 = 25 * century + span := by omega
  have hundreds : (100 * century + 4 * span + year) / 100 = century := by omega
  omega

theorem day_again :
    (100 * century + 4 * span + year) * 365 + (100 * century + 4 * span + year) / 4 -
      (100 * century + 4 * span + year) / 100 + rest = day := by
  obtain ⟨total, centuries, spans, years, days, leap⟩ := shape
  have fours : (100 * century + 4 * span + year) / 4 = 25 * century + span := by omega
  have hundreds : (100 * century + 4 * span + year) / 100 = century := by omega
  omega

end

-- The date of a day counted from the first of March.
def march (year : Int) (rest : Nat) : Date :=
  let month := (5 * rest + 2) / 153
  { year := if 10 ≤ month then year + 1 else year
    month := if 10 ≤ month then month - 9 else month + 3
    day := rest - (153 * month + 2) / 5 + 1 }

theorem of_days_march (days : Int) : ∃ (era : Int) (day century span year rest : Nat),
    DayOfEra day century span year rest ∧ days + 719468 = era * 146097 + day ∧
      ofDays days = march (era * 400 + (100 * century + 4 * span + year : Nat)) rest := by
  have quotient : (days + 719468).fdiv 146097 = (days + 719468) / 146097 := Int.fdiv_eq_ediv_of_nonneg _ (by omega)
  have inside : (days + 719468 - (days + 719468) / 146097 * 146097).toNat < 146097 := by omega
  obtain ⟨century, span, year, rest, shape⟩ := day_of_era _ inside
  refine ⟨(days + 719468) / 146097, _, century, span, year, rest, shape, by omega, ?_⟩
  simp only [ofDays, quotient, year_of_era shape, day_of_year shape, march]

theorem month_bounds (rest : Nat) (days : rest ≤ 365) :
    (5 * rest + 2) / 153 ≤ 11 ∧ (153 * ((5 * rest + 2) / 153) + 2) / 5 ≤ rest := by
  omega

theorem to_days_march (era : Int) (day century span year rest : Nat) (shape : DayOfEra day century span year rest) :
    (march (era * 400 + (100 * century + 4 * span + year : Nat)) rest).toDays = era * 146097 + day - 719468 := by
  have again := day_again shape
  obtain ⟨total, centuries, spans, years, days, leap⟩ := shape
  obtain ⟨months, begun⟩ := month_bounds rest days
  generalize yearOfEra : 100 * century + 4 * span + year = y at again
  have small : y < 400 := by omega
  have eraAgain : (era * 400 + (y : Int)).fdiv 400 = era := by
    rw [Int.fdiv_eq_ediv_of_nonneg _ (by omega)]
    omega
  have inEra : (era * 400 + (y : Int) - era * 400).toNat = y := by omega
  by_cases late : 10 ≤ (5 * rest + 2) / 153
  · have winter : (5 * rest + 2) / 153 - 9 ≤ 2 := by omega
    have month : ((5 * rest + 2) / 153 - 9 + 9) % 12 = (5 * rest + 2) / 153 := by omega
    have year : era * 400 + (y : Int) + 1 - 1 = era * 400 + y := by omega
    simp only [toDays, march, if_pos late, if_pos winter, month, year, eraAgain, inEra]
    omega
  · have summer : ¬ (5 * rest + 2) / 153 + 3 ≤ 2 := by omega
    have month : ((5 * rest + 2) / 153 + 3 + 9) % 12 = (5 * rest + 2) / 153 := by omega
    simp only [toDays, march, if_neg late, if_neg summer, month, eraAgain, inEra]
    omega

theorem to_days_of_days (days : Int) : (ofDays days).toDays = days := by
  obtain ⟨era, day, century, span, year, rest, shape, split, date⟩ := of_days_march days
  rw [date, to_days_march era day century span year rest shape]
  omega

structure Proper (d : Date) : Prop where
  month : 1 ≤ d.month ∧ d.month ≤ 12
  day : 1 ≤ d.day ∧ d.day ≤ daysIn d.year d.month

theorem leap_of_last_day (era : Int) (day century span year rest : Nat) (shape : DayOfEra day century span year rest)
    (last : rest = 365) : isLeap (era * 400 + (100 * century + 4 * span + year : Nat) + 1) = true := by
  obtain ⟨rfl, late⟩ := shape.leap last
  have fours : (era * 400 + (100 * century + 4 * span + 3 : Nat) + 1) % 4 = 0 := by omega
  simp only [isLeap, fours, decide_true, Bool.true_and, Bool.or_eq_true, decide_eq_true_eq]
  have spans := shape.spans
  rcases late with short | rfl
  · left
    omega
  · by_cases long : span = 24
    · right
      omega
    · left
      omega

theorem march_proper (year : Int) (rest : Nat) (days : rest ≤ 365) (leap : rest = 365 → isLeap (year + 1) = true) :
    (march year rest).Proper := by
  obtain ⟨months, begun⟩ := month_bounds rest days
  have lower : 153 * ((5 * rest + 2) / 153) ≤ 5 * rest + 2 := Nat.mul_div_le _ _
  have upper : 5 * rest + 2 < 153 * ((5 * rest + 2) / 153) + 153 := by omega
  generalize shape : (5 * rest + 2) / 153 = month at *
  have date : march year rest = ⟨if 10 ≤ month then year + 1 else year, if 10 ≤ month then month - 9 else month + 3,
      rest - (153 * month + 2) / 5 + 1⟩ := by
    rw [march, shape]
  rw [date]
  by_cases late : 10 ≤ month
  · simp only [if_pos late]
    refine ⟨by dsimp only; omega, by dsimp only; omega, ?_⟩
    dsimp only
    by_cases february : month = 11
    · subst february
      rw [daysIn, if_pos rfl]
      split
      · omega
      · rename_i common
        have early : rest ≠ 365 := fun last => common (leap last)
        omega
    · rw [daysIn, if_neg (by omega), if_neg (by omega)]
      omega
  · simp only [if_neg late]
    refine ⟨by dsimp only; omega, by dsimp only; omega, ?_⟩
    dsimp only
    rw [daysIn, if_neg (by omega)]
    split
    · omega
    · omega

theorem of_days_proper (days : Int) : (ofDays days).Proper := by
  obtain ⟨era, day, century, span, year, rest, shape, -, date⟩ := of_days_march days
  rw [date]
  exact march_proper _ rest shape.days (leap_of_last_day era day century span year rest shape)

end QueryDraft.Date
