import CodeAssist.Moment
import CodeAssist.Proofs.Json.Tokens
import Mathlib.Algebra.Group.Nat.Defs

/-!
The text of a moment names the moment.

The calendar is counted in eras of 400 years that begin in March. `dateOfDays_spec` says that a
number of days is turned into a date of the calendar and back; the rest is reading of padded
digits between separators.
-/

namespace CodeAssist.Moment

open List Option

open Text (dropBlank isAsciiDigit isBlank)

variable {month day n width nanos : Nat}

/-! ## 1. The calendar -/

/-- The year of the era that a day of the era lies in, years beginning in March. -/
def yearOfDay (d : Int) : Int :=
  (d - d / 1460 + d / 36524 - d / 146096) / 365

/-- The day of the year that a day of the era is. -/
def dayInYear (d : Int) : Int :=
  d - (365 * yearOfDay d + yearOfDay d / 4 - yearOfDay d / 100)

section Era

variable {d : Int} (h0 : 0 ≤ d) (h1 : d ≤ 146096)

include h0 h1

theorem yearOfDay_bounds : 0 ≤ yearOfDay d ∧ yearOfDay d ≤ 399 := by
  rw [yearOfDay]
  omega

theorem yearOfDay_century : yearOfDay d / 100 = d / 36524 - d / 146096 := by
  rw [yearOfDay]
  have hc : d / 36524 = 0 ∨ d / 36524 = 1 ∨ d / 36524 = 2 ∨ d / 36524 = 3 ∨ d / 36524 = 4 := by
    omega
  rcases hc with hc | hc | hc | hc | hc <;> omega

/-- A year lies in the four years that its day is counted in, or is the one before them. -/
theorem yearOfDay_cases : ∃ k : Int, -1 ≤ k ∧ k ≤ 3 ∧ yearOfDay d = 4 * (d / 1460) + k := by
  refine ⟨yearOfDay d - 4 * (d / 1460), ?_, ?_, by omega⟩ <;> rw [yearOfDay] <;> omega

theorem dayInYear_bounds : 0 ≤ dayInYear d ∧ dayInYear d ≤ 365 := by
  have hcentury := yearOfDay_century h0 h1
  obtain ⟨k, hlow, hhigh, hk⟩ := yearOfDay_cases h0 h1
  have hy : yearOfDay d = (d - d / 1460 + d / 36524 - d / 146096) / 365 := rfl
  rw [dayInYear]
  have hcases : k = -1 ∨ k = 0 ∨ k = 1 ∨ k = 2 ∨ k = 3 := by omega
  rcases hcases with rfl | rfl | rfl | rfl | rfl <;> omega

theorem leap_of_dayInYear (hlast : dayInYear d = 365) :
    (yearOfDay d + 1) % 4 = 0 ∧
      ((yearOfDay d + 1) % 100 ≠ 0 ∨ (yearOfDay d + 1) % 400 = 0) := by
  have hcentury := yearOfDay_century h0 h1
  obtain ⟨k, hlow, hhigh, hk⟩ := yearOfDay_cases h0 h1
  have hy : yearOfDay d = (d - d / 1460 + d / 36524 - d / 146096) / 365 := rfl
  rw [dayInYear] at hlast
  have hcases : k = -1 ∨ k = 0 ∨ k = 1 ∨ k = 2 ∨ k = 3 := by omega
  have hc : d / 36524 = 0 ∨ d / 36524 = 1 ∨ d / 36524 = 2 ∨ d / 36524 = 3 ∨ d / 36524 = 4 := by
    omega
  rcases hcases with rfl | rfl | rfl | rfl | rfl <;>
    rcases hc with hc | hc | hc | hc | hc <;> omega

end Era

/-- The month of a day of the year, counted from March. -/
def monthOfDay (doy : Int) : Int :=
  (5 * doy + 2) / 153

theorem monthOfDay_bounds {doy : Int} (h0 : 0 ≤ doy) (h1 : doy ≤ 365) :
    0 ≤ monthOfDay doy ∧ monthOfDay doy ≤ 11 ∧ (153 * monthOfDay doy + 2) / 5 ≤ doy := by
  rw [monthOfDay]
  omega

/-- What a date is, with the year counted from March. -/
structure DateParts where
  era : Int
  year : Int
  month : Int
  day : Int
  year_low : 0 ≤ year
  year_high : year ≤ 399
  month_low : 0 ≤ month
  month_high : month ≤ 11
  day_low : 1 ≤ day

namespace DateParts

def calendarMonth (p : DateParts) : Int :=
  if p.month < 10 then p.month + 3 else p.month - 9

def calendarYear (p : DateParts) : Int :=
  p.year + p.era * 400 + (if p.calendarMonth ≤ 2 then 1 else 0)

theorem daysOfDate_eq (p : DateParts) :
    daysOfDate p.calendarYear p.calendarMonth.toNat p.day.toNat =
      p.era * 146097 + (p.year * 365 + p.year / 4 - p.year / 100 +
        ((153 * p.month + 2) / 5 + p.day - 1)) - 719468 := by
  obtain ⟨era, year, month, day, hy0, hy1, hm0, hm1, hd⟩ := p
  simp only [daysOfDate, calendarYear, calendarMonth]
  have hmonth : (((if month < 10 then month + 3 else month - 9).toNat : Nat) : Int) =
      if month < 10 then month + 3 else month - 9 := by
    split <;> omega
  have hfrom : ((if month < 10 then month + 3 else month - 9) + 9) % 12 = month := by
    split <;> omega
  have hle : (if month < 10 then month + 3 else month - 9).toNat ≤ 2 ↔
      (if month < 10 then month + 3 else month - 9) ≤ 2 := by
    split <;> omega
  have hyear : (if (if month < 10 then month + 3 else month - 9) ≤ 2 then
      year + era * 400 + (if (if month < 10 then month + 3 else month - 9) ≤ 2 then 1 else 0) - 1
      else
        year + era * 400 + (if (if month < 10 then month + 3 else month - 9) ≤ 2 then 1 else 0)) =
      year + era * 400 := by
    split <;> omega
  simp only [hmonth, hfrom, hle, hyear, Int.fdiv_eq_ediv_of_nonneg _ (by decide : (0 : Int) ≤ 400)]
  have hera : (year + era * 400) / 400 = era := by omega
  rw [hera, Int.toNat_of_nonneg (by omega)]
  have hsub : year + era * 400 - era * 400 = year := by omega
  rw [hsub]

end DateParts

/-- The day of its era that a number of days from 1970-01-01 is. -/
def dayInEra (days : Int) : Int :=
  (days + 719468) % 146097

theorem dayInEra_bounds (days : Int) : 0 ≤ dayInEra days ∧ dayInEra days ≤ 146096 := by
  rw [dayInEra]
  omega

theorem monthOfDay_inEra (days : Int) :
    0 ≤ monthOfDay (dayInYear (dayInEra days)) ∧ monthOfDay (dayInYear (dayInEra days)) ≤ 11 ∧
      (153 * monthOfDay (dayInYear (dayInEra days)) + 2) / 5 ≤ dayInYear (dayInEra days) := by
  obtain ⟨h0, h1⟩ := dayInEra_bounds days
  obtain ⟨hlow, hhigh⟩ := dayInYear_bounds h0 h1
  exact monthOfDay_bounds hlow hhigh

/-- The date of a number of days from 1970-01-01, with the year counted from March. -/
def partsOfDays (days : Int) : DateParts where
  era := (days + 719468) / 146097
  year := yearOfDay (dayInEra days)
  month := monthOfDay (dayInYear (dayInEra days))
  day := dayInYear (dayInEra days) - (153 * monthOfDay (dayInYear (dayInEra days)) + 2) / 5 + 1
  year_low := (yearOfDay_bounds (dayInEra_bounds days).1 (dayInEra_bounds days).2).1
  year_high := (yearOfDay_bounds (dayInEra_bounds days).1 (dayInEra_bounds days).2).2
  month_low := (monthOfDay_inEra days).1
  month_high := (monthOfDay_inEra days).2.1
  day_low := by
    have := (monthOfDay_inEra days).2.2
    omega

theorem dateOfDays_eq (days : Int) :
    dateOfDays days = ((partsOfDays days).calendarYear,
      (partsOfDays days).calendarMonth.toNat, (partsOfDays days).day.toNat) := by
  have hera : (days + 719468) - (days + 719468) / 146097 * 146097 = dayInEra days := by
    rw [dayInEra]
    omega
  simp only [dateOfDays, Int.fdiv_eq_ediv_of_nonneg _ (by decide : (0 : Int) ≤ 146097), hera]
  rfl

theorem daysInMonth_le (year : Int) (month : Nat) : daysInMonth year month ≤ 31 := by
  rw [daysInMonth]
  split
  · split <;> omega
  · split <;> omega

/-- The last day of a month is the one before the first day of the next, and February ends with
the year. -/
theorem day_le_daysInMonth (y : Int) {doy m : Int} (h0 : 0 ≤ doy) (h1 : doy ≤ 365)
    (hm : m = monthOfDay doy) (hleap : doy = 365 → isLeapYear (y + 1) = true) :
    (doy - (153 * m + 2) / 5 + 1).toNat ≤
      daysInMonth (y + (if (if m < 10 then m + 3 else m - 9) ≤ 2 then 1 else 0))
        (if m < 10 then m + 3 else m - 9).toNat := by
  rw [monthOfDay] at hm
  have hcases : m = 0 ∨ m = 1 ∨ m = 2 ∨ m = 3 ∨ m = 4 ∨ m = 5 ∨ m = 6 ∨ m = 7 ∨ m = 8 ∨ m = 9 ∨
    m = 10 ∨ m = 11 := by omega
  rcases hcases with rfl | rfl | rfl | rfl | rfl | rfl | rfl | rfl | rfl | rfl | rfl | rfl
  case inr.inr.inr.inr.inr.inr.inr.inr.inr.inr.inr =>
    by_cases hlast : doy = 365
    · simp [daysInMonth, hleap hlast]
      omega
    · simp [daysInMonth]
      split <;> omega
  all_goals
    simp [daysInMonth]
    omega

/-- The date of a number of days is that many days from 1970, in a month that has such a day. -/
theorem dateOfDays_spec (days : Int) {year : Int} (h : dateOfDays days = (year, month, day)) :
    1 ≤ month ∧ month ≤ 12 ∧ 1 ≤ day ∧ day ≤ daysInMonth year month ∧
      daysOfDate year month day = days := by
  obtain ⟨h0, h1⟩ := dayInEra_bounds days
  obtain ⟨hlow, hhigh⟩ := dayInYear_bounds h0 h1
  have hleap : dayInYear (dayInEra days) = 365 → isLeapYear
      (yearOfDay (dayInEra days) + (days + 719468) / 146097 * 400 + 1) = true := by
    intro hlast
    have := leap_of_dayInYear h0 h1 hlast
    simp only [isLeapYear, Bool.and_eq_true, beq_iff_eq, Bool.or_eq_true, bne_iff_ne]
    omega
  have hle := day_le_daysInMonth _ hlow hhigh rfl hleap
  have hdays := (partsOfDays days).daysOfDate_eq
  rw [dateOfDays_eq, Prod.mk.injEq, Prod.mk.injEq] at h
  obtain ⟨rfl, rfl, rfl⟩ := h
  have hmonth : 1 ≤ (partsOfDays days).calendarMonth ∧ (partsOfDays days).calendarMonth ≤ 12 := by
    have hlow := (partsOfDays days).month_low
    have hhigh := (partsOfDays days).month_high
    rw [DateParts.calendarMonth]
    split <;> omega
  have hday := (partsOfDays days).day_low
  refine ⟨by omega, by omega, by omega, hle, ?_⟩
  rw [hdays]
  simp only [partsOfDays, dayInYear]
  have hsplit : dayInEra days = (days + 719468) - (days + 719468) / 146097 * 146097 := by
    rw [dayInEra]
    omega
  omega

/-! ## 2. Digits -/

theorem digit_not_blank {c : Char} (h : isAsciiDigit c = true) : isBlank c = false := by
  simp only [isAsciiDigit, Bool.and_eq_true, decide_eq_true_eq] at h
  have hlow : 48 ≤ c.toNat := h.1
  have hhigh : c.toNat ≤ 57 := h.2
  rw [isBlank, if_pos (by omega), Bool.or_eq_false_iff]
  exact ⟨by simp; omega, by simp; omega⟩

theorem padded_digits (width n : Nat) : (padded width n).all isAsciiDigit = true := by
  rw [padded, all_append, Json.NumberParts.all_zeros, Json.digitsOf_digits]
  rfl

theorem appendDigits_zeros (k : Nat) (ds : List Char) :
    Json.appendDigits 0 (replicate k '0' ++ ds) = Json.appendDigits 0 ds := by
  induction k with
  | zero => rfl
  | succ k ih => rw [replicate_succ]; exact ih

theorem appendDigits_padded (width n : Nat) : Json.appendDigits 0 (padded width n) = n := by
  rw [padded, appendDigits_zeros, Json.appendDigits_digitsOf]

theorem digitsOf_length (hpos : 0 < width) (h : n < 10 ^ width) :
    (Number.digitsOf n).length ≤ width := by
  induction width generalizing n with
  | zero => omega
  | succ width ih =>
    by_cases hn : n < 10
    · rw [Json.digitsOf_small hn]
      simp
    · have hdiv : n / 10 < 10 ^ width := by
        rw [Nat.pow_succ] at h
        omega
      have hwidth : 0 < width := by
        rcases Nat.eq_zero_or_pos width with rfl | hpos
        · omega
        · exact hpos
      have := ih hwidth hdiv
      rw [Json.digitsOf_step (by omega), length_append, length_singleton]
      omega

theorem padded_length (hpos : 0 < width) (h : n < 10 ^ width) :
    (padded width n).length = width := by
  have := digitsOf_length hpos h
  rw [padded, length_append, length_replicate]
  omega

theorem padded_head (width n : Nat) : ∃ c cs, padded width n = c :: cs ∧ isAsciiDigit c = true := by
  have hall := padded_digits width n
  cases hp : padded width n with
  | nil =>
    have hne := Json.digitsOf_ne_nil n
    rw [padded, append_eq_nil_iff] at hp
    exact absurd hp.2 hne
  | cons c cs =>
    rw [hp, all_cons, Bool.and_eq_true] at hall
    exact ⟨c, cs, rfl, hall.1⟩

theorem dropBlank_padded (width n : Nat) (rest : List Char) :
    dropBlank (padded width n ++ rest) = padded width n ++ rest := by
  obtain ⟨c, cs, hcs, hc⟩ := padded_head width n
  rw [hcs, cons_append, dropBlank, dropWhile_cons, digit_not_blank hc]
  rfl

theorem number_padded {limit : Nat} (hlength : (padded width n).length ≤ limit) {rest : List Char}
    (hrest : rest.head?.any isAsciiDigit = false) :
    number limit (padded width n ++ rest) = some (n, rest) := by
  obtain ⟨c, cs, hcs, -⟩ := padded_head width n
  have hvalue := appendDigits_padded width n
  rw [number, (Json.span_digits (padded_digits width n) hrest).1,
    take_of_length_le hlength]
  simp only [drop_left]
  rw [if_neg (by rw [hcs]; simp)]
  exact congrArg (fun n => some (n, rest)) hvalue

theorem field_padded {low high : Nat} (hlow : low ≤ n) (hhigh : n ≤ high) (hwidth : n < 100)
    {rest : List Char} (hrest : rest.head?.any isAsciiDigit = false) :
    field 2 low high (padded 2 n ++ rest) = some (n, rest) := by
  have hlength : (padded 2 n).length ≤ 2 :=
    Nat.le_of_eq (padded_length (by decide) (by simpa using hwidth))
  rw [field, dropBlank_padded, number_padded hlength hrest]
  simp [hlow, hhigh]

theorem separator_self {c : Char} (hc : isBlank c = false) (rest : List Char) :
    separator c (c :: rest) = some rest := by
  rw [separator, dropBlank, dropWhile_cons, hc]
  simp

/-! ## 3. Texts -/

/-- A written year is read again. -/
theorem yearField_writeYear (year : Int) (rest : List Char) :
    yearField (writeYear year ++ '-' :: rest) = some (year, '-' :: rest) := by
  have hrest : ('-' :: rest).head?.any isAsciiDigit = false := by
    rw [head?_cons]
    decide
  rw [writeYear]
  split
  · rename_i hyear
    simp only [Bool.and_eq_true, decide_eq_true_eq] at hyear
    have hlength : (padded 4 year.toNat).length ≤ 4 :=
      Nat.le_of_eq (padded_length (by decide) (by omega))
    have hnumber := number_padded hlength hrest
    have hblank := dropBlank_padded 4 year.toNat ('-' :: rest)
    obtain ⟨c, cs, hcs, hc⟩ := padded_head 4 year.toNat
    rw [hcs, cons_append] at hnumber hblank ⊢
    rw [yearField, hblank]
    split
    · rename_i heq
      cases heq
      exact absurd hc (by decide)
    · rename_i heq
      cases heq
      exact absurd hc (by decide)
    · rw [hnumber]
      simp only [map_some]
      rw [Int.toNat_of_nonneg hyear.1]
  · -- the sign is that of a year outside the four digits
    have hlength : (padded 4 year.natAbs).length ≤
        (padded 4 year.natAbs ++ '-' :: rest).length := by simp
    have hnumber := number_padded hlength hrest
    by_cases hneg : year < 0
    · rw [if_pos hneg]
      simp only [yearField, dropBlank, cons_append, dropWhile_cons,
        show isBlank '-' = false by decide, hnumber, map_some, Bool.false_eq_true, if_false]
      rw [show -((year.natAbs : Nat) : Int) = year by omega]
    · rw [if_neg hneg]
      simp only [yearField, dropBlank, cons_append, dropWhile_cons,
        show isBlank '+' = false by decide, hnumber, map_some, Bool.false_eq_true, if_false]
      rw [show ((year.natAbs : Nat) : Int) = year by omega]

theorem fractionField_padded (hpos : 0 < width) (hwidth : width ≤ 9) (hn : n < 10 ^ width) :
    fractionField ('.' :: padded width n ++ ['Z']) = some (n * 10 ^ (9 - width), ['Z']) := by
  have hlength := padded_length hpos hn
  have hle : (padded width n).length ≤ 9 := by omega
  have hrest : ['Z'].head?.any isAsciiDigit = false := by decide
  have hnumber := number_padded hle hrest
  obtain ⟨htake, hdrop⟩ := Json.span_digits (padded_digits width n) hrest
  rw [cons_append, fractionField, hnumber, htake, hdrop]
  simp only [bind_eq_bind, bind_some, Option.pure_def]
  rw [take_of_length_le hle, hlength]
  rfl

/-- A written fraction is read again. -/
theorem fractionField_writeFraction (h : nanos < 1000000000) :
    fractionField (writeFraction nanos ++ ['Z']) = some (nanos, ['Z']) := by
  rw [writeFraction]
  split
  · rename_i hzero
    rw [beq_iff_eq.1 hzero]
    rfl
  split
  · rename_i hmilli
    rw [beq_iff_eq] at hmilli
    rw [fractionField_padded (by decide) (by decide) (by omega)]
    rw [show nanos / 1000000 * 10 ^ (9 - 3) = nanos by omega]
  split
  · rename_i hmicro
    rw [beq_iff_eq] at hmicro
    rw [fractionField_padded (by decide) (by decide) (by omega)]
    rw [show nanos / 1000 * 10 ^ (9 - 6) = nanos by omega]
  · rw [fractionField_padded (by decide) (by decide) (by omega)]
    rw [show nanos * 10 ^ (9 - 9) = nanos by omega]

theorem head_writeFraction (nanos : Nat) :
    (writeFraction nanos ++ ['Z']).head?.any isAsciiDigit = false := by
  rw [writeFraction]
  split
  · rfl
  split
  · rfl
  split <;> rfl

theorem bind_of_eq_some {x : Option α} {f : α → Option β} {a : α} (h : x = some a) :
    (x >>= f) = f a := by
  rw [h]
  rfl

/-- A date and a time of day, as they are written, are read as the moment they are of. -/
theorem ofChars?_written {m : Moment} {days : Int} {year : Int} {hour minute second : Nat}
    (hdate : dateOfDays days = (year, month, day)) (hhour : hour ≤ 23) (hminute : minute ≤ 59)
    (hsecond : second ≤ 60) (hnanos : nanos < 1000000000) (hcalendar : inCalendar days = true)
    (hseconds : m.seconds = days * 86400 +
      (hour * 3600 + minute * 60 + (if second == 60 then 59 else second) : Nat))
    (hfraction : m.nanos = if second == 60 then nanos + 1000000000 else nanos) :
    ofChars? (writeYear year ++ '-' :: padded 2 month ++ '-' :: padded 2 day ++ 'T' ::
      padded 2 hour ++ ':' :: padded 2 minute ++ ':' :: padded 2 second ++ writeFraction nanos ++
      ['Z']) = some m := by
  obtain ⟨hm0, hm1, hd0, hd1, hdays⟩ := dateOfDays_spec days hdate
  have hday31 := daysInMonth_le year month
  have hhead : ∀ (c : Char) (rest : List Char), isAsciiDigit c = false →
      (c :: rest).head?.any isAsciiDigit = false := fun c rest h => h
  have hshape : writeYear year ++ '-' :: padded 2 month ++ '-' :: padded 2 day ++ 'T' ::
      padded 2 hour ++ ':' :: padded 2 minute ++ ':' :: padded 2 second ++ writeFraction nanos ++
      ['Z'] = writeYear year ++ '-' :: (padded 2 month ++ '-' :: (padded 2 day ++ 'T' ::
        (padded 2 hour ++ ':' :: (padded 2 minute ++ ':' :: (padded 2 second ++
          (writeFraction nanos ++ ['Z'])))))) := by
    simp only [append_assoc, cons_append]
  -- each part is read up to the separator behind it
  rw [hshape, ofChars?]
  refine (bind_of_eq_some (yearField_writeYear ..)).trans ?_
  refine (bind_of_eq_some (separator_self (by decide) _)).trans ?_
  refine (bind_of_eq_some (field_padded hm0 hm1 (by omega) (hhead '-' _ (by decide)))).trans ?_
  refine (bind_of_eq_some (separator_self (by decide) _)).trans ?_
  refine (bind_of_eq_some (field_padded hd0 (by omega) (by omega)
    (hhead 'T' _ (by decide)))).trans ?_
  refine (bind_of_eq_some rfl).trans ?_
  refine (bind_of_eq_some (field_padded (Nat.zero_le _) hhour (by omega)
    (hhead ':' _ (by decide)))).trans ?_
  refine (bind_of_eq_some (separator_self (by decide) _)).trans ?_
  refine (bind_of_eq_some (field_padded (Nat.zero_le _) hminute (by omega)
    (hhead ':' _ (by decide)))).trans ?_
  refine (bind_of_eq_some (separator_self (by decide) _)).trans ?_
  refine (bind_of_eq_some (field_padded (Nat.zero_le _) hsecond (by omega)
    (head_writeFraction nanos))).trans ?_
  refine (bind_of_eq_some (fractionField_writeFraction hnanos)).trans ?_
  refine (bind_of_eq_some (rfl : offsetField ['Z'] = some (0, []))).trans ?_
  dsimp only
  rw [hdays, Int.sub_zero, hcalendar]
  have hshort : decide (daysInMonth year month < day) = false := by
    rw [decide_eq_false_iff_not]
    omega
  obtain ⟨_, _, hvalid⟩ := m
  dsimp only at hseconds hfraction
  subst hseconds hfraction
  rw [hshort, if_neg (by decide), dif_pos hvalid]

/-- The text of a moment is read as that moment. -/
theorem ofText?_toText (m : Moment) : ofText? m.toText = some m := by
  obtain ⟨hcalendar, hnanos⟩ := m.valid
  rw [ofText?, toText, String.toList_ofList]
  have hfdiv : Int.fdiv m.seconds 86400 = m.seconds / 86400 :=
    Int.fdiv_eq_ediv_of_nonneg _ (by decide)
  -- the second of the day
  obtain ⟨clock, hclock⟩ : ∃ clock : Nat, m.seconds - Int.fdiv m.seconds 86400 * 86400 = clock :=
    ⟨(m.seconds - Int.fdiv m.seconds 86400 * 86400).toNat, by omega⟩
  have hday : clock < 86400 := by omega
  rw [hclock, Int.toNat_natCast]
  obtain ⟨year, month, day, hdate⟩ : ∃ year month day,
      dateOfDays (Int.fdiv m.seconds 86400) = (year, month, day) := ⟨_, _, _, rfl⟩
  rw [hdate]
  simp only
  by_cases hleap : 1000000000 ≤ m.nanos
  · have hend : m.seconds % 60 = 59 := by
      rcases hnanos with hlt | ⟨-, hend⟩
      · omega
      · exact hend
    have hminute : clock % 60 = 59 := by omega
    simp only [hleap, if_true, hminute]
    refine ofChars?_written hdate (by omega) (by omega) (by decide) (by omega) hcalendar ?_ ?_
    · simp only [Nat.reduceAdd, beq_self_eq_true, if_true]
      omega
    · simp only [Nat.reduceAdd, beq_self_eq_true, if_true]
      omega
  · have hsecond : (clock % 60 == 60) = false := by
      rw [beq_eq_false_iff_ne]
      omega
    simp only [hleap, if_false, Nat.add_zero]
    refine ofChars?_written hdate (by omega) (by omega) (by omega) (by omega) hcalendar ?_ ?_
    · simp only [hsecond, Bool.false_eq_true, if_false]
      omega
    · simp only [hsecond, Bool.false_eq_true, if_false]

end CodeAssist.Moment
