import Mathlib.Data.List.TakeWhile
import Mathlib.Tactic.Common

/-!
# Times as ISO 8601

A number of microseconds since the epoch as a date, a time of the day and the offset of UTC, and
back. The calendar is the Gregorian one. Four hundred years have the same days each time, a century,
four years and a year the same days but for the last of each, so that the date is found from the
outside in.
-/

namespace IsoTime

/-! ### The calendar -/

/-- Years begin with March, so that a leap day is the last of its year. -/
structure YearDay where
  year : Nat
  day : Nat

/-- From the days since the first of March of the year 0. -/
def yearDay (days : Nat) : YearDay :=
  let inEra := days % 146097
  let century := min (inEra / 36524) 3
  let inCentury := inEra - century * 36524
  let inQuad := inCentury % 1461
  let quad := min (inQuad / 365) 3
  ⟨days / 146097 * 400 + century * 100 + inCentury / 1461 * 4 + quad, inQuad - quad * 365⟩

def YearDay.days (d : YearDay) : Nat :=
  d.year / 400 * 146097 + d.year % 400 * 365 + d.year % 400 / 4 - d.year % 400 / 100 + d.day

/-- The year tells the parts apart from which it is put together. -/
theorem days_mk {era century four year day : Nat} (hcentury : century ≤ 3) (hfour : four ≤ 24)
    (hyear : year ≤ 3) :
    (YearDay.mk (era * 400 + century * 100 + four * 4 + year) day).days
      = era * 146097 + century * 36524 + four * 1461 + year * 365 + day := by
  have hera : (era * 400 + century * 100 + four * 4 + year) / 400 = era := by omega
  have hrest : (era * 400 + century * 100 + four * 4 + year) % 400 = century * 100 + four * 4
      + year := by omega
  unfold YearDay.days
  rw [hera, hrest]
  dsimp only
  omega

theorem days_yearDay (days : Nat) : (yearDay days).days = days := by
  unfold yearDay
  dsimp only
  rw [days_mk (by omega) (by omega) (by omega)]
  omega

theorem yearDay_day_le (days : Nat) : (yearDay days).day ≤ 365 := by
  unfold yearDay
  dsimp only
  omega

structure Date where
  year : Nat
  month : Nat
  day : Nat

/-- The months from March on have 31, 30, 31, 30 and 31 days, and again, up to February. -/
def YearDay.date (d : YearDay) : Date :=
  let month := (5 * d.day + 2) / 153
  if month < 10 then ⟨d.year, month + 3, d.day - (153 * month + 2) / 5 + 1⟩
  else ⟨d.year + 1, month - 9, d.day - (153 * month + 2) / 5 + 1⟩

def Date.yearDay (d : Date) : YearDay :=
  if 2 < d.month then ⟨d.year, (153 * (d.month - 3) + 2) / 5 + (d.day - 1)⟩
  else ⟨d.year - 1, (153 * (d.month + 9) + 2) / 5 + (d.day - 1)⟩

theorem yearDay_date {d : YearDay} (h : d.day ≤ 365) : d.date.yearDay = d := by
  obtain ⟨year, day⟩ := d
  have hmonth : (5 * day + 2) / 153 ≤ 11 := by
    simp only at h
    omega
  have hfirst : (153 * ((5 * day + 2) / 153) + 2) / 5 ≤ day := by omega
  unfold YearDay.date Date.yearDay
  dsimp only
  split
  · rw [if_pos (by dsimp only; omega)]
    dsimp only
    rw [Nat.add_sub_cancel, Nat.add_sub_cancel, Nat.add_sub_cancel' hfirst]
  · rw [if_neg (by dsimp only; omega)]
    dsimp only
    rw [Nat.add_sub_cancel, Nat.sub_add_cancel (by omega), Nat.add_sub_cancel,
      Nat.add_sub_cancel' hfirst]

def epoch : Nat := 719468

def dateOf (days : Nat) : Date := (yearDay (days + epoch)).date

def daysOf (d : Date) : Nat := d.yearDay.days - epoch

theorem daysOf_dateOf (days : Nat) : daysOf (dateOf days) = days := by
  unfold daysOf dateOf
  rw [yearDay_date (yearDay_day_le _), days_yearDay, Nat.add_sub_cancel]

/-! ### Numbers -/

/-- With zeros in front, up to a width. -/
def padded (width n : Nat) : List Char :=
  List.replicate (width - (Nat.toDigits 10 n).length) '0' ++ Nat.toDigits 10 n

/-- The number in front of a text, and what comes after it. -/
def number (text : List Char) : Nat × List Char :=
  (Nat.ofDigitChars 10 (text.takeWhile Char.isDigit) 0, text.dropWhile Char.isDigit)

theorem isDigit_of_mem_padded {width n : Nat} {c : Char} (h : c ∈ padded width n) :
    c.isDigit = true := by
  rcases List.mem_append.mp h with h | h
  · rw [List.eq_of_mem_replicate h]
    rfl
  · exact Nat.isDigit_of_mem_toDigits (by decide) (by decide) h

/-- A number ends where no digit follows. -/
theorem number_padded {width n : Nat} {rest : List Char} (h : ∀ c ∈ rest.head?, c.isDigit = false) :
    number (padded width n ++ rest) = (n, rest) := by
  have hrest : rest.takeWhile Char.isDigit = [] ∧ rest.dropWhile Char.isDigit = rest := by
    cases rest with
    | nil => exact ⟨rfl, rfl⟩
    | cons c rest =>
        have hc := h c rfl
        exact ⟨by rw [List.takeWhile_cons, hc]; rfl, by rw [List.dropWhile_cons, hc]; rfl⟩
  unfold number
  rw [List.takeWhile_append_of_pos fun c hc => isDigit_of_mem_padded hc,
    List.dropWhile_append_of_pos fun c hc => isDigit_of_mem_padded hc, hrest.1, hrest.2,
      List.append_nil]
  unfold padded
  rw [Nat.ofDigitChars_append, Nat.ofDigitChars_replicate_zero, Nat.mul_zero,
    Nat.ofDigitChars_ten_toDigits]

/-- A number and the character that has to follow it. -/
def numberBefore (separator : Char) (text : List Char) : Option (Nat × List Char) :=
  match number text with
  | (n, c :: rest) => if c = separator then some (n, rest) else none
  | (_, []) => none

theorem numberBefore_padded (separator : Char) {width n : Nat} {rest : List Char}
    (h : separator.isDigit = false) :
    numberBefore separator (padded width n ++ separator :: rest) = some (n, rest) := by
  unfold numberBefore
  rw [number_padded (by rintro c ⟨⟩; exact h)]
  exact if_pos rfl

/-! ### The text -/

def utc : List Char := "+00:00".toList

/-- The microseconds are left out where there are none. -/
def fraction (microsecond : Nat) :
    List Char := if microsecond = 0 then [] else '.' :: padded 6 microsecond

def writeFields (date : Date) (hour minute second microsecond : Nat) : List Char :=
  padded 4 date.year ++ '-' :: (padded 2 date.month ++ '-' :: (padded 2 date.day ++ 'T' ::
    (padded 2 hour
      ++ ':' :: (padded 2 minute ++ ':' :: (padded 2 second ++ (fraction microsecond ++ utc))))))

def write (t : Nat) : List Char :=
  writeFields (dateOf (t / 86400000000)) (t / 3600000000 % 24) (t / 60000000 % 60)
    (t / 1000000 % 60) (t % 1000000)

/-- What is left of a second, and that nothing comes after it but the offset. -/
def readFraction : List Char → Option Nat
  | '.' :: text => if (number text).2 = utc then some (number text).1 else none
  | text => if text = utc then some 0 else none

def read (text : List Char) : Option Nat := do
  let (year, text) ← numberBefore '-' text
  let (month, text) ← numberBefore '-' text
  let (day, text) ← numberBefore 'T' text
  let (hour, text) ← numberBefore ':' text
  let (minute, text) ← numberBefore ':' text
  let microsecond ← readFraction (number text).2
  return ((((daysOf ⟨year, month, day⟩ * 24 + hour) * 60 + minute) * 60 + (number text).1) * 1000000
    + microsecond)

theorem utc_head? : ∀ c ∈ utc.head?, c.isDigit = false := by
  rintro c ⟨⟩
  rfl

theorem readFraction_fraction (microsecond : Nat) :
    readFraction (fraction microsecond ++ utc) = some microsecond := by
  unfold fraction
  split
  · rename_i hnone
    rw [hnone]
    rfl
  · have hread : number (padded 6 microsecond ++ utc) = (microsecond, utc) :=
      number_padded utc_head?
    rw [List.cons_append, readFraction, hread]
    exact if_pos rfl

theorem fraction_head? (microsecond : Nat) :
    ∀ c ∈ (fraction microsecond ++ utc).head?, c.isDigit = false := by
  unfold fraction
  split
  · exact utc_head?
  · rintro c ⟨⟩
    rfl

theorem time_of_day (t : Nat) :
    (((t / 86400000000 * 24 + t / 3600000000 % 24) * 60 + t / 60000000 % 60) * 60
      + t / 1000000 % 60) * 1000000
      + t % 1000000 = t := by
  omega

theorem read_writeFields (date : Date) (hour minute second microsecond : Nat) :
    read (writeFields date hour minute second microsecond)
      = some ((((daysOf date * 24 + hour) * 60 + minute) * 60 + second) * 1000000
        + microsecond) := by
  unfold read writeFields
  simp only [numberBefore_padded '-' (by decide), numberBefore_padded 'T' (by decide),
    numberBefore_padded ':' (by decide), number_padded (fraction_head? _), readFraction_fraction,
    Option.bind_eq_bind, Option.bind_some, Option.pure_def]

/-- **What is written reads back.** -/
theorem read_write (t : Nat) : read (write t) = some t := by
  unfold write
  rw [read_writeFields, daysOf_dateOf, time_of_day]

theorem write_ne_nil (t : Nat) : write t ≠ [] := by
  unfold write writeFields
  exact List.append_ne_nil_of_right_ne_nil _ (List.cons_ne_nil _ _)

end IsoTime
