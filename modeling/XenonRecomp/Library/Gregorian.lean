/-
# The proleptic Gregorian calendar

Dates by the rules of the calendar alone: which years are leap years, how long months
are, and which date follows a date.  `dayNumber` counts the days from 1970-01-01 on; it
goes up by one from each date to the next, so it numbers the dates without a gap and
without a date twice.
-/

import Mathlib.Tactic.IntervalCases

namespace Library
namespace Gregorian

/-- A year with a 29th of February. -/
def Leap (year : ℤ) : Prop := year % 4 = 0 ∧ (year % 100 ≠ 0 ∨ year % 400 = 0)

instance (year : ℤ) : Decidable (Leap year) := inferInstanceAs (Decidable (_ ∧ _))

/-- The days of a month. -/
def daysInMonth (year : ℤ) (month : ℕ) : ℕ :=
  if month = 2 then (if Leap year then 29 else 28)
  else if month = 4 ∨ month = 6 ∨ month = 9 ∨ month = 11 then 30
  else 31

/-- A date. -/
@[ext] structure Date where
  year : ℤ
  month : ℕ
  day : ℕ
deriving DecidableEq, Repr

namespace Date

/-- The date exists. -/
structure Exists (d : Date) : Prop where
  month : 1 ≤ d.month ∧ d.month ≤ 12
  day : 1 ≤ d.day ∧ d.day ≤ daysInMonth d.year d.month

/-- The date after a date. -/
def next (d : Date) : Date :=
  if d.day < daysInMonth d.year d.month then { d with day := d.day + 1 }
  else if d.month < 12 then ⟨d.year, d.month + 1, 1⟩
  else ⟨d.year + 1, 1, 1⟩

end Date

/-- The days of a year before a month. -/
def daysBeforeMonth (year : ℤ) (month : ℕ) : ℕ :=
  [0, 0, 31, 59, 90, 120, 151, 181, 212, 243, 273, 304, 334].getD month 0 +
    if Leap year ∧ 2 < month then 1 else 0

/-- The days from 0001-01-01 to the beginning of a year. -/
def daysBeforeYear (year : ℤ) : ℤ :=
  365 * (year - 1) + (year - 1) / 4 - (year - 1) / 100 + (year - 1) / 400

/-- The days from 1970-01-01 to a date. -/
def Date.dayNumber (d : Date) : ℤ :=
  daysBeforeYear d.year + daysBeforeMonth d.year d.month + d.day - 719163

/-- The day of the week of a date, Sunday the first; 1970-01-01 was a Thursday. -/
def Date.weekday (d : Date) : ℤ := (d.dayNumber + 4) % 7

variable {d e : Date} {month : ℕ}

theorem dayNumber_epoch : (Date.mk 1970 1 1).dayNumber = 0 := by decide

/-- The days of a year. -/
theorem daysBeforeYear_succ (year : ℤ) :
    daysBeforeYear (year + 1) = daysBeforeYear year + 365 + if Leap year then 1 else 0 := by
  rw [daysBeforeYear, daysBeforeYear]
  by_cases hleap : Leap year
  · rw [if_pos hleap]
    rw [Leap] at hleap
    omega
  · rw [if_neg hleap]
    rw [Leap] at hleap
    omega

theorem daysBeforeMonth_succ (year : ℤ) (hmonth : 1 ≤ month ∧ month < 12) :
    daysBeforeMonth year (month + 1) = daysBeforeMonth year month + daysInMonth year month := by
  obtain ⟨h1, h12⟩ := hmonth
  by_cases hleap : Leap year <;> interval_cases month <;>
    simp [daysBeforeMonth, daysInMonth, hleap]

theorem daysBeforeMonth_last (year : ℤ) :
    daysBeforeMonth year 12 + daysInMonth year 12 = 365 + if Leap year then 1 else 0 := by
  by_cases hleap : Leap year <;> simp [daysBeforeMonth, daysInMonth, hleap]

/-- The dates in a year lie in it. -/
theorem daysBeforeMonth_add_le (year : ℤ) (hmonth : 1 ≤ month ∧ month ≤ 12) :
    daysBeforeMonth year month + daysInMonth year month ≤ 365 + if Leap year then 1 else 0 := by
  obtain ⟨h1, h12⟩ := hmonth
  by_cases hleap : Leap year <;> interval_cases month <;>
    simp [daysBeforeMonth, daysInMonth, hleap]

theorem one_le_daysInMonth (year : ℤ) (month : ℕ) : 28 ≤ daysInMonth year month := by
  rw [daysInMonth]
  split_ifs <;> decide

theorem Date.Exists.next (h : d.Exists) : d.next.Exists := by
  obtain ⟨hmonth, hday⟩ := h
  have hfirst : ∀ (year : ℤ) (month : ℕ), 1 ≤ daysInMonth year month := fun year month =>
    le_trans (by decide) (one_le_daysInMonth year month)
  rw [Date.next]
  split
  · next hlt => exact ⟨hmonth, Nat.le_succ_of_le hday.1, hlt⟩
  · split
    · next hlt => exact ⟨⟨Nat.le_succ_of_le hmonth.1, hlt⟩, le_rfl, hfirst _ _⟩
    · exact ⟨⟨le_rfl, Nat.le_of_ble_eq_true rfl⟩, le_rfl, hfirst _ _⟩

/-- **The next date has the next number.** -/
theorem dayNumber_next (h : d.Exists) : d.next.dayNumber = d.dayNumber + 1 := by
  obtain ⟨hmonth, hday⟩ := h
  rw [Date.next]
  split
  · simp only [Date.dayNumber]
    omega
  · next hlast =>
    split
    · next hlt =>
      have hsucc := daysBeforeMonth_succ d.year ⟨hmonth.1, hlt⟩
      simp only [Date.dayNumber, hsucc]
      omega
    · next htwelve =>
      have h12 : d.month = 12 := by omega
      have hyear := daysBeforeYear_succ d.year
      have hmonths := daysBeforeMonth_last d.year
      have hjanuary : daysBeforeMonth (d.year + 1) 1 = 0 := by simp [daysBeforeMonth]
      rw [h12] at hday hlast
      simp only [Date.dayNumber, hyear, hjanuary, h12]
      by_cases hleap : Leap d.year
      · rw [if_pos hleap] at hmonths ⊢
        omega
      · rw [if_neg hleap] at hmonths ⊢
        omega

/-! ### A number has one date -/

theorem daysBeforeYear_mono {y z : ℤ} (h : y < z) :
    daysBeforeYear y + 365 + (if Leap y then 1 else 0) ≤ daysBeforeYear z := by
  have hsucc := daysBeforeYear_succ y
  have hle : daysBeforeYear (y + 1) ≤ daysBeforeYear z := by
    rw [daysBeforeYear, daysBeforeYear]
    omega
  omega

theorem daysBeforeMonth_mono (year : ℤ) {m n : ℕ} (hm : 1 ≤ m) (h : m < n) (hn : n ≤ 12) :
    daysBeforeMonth year m + daysInMonth year m ≤ daysBeforeMonth year n := by
  induction n, h using Nat.le_induction with
  | base => rw [daysBeforeMonth_succ year ⟨hm, hn⟩]
  | succ n h ih =>
    have hsucc : daysBeforeMonth year (n + 1) = daysBeforeMonth year n + daysInMonth year n :=
      daysBeforeMonth_succ year ⟨by omega, by omega⟩
    have hle := ih (by omega)
    omega

/-- The number of a date lies in its year. -/
theorem dayNumber_bounds (h : d.Exists) :
    daysBeforeYear d.year - 719162 ≤ d.dayNumber ∧
      d.dayNumber < daysBeforeYear d.year - 719162 + 365 + if Leap d.year then 1 else 0 := by
  have hle := daysBeforeMonth_add_le d.year h.month
  have hday := h.day
  rw [Date.dayNumber]
  by_cases hleap : Leap d.year
  · rw [if_pos hleap] at hle ⊢
    omega
  · rw [if_neg hleap] at hle ⊢
    omega

/-- **Two dates have two numbers.** -/
theorem eq_of_dayNumber_eq (hd : d.Exists) (he : e.Exists) (h : d.dayNumber = e.dayNumber) :
    d = e := by
  have hyear : d.year = e.year := by
    have hbd := dayNumber_bounds hd
    have hbe := dayNumber_bounds he
    rcases lt_trichotomy d.year e.year with hlt | heq | hgt
    · have hmono := daysBeforeYear_mono hlt
      omega
    · exact heq
    · have hmono := daysBeforeYear_mono hgt
      omega
  have hmonth : d.month = e.month := by
    have hdd := hd.day
    have hde := he.day
    rw [Date.dayNumber, Date.dayNumber, hyear] at h
    rw [hyear] at hdd
    rcases lt_trichotomy d.month e.month with hlt | heq | hgt
    · have hmono := daysBeforeMonth_mono e.year hd.month.1 hlt he.month.2
      omega
    · exact heq
    · have hmono := daysBeforeMonth_mono e.year he.month.1 hgt hd.month.2
      omega
  have hday : d.day = e.day := by
    rw [Date.dayNumber, Date.dayNumber, hyear, hmonth] at h
    omega
  exact Date.ext hyear hmonth hday

end Gregorian
end Library
