/-
# The calendar conversions against the calendar

`civil_from_days` is the date that the calendar has for a day, and `days_from_civil` the
number of a date, so the fields of a time denote it, to the millisecond.  The way back
refuses fields by bounds that do not depend on the month, and does not look at the range of
the result: it is exact just when the day exists in its month and the time has 63 bits.
-/

import XenonRecomp.Xbox.TimeFields

namespace XenonRecomp
namespace Xbox

open Library Library.Gregorian

/-! ### Days and dates -/

/-- The division of the source is one downward. -/
theorem floor_tdiv {n : ℤ} (hn : 0 < n) (z : ℤ) :
    (if 0 ≤ z then z else z - (n - 1)).tdiv n = z / n := by
  split
  · next h => exact Int.tdiv_eq_ediv_of_nonneg h
  · next h =>
    have hneg : z - (n - 1) = -(n - 1 - z) := by omega
    rw [hneg, Int.neg_tdiv, Int.tdiv_eq_ediv_of_nonneg (by omega)]
    have hmod := Int.emod_add_mul_ediv z n
    have hpos := Int.emod_nonneg z hn.ne'
    have hlt := Int.emod_lt_of_pos z hn
    have hsub : n - 1 - z = (n - 1 - z % n) + n * (-(z / n)) := by
      rw [mul_neg]
      omega
    rw [hsub, Int.add_mul_ediv_left _ _ hn.ne', Int.ediv_eq_zero_of_lt (by omega) (by omega)]
    omega

theorem floorDivide_eq {n : ℤ} (hn : 0 < n) (a : ℤ) : floorDivide a n = (a / n, a % n) := by
  have hmod := Int.emod_add_mul_ediv a n
  have hpos := Int.emod_nonneg a hn.ne'
  have hlt := Int.emod_lt_of_pos a hn
  have htmod := Int.tmod_add_mul_tdiv a n
  rw [floorDivide]
  split
  · next hneg =>
    have hge : -n < a.tmod n := by
      have habs := Int.lt_tmod_of_pos a hn
      exact habs
    have hquotient : a.tdiv n - 1 = a / n := by
      have hsum : a = (a.tmod n + n) + n * (a.tdiv n - 1) := by
        rw [mul_sub, mul_one]
        omega
      conv_rhs => rw [hsum]
      rw [Int.add_mul_ediv_left _ _ hn.ne', Int.ediv_eq_zero_of_lt (by omega) (by omega),
        zero_add]
    rw [hquotient, Prod.mk.injEq]
    refine ⟨rfl, ?_⟩
    rw [← hquotient, mul_sub, mul_one] at hmod
    omega
  · next hnonneg =>
    have hlt' := Int.tmod_lt_of_pos a hn
    have hquotient : a.tdiv n = a / n := by
      conv_rhs => rw [← htmod]
      rw [Int.add_mul_ediv_left _ _ hn.ne', Int.ediv_eq_zero_of_lt (by omega) hlt', zero_add]
    rw [hquotient, Prod.mk.injEq]
    refine ⟨rfl, ?_⟩
    rw [hquotient] at htmod
    omega

/-- A day of an era of 400 years: its century, its four years there, its year in them and
its day in the year, which begins in March. -/
structure EraDay (doe c a b doy : ℕ) : Prop where
  sum : doe = 36524 * c + 1461 * a + 365 * b + doy
  century : c ≤ 3
  four : a ≤ 24
  year : b ≤ 3
  day : doy ≤ 365
  last : doy = 365 → b = 3 ∧ (a = 24 → c = 3)

theorem exists_eraDay {doe : ℕ} (h : doe < 146097) : ∃ c a b doy, EraDay doe c a b doy := by
  obtain ⟨c, hc⟩ : ∃ c, c = min (doe / 36524) 3 := ⟨_, rfl⟩
  obtain ⟨r, hr⟩ : ∃ r, r = doe - 36524 * c := ⟨_, rfl⟩
  obtain ⟨a, ha⟩ : ∃ a, a = r / 1461 := ⟨_, rfl⟩
  obtain ⟨s, hs⟩ : ∃ s, s = r - 1461 * a := ⟨_, rfl⟩
  obtain ⟨b, hb⟩ : ∃ b, b = min (s / 365) 3 := ⟨_, rfl⟩
  have hrle : r ≤ 36524 ∧ (r = 36524 → c = 3) ∧ doe = 36524 * c + r := by omega
  have hsle : s ≤ 1460 ∧ a ≤ 24 ∧ (a = 24 → s = 1460 → c = 3) ∧ r = 1461 * a + s := by omega
  exact ⟨c, a, b, s - 365 * b, by omega, by omega, by omega, by omega, by omega, by omega⟩

/-- The year of the era, as the source has it. -/
theorem EraDay.yoe {doe c a b doy : ℕ} (h : EraDay doe c a b doy) :
    (doe - doe / 1460 + doe / 36524 - doe / 146096) / 365 = 100 * c + 4 * a + b := by
  obtain ⟨hsum, hc, ha, hb, hdoy, hlast⟩ := h
  -- In 1460 days a carry makes good for the 29th of February, and for nothing else.
  have h1460 : doe / 1460 = 25 * c + a + (24 * c + a + 365 * b + doy) / 1460 := by omega
  have hrest : doe / 36524 - doe / 146096 = c ∧ doe / 146096 ≤ doe / 36524 := by omega
  have hcarry : (24 * c + a + 365 * b + doy) / 1460 ≤ doy ∧
      doy < 365 + (24 * c + a + 365 * b + doy) / 1460 := by omega
  omega

/-- The day of the year, as the source has it. -/
theorem EraDay.doy {doe c a b doy : ℕ} (h : EraDay doe c a b doy) :
    doe - (365 * (100 * c + 4 * a + b) + (100 * c + 4 * a + b) / 4 -
      (100 * c + 4 * a + b) / 100) = doy := by
  obtain ⟨hsum, hc, ha, hb, hdoy, hlast⟩ := h
  omega

/-- The date of a day in a year that begins in March. -/
def marchDate (y : ℤ) (doy : ℕ) : Date :=
  let mp := (5 * doy + 2) / 153
  let m := if mp < 10 then mp + 3 else mp - 9
  ⟨y + (if m ≤ 2 then 1 else 0), m, doy - (153 * mp + 2) / 5 + 1⟩

/-- The days before the January in a year that begins in March. -/
theorem daysBeforeYear_march (y : ℤ) :
    daysBeforeYear (y + 1) = 365 * y + y / 4 - y / 100 + y / 400 := by
  rw [daysBeforeYear, Int.add_sub_cancel]

/-- The months from March on, ten of them in one year. -/
theorem months_from_march (year : ℤ) {mp : ℕ} (h : mp ≤ 9) :
    (153 * mp + 2) / 5 + daysInMonth year (mp + 3) = (153 * (mp + 1) + 2) / 5 ∧
      daysBeforeMonth year (mp + 3) = (153 * mp + 2) / 5 + 59 + if Leap year then 1 else 0 := by
  have hfebruary : ∀ m, 2 < m → (Leap year ∧ 2 < m ↔ Leap year) := fun m hm => and_iff_left hm
  rw [daysBeforeMonth, if_congr (hfebruary _ (by omega)) rfl rfl]
  interval_cases mp <;> exact ⟨rfl, rfl⟩

/-- **The date exists and has its number.** -/
theorem marchDate_spec {y : ℤ} {doy : ℕ} (hdoy : doy ≤ 365) (hlast : doy = 365 → Leap (y + 1)) :
    (marchDate y doy).Exists ∧
      (marchDate y doy).dayNumber = daysBeforeYear (y + 1) + doy - 719468 := by
  obtain ⟨mp, hmp⟩ : ∃ mp, mp = (5 * doy + 2) / 153 := ⟨_, rfl⟩
  have hlow : (153 * mp + 2) / 5 ≤ doy := by omega
  have hhigh : doy < (153 * (mp + 1) + 2) / 5 := by omega
  by_cases hmarch : mp ≤ 9
  · obtain ⟨hdays, hbefore⟩ := months_from_march y hmarch
    have hdate : marchDate y doy = ⟨y, mp + 3, doy - (153 * mp + 2) / 5 + 1⟩ := by
      dsimp only [marchDate]
      rw [← hmp, if_pos (show mp < 10 by omega), if_neg (show ¬ mp + 3 ≤ 2 by omega), Int.add_zero]
    have hyear := daysBeforeYear_succ y
    rw [hdate]
    refine ⟨⟨⟨by dsimp only; omega, by dsimp only; omega⟩, ⟨by dsimp only; omega, ?_⟩⟩, ?_⟩
    · dsimp only
      omega
    · rw [Date.dayNumber]
      dsimp only
      rw [hbefore, hyear]
      split <;> omega
  · have hdate : marchDate y doy = ⟨y + 1, mp - 9, doy - (153 * mp + 2) / 5 + 1⟩ := by
      dsimp only [marchDate]
      rw [← hmp, if_neg (show ¬ mp < 10 by omega), if_pos (show mp - 9 ≤ 2 by omega)]
    have hbefore : daysBeforeMonth (y + 1) (mp - 9) = 31 * (mp - 10) := by
      rw [daysBeforeMonth, if_neg fun h => by omega]
      rcases (show mp = 10 ∨ mp = 11 by omega) with rfl | rfl <;> rfl
    have hdays : doy - (153 * mp + 2) / 5 + 1 ≤ daysInMonth (y + 1) (mp - 9) := by
      rcases (show mp = 10 ∨ mp = 11 by omega) with rfl | rfl
      · have hjanuary : daysInMonth (y + 1) (10 - 9) = 31 := rfl
        omega
      · have hfebruary : daysInMonth (y + 1) (11 - 9) = if Leap (y + 1) then 29 else 28 := rfl
        rw [hfebruary]
        split
        · omega
        · next hleap =>
          have hne : doy ≠ 365 := fun heq => hleap (hlast heq)
          omega
    rw [hdate]
    refine ⟨⟨⟨by dsimp only; omega, by dsimp only; omega⟩, ⟨by dsimp only; omega, hdays⟩⟩, ?_⟩
    rw [Date.dayNumber]
    dsimp only
    rw [hbefore]
    omega

/-- **`civil_from_days` is the calendar.** -/
theorem civilFromDays_spec (z : ℤ) :
    (civilFromDays z).Exists ∧ (civilFromDays z).dayNumber = z := by
  obtain ⟨era, hera⟩ : ∃ era, era = (z + 719468) / 146097 := ⟨_, rfl⟩
  obtain ⟨doe, hdoe⟩ : ∃ doe : ℕ, doe = (z + 719468 - era * 146097).toNat := ⟨_, rfl⟩
  have hsum : z + 719468 = era * 146097 + doe ∧ doe < 146097 := by omega
  obtain ⟨c, a, b, doy, hday⟩ := exists_eraDay hsum.2
  have hcode : civilFromDays z = marchDate ((100 * c + 4 * a + b : ℕ) + era * 400) doy := by
    have hfloor : (if 0 ≤ z + 719468 then z + 719468 else z + 719468 - 146096).tdiv 146097 =
        era := by
      rw [hera]
      exact floor_tdiv (n := 146097) (by decide) _
    rw [civilFromDays, marchDate]
    simp only [hfloor, ← hdoe, hday.yoe, hday.doy]
  obtain ⟨hdays, hc, ha, hb, hdoy, hlast⟩ := hday
  have hleap : doy = 365 → Leap ((100 * c + 4 * a + b : ℕ) + era * 400 + 1) := by
    intro h365
    have h := hlast h365
    clear hcode hdays hsum hdoe hera
    rw [Leap]
    omega
  obtain ⟨hexists, hnumber⟩ := marchDate_spec hdoy hleap
  rw [hcode]
  refine ⟨hexists, ?_⟩
  rw [hnumber, daysBeforeYear_march]
  clear hcode hera hdoe hleap hexists hnumber
  have h4 : ((100 * c + 4 * a + b : ℕ) + era * 400) / 4 = 25 * c + a + 100 * era := by omega
  have h100 : ((100 * c + 4 * a + b : ℕ) + era * 400) / 100 = c + 4 * era := by omega
  have h400 : ((100 * c + 4 * a + b : ℕ) + era * 400) / 400 = era := by omega
  rw [h4, h100, h400]
  omega

/-- **`days_from_civil` numbers the dates**, also past the end of a month. -/
theorem daysFromCivil_eq {d : Date} (hmonth : 1 ≤ d.month ∧ d.month ≤ 12) (hday : 1 ≤ d.day) :
    daysFromCivil d.year d.month d.day = d.dayNumber := by
  obtain ⟨year, month, day⟩ := d
  obtain ⟨h1, h12⟩ := hmonth
  obtain ⟨y, hy⟩ : ∃ y : ℤ, y = year - (if month ≤ 2 then 1 else 0) := ⟨_, rfl⟩
  have hfloor := floor_tdiv (n := 400) (by decide) y
  have hnumber : daysFromCivil year month day = daysBeforeYear (y + 1) +
      ((153 * (if 2 < month then month - 3 else month + 9) + 2) / 5 : ℕ) + day - 719469 := by
    rw [daysFromCivil, daysBeforeYear_march]
    simp only [← hy]
    have h400 : y - 399 = y - (400 - 1) := by omega
    rw [h400, hfloor]
    change 1 ≤ day at hday
    omega
  have hyear := daysBeforeYear_succ y
  rw [hnumber]
  change 1 ≤ month at h1
  change month ≤ 12 at h12
  rw [Date.dayNumber]
  by_cases hleap : Leap y <;> interval_cases month
  all_goals
    simp at hy
    subst hy
    simp [daysBeforeMonth, hleap] at hyear hleap ⊢
    omega

/-- **Days follow one another as dates do**, from the first of January 1970 on and before
it, and each date has the number of its day. -/
theorem civilFromDays_calendar :
    civilFromDays 0 = ⟨1970, 1, 1⟩ ∧ ∀ z, civilFromDays (z + 1) = (civilFromDays z).next ∧
      daysFromCivil (civilFromDays z).year (civilFromDays z).month (civilFromDays z).day = z := by
  refine ⟨by decide, fun z => ?_⟩
  obtain ⟨hexists, hnumber⟩ := civilFromDays_spec z
  obtain ⟨hexists', hnumber'⟩ := civilFromDays_spec (z + 1)
  constructor
  · refine eq_of_dayNumber_eq hexists' hexists.next ?_
    rw [hnumber', dayNumber_next hexists, hnumber]
  · rw [daysFromCivil_eq hexists.month hexists.day.1, hnumber]

theorem weekdayFromDays_eq (z : ℤ) : weekdayFromDays z = (z + 4) % 7 := by
  rw [weekdayFromDays]
  split
  · next h => exact Int.tmod_eq_emod_of_nonneg (by omega)
  · next h =>
    have hneg : z + 5 = -(-(z + 5)) := (neg_neg _).symm
    rw [hneg, Int.neg_tmod, Int.tmod_eq_emod_of_nonneg (by omega)]
    omega

/-! ### Times and their fields -/

/-- The first day of the times. -/
def firstDay : ℤ := (Date.mk 1601 1 1).dayNumber

namespace TimeFields

/-- The date that the fields name. -/
def date (f : TimeFields) : Date := ⟨f.year.toNat, f.month.toNat, f.day.toNat⟩

/-- The fields name an existing date and time of day. -/
structure Exists (f : TimeFields) : Prop where
  date : f.date.Exists
  hour : f.hour.toNat ≤ 23
  minute : f.minute.toNat ≤ 59
  second : f.second.toNat ≤ 59
  milliseconds : f.milliseconds.toNat ≤ 999

/-- The beginning of the millisecond that the fields name, in ticks since 1601. -/
def instant (f : TimeFields) : ℤ :=
  ((((f.date.dayNumber - firstDay) * 24 + f.hour.toNat) * 60 + f.minute.toNat) * 60 +
    f.second.toNat) * 10000000 + f.milliseconds.toNat * 10000

/-- The fields are those of a time. -/
structure Denotes (f : TimeFields) (time : ℤ) : Prop where
  exist : f.Exists
  instant : f.instant ≤ time ∧ time < f.instant + 10000
  weekday : (f.weekday.toNat : ℤ) = f.date.weekday

end TimeFields

theorem firstDay_eq : firstDay = -134774 := by decide

/-- The year of a day between two years. -/
theorem year_bounds {d : Date} (h : d.Exists) {lo hi : ℤ}
    (hlo : daysBeforeYear lo - 719162 ≤ d.dayNumber)
    (hhi : d.dayNumber < daysBeforeYear hi - 719162) : lo ≤ d.year ∧ d.year < hi := by
  have hbounds := dayNumber_bounds h
  constructor
  · by_contra hlt
    have hmono := daysBeforeYear_mono (not_le.mp hlt)
    omega
  · by_contra hge
    rcases (not_lt.mp hge).lt_or_eq with hlt | heq
    · have hmono := daysBeforeYear_mono hlt
      omega
    · rw [heq] at hhi
      omega

theorem int64_eq {n : ℤ} (h : -2 ^ 63 ≤ n ∧ n < 2 ^ 63) : int64 n = some n := if_pos h

theorem toNat_ofInt16 {n : ℤ} (h : 0 ≤ n ∧ n < 65536) : ((BitVec.ofInt 16 n).toNat : ℤ) = n := by
  rw [BitVec.toNat_ofInt]
  omega

theorem toNat_ofNat16 {n : ℕ} (h : n < 65536) : (BitVec.ofNat 16 n).toNat = n :=
  (BitVec.toNat_ofNat n 16).trans (Nat.mod_eq_of_lt h)

/-- The fields of a day and of the seconds and ticks in it. -/
def fieldsOfDay (days seconds ticks : ℤ) : TimeFields where
  year := BitVec.ofInt 16 (civilFromDays days).year
  month := BitVec.ofNat 16 (civilFromDays days).month
  day := BitVec.ofNat 16 (civilFromDays days).day
  hour := BitVec.ofInt 16 (seconds.tdiv 3600)
  minute := BitVec.ofInt 16 ((seconds.tmod 3600).tdiv 60)
  second := BitVec.ofInt 16 (seconds.tmod 60)
  milliseconds := BitVec.ofInt 16 (ticks.tdiv 10000)
  weekday := BitVec.ofInt 16 (weekdayFromDays days)

theorem fieldsOfTime_eq {raw : BitVec 64}
    (h : -2 ^ 63 + kFiletimeToUnixEpoch100ns ≤ raw.toInt) :
    fieldsOfTime raw = some (fieldsOfDay
      ((raw.toInt - kFiletimeToUnixEpoch100ns) / 10000000 / 86400)
      ((raw.toInt - kFiletimeToUnixEpoch100ns) / 10000000 % 86400)
      ((raw.toInt - kFiletimeToUnixEpoch100ns) % 10000000)) := by
  have hhigh := BitVec.toInt_lt (x := raw)
  have hepoch : kFiletimeToUnixEpoch100ns = 116444736000000000 := rfl
  have hticks : ∀ a, floorDivide a kTicksPerSecond = (a / 10000000, a % 10000000) :=
    floorDivide_eq (n := 10000000) (by decide)
  have hdays : ∀ a, floorDivide a kSecondsPerDay = (a / 86400, a % 86400) :=
    floorDivide_eq (n := 86400) (by decide)
  rw [fieldsOfTime, int64_eq (by omega), Option.bind_eq_bind, Option.bind_some, hticks]
  dsimp only
  rw [hdays]
  rfl

/-- The fields of a day name it, and the millisecond in it. -/
theorem fieldsOfDay_spec {days seconds ticks : ℤ}
    (hyear : 0 ≤ (civilFromDays days).year ∧ (civilFromDays days).year < 65536)
    (hseconds : 0 ≤ seconds ∧ seconds < 86400) (hticks : 0 ≤ ticks ∧ ticks < 10000000) :
    (fieldsOfDay days seconds ticks).Exists ∧
      (fieldsOfDay days seconds ticks).date = civilFromDays days ∧
      (fieldsOfDay days seconds ticks).instant =
        ((days - firstDay) * 86400 + seconds) * 10000000 + (ticks - ticks % 10000) ∧
      ((fieldsOfDay days seconds ticks).weekday.toNat : ℤ) = (civilFromDays days).weekday := by
  obtain ⟨hexists, hnumber⟩ := civilFromDays_spec days
  have hmonth := hexists.month
  have hday := hexists.day
  have hlast : daysInMonth (civilFromDays days).year (civilFromDays days).month ≤ 31 := by
    rw [daysInMonth]
    split_ifs <;> decide
  have hhour : ((fieldsOfDay days seconds ticks).hour.toNat : ℤ) = seconds / 3600 := by
    rw [fieldsOfDay, toNat_ofInt16] <;> rw [Int.tdiv_eq_ediv_of_nonneg hseconds.1]
    omega
  have hminute : ((fieldsOfDay days seconds ticks).minute.toNat : ℤ) = seconds % 3600 / 60 := by
    have hmod := Int.emod_nonneg seconds (show (3600 : ℤ) ≠ 0 by decide)
    rw [fieldsOfDay, toNat_ofInt16] <;>
      rw [Int.tmod_eq_emod_of_nonneg hseconds.1, Int.tdiv_eq_ediv_of_nonneg hmod]
    omega
  have hsecond : ((fieldsOfDay days seconds ticks).second.toNat : ℤ) = seconds % 60 := by
    rw [fieldsOfDay, toNat_ofInt16] <;> rw [Int.tmod_eq_emod_of_nonneg hseconds.1]
    omega
  have hms : ((fieldsOfDay days seconds ticks).milliseconds.toNat : ℤ) = ticks / 10000 := by
    rw [fieldsOfDay, toNat_ofInt16] <;> rw [Int.tdiv_eq_ediv_of_nonneg hticks.1]
    omega
  have hdate : (fieldsOfDay days seconds ticks).date = civilFromDays days :=
    Date.ext (toNat_ofInt16 hyear) (toNat_ofNat16 (by omega)) (toNat_ofNat16 (by omega))
  refine ⟨⟨hdate ▸ hexists, by omega, by omega, by omega, by omega⟩, hdate, ?_, ?_⟩
  · rw [TimeFields.instant, hdate, hnumber, hhour, hminute, hsecond, hms]
    omega
  · rw [fieldsOfDay, toNat_ofInt16] <;> rw [weekdayFromDays_eq]
    · rw [Date.weekday, hnumber]
    · omega

/-- **The fields of a time denote it**, when the year is one of 16 bits. -/
theorem fieldsOfTime_denotes {raw : BitVec 64} {days : ℤ}
    (hlow : -2 ^ 63 + kFiletimeToUnixEpoch100ns ≤ raw.toInt)
    (hdays : days = raw.toInt / 864000000000 + firstDay)
    (hyear : 0 ≤ (civilFromDays days).year ∧ (civilFromDays days).year < 65536) :
    ∃ f, fieldsOfTime raw = some f ∧ f.Denotes raw.toInt ∧ f.date = civilFromDays days := by
  obtain ⟨unix, hunix⟩ : ∃ unix, unix = raw.toInt - kFiletimeToUnixEpoch100ns := ⟨_, rfl⟩
  have hepoch : kFiletimeToUnixEpoch100ns = 116444736000000000 := rfl
  have hday : unix / 10000000 / 86400 = days := by
    rw [firstDay_eq] at hdays
    omega
  obtain ⟨hexists, hdate, hinstant, hweekday⟩ := fieldsOfDay_spec hyear
    (show 0 ≤ unix / 10000000 % 86400 ∧ unix / 10000000 % 86400 < 86400 by omega)
    (show 0 ≤ unix % 10000000 ∧ unix % 10000000 < 10000000 by omega)
  have hcode := fieldsOfTime_eq hlow
  rw [← hunix, hday] at hcode
  refine ⟨_, hcode, ⟨hexists, ?_, ?_⟩, hdate⟩
  · rw [hinstant, firstDay_eq]
    omega
  · rw [hweekday, hdate]

theorem int64_none {n : ℤ} (h : 2 ^ 63 ≤ n) : int64 n = none :=
  if_neg fun hrange => absurd hrange.2 (not_lt.mpr h)

namespace TimeFields

variable {f g : TimeFields}

theorem not_refused_iff :
    ¬ f.Refused ↔ (1 ≤ f.month.toNat ∧ f.month.toNat ≤ 12) ∧
      (1 ≤ f.day.toNat ∧ f.day.toNat ≤ 31) ∧ f.hour.toNat ≤ 23 ∧ f.minute.toNat ≤ 59 ∧
        f.second.toNat ≤ 59 ∧ f.milliseconds.toNat ≤ 999 := by
  have h1 : (1 : BitVec 16).toNat = 1 := rfl
  have h12 : (12 : BitVec 16).toNat = 12 := rfl
  have h31 : (31 : BitVec 16).toNat = 31 := rfl
  have h23 : (23 : BitVec 16).toNat = 23 := rfl
  have h59 : (59 : BitVec 16).toNat = 59 := rfl
  have h999 : (999 : BitVec 16).toNat = 999 := rfl
  rw [Refused]
  simp only [BitVec.lt_def, h1, h12, h31, h23, h59, h999]
  omega

theorem Exists.not_refused (h : f.Exists) : ¬ f.Refused := by
  have hmonth : 1 ≤ f.month.toNat ∧ f.month.toNat ≤ 12 := h.date.month
  have hday : 1 ≤ f.day.toNat ∧ f.day.toNat ≤ daysInMonth f.date.year f.date.month := h.date.day
  have hlast : daysInMonth f.date.year f.date.month ≤ 31 := by
    rw [daysInMonth]
    split_ifs <;> decide
  exact not_refused_iff.mpr ⟨hmonth, ⟨hday.1, hday.2.trans hlast⟩, h.hour, h.minute, h.second,
    h.milliseconds⟩

/-- What the test of the source leaves open is the day of the month. -/
theorem exists_iff (h : ¬ f.Refused) :
    f.Exists ↔ f.day.toNat ≤ daysInMonth f.year.toNat f.month.toNat := by
  obtain ⟨hmonth, hday, hhour, hminute, hsecond, hms⟩ := not_refused_iff.mp h
  exact ⟨fun hexists => hexists.date.day.2,
    fun hle => ⟨⟨hmonth, hday.1, hle⟩, hhour, hminute, hsecond, hms⟩⟩

/-- **The time of fields that pass the test**, if it has 63 bits. -/
theorem time_eq (h : ¬ f.Refused) :
    f.time = if f.instant < 2 ^ 63 then some (BitVec.ofInt 64 f.instant) else none := by
  obtain ⟨hmonth, hday, hhour, hminute, hsecond, hms⟩ := not_refused_iff.mp h
  have hyear := f.year.isLt
  have hepoch : kFiletimeToUnixEpoch100ns = 116444736000000000 := rfl
  obtain ⟨days, hdays⟩ : ∃ days, days = f.date.dayNumber := ⟨_, rfl⟩
  have hcode : daysFromCivil f.year.toNat f.month.toNat f.day.toNat = days := by
    rw [hdays]
    exact daysFromCivil_eq (d := f.date) hmonth hday.1
  have hbounds : -720000 ≤ days ∧ days ≤ 24000000 := by
    have hbefore : daysBeforeMonth f.date.year f.date.month ≤ 335 := by
      obtain ⟨month, hm⟩ : ∃ month, month = f.date.month := ⟨_, rfl⟩
      have hm1 : 1 ≤ month := hm ▸ hmonth.1
      have hm12 : month ≤ 12 := hm ▸ hmonth.2
      rw [← hm]
      by_cases hleap : Leap f.date.year <;> interval_cases month <;>
        simp [daysBeforeMonth, hleap]
    have hy : f.date.year = f.year.toNat := rfl
    have hd : f.date.day = f.day.toNat := rfl
    rw [hdays, Date.dayNumber, daysBeforeYear, hy, hd]
    rw [hy] at hbefore
    omega
  obtain ⟨seconds, hseconds⟩ : ∃ seconds, seconds = days * kSecondsPerDay + f.hour.toNat * 3600 +
    f.minute.toNat * 60 + f.second.toNat := ⟨_, rfl⟩
  have hinstant : f.instant = seconds * kTicksPerSecond + f.milliseconds.toNat * 10000 +
      kFiletimeToUnixEpoch100ns := by
    rw [instant, ← hdays, firstDay_eq, hseconds, kSecondsPerDay, kTicksPerSecond, hepoch]
    omega
  rw [kTicksPerSecond] at hinstant
  rw [time]
  simp only [hcode, ← hseconds, kTicksPerSecond]
  rw [kSecondsPerDay] at hseconds
  rw [int64_eq (n := seconds) (by omega), Option.bind_eq_bind, Option.bind_some]
  by_cases hticks : 2 ^ 63 ≤ seconds * 10000000
  · rw [int64_none hticks, if_neg (by omega)]
    rfl
  rw [int64_eq (n := seconds * 10000000) (by omega), Option.bind_some]
  by_cases hunix : 2 ^ 63 ≤ seconds * 10000000 + f.milliseconds.toNat * 10000
  · rw [int64_none hunix, if_neg (by omega)]
    rfl
  rw [int64_eq (n := seconds * 10000000 + f.milliseconds.toNat * 10000) (by omega),
    Option.bind_some, ← hinstant]
  by_cases hraw : f.instant < 2 ^ 63
  · rw [int64_eq (by omega), if_pos hraw]
    rfl
  · rw [int64_none (not_lt.mp hraw), if_neg hraw]
    rfl

/-- Fields of one instant are the same, the weekday apart. -/
theorem eq_of_instant_eq (hf : f.Exists) (hg : g.Exists) (h : f.instant = g.instant) :
    f = { g with weekday := f.weekday } := by
  have hf1 := hf.hour
  have hf2 := hf.minute
  have hf3 := hf.second
  have hf4 := hf.milliseconds
  have hg1 := hg.hour
  have hg2 := hg.minute
  have hg3 := hg.second
  have hg4 := hg.milliseconds
  rw [instant, instant] at h
  have hdate := eq_of_dayNumber_eq hf.date hg.date (by omega)
  have hparts : f.hour.toNat = g.hour.toNat ∧ f.minute.toNat = g.minute.toNat ∧
      f.second.toNat = g.second.toNat ∧ f.milliseconds.toNat = g.milliseconds.toNat := by omega
  have hyear : f.year.toNat = g.year.toNat := Int.ofNat.inj (congrArg Date.year hdate)
  exact TimeFields.ext (BitVec.eq_of_toNat_eq hyear)
    (BitVec.eq_of_toNat_eq (congrArg Date.month hdate))
    (BitVec.eq_of_toNat_eq (congrArg Date.day hdate)) (BitVec.eq_of_toNat_eq hparts.1)
    (BitVec.eq_of_toNat_eq hparts.2.1) (BitVec.eq_of_toNat_eq hparts.2.2.1)
    (BitVec.eq_of_toNat_eq hparts.2.2.2) rfl

/-- The millisecond that fields denote. -/
theorem Denotes.instant_eq {t : ℤ} (h : f.Denotes t) : f.instant = t - t % 10000 := by
  have hinstant := h.instant
  have hmod : f.instant % 10000 = 0 := by
    rw [TimeFields.instant]
    omega
  omega

/-- Fields of an instant in the 63 bits have it for their time, and are the fields of it. -/
theorem Exists.round_trip (h : f.Exists) (hhigh : f.instant < 2 ^ 63) :
    ∃ g, fieldsOfTime (BitVec.ofInt 64 f.instant) = some g ∧
      g = { f with weekday := g.weekday } := by
  have hyear := f.year.isLt
  obtain ⟨days, hdays⟩ : ∃ days, days = f.date.dayNumber := ⟨_, rfl⟩
  have hcivil : civilFromDays days = f.date := by
    obtain ⟨hexists, hnumber⟩ := civilFromDays_spec days
    exact eq_of_dayNumber_eq hexists h.date (hnumber.trans hdays)
  have hlowDay : -720000 ≤ days := by
    have hyear0 : 0 ≤ f.date.year := Int.natCast_nonneg _
    have hle := (dayNumber_bounds h.date).1
    rw [daysBeforeYear] at hle
    omega
  have hhour := h.hour
  have hminute := h.minute
  have hsecond := h.second
  have hms := h.milliseconds
  have hinstant : f.instant = ((((days + 134774) * 24 + f.hour.toNat) * 60 + f.minute.toNat) * 60 +
      f.second.toNat) * 10000000 + f.milliseconds.toNat * 10000 := by
    rw [instant, firstDay_eq, hdays]
    omega
  have hraw : (BitVec.ofInt 64 f.instant).toInt = f.instant := by
    rw [BitVec.toInt_ofInt]
    exact Int.bmod_eq_of_le (by omega) (by omega)
  have hepoch : kFiletimeToUnixEpoch100ns = 116444736000000000 := rfl
  have hyear16 : 0 ≤ (civilFromDays days).year ∧ (civilFromDays days).year < 65536 := by
    rw [hcivil]
    change (0 : ℤ) ≤ (f.year.toNat : ℤ) ∧ (f.year.toNat : ℤ) < 65536
    omega
  obtain ⟨g, hg, hdenotes, -⟩ := fieldsOfTime_denotes
    (show -2 ^ 63 + kFiletimeToUnixEpoch100ns ≤ (BitVec.ofInt 64 f.instant).toInt by
      rw [hraw]
      omega)
    (show days = _ by
      rw [hraw, firstDay_eq]
      omega) hyear16
  refine ⟨g, hg, eq_of_instant_eq hdenotes.exist h ?_⟩
  have hmod : f.instant % 10000 = 0 := by omega
  rw [hdenotes.instant_eq, hraw, hmod, Int.sub_zero]

end TimeFields

/-! ### The exports -/

namespace TimeFields

variable {f : TimeFields} {m : ByteMemory 32}

/-- What is written is read back. -/
theorem read_write (m : ByteMemory 32) (address : BitVec 32) (f : TimeFields) :
    read (f.write m address) address = f := by
  simp only [read, write]
  ext1
  all_goals
    simp (disch := decide) only [ByteMemory.read16Be_write16Be,
      ByteMemory.read16Be_write16Be_of_apart]

end TimeFields

/-- RtlTimeFieldsToTime does with the fields at an address what it should: it says whether
they exist, leaves the memory alone if they do not, and stores a time whose fields are these
if they do. -/
def ConvertsBack (m : ByteMemory 32) (fieldsPtr timePtr : BitVec 32) : Prop :=
  ∃ ok after, rtlTimeFieldsToTime m fieldsPtr timePtr = some (ok, after) ∧
    (ok = true ↔ (TimeFields.read m fieldsPtr).Exists) ∧
    (ok = false → after = m) ∧
    (ok = true → ∀ again ≠ 0, ∃ last, rtlTimeToTimeFields after timePtr again = some last ∧
      TimeFields.read last again = { TimeFields.read m fieldsPtr with
        weekday := (TimeFields.read last again).weekday })

/-- The day is not behind the end of its month, and the time has 63 bits. -/
def TimeFields.InMonth (f : TimeFields) : Prop :=
  f.day.toNat ≤ daysInMonth f.year.toNat f.month.toNat ∧ f.instant < 2 ^ 63

/-- A memory with a time at one address and fields at another. -/
def clockMemory (time : BitVec 64) (f : TimeFields) : ByteMemory 32 :=
  (f.write ⟨fun _ => 0, fun _ => true, fun _ => true⟩ 0x1000).write64Be 0x2000 time

end Xbox
end XenonRecomp
