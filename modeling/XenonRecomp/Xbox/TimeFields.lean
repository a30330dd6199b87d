/-
# Times and time fields

`civil_from_days`, `days_from_civil`, `weekday_from_days` and the exports
RtlTimeToTimeFields and RtlTimeFieldsToTime of
`src/xbox/exports/xboxkrnl_rtl_exports.cpp`.  A signed operation that leaves its 64 bits is
undefined behaviour; such a call has no result here.
-/

import XenonRecomp.Library.Gregorian
import XenonRecomp.Library.GuestWords

namespace XenonRecomp
namespace Xbox

open Library Library.Gregorian

/-- The result of a signed operation of 64 bits, if it is one. -/
def int64 (n : ℤ) : Option ℤ := if -2 ^ 63 ≤ n ∧ n < 2 ^ 63 then some n else none

/-- `civil_from_days`. -/
def civilFromDays (z : ℤ) : Date :=
  let z := z + 719468
  let era := (if 0 ≤ z then z else z - 146096).tdiv 146097
  let doe := (z - era * 146097).toNat
  let yoe := (doe - doe / 1460 + doe / 36524 - doe / 146096) / 365
  let y := (yoe : ℤ) + era * 400
  let doy := doe - (365 * yoe + yoe / 4 - yoe / 100)
  let mp := (5 * doy + 2) / 153
  let d := doy - (153 * mp + 2) / 5 + 1
  let m := if mp < 10 then mp + 3 else mp - 9
  ⟨y + (if m ≤ 2 then 1 else 0), m, d⟩

/-- `days_from_civil`. -/
def daysFromCivil (y : ℤ) (m d : ℕ) : ℤ :=
  let y := y - (if m ≤ 2 then 1 else 0)
  let era := (if 0 ≤ y then y else y - 399).tdiv 400
  let yoe := (y - era * 400).toNat
  let doy := (153 * (if 2 < m then m - 3 else m + 9) + 2) / 5 + d - 1
  let doe := yoe * 365 + yoe / 4 - yoe / 100 + doy
  era * 146097 + doe - 719468

/-- `weekday_from_days`. -/
def weekdayFromDays (z : ℤ) : ℤ :=
  if -4 ≤ z then (z + 4).tmod 7 else (z + 5).tmod 7 + 6

/-- `kFiletimeToUnixEpoch100ns`. -/
def kFiletimeToUnixEpoch100ns : ℤ := 116444736000000000

/-- `kTicksPerSecond`. -/
def kTicksPerSecond : ℤ := 10000000

/-- `kSecondsPerDay`. -/
def kSecondsPerDay : ℤ := 86400

/-- TIME_FIELDS. -/
@[ext] structure TimeFields where
  year : BitVec 16
  month : BitVec 16
  day : BitVec 16
  hour : BitVec 16
  minute : BitVec 16
  second : BitVec 16
  milliseconds : BitVec 16
  weekday : BitVec 16
deriving DecidableEq, Repr

/-- A quotient toward zero and its remainder, made those of a division downward. -/
def floorDivide (a n : ℤ) : ℤ × ℤ :=
  let quotient := a.tdiv n
  let remainder := a.tmod n
  if remainder < 0 then (quotient - 1, remainder + n) else (quotient, remainder)

/-- The fields of a time. -/
def fieldsOfTime (raw100ns : BitVec 64) : Option TimeFields := do
  let unix100ns ← int64 (raw100ns.toInt - kFiletimeToUnixEpoch100ns)
  let (totalSeconds, remainder100ns) := floorDivide unix100ns kTicksPerSecond
  let (days, secondsInDay) := floorDivide totalSeconds kSecondsPerDay
  let civil := civilFromDays days
  return {
    year := BitVec.ofInt 16 civil.year
    month := BitVec.ofNat 16 civil.month
    day := BitVec.ofNat 16 civil.day
    hour := BitVec.ofInt 16 (secondsInDay.tdiv 3600)
    minute := BitVec.ofInt 16 ((secondsInDay.tmod 3600).tdiv 60)
    second := BitVec.ofInt 16 (secondsInDay.tmod 60)
    milliseconds := BitVec.ofInt 16 (remainder100ns.tdiv 10000)
    weekday := BitVec.ofInt 16 (weekdayFromDays days) }

namespace TimeFields

/-- The test of RtlTimeFieldsToTime. -/
def Refused (f : TimeFields) : Prop :=
  f.month < 1 ∨ 12 < f.month ∨ f.day < 1 ∨ 31 < f.day ∨ 23 < f.hour ∨ 59 < f.minute ∨
    59 < f.second ∨ 999 < f.milliseconds

instance (f : TimeFields) : Decidable f.Refused := inferInstanceAs (Decidable (_ ∨ _))

/-- The time of fields that pass the test. -/
def time (f : TimeFields) : Option (BitVec 64) := do
  let days := daysFromCivil f.year.toNat f.month.toNat f.day.toNat
  let totalSeconds ← int64
    (days * kSecondsPerDay + f.hour.toNat * 3600 + f.minute.toNat * 60 + f.second.toNat)
  let ticks ← int64 (totalSeconds * kTicksPerSecond)
  let unix100ns ← int64 (ticks + f.milliseconds.toNat * 10000)
  let raw100ns ← int64 (unix100ns + kFiletimeToUnixEpoch100ns)
  return BitVec.ofInt 64 raw100ns

/-- The fields at an address. -/
def read (m : ByteMemory 32) (address : BitVec 32) : TimeFields where
  year := m.read16Be (address + 0)
  month := m.read16Be (address + 2)
  day := m.read16Be (address + 4)
  hour := m.read16Be (address + 6)
  minute := m.read16Be (address + 8)
  second := m.read16Be (address + 10)
  milliseconds := m.read16Be (address + 12)
  weekday := m.read16Be (address + 14)

/-- The fields, written one behind the other. -/
def write (f : TimeFields) (m : ByteMemory 32) (address : BitVec 32) : ByteMemory 32 :=
  let m := m.write16Be (address + 0) f.year
  let m := m.write16Be (address + 2) f.month
  let m := m.write16Be (address + 4) f.day
  let m := m.write16Be (address + 6) f.hour
  let m := m.write16Be (address + 8) f.minute
  let m := m.write16Be (address + 10) f.second
  let m := m.write16Be (address + 12) f.milliseconds
  m.write16Be (address + 14) f.weekday

end TimeFields

/-- RtlTimeToTimeFields. -/
def rtlTimeToTimeFields (m : ByteMemory 32) (timePtr fieldsPtr : BitVec 32) :
    Option (ByteMemory 32) :=
  if timePtr = 0 ∨ fieldsPtr = 0 then some m
  else (fieldsOfTime (m.read64Be timePtr)).map fun f => f.write m fieldsPtr

/-- RtlTimeFieldsToTime: whether the fields are a time, and the memory behind the call. -/
def rtlTimeFieldsToTime (m : ByteMemory 32) (fieldsPtr timePtr : BitVec 32) :
    Option (Bool × ByteMemory 32) :=
  if fieldsPtr = 0 ∨ timePtr = 0 then some (false, m)
  else
    let f := TimeFields.read m fieldsPtr
    if f.Refused then some (false, m)
    else f.time.map fun raw => (true, m.write64Be timePtr raw)

end Xbox
end XenonRecomp
