import Joker.Base.TextOrder

/-!
# Timestamps

Library `Base`. Dates, and `datetime` values with their own wall-clock fields and UTC offset.
Stores keep the ISO text, so the text order of `isoformat` is what a text column sorts by.
-/

namespace Joker.Base

/-- A calendar date. -/
structure Date where
  year : Nat
  month : Nat
  day : Nat
  deriving DecidableEq, Repr

/-- Wall-clock fields and the UTC offset in seconds; `none` is a naive timestamp. -/
structure Datetime where
  year : Nat
  month : Nat
  day : Nat
  hour : Nat
  minute : Nat
  second : Nat
  microsecond : Nat
  utcoffset : Option Int
  deriving DecidableEq, Repr

/-- `d.isoformat()`. -/
def Date.isoformat (d : Date) : String :=
  String.ofList (padded 4 d.year ++ '-' :: padded 2 d.month ++ '-' :: padded 2 d.day)

/-- The days of a year before a month. -/
def daysBeforeMonth (year month : Nat) : Nat :=
  let leap := year % 4 = 0 ∧ (year % 100 ≠ 0 ∨ year % 400 = 0)
  [0, 31, 59, 90, 120, 151, 181, 212, 243, 273, 304, 334].getD (month - 1) 0 +
    if 2 < month ∧ leap then 1 else 0

/-- `d.toordinal()`: days of the proleptic calendar, 1 January of year 1 being day one. -/
def Date.toordinal (d : Date) : Nat :=
  let y := d.year - 1
  y * 365 + y / 4 - y / 100 + y / 400 + daysBeforeMonth d.year d.month + d.day

example : (Date.mk 1970 1 1).toordinal = 719163 := by decide

namespace Datetime

/-- Whether the timestamp carries a UTC offset. -/
def aware (t : Datetime) : Bool := t.utcoffset.isSome

/-- The microsecond that an aware timestamp names. The difference of two timestamps is the
difference of their instants. -/
def instant (t : Datetime) : Int :=
  let seconds : Int := ((Date.mk t.year t.month t.day).toordinal * 86400 + t.hour * 3600 +
    t.minute * 60 + t.second : Nat)
  (seconds - t.utcoffset.getD 0) * 1000000 + t.microsecond

/-- The offset as `isoformat` ends with it; its seconds are printed only when they are not zero. -/
def offsetText (seconds : Int) : List Char :=
  let total := seconds.natAbs
  (if seconds < 0 then '-' else '+') :: padded 2 (total / 3600) ++
    ':' :: padded 2 (total / 60 % 60) ++
      (if total % 60 = 0 then [] else ':' :: padded 2 (total % 60))

/-- `t.isoformat()`: microseconds are printed only when they are not zero. -/
def isoformat (t : Datetime) : String :=
  String.ofList (padded 4 t.year ++ '-' :: padded 2 t.month ++ '-' :: padded 2 t.day ++
    'T' :: padded 2 t.hour ++ ':' :: padded 2 t.minute ++ ':' :: padded 2 t.second ++
    (if t.microsecond = 0 then [] else '.' :: padded 6 t.microsecond) ++
    (match t.utcoffset with
      | none => []
      | some seconds => offsetText seconds))

example : (Datetime.mk 2026 7 1 15 0 0 0 (some (-14400))).isoformat =
    "2026-07-01T15:00:00-04:00" := by decide

end Datetime
end Joker.Base
