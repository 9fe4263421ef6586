import Joker.Base.DatetimeOrder

/-!
# UTC readings

Library `Base`. Readings of `datetime.now(timezone.utc)`. Their texts sort as their instants do, so
a text column that is filled with them sorts its rows by time.
-/

namespace Joker.Base

/-- A reading of a clock that runs on UTC. Source `joker/graph/checkpoints.py:34–35`. -/
structure UtcTime where
  time : Datetime
  wellFormed : time.WellFormed
  utc : time.utcoffset = some 0

namespace UtcTime

/-- The microsecond that is read. -/
def instant (t : UtcTime) : Int := t.time.instant

/-- `isoformat()`. -/
def text (t : UtcTime) : String := t.time.isoformat

/-- Texts of readings sort as their instants. -/
theorem text_lt_iff (a b : UtcTime) : a.text < b.text ↔ a.instant < b.instant := by
  have haware (t : UtcTime) : t.time.aware = true := by
    unfold Datetime.aware
    rw [t.utc]
    rfl
  have hoffset (t : UtcTime) : t.time.offset = 0 := by
    unfold Datetime.offset
    rw [t.utc]
    rfl
  have hinstant (t : UtcTime) : t.instant = t.time.wallClock := by
    unfold instant
    rw [Datetime.instant_eq, hoffset t, zero_mul, sub_zero]
  unfold text
  rw [Datetime.isoformat_lt_iff a.wellFormed b.wellFormed (haware a) (haware b), hinstant a,
    hinstant b, hoffset a, hoffset b]
  unfold Datetime.OffsetBefore
  omega

/-- The last reading there is, at the end of the year 9999. -/
def last : UtcTime where
  time := ⟨9999, 12, 31, 23, 59, 59, 999999, some 0⟩
  wellFormed :=
    { date := by decide
      time := by decide
      offset := fun _ h ↦ by
        rw [← Option.some.inj h]
        decide }
  utc := rfl

/-- No reading is later than the last one. -/
theorem instant_le_last (t : UtcTime) : t.instant ≤ last.instant := by
  obtain ⟨⟨-, hyear⟩, ⟨-, hmonth⟩, -, hday⟩ := t.wellFormed.date
  obtain ⟨hhour, hminute, hsecond, hmicrosecond⟩ := t.wellFormed.time
  have hdate : t.time.date.toordinal ≤ last.time.date.toordinal := by
    apply not_lt.mp
    rw [toordinal_lt_iff last.wellFormed.date t.wellFormed.date]
    change ¬ (9999 < t.time.year ∨ 9999 = t.time.year ∧
      (12 < t.time.month ∨ 12 = t.time.month ∧ 31 < t.time.day))
    change t.time.year ≤ 9999 at hyear
    change t.time.month ≤ 12 at hmonth
    change t.time.day ≤ daysInMonth t.time.year t.time.month at hday
    rintro (hlater | ⟨-, hlater | ⟨htwelve, hlater⟩⟩)
    · omega
    · omega
    · -- December has 31 days
      rw [← htwelve] at hday
      have hdays : daysInMonth t.time.year 12 = 31 := rfl
      omega
  have hoffset (u : UtcTime) : u.time.offset = 0 := by
    unfold Datetime.offset
    rw [u.utc]
    rfl
  have hwall : t.time.wallSeconds ≤ last.time.wallSeconds := by
    unfold Datetime.wallSeconds
    change _ ≤ last.time.date.toordinal * 86400 + 23 * 3600 + 59 * 60 + 59
    omega
  have hmicroseconds : last.time.microsecond = 999999 := rfl
  unfold instant
  rw [Datetime.instant_eq, Datetime.instant_eq, hoffset, hoffset]
  unfold Datetime.wallClock
  omega

private theorem wellFormed_sampleDate : (Date.mk 2026 7 1).WellFormed := by
  decide

/-- Numerals are seconds of a minute. -/
instance neZero_sixty : NeZero 60 := ⟨by decide⟩

/-- A second of a sample minute. -/
def sample (second : Fin 60) : UtcTime where
  time := ⟨2026, 7, 1, 19, 0, second, 0, some 0⟩
  wellFormed :=
    { date := wellFormed_sampleDate
      time := ⟨by norm_num, by norm_num, second.isLt, by norm_num⟩
      offset := fun _ h ↦ by
        rw [← Option.some.inj h]
        decide }
  utc := rfl

end UtcTime

/-- Each reading is later than all before it. -/
def Increasing (times : List UtcTime) : Prop := times.Pairwise (fun a b ↦ a.instant < b.instant)

instance (times : List UtcTime) : Decidable (Increasing times) :=
  inferInstanceAs (Decidable (List.Pairwise _ _))

end Joker.Base
