import Mathlib.Tactic.IntervalCases
import Mathlib.Tactic.Linarith
import Joker.Base.Datetime

/-!
# The order of timestamps as texts

Library `Base`. ISO texts are compared by their wall-clock fields first, whatever the offsets, and
by the offsets only between equal wall clocks: those ahead of UTC before those behind it, and of
either the smaller before the greater. An absent fraction comes before any, as it should, because
the sign of the offset comes before the point.
-/

namespace Joker.Base

/-! ### The calendar -/

/-- A leap year. -/
def IsLeap (year : Nat) : Prop := year % 4 = 0 ∧ (year % 100 ≠ 0 ∨ year % 400 = 0)

instance (year : Nat) : Decidable (IsLeap year) := inferInstanceAs (Decidable (_ ∧ _))

/-- The days of a month. -/
def daysInMonth (year month : Nat) : Nat :=
  if month = 2 then if IsLeap year then 29 else 28
  else if month ∈ [4, 6, 9, 11] then 30 else 31

/-- The days before a year. -/
def daysBeforeYear (year : Nat) : Nat :=
  (year - 1) * 365 + (year - 1) / 4 - (year - 1) / 100 + (year - 1) / 400

/-- A date of the calendar. -/
structure Date.WellFormed (d : Date) : Prop where
  year : 1 ≤ d.year ∧ d.year ≤ 9999
  month : 1 ≤ d.month ∧ d.month ≤ 12
  day : 1 ≤ d.day ∧ d.day ≤ daysInMonth d.year d.month

instance (d : Date) : Decidable d.WellFormed :=
  decidable_of_iff ((1 ≤ d.year ∧ d.year ≤ 9999) ∧ (1 ≤ d.month ∧ d.month ≤ 12) ∧
    1 ≤ d.day ∧ d.day ≤ daysInMonth d.year d.month)
    ⟨fun ⟨hy, hm, hd⟩ ↦ ⟨hy, hm, hd⟩, fun ⟨hy, hm, hd⟩ ↦ ⟨hy, hm, hd⟩⟩

private theorem isLeap_iff (year : Nat) : IsLeap year ↔ 4 ∣ year ∧ (¬ 100 ∣ year ∨ 400 ∣ year) := by
  unfold IsLeap
  rw [Nat.dvd_iff_mod_eq_zero, Nat.dvd_iff_mod_eq_zero, Nat.dvd_iff_mod_eq_zero]

private theorem daysBeforeYear_succ {year : Nat} (h : 1 ≤ year) :
    daysBeforeYear (year + 1) = daysBeforeYear year + if IsLeap year then 366 else 365 := by
  obtain ⟨k, rfl⟩ := Nat.exists_eq_add_of_le' h
  have h100 : 100 ∣ k + 1 → 4 ∣ k + 1 := Nat.dvd_trans (by decide)
  have h400 : 400 ∣ k + 1 → 100 ∣ k + 1 := Nat.dvd_trans (by decide)
  have hcentury : k / 100 ≤ k := Nat.div_le_self k 100
  have hstep : (k + 1) / 100 ≤ k + 1 := Nat.div_le_self _ 100
  simp only [isLeap_iff, daysBeforeYear, Nat.add_sub_cancel]
  rw [Nat.succ_div] at hstep
  rw [Nat.succ_div, Nat.succ_div, Nat.succ_div]
  generalize k / 4 = fourth
  generalize k / 100 = century at hcentury hstep ⊢
  generalize k / 400 = cycle
  by_cases hd4 : 4 ∣ k + 1
  · by_cases hd100 : 100 ∣ k + 1
    · by_cases hd400 : 400 ∣ k + 1
      · simp only [hd4, hd100, hd400, if_true, true_and, or_true] at hstep ⊢
        omega
      · simp only [hd4, hd100, hd400, if_true, if_false, not_true_eq_false, or_self, and_false]
          at hstep ⊢
        omega
    · have hd400 : ¬ 400 ∣ k + 1 := fun hd ↦ hd100 (h400 hd)
      simp only [hd4, hd100, hd400, if_true, if_false, not_false_eq_true, true_or, and_self]
        at hstep ⊢
      omega
  · have hd100 : ¬ 100 ∣ k + 1 := fun hd ↦ hd4 (h100 hd)
    have hd400 : ¬ 400 ∣ k + 1 := fun hd ↦ hd100 (h400 hd)
    simp only [hd4, hd100, hd400, if_false, false_and] at hstep ⊢
    omega

/-- The years follow one another. -/
theorem daysBeforeYear_lt {year year' : Nat} (h1 : 1 ≤ year) (h : year < year') :
    daysBeforeYear year + (if IsLeap year then 366 else 365) ≤ daysBeforeYear year' := by
  induction year', h using Nat.le_induction with
  | base => exact (daysBeforeYear_succ h1).ge
  | succ year' hle ih =>
    have hstep := daysBeforeYear_succ (show 1 ≤ year' by omega)
    omega

/-- The months of a year follow one another. -/
theorem daysBeforeMonth_succ (year : Nat) {month : Nat} (h1 : 1 ≤ month) (h : month < 12) :
    daysBeforeMonth year (month + 1) = daysBeforeMonth year month + daysInMonth year month := by
  have hleap (m : Nat) : daysBeforeMonth year m =
      [0, 31, 59, 90, 120, 151, 181, 212, 243, 273, 304, 334].getD (m - 1) 0 +
        if 2 < m ∧ IsLeap year then 1 else 0 := rfl
  rw [hleap, hleap]
  unfold daysInMonth
  by_cases hyear : IsLeap year
  · simp only [hyear, and_true, if_true]
    interval_cases month <;> rfl
  · simp only [hyear, and_false, if_false]
    interval_cases month <;> rfl

private theorem daysBeforeMonth_lt {year month month' : Nat} (h1 : 1 ≤ month) (h : month < month')
    (h12 : month' ≤ 12) :
    daysBeforeMonth year month + daysInMonth year month ≤ daysBeforeMonth year month' := by
  induction month', h using Nat.le_induction with
  | base => exact (daysBeforeMonth_succ year h1 (by omega)).ge
  | succ month' hle ih =>
    have hstep := daysBeforeMonth_succ year (show 1 ≤ month' by omega) (by omega)
    have hbefore := ih (by omega)
    omega

/-- A month ends within its year. -/
theorem daysBeforeMonth_le {year month : Nat} (h1 : 1 ≤ month) (h12 : month ≤ 12) :
    daysBeforeMonth year month + daysInMonth year month ≤ if IsLeap year then 366 else 365 := by
  have hdecember : daysBeforeMonth year 12 + 31 = if IsLeap year then 366 else 365 := by
    unfold daysBeforeMonth
    change 334 + (if 2 < 12 ∧ IsLeap year then 1 else 0) + 31 = _
    by_cases hleap : IsLeap year <;> simp [hleap]
  rcases h12.eq_or_lt with rfl | hlt
  · exact hdecember.le
  · have hbefore : daysBeforeMonth year month + daysInMonth year month ≤
        daysBeforeMonth year 12 := daysBeforeMonth_lt h1 hlt (le_refl 12)
    omega

private theorem toordinal_eq (d : Date) :
    d.toordinal = daysBeforeYear d.year + daysBeforeMonth d.year d.month + d.day := rfl

/-- A date comes before another by its year, else by its month, else by its day. -/
def Date.Before (d d' : Date) : Prop :=
  d.year < d'.year ∨ d.year = d'.year ∧
    (d.month < d'.month ∨ d.month = d'.month ∧ d.day < d'.day)

private theorem toordinal_lt_of_before {d d' : Date} (h : d.WellFormed) (h' : d'.WellFormed)
    (hbefore : d.Before d') : d.toordinal < d'.toordinal := by
  obtain ⟨⟨hy, -⟩, ⟨hm, hm12⟩, hd1, hd⟩ := h
  obtain ⟨⟨hy', -⟩, ⟨hm', hm12'⟩, hd1', hd'⟩ := h'
  rw [toordinal_eq, toordinal_eq]
  rcases hbefore with hyear | ⟨hyear, hmonth | ⟨hmonth, hday⟩⟩
  · have hyears := daysBeforeYear_lt hy hyear
    have hends : daysBeforeMonth d.year d.month + daysInMonth d.year d.month ≤
        if IsLeap d.year then 366 else 365 := daysBeforeMonth_le hm hm12
    omega
  · have hmonths : daysBeforeMonth d.year d.month + daysInMonth d.year d.month ≤
        daysBeforeMonth d.year d'.month := daysBeforeMonth_lt hm hmonth hm12'
    rw [← hyear]
    omega
  · rw [← hyear, ← hmonth]
    omega

/-- The days of the calendar are numbered in the order of its dates. -/
theorem toordinal_lt_iff {d d' : Date} (h : d.WellFormed) (h' : d'.WellFormed) :
    d.toordinal < d'.toordinal ↔ d.Before d' := by
  constructor
  · intro hlt
    by_contra hnot
    have hafter : d = d' ∨ d'.Before d := by
      unfold Date.Before at hnot ⊢
      by_cases heq : d.year = d'.year ∧ d.month = d'.month ∧ d.day = d'.day
      · left
        cases d
        cases d'
        obtain ⟨rfl, rfl, rfl⟩ := heq
        rfl
      · right
        omega
    rcases hafter with rfl | hafter
    · exact lt_irrefl _ hlt
    · exact lt_asymm hlt (toordinal_lt_of_before h' h hafter)
  · exact toordinal_lt_of_before h h'

/-! ### Timestamps -/

namespace Datetime

/-- The date of the wall clock. -/
def date (t : Datetime) : Date := ⟨t.year, t.month, t.day⟩

/-- A `datetime` that Python can build. -/
structure WellFormed (t : Datetime) : Prop where
  date : t.date.WellFormed
  time : t.hour < 24 ∧ t.minute < 60 ∧ t.second < 60 ∧ t.microsecond < 1000000
  offset : ∀ seconds ∈ t.utcoffset, seconds.natAbs < 86400

/-- The seconds of the wall clock. -/
def wallSeconds (t : Datetime) : Nat :=
  t.date.toordinal * 86400 + t.hour * 3600 + t.minute * 60 + t.second

/-- The microseconds of the wall clock, whatever the offset. -/
def wallClock (t : Datetime) : Int := t.wallSeconds * 1000000 + t.microsecond

/-- The offset of an aware timestamp. -/
def offset (t : Datetime) : Int := t.utcoffset.getD 0

/-- The instant is the wall clock without the offset. -/
theorem instant_eq (t : Datetime) : t.instant = t.wallClock - t.offset * 1000000 := by
  unfold instant wallClock
  change ((t.wallSeconds : Int) - t.offset) * 1000000 + t.microsecond = _
  linarith

/-- An offset's text comes before another's: those ahead of UTC first, and of either kind the
smaller first. -/
def OffsetBefore (a b : Int) : Prop :=
  (0 ≤ a ∧ b < 0) ∨ (0 ≤ a ∧ 0 ≤ b ∧ a < b) ∨ (a < 0 ∧ b < 0 ∧ b < a)

/-- The seconds of an offset's text come after its minutes, where they are printed. -/
private def offsetSeconds (total : Nat) : List Char :=
  if total % 60 = 0 then [] else ':' :: padded 2 (total % 60)

private theorem offsetSeconds_lt_iff (n m : Nat) :
    offsetSeconds n < offsetSeconds m ↔ n % 60 < m % 60 := by
  have hn : n % 60 < 10 ^ 2 := by omega
  have hm : m % 60 < 10 ^ 2 := by omega
  unfold offsetSeconds
  by_cases hzero : n % 60 = 0
  · by_cases hzero' : m % 60 = 0
    · simp [hzero, hzero']
    · simp only [hzero, hzero', if_true, if_false]
      exact iff_of_true (by simp) (by omega)
  · by_cases hzero' : m % 60 = 0
    · simp [hzero, hzero']
    · simp only [hzero, hzero', if_false]
      rw [cons_lt_cons_same, padded_lt_iff (by decide) hn hm]

private theorem offsetDigits_lt_iff {n m : Nat} (hn : n < 86400) (hm : m < 86400) :
    padded 2 (n / 3600) ++ ':' :: (padded 2 (n / 60 % 60) ++ offsetSeconds n) <
        padded 2 (m / 3600) ++ ':' :: (padded 2 (m / 60 % 60) ++ offsetSeconds m) ↔ n < m := by
  rw [padded_append_lt_iff (by decide) (by omega) (by omega), cons_lt_cons_same,
    padded_append_lt_iff (by decide) (by omega) (by omega), offsetSeconds_lt_iff]
  omega

/-- The text of an offset, spelled out. -/
theorem offsetText_eq (seconds : Int) :
    offsetText seconds = (if seconds < 0 then '-' else '+') ::
      (padded 2 (seconds.natAbs / 3600) ++
        ':' :: (padded 2 (seconds.natAbs / 60 % 60) ++ offsetSeconds seconds.natAbs)) := by
  unfold offsetText offsetSeconds
  simp only [List.append_assoc, List.cons_append]

/-- Offsets as texts. -/
theorem offsetText_lt_iff {a b : Int} (ha : a.natAbs < 86400) (hb : b.natAbs < 86400) :
    offsetText a < offsetText b ↔ OffsetBefore a b := by
  unfold OffsetBefore
  rw [offsetText_eq, offsetText_eq]
  by_cases hneg : a < 0
  · by_cases hneg' : b < 0
    · rw [if_pos hneg, if_pos hneg', cons_lt_cons_same, offsetDigits_lt_iff ha hb]
      omega
    · rw [if_pos hneg, if_neg hneg', List.cons_lt_cons_iff]
      refine iff_of_false ?_ (by omega)
      rintro (hlt | ⟨heq, -⟩)
      · exact absurd hlt (by decide)
      · exact absurd heq (by decide)
  · by_cases hneg' : b < 0
    · rw [if_neg hneg, if_pos hneg', List.cons_lt_cons_iff]
      exact iff_of_true (Or.inl (by decide)) (by omega)
    · rw [if_neg hneg, if_neg hneg', cons_lt_cons_same, offsetDigits_lt_iff ha hb]
      omega

private def fractionText (microsecond : Nat) : List Char :=
  if microsecond = 0 then [] else '.' :: padded 6 microsecond

private theorem fraction_lt_iff {n m : Nat} (hn : n < 1000000) (hm : m < 1000000) (a b : Int) :
    fractionText n ++ offsetText a < fractionText m ++ offsetText b ↔
      n < m ∨ n = m ∧ offsetText a < offsetText b := by
  have hsign (seconds : Int) : (if seconds < 0 then '-' else '+') < '.' := by
    split <;> decide
  unfold fractionText
  by_cases hzero : n = 0
  · by_cases hzero' : m = 0
    · simp [hzero, hzero']
    · simp only [hzero, hzero', if_true, if_false, List.nil_append]
      refine iff_of_true ?_ (Or.inl (by omega))
      rw [offsetText_eq, List.cons_append, List.cons_lt_cons_iff]
      exact Or.inl (hsign a)
  · by_cases hzero' : m = 0
    · subst hzero'
      simp only [hzero, if_true, if_false, List.nil_append]
      refine iff_of_false ?_ (fun h ↦ h.elim (Nat.not_lt_zero n) And.left)
      rw [offsetText_eq b, List.cons_append, List.cons_lt_cons_iff]
      rintro (hlt | ⟨heq, -⟩)
      · exact lt_asymm hlt (hsign b)
      · exact (hsign b).ne heq.symm
    · simp only [hzero, hzero', if_false, List.cons_append]
      rw [cons_lt_cons_same, padded_append_lt_iff (by decide) hn hm]

/-- Timestamps as texts are compared by the wall clock, and by the offset between equal ones. -/
theorem isoformat_lt_iff {a b : Datetime} (ha : a.WellFormed) (hb : b.WellFormed)
    (haware : a.aware = true) (hbware : b.aware = true) :
    a.isoformat < b.isoformat ↔
      a.wallClock < b.wallClock ∨ a.wallClock = b.wallClock ∧ OffsetBefore a.offset b.offset := by
  obtain ⟨oa, hoa⟩ := Option.isSome_iff_exists.mp haware
  obtain ⟨ob, hob⟩ := Option.isSome_iff_exists.mp hbware
  have hafter : offsetText oa < offsetText ob ↔ OffsetBefore a.offset b.offset := by
    rw [offsetText_lt_iff (ha.offset oa hoa) (hb.offset ob hob)]
    unfold offset
    rw [hoa, hob]
    rfl
  obtain ⟨hdate, ⟨hhour, hminute, hsecond, hmicro⟩, -⟩ := ha
  obtain ⟨hdate', ⟨hhour', hminute', hsecond', hmicro'⟩, -⟩ := hb
  have hdays := toordinal_lt_iff hdate hdate'
  have hdays' := toordinal_lt_iff hdate' hdate
  obtain ⟨⟨-, hyear⟩, ⟨-, hmonth⟩, -, hday⟩ := hdate
  obtain ⟨⟨-, hyear'⟩, ⟨-, hmonth'⟩, -, hday'⟩ := hdate'
  have hlast : ∀ year month, daysInMonth year month ≤ 31 := by
    intro year month
    unfold daysInMonth
    split_ifs <;> omega
  have hday31 := hday.trans (hlast _ _)
  have hday31' := hday'.trans (hlast _ _)
  unfold isoformat
  rw [String.lt_iff, String.toList_ofList, String.toList_ofList, hoa, hob]
  change _ ++ fractionText a.microsecond ++ offsetText oa <
    _ ++ fractionText b.microsecond ++ offsetText ob ↔ _
  simp only [List.append_assoc, List.cons_append]
  change a.year ≤ 9999 at hyear
  change b.year ≤ 9999 at hyear'
  change a.month ≤ 12 at hmonth
  change b.month ≤ 12 at hmonth'
  change a.day ≤ 31 at hday31
  change b.day ≤ 31 at hday31'
  -- Field by field, all of fixed width up to the fraction.
  rw [padded_append_lt_iff (by decide) (by omega) (by omega), cons_lt_cons_same,
    padded_append_lt_iff (by decide) (by omega) (by omega), cons_lt_cons_same,
    padded_append_lt_iff (by decide) (by omega) (by omega), cons_lt_cons_same,
    padded_append_lt_iff (by decide) (by omega) (by omega), cons_lt_cons_same,
    padded_append_lt_iff (by decide) (by omega) (by omega), cons_lt_cons_same,
    padded_append_lt_iff (by decide) (by omega) (by omega),
    fraction_lt_iff hmicro hmicro', hafter]
  generalize OffsetBefore a.offset b.offset = before
  unfold wallClock wallSeconds
  unfold Date.Before at hdays hdays'
  change _ ↔ a.year < b.year ∨ a.year = b.year ∧ (a.month < b.month ∨ a.month = b.month ∧
    a.day < b.day) at hdays
  change _ ↔ b.year < a.year ∨ b.year = a.year ∧ (b.month < a.month ∨ b.month = a.month ∧
    b.day < a.day) at hdays'
  generalize a.date.toordinal = day at hdays hdays' ⊢
  generalize b.date.toordinal = day' at hdays hdays' ⊢
  by_cases hbefore : before
  · simp only [hbefore, and_true]
    omega
  · simp only [hbefore, and_false, or_false]
    omega

end Datetime
end Joker.Base
