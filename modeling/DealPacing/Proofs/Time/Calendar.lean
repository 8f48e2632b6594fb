import DealPacing.Time.Civil
import Mathlib.Tactic.IntervalCases
import Mathlib.Tactic.SplitIfs

/-!
# The calendar is exact

Every day count is that of a date. The date is found by dividing the count into eras of four hundred
years, centuries, leap cycles and years; in each of them only the last part is longer or shorter
than the others.

## Main definitions

* `Date.InEra`: a day of an era by the year and the day of the year, counted from March
* `Date.ofMarch`: the date of such a day

## Main results

* `Date.exists_inEra`: every day of an era lies in one of its years
* `Date.isValid_ofDayNumber`: the date of a day count exists
* `Date.dayNumber_ofDayNumber`: and has that day count
-/

namespace DealPacing.Date

/-- The day `d` of an era is day `r` of its year `y`, counted from March. -/
structure InEra (d y r : Int) : Prop where
  year : 0 ≤ y ∧ y < 400
  day : 0 ≤ r ∧ r ≤ 365
  eq : d = 365 * y + y / 4 - y / 100 + r
  /-- The year ends on a leap day only if the next calendar year has one. -/
  leap : r = 365 → (y + 1) % 4 = 0 ∧ ((y + 1) % 100 ≠ 0 ∨ (y + 1) % 400 = 0)

/-- The number of the year that a day of an era lies in, from March: the leap days that came before
are taken off, after which all years are of one length. -/
def yearOfEra (d : Int) : Int := (d - d / 1460 + d / 36524 - d / 146096) / 365

/-- A day of an era lies in a century, a leap cycle of four years, and a year. Only the last year of
a leap cycle has a day 365, and in the last cycle of a century only if the century is the last
one. -/
theorem exists_parts {d : Int} (h₀ : 0 ≤ d) (h₁ : d < 146097) : ∃ c q a r : Int,
    (0 ≤ c ∧ c ≤ 3) ∧ (0 ≤ q ∧ q ≤ 24) ∧ (0 ≤ a ∧ a ≤ 3) ∧ (0 ≤ r ∧ r ≤ 365) ∧
      (r = 365 → a = 3 ∧ (q < 24 ∨ c = 3)) ∧ d = 36524 * c + 1461 * q + 365 * a + r := by
  -- the last century is a day longer, and so is the last year of a cycle
  obtain ⟨c, r₁, hc, hr₁, hd₁⟩ : ∃ c r₁ : Int, (0 ≤ c ∧ c ≤ 3) ∧
      (0 ≤ r₁ ∧ (r₁ < 36524 ∨ c = 3 ∧ r₁ = 36524)) ∧ d = 36524 * c + r₁ :=
    ⟨min 3 (d / 36524), d - 36524 * min 3 (d / 36524), by omega, by omega, by omega⟩
  obtain ⟨q, r₂, hq, hr₂, hd₂⟩ : ∃ q r₂ : Int, (0 ≤ q ∧ q ≤ 24) ∧
      (0 ≤ r₂ ∧ r₂ ≤ 1460 ∧ (r₂ = 1460 → q < 24 ∨ c = 3)) ∧ r₁ = 1461 * q + r₂ :=
    ⟨r₁ / 1461, r₁ % 1461, by omega, by omega, by omega⟩
  exact ⟨c, q, min 3 (r₂ / 365), r₂ - 365 * min 3 (r₂ / 365), hc, hq, by omega, by omega, by omega,
    by omega⟩

/-- Every day of an era lies in one of its years. -/
theorem exists_inEra {d : Int} (h₀ : 0 ≤ d) (h₁ : d < 146097) :
    ∃ r, InEra d (yearOfEra d) r := by
  obtain ⟨c, q, a, r, hc, hq, ha, hr, hleap, hd⟩ := exists_parts h₀ h₁
  have hcycles : d / 1460 = 25 * c + q + if 1460 ≤ 365 * a + r + 24 * c + q then 1 else 0 := by
    split
    · omega
    · omega
  -- the last day of the era counts as a fifth century
  have hcenturies : d / 36524 - d / 146096 = c := by
    rcases (by omega : d < 36524 * (c + 1) ∨ c = 3 ∧ d = 146096) with hlt | ⟨rfl, rfl⟩
    · have hwhole : d / 36524 = c := by omega
      have hlast : d / 146096 = 0 := by omega
      omega
    · rfl
  have hyear : yearOfEra d = 100 * c + 4 * q + a := by
    unfold yearOfEra
    split at hcycles
    · omega
    · omega
  have hfourth : (100 * c + 4 * q + a) / 4 = 25 * c + q := by omega
  have hhundredth : (100 * c + 4 * q + a) / 100 = c := by omega
  rw [hyear]
  refine ⟨r, by omega, hr, by omega, fun hday => ?_⟩
  obtain ⟨ha, hlast⟩ := hleap hday
  omega

/-! ## Dates by the year from March -/

/-- The month of a day, counted from March. -/
def marchMonth (r : Int) : Int := (5 * r + 2) / 153

/-- Day `r` of the year `y` of an era, counted from March, as a date. -/
def ofMarch (era y r : Int) : Date :=
  let m := marchMonth r
  let month := if m < 10 then m + 3 else m - 9
  ⟨y + era * 400 + if month ≤ 2 then 1 else 0, month.toNat, (r - (153 * m + 2) / 5 + 1).toNat⟩

section March

variable {d y r : Int}

/-- The day count of a date, by the year and the month from March. -/
theorem dayNumber_eq {date : Date} {year m : Int}
    (hyear : (if date.month ≤ 2 then date.year - 1 else date.year) = year)
    (hmonth : (if 2 < date.month then (date.month : Int) - 3 else date.month + 9) = m)
    (hday : (153 * m + 2) / 5 + date.day - 1 = r) :
    date.dayNumber = year / 400 * 146097 +
      (year % 400 * 365 + year % 400 / 4 - year % 400 / 100 + r) - 719468 := by
  subst hyear hmonth hday
  rfl

theorem dayNumber_ofMarch (h : InEra d y r) (era : Int) :
    (ofMarch era y r).dayNumber = era * 146097 + d - 719468 := by
  obtain ⟨hyear, hday, hd, -⟩ := h
  have hmonth : 0 ≤ marchMonth r ∧ marchMonth r ≤ 11 := by
    unfold marchMonth
    omega
  have hfirst : 0 ≤ r - (153 * marchMonth r + 2) / 5 := by
    unfold marchMonth
    omega
  have hnumber : (ofMarch era y r).dayNumber = _ :=
    @dayNumber_eq r _ (y + era * 400) (marchMonth r) ?_ ?_ ?_
  · rw [hnumber]
    omega
  · -- January and February belong to the next calendar year
    simp only [ofMarch]
    split_ifs <;> omega
  · simp only [ofMarch]
    split_ifs <;> omega
  · simp only [ofMarch]
    omega

theorem isLeapYear_iff (year : Int) :
    isLeapYear year = true ↔ year % 4 = 0 ∧ (year % 100 ≠ 0 ∨ year % 400 = 0) := by
  simp [isLeapYear]

theorem isValid_iff {date : Date} : date.isValid = true ↔
    (1 ≤ date.month ∧ date.month ≤ 12) ∧ 1 ≤ date.day ∧
      date.day ≤ daysInMonth date.year date.month := by
  simp [isValid, and_assoc]

theorem le_daysInMonth_two (year : Int) : 28 ≤ daysInMonth year 2 := by
  show 28 ≤ if isLeapYear year = true then 29 else 28
  split
  · omega
  · omega

theorem isValid_ofMarch (h : InEra d y r) (era : Int) : (ofMarch era y r).isValid = true := by
  obtain ⟨-, hday, -, hleap⟩ := h
  obtain ⟨k, hk⟩ : ∃ k : Nat, marchMonth r = k :=
    Int.eq_ofNat_of_zero_le (by unfold marchMonth; omega)
  have hfirst : 153 * (k : Int) ≤ 5 * r + 2 ∧ 5 * r + 2 < 153 * k + 153 := by
    unfold marchMonth at hk
    omega
  have hk11 : k ≤ 11 := by omega
  have hmonth : (if (k : Int) < 10 then (k : Int) + 3 else k - 9).toNat =
      if k < 10 then k + 3 else k - 9 := by
    split_ifs <;> omega
  rw [isValid_iff]
  simp only [ofMarch, hk, hmonth]
  interval_cases k
  case «11» =>
    -- February has a day 29 if the year has a leap day
    have hdays : r ≠ 365 ∨ isLeapYear (y + era * 400 + 1) = true := by
      rw [isLeapYear_iff]
      omega
    norm_num
    rcases hdays with hshort | hlong
    · have := le_daysInMonth_two (y + era * 400 + 1)
      omega
    · simp only [daysInMonth, hlong, if_true]
      omega
  all_goals
    norm_num [daysInMonth]
    omega

end March

/-! ## Dates by their day count -/

/-- The date of a day count, by its era, the year and the day of the year. -/
theorem exists_ofDayNumber_eq (n : Int) : ∃ era d r, n = era * 146097 + d - 719468 ∧
    InEra d (yearOfEra d) r ∧ ofDayNumber n = ofMarch era (yearOfEra d) r := by
  obtain ⟨r, h⟩ := exists_inEra (d := (n + 719468) % 146097) (by omega) (by omega)
  refine ⟨(n + 719468) / 146097, _, r, by omega, h, ?_⟩
  have hr : (n + 719468) % 146097 - (365 * yearOfEra ((n + 719468) % 146097) +
      yearOfEra ((n + 719468) % 146097) / 4 - yearOfEra ((n + 719468) % 146097) / 100) = r := by
    have := h.eq
    omega
  unfold ofMarch marchMonth
  rw [← hr]
  rfl

/-- The date of a day count exists. -/
theorem isValid_ofDayNumber (n : Int) : (ofDayNumber n).isValid = true := by
  obtain ⟨era, d, r, -, h, hdate⟩ := exists_ofDayNumber_eq n
  rw [hdate]
  exact isValid_ofMarch h era

/-- **The calendar is exact**: the date of a day count has that day count. -/
theorem dayNumber_ofDayNumber (n : Int) : (ofDayNumber n).dayNumber = n := by
  obtain ⟨era, d, r, hn, h, hdate⟩ := exists_ofDayNumber_eq n
  rw [hdate, dayNumber_ofMarch h era, hn]

theorem daysInMonth_le (year : Int) (month : Nat) : daysInMonth year month ≤ 31 := by
  unfold daysInMonth
  split
  · split <;> omega
  all_goals omega

end DealPacing.Date
