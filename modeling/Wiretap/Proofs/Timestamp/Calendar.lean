import Wiretap.Timestamp

/-! The date of a day is worked out in eras and years that begin in March. It is a date of the
calendar and that day's own. Years begin on the first of January: the year of a date is the one
whose first day has come and whose last has not passed. -/

set_option autoImplicit false

namespace Wiretap.Date

def marchStart (year : Int) : Int := 365 * year + year / 4 - year / 100 + year / 400

theorem marchStart_le {y z : Int} (h : y ≤ z) : marchStart y + 365 * (z - y) ≤ marchStart z := by
  unfold marchStart
  omega

/-- The year of an era by centuries, spans of four years and years. -/
theorem yearOfEra_eq {c q t s : Nat} (hc : c < 4) (hq : q < 25) (hs : s < 1461)
    (ht : t = if s = 1460 then 3 else s / 365) {d : Nat} (hd : d = 36524 * c + (1461 * q + s))
    (hlast : 1461 * q + s < 36524) :
    (d - d / 1460 + d / 36524 - d / 146096) / 365 = 100 * c + 4 * q + t := by
  have hspare : (24 * c + q + s) / 1460 = 0 ∧ s < 1460 ∨
      (24 * c + q + s) / 1460 = 1 ∧ 1364 ≤ s := by omega
  have hquarters : d / 1460 = 25 * c + q + (24 * c + q + s) / 1460 := by omega
  have hcenturies : d / 36524 = c := by omega
  have hera : d / 146096 = 0 := by omega
  rw [hquarters, hcenturies, hera]
  clear hquarters hcenturies hera
  obtain ⟨h, hlt⟩ | ⟨h, hlt⟩ := hspare <;> rw [h]
  · have hsum : d - (25 * c + q + 0) + c - 0 = 365 * (100 * c + 4 * q) + s := by omega
    rw [hsum, Nat.mul_add_div (by decide), ht, if_neg (by omega)]
  · have hsum : d - (25 * c + q + 1) + c - 0 = 365 * (100 * c + 4 * q) + (s - 1) := by omega
    rw [hsum, Nat.mul_add_div (by decide), ht]
    split <;> omega

/-- A day of an era lies in the year that its number says. -/
theorem yearOfEra_spec {d y : Nat} (hd : d < 146097)
    (hy : y = (d - d / 1460 + d / 36524 - d / 146096) / 365) :
    y < 400 ∧ marchStart y ≤ d ∧ (d : Int) < marchStart (y + 1) := by
  by_cases hlast : d = 146096
  · subst hlast
    rw [show y = 399 from hy]
    decide
  obtain ⟨c, r, hc, hr⟩ : ∃ c r, d = 36524 * c + r ∧ r < 36524 :=
    ⟨d / 36524, d % 36524, by omega, by omega⟩
  obtain ⟨q, s, rfl, hs⟩ : ∃ q s, r = 1461 * q + s ∧ s < 1461 :=
    ⟨r / 1461, r % 1461, by omega, by omega⟩
  rw [yearOfEra_eq (by omega) (by omega) hs rfl hc hr] at hy
  generalize ht : (if s = 1460 then 3 else s / 365) = t at hy
  have hrest : t ≤ 3 ∧ 365 * t ≤ s ∧ (s < 365 * (t + 1) ∨ t = 3) := by
    split at ht <;> omega
  have hfour : (y : Int) / 4 = 25 * c + q := by omega
  have hhundred : (y : Int) / 100 = c := by omega
  have hnext : (y + 1 : Int) / 4 = 25 * c + q + (t + 1) / 4 := by omega
  -- A century ends after its last span of four years.
  have hturn : (y + 1 : Int) / 100 = c + if q = 24 ∧ t = 3 then 1 else 0 := by
    split <;> omega
  clear ht
  unfold marchStart
  rw [hfour, hhundred, hnext, hturn]
  refine ⟨by omega, by omega, ?_⟩
  split <;> omega

theorem marchStart_era (year era : Int) :
    marchStart (year + era * 400) = marchStart year + 146097 * era := by
  unfold marchStart
  omega

/-- A day is so many days behind the start of a year that begins in March. -/
theorem ofDays_march (days : Int) : ∃ (year : Int) (day month : Nat),
    marchStart year + day = days + 719468 ∧ marchStart year + day < marchStart (year + 1) ∧
    month = (5 * day + 2) / 153 ∧
    ofDays days = if month < 10 then ⟨year, month + 3, day - (153 * month + 2) / 5 + 1⟩
      else ⟨year + 1, month - 9, day - (153 * month + 2) / 5 + 1⟩ := by
  generalize hera : (days + 719468) / 146097 = era
  generalize hday : ((days + 719468) % 146097).toNat = d
  have hshifted : days + 719468 = d + 146097 * era := by omega
  have hd : d < 146097 := by omega
  generalize hy : (d - d / 1460 + d / 36524 - d / 146096) / 365 = y
  obtain ⟨hy400, hfrom, hto⟩ := yearOfEra_spec hd hy.symm
  generalize hstart : 365 * y + y / 4 - y / 100 = start
  have hyear : marchStart y = start := by
    unfold marchStart
    omega
  have hnext : (y : Int) + era * 400 + 1 = y + 1 + era * 400 := by omega
  refine ⟨y + era * 400, d - start, _, ?_, ?_, rfl, ?_⟩
  · rw [marchStart_era, hyear]
    omega
  · rw [hnext, marchStart_era, marchStart_era]
    omega
  · simp only [ofDays, hera, hday, hy, hstart]

/-- A year that begins in March has 365 days, and one more if its February has a leap day. -/
theorem marchStart_succ (year : Int) :
    marchStart (year + 1) = marchStart year + 337 + daysIn (year + 1) 2 := by
  have hleap : isLeap (year + 1) = true ↔
      (year + 1) % 4 = 0 ∧ ((year + 1) % 100 ≠ 0 ∨ (year + 1) % 400 = 0) := by
    simp [isLeap]
  unfold marchStart
  rw [daysIn, if_pos rfl]
  split
  all_goals
    rename_i h
    rw [hleap] at h
    omega

theorem daysIn_february (year : Int) : daysIn year 2 ≤ 29 := by
  rw [daysIn, if_pos rfl]
  split <;> omega

theorem toDays_ofDays (days : Int) : (ofDays days).toDays = days := by
  obtain ⟨year, day, month, hday, hlast, hmonth, hof⟩ := ofDays_march days
  have hyear := marchStart_succ year
  have hlong := daysIn_february (year + 1)
  have hdays : day < 366 := by omega
  rw [hof]
  unfold marchStart at hday
  split
  · rw [toDays, if_neg (by simp)]
    simp only [marchDays]
    omega
  · rw [toDays, if_pos (by simp only; omega)]
    simp only [marchDays]
    omega

theorem ofDays_isValid (days : Int) : (ofDays days).isValid = true := by
  obtain ⟨year, day, month, hday, hlast, hmonth, hof⟩ := ofDays_march days
  have hlong := daysIn_february (year + 1)
  rw [marchStart_succ] at hlast
  rw [hof]
  split
  · have hlength : day - (153 * month + 2) / 5 + 1 ≤ daysIn year (month + 3) := by
      rw [daysIn, if_neg (by omega)]
      split <;> omega
    simp [isValid, hlength]
    omega
  · have hlength : day - (153 * month + 2) / 5 + 1 ≤ daysIn (year + 1) (month - 9) := by
      obtain hjanuary | hfebruary : month - 9 = 1 ∨ month - 9 = 2 := by omega
      · rw [hjanuary, show daysIn (year + 1) 1 = 31 from rfl]
        omega
      · rw [hfebruary]
        omega
    simp [isValid, hlength]
    omega

theorem isValid_two {date : Date} (h : date.isValid = true) :
    date.month < 100 ∧ date.day < 100 := by
  have hlong : daysIn date.year date.month ≤ 31 := by
    unfold daysIn
    repeat' split
    all_goals decide
  simp only [isValid, Bool.and_eq_true, decide_eq_true_eq] at h
  omega

/-- A year has come exactly from its first day on. -/
theorem le_year_iff (year days : Int) : year ≤ (ofDays days).year ↔
    (⟨year, 1, 1⟩ : Date).toDays ≤ days := by
  have hfirst : (⟨year, 1, 1⟩ : Date).toDays = marchStart (year - 1) + 306 - 719468 := by
    simp [toDays, marchDays, marchStart]
  obtain ⟨march, day, month, hday, hlast, hmonth, hof⟩ := ofDays_march days
  have hyear : (ofDays days).year = march + if 306 ≤ day then 1 else 0 := by
    rw [hof]
    split <;> split <;> dsimp only <;> omega
  rw [hfirst, hyear]
  rcases Int.lt_trichotomy (year - 1) march with hlt | heq | hgt
  · have hbefore := marchStart_le (Int.le_of_lt hlt)
    split <;> omega
  · rw [heq]
    split <;> omega
  · have hafter := marchStart_le (show march + 1 ≤ year - 1 by omega)
    split <;> omega

end Wiretap.Date
