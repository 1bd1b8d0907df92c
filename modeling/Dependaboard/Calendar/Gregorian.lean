import Mathlib.Data.Prod.Lex
import Mathlib.Order.Iterate
import Mathlib.Tactic.IntervalCases

/-!
# Calendar — the proleptic Gregorian calendar

Years, months and days, each date with the day after it. `Date.next` is the
calendar as it is taught; the dates in their order are what it steps along.

A year counted from March ends with its leap day, so that the days before it
and the days before one of its months are plain arithmetic (`yearStart`,
`monthStart`). `ofMarch` is the date a day of such a year has, and
`ofMarch_succ` and `ofMarch_last` say that counting the days is following the
calendar.
-/

namespace Calendar

/-- Every fourth year, less every hundredth, save every four-hundredth. -/
def Leap (year : ℕ) : Prop := year % 4 = 0 ∧ (year % 100 ≠ 0 ∨ year % 400 = 0)

instance (year : ℕ) : Decidable (Leap year) := inferInstanceAs (Decidable (_ ∧ _))

/-- The length of a month. -/
def daysInMonth (year month : ℕ) : ℕ :=
  if month = 2 then if Leap year then 29 else 28
  else if month = 4 ∨ month = 6 ∨ month = 9 ∨ month = 11 then 30
  else 31

theorem one_le_daysInMonth (year month : ℕ) : 1 ≤ daysInMonth year month := by
  unfold daysInMonth
  split_ifs <;> omega

/-- A date the calendar has. -/
@[ext] structure Date where
  year : ℕ
  month : ℕ
  day : ℕ
  one_le_month : 1 ≤ month
  month_le : month ≤ 12
  one_le_day : 1 ≤ day
  day_le : day ≤ daysInMonth year month
  deriving DecidableEq, Repr

namespace Date

/-- The year, then the month, then the day. -/
def key (date : Date) : ℕ ×ₗ ℕ ×ₗ ℕ := toLex (date.year, toLex (date.month, date.day))

theorem key_injective : Function.Injective key := by
  intro a b h
  have hkey : (a.year, toLex (a.month, a.day)) = (b.year, toLex (b.month, b.day)) := h
  obtain ⟨hyear, hrest⟩ := Prod.mk.inj hkey
  obtain ⟨hmonth, hday⟩ := Prod.mk.inj (toLex.injective hrest)
  exact Date.ext hyear hmonth hday

/-- Earlier dates come first. -/
instance : LinearOrder Date := LinearOrder.lift' key key_injective

theorem lt_iff {a b : Date} : a < b ↔ a.year < b.year ∨ a.year = b.year ∧
    (a.month < b.month ∨ a.month = b.month ∧ a.day < b.day) := by
  have hkey : a < b ↔ a.key < b.key := Iff.rfl
  rw [hkey, key, key, Prod.Lex.toLex_lt_toLex, Prod.Lex.toLex_lt_toLex]

/-- The day after. -/
def next (date : Date) : Date :=
  if hday : date.day < daysInMonth date.year date.month then
    { date with
      day := date.day + 1
      one_le_day := Nat.le_add_left 1 _
      day_le := hday }
  else if hmonth : date.month < 12 then
    ⟨date.year, date.month + 1, 1, Nat.le_add_left 1 _, hmonth, le_rfl, one_le_daysInMonth _ _⟩
  else
    ⟨date.year + 1, 1, 1, le_rfl, by decide, le_rfl, one_le_daysInMonth _ _⟩

theorem lt_next (date : Date) : date < date.next := by
  rw [lt_iff, next]
  split_ifs
  · exact .inr ⟨rfl, .inr ⟨rfl, Nat.lt_succ_self _⟩⟩
  · exact .inr ⟨rfl, .inl (Nat.lt_succ_self _)⟩
  · exact .inl (Nat.lt_succ_self _)

/-- The date `n` days after. -/
def after (date : Date) (n : ℕ) : Date := next^[n] date

theorem after_succ (date : Date) (n : ℕ) : date.after (n + 1) = (date.after n).next :=
  Function.iterate_succ_apply' next n date

theorem after_strictMono (date : Date) : StrictMono date.after :=
  strictMono_nat_of_lt_succ fun n => by
    rw [after_succ]
    exact lt_next _

end Date

/-! ## Years from March -/

/-- The days before the year that starts in March of `year`. -/
def yearStart (year : ℕ) : ℕ := 365 * year + year / 4 - year / 100 + year / 400

/-- The length of the year that starts in March of `year`: its leap day is next
year's. -/
def yearLength (year : ℕ) : ℕ := if Leap (year + 1) then 366 else 365

theorem le_yearLength (year : ℕ) : 365 ≤ yearLength year := by
  unfold yearLength
  split_ifs <;> decide

theorem yearLength_le (year : ℕ) : yearLength year ≤ 366 := by
  unfold yearLength
  split_ifs <;> decide

theorem yearLength_of_leap {year : ℕ} (h : Leap (year + 1)) : yearLength year = 366 := if_pos h

theorem yearStart_succ (year : ℕ) : yearStart (year + 1) = yearStart year + yearLength year := by
  have hfour : (year + 1) % 4 = 0 ∧ (year + 1) / 4 = year / 4 + 1 ∨
      (year + 1) % 4 ≠ 0 ∧ (year + 1) / 4 = year / 4 := by omega
  have hhundred : (year + 1) % 100 = 0 ∧ (year + 1) / 100 = year / 100 + 1 ∨
      (year + 1) % 100 ≠ 0 ∧ (year + 1) / 100 = year / 100 := by omega
  have hera : (year + 1) % 400 = 0 ∧ (year + 1) / 400 = year / 400 + 1 ∨
      (year + 1) % 400 ≠ 0 ∧ (year + 1) / 400 = year / 400 := by omega
  have hle : year / 100 ≤ year := Nat.div_le_self _ _
  have hlength : Leap (year + 1) ∧ yearLength year = 366 ∨
      ¬ Leap (year + 1) ∧ yearLength year = 365 := by
    by_cases hleap : Leap (year + 1)
    · exact .inl ⟨hleap, yearLength_of_leap hleap⟩
    · exact .inr ⟨hleap, if_neg hleap⟩
  unfold Leap at hlength
  unfold yearStart
  rcases hfour with ⟨h4, h4'⟩ | ⟨h4, h4'⟩ <;> omega

theorem yearStart_strictMono : StrictMono yearStart :=
  strictMono_nat_of_lt_succ fun year => by
    have hlength := le_yearLength year
    rw [yearStart_succ]
    omega

/-- Every four hundred years start on the same day of their era. -/
theorem yearStart_era (era year : ℕ) :
    yearStart (year + era * 400) = yearStart year + era * 146097 := by
  unfold yearStart
  omega

/-- The days of a year before its `month`th month from March. -/
def monthStart (month : ℕ) : ℕ := (153 * month + 2) / 5

/-- The month from March a day of the year is in. -/
def marchMonth (dayOfYear : ℕ) : ℕ := (5 * dayOfYear + 2) / 153

theorem monthStart_le (dayOfYear : ℕ) :
    monthStart (marchMonth dayOfYear) ≤ dayOfYear ∧
      dayOfYear < monthStart (marchMonth dayOfYear + 1) := by
  unfold monthStart marchMonth
  omega

theorem marchMonth_eq {dayOfYear month : ℕ} (hle : monthStart month ≤ dayOfYear)
    (hlt : dayOfYear < monthStart (month + 1)) : marchMonth dayOfYear = month := by
  unfold monthStart at hle hlt
  unfold marchMonth
  omega

theorem marchMonth_le {year dayOfYear : ℕ} (h : dayOfYear < yearLength year) :
    marchMonth dayOfYear ≤ 11 := by
  have hlength := yearLength_le year
  unfold marchMonth
  omega

/-- The calendar's month. -/
def monthOf (month : ℕ) : ℕ := if month < 10 then month + 3 else month - 9

/-- The calendar's year: January and February are the next one's. -/
def yearOf (year month : ℕ) : ℕ := if month < 10 then year else year + 1

/-- A month but the last ends where the next starts, and the last with the
year. -/
theorem monthStart_succ {month : ℕ} (h : month < 11) (year : ℕ) :
    monthStart (month + 1) = monthStart month + daysInMonth year (monthOf month) := by
  unfold monthStart daysInMonth monthOf
  interval_cases month <;> rfl

theorem yearLength_eq (year : ℕ) :
    yearLength year = monthStart 11 + daysInMonth (yearOf year 11) (monthOf 11) := by
  have hstart : monthStart 11 = 337 := rfl
  have hfebruary : daysInMonth (yearOf year 11) (monthOf 11)
      = if Leap (year + 1) then 29 else 28 := rfl
  rw [hstart, hfebruary, yearLength]
  split_ifs <;> rfl

/-! ## Counting is following the calendar -/

variable {year dayOfYear : ℕ}

/-- The day's number within its month is one the month has. -/
theorem day_le (h : dayOfYear < yearLength year) :
    dayOfYear - monthStart (marchMonth dayOfYear) + 1
      ≤ daysInMonth (yearOf year (marchMonth dayOfYear)) (monthOf (marchMonth dayOfYear)) := by
  obtain ⟨hle, hlt⟩ := monthStart_le dayOfYear
  rcases Nat.lt_or_eq_of_le (marchMonth_le h) with hmonth | hmonth
  · rw [monthStart_succ hmonth (yearOf year (marchMonth dayOfYear))] at hlt
    omega
  · rw [yearLength_eq] at h
    rw [hmonth] at hle ⊢
    omega

/-- The date of a day of the year that starts in March of `year`. -/
def ofMarch (year dayOfYear : ℕ) (h : dayOfYear < yearLength year) : Date where
  year := yearOf year (marchMonth dayOfYear)
  month := monthOf (marchMonth dayOfYear)
  day := dayOfYear - monthStart (marchMonth dayOfYear) + 1
  one_le_month := by
    unfold monthOf
    split_ifs <;> omega
  month_le := by
    have hle := marchMonth_le h
    unfold monthOf
    split_ifs <;> omega
  one_le_day := Nat.le_add_left 1 _
  day_le := day_le h

/-- **The next day of a year is the calendar's next.** -/
theorem ofMarch_succ (h : dayOfYear + 1 < yearLength year) :
    ofMarch year (dayOfYear + 1) h = (ofMarch year dayOfYear (Nat.lt_of_succ_lt h)).next := by
  obtain ⟨hle, hlt⟩ := monthStart_le dayOfYear
  obtain ⟨month, hmonth⟩ : ∃ month, marchMonth dayOfYear = month := ⟨_, rfl⟩
  have hlast : month ≤ 11 := hmonth ▸ marchMonth_le (Nat.lt_of_succ_lt h)
  rw [hmonth] at hle hlt
  rcases Nat.lt_or_ge (dayOfYear + 1) (monthStart (month + 1)) with hwithin | hend
  · -- The month goes on.
    have hsame : marchMonth (dayOfYear + 1) = month :=
      marchMonth_eq (Nat.le_succ_of_le hle) hwithin
    have hday : dayOfYear - monthStart month + 1
        < daysInMonth (yearOf year month) (monthOf month) := by
      rcases Nat.lt_or_eq_of_le hlast with hlt' | rfl
      · rw [monthStart_succ hlt' (yearOf year month)] at hwithin
        omega
      · rw [yearLength_eq] at h
        omega
    ext
    · simp only [ofMarch, Date.next, hmonth, hsame, dif_pos hday]
    · simp only [ofMarch, Date.next, hmonth, hsame, dif_pos hday]
    · simp only [ofMarch, Date.next, hmonth, hsame, dif_pos hday]
      omega
  · -- The month ends here, and it is not the year's last.
    have hbefore : month < 11 := by
      rcases Nat.lt_or_eq_of_le hlast with hlt' | rfl
      · exact hlt'
      · have hstart : monthStart (11 + 1) = 367 := rfl
        have hlength := yearLength_le year
        omega
    have hfull := monthStart_succ hbefore (yearOf year month)
    have hnext : marchMonth (dayOfYear + 1) = month + 1 := by
      refine marchMonth_eq hend ?_
      unfold monthStart at hlt ⊢
      omega
    have hday : ¬ dayOfYear - monthStart month + 1
        < daysInMonth (yearOf year month) (monthOf month) := by omega
    have hfirst : dayOfYear + 1 - monthStart (month + 1) = 0 := by omega
    by_cases hdecember : month = 9
    · subst hdecember
      have hmonth' : ¬ monthOf 9 < 12 := by decide
      ext
      · simp only [ofMarch, Date.next, hmonth, hnext, dif_neg hday, dif_neg hmonth']
        rfl
      · simp only [ofMarch, Date.next, hmonth, hnext, dif_neg hday, dif_neg hmonth']
        rfl
      · simp only [ofMarch, Date.next, hmonth, hnext, dif_neg hday, dif_neg hmonth', hfirst]
    · have hmonth' : monthOf month < 12 := by
        unfold monthOf
        split_ifs <;> omega
      ext
      · simp only [ofMarch, Date.next, hmonth, hnext, dif_neg hday, dif_pos hmonth']
        unfold yearOf
        split_ifs <;> omega
      · simp only [ofMarch, Date.next, hmonth, hnext, dif_neg hday, dif_pos hmonth']
        unfold monthOf
        split_ifs <;> omega
      · simp only [ofMarch, Date.next, hmonth, hnext, dif_neg hday, dif_pos hmonth', hfirst]

/-- **The day after a year's last is the next year's first.** -/
theorem ofMarch_last (h : dayOfYear < yearLength year) (hlast : dayOfYear + 1 = yearLength year)
    (hzero : 0 < yearLength (year + 1)) :
    ofMarch (year + 1) 0 hzero = (ofMarch year dayOfYear h).next := by
  have hmonth : marchMonth dayOfYear = 11 := by
    have hstart : monthStart 11 = 337 := rfl
    have hend : monthStart (11 + 1) = 367 := rfl
    have hshort := le_yearLength year
    have hlong := yearLength_le year
    exact marchMonth_eq (by omega) (by omega)
  have hday : ¬ dayOfYear - monthStart 11 + 1 < daysInMonth (yearOf year 11) (monthOf 11) := by
    rw [yearLength_eq] at hlast
    omega
  have hmonth' : monthOf 11 < 12 := by decide
  ext
  · simp only [ofMarch, Date.next, hmonth, dif_neg hday, dif_pos hmonth']
    rfl
  · simp only [ofMarch, Date.next, hmonth, dif_neg hday, dif_pos hmonth']
    rfl
  · simp only [ofMarch, Date.next, hmonth, dif_neg hday, dif_pos hmonth']
    rfl

/-- `date` is day `day`, counted from the first of March of year zero. -/
def Date.Numbered (day : ℕ) (date : Date) : Prop :=
  ∃ year dayOfYear, ∃ h : dayOfYear < yearLength year,
    yearStart year + dayOfYear = day ∧ ofMarch year dayOfYear h = date

namespace Date.Numbered

variable {day : ℕ} {date date' : Date}

/-- A day is one date only. -/
theorem unique (h : date.Numbered day) (h' : date'.Numbered day) : date = date' := by
  obtain ⟨year, dayOfYear, hlt, hday, rfl⟩ := h
  obtain ⟨year', dayOfYear', hlt', hday', rfl⟩ := h'
  have hend := yearStart_succ year
  have hend' := yearStart_succ year'
  have hyear : year = year' := by
    refine Nat.le_antisymm (Nat.lt_succ_iff.1 ?_) (Nat.lt_succ_iff.1 ?_)
    · exact yearStart_strictMono.lt_iff_lt.1 (by rw [Nat.succ_eq_add_one]; omega)
    · exact yearStart_strictMono.lt_iff_lt.1 (by rw [Nat.succ_eq_add_one]; omega)
  subst hyear
  have hsame : dayOfYear = dayOfYear' := by omega
  subst hsame
  rfl

/-- The day after is the next date. -/
theorem next (h : date.Numbered day) : date.next.Numbered (day + 1) := by
  obtain ⟨year, dayOfYear, hlt, hday, rfl⟩ := h
  rcases Nat.lt_or_ge (dayOfYear + 1) (yearLength year) with hwithin | hend
  · exact ⟨year, dayOfYear + 1, hwithin, by omega, ofMarch_succ hwithin⟩
  · have hlast : dayOfYear + 1 = yearLength year := by omega
    have hzero : 0 < yearLength (year + 1) := lt_of_lt_of_le (by decide) (le_yearLength _)
    refine ⟨year + 1, 0, hzero, ?_, ofMarch_last hlt hlast hzero⟩
    rw [yearStart_succ]
    omega

theorem after (h : date.Numbered day) (n : ℕ) : (date.after n).Numbered (day + n) := by
  induction n with
  | zero => exact h
  | succ n ih =>
    rw [after_succ]
    exact ih.next

end Date.Numbered

end Calendar
