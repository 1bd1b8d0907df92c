import Dependaboard.Calendar.Gregorian
import Dependaboard.Core.Records
import Dependaboard.Text.Decimal

/-!
# The dashboard — an instant in UTC

The audit list prints when a batch ran. The page's sums are over 64-bit
numbers, so each step that could leave them is checked (`checkedAdd`,
`checkedSub`, `checkedMul`), and none is left by any timestamp:
`civilFromDays_eq` is that and what the date is, the day the calendar reaches
from 1970-01-01 in so many days.
-/

namespace Dependaboard.Ui

open Calendar

/-! ## The code -/

/-- `a + b`, unless it overflows. -/
def checkedAdd (a b : ℕ) : Option ℕ := if a + b < u64Size then some (a + b) else none

/-- `a * b`, unless it overflows. -/
def checkedMul (a b : ℕ) : Option ℕ := if a * b < u64Size then some (a * b) else none

/-- `a - b`, unless it underflows. -/
def checkedSub (a b : ℕ) : Option ℕ := if b ≤ a then some (a - b) else none

/-- The year, the month and the day, `days` after 1970-01-01; `none` where a
step overflows or underflows. -/
def civilFromDays (days : ℕ) : Option (ℕ × ℕ × ℕ) := do
  let shifted ← checkedAdd days 719468
  let era := shifted / 146097
  let dayOfEra := shifted % 146097
  let fourths ← checkedSub dayOfEra (dayOfEra / 1460)
  let centuries ← checkedAdd fourths (dayOfEra / 36524)
  let common ← checkedSub centuries (dayOfEra / 146096)
  let yearOfEra := common / 365
  let yearDays ← checkedMul 365 yearOfEra
  let yearDays ← checkedAdd yearDays (yearOfEra / 4)
  let yearDays ← checkedSub yearDays (yearOfEra / 100)
  let dayOfYear ← checkedSub dayOfEra yearDays
  let fifths ← checkedMul 5 dayOfYear
  let fifths ← checkedAdd fifths 2
  let shiftedMonth := fifths / 153
  let monthDays ← checkedMul 153 shiftedMonth
  let monthDays ← checkedAdd monthDays 2
  let day ← checkedSub dayOfYear (monthDays / 5)
  let day ← checkedAdd day 1
  let month ← (if shiftedMonth < 10 then checkedAdd shiftedMonth 3
    else checkedSub shiftedMonth 9 : Option ℕ)
  let eraYears ← checkedMul era 400
  let year ← checkedAdd yearOfEra eraYears
  let year ← checkedAdd year (if month ≤ 2 then 1 else 0)
  return (year, month, day)

/-- `n` in decimal, with zeros before it up to `width`. -/
def zeroPadded (width n : ℕ) : String := String.ofList (Decimal.pad width n)

/-- A Unix second as the instant itself in UTC. -/
def utcTimestamp (timestamp : ℕ) : Option String := do
  let days := timestamp / 86400
  let seconds := timestamp % 86400
  let (year, month, day) ← civilFromDays days
  return zeroPadded 4 year ++ "-" ++ zeroPadded 2 month ++ "-" ++ zeroPadded 2 day ++ "T"
    ++ zeroPadded 2 (seconds / 3600) ++ ":" ++ zeroPadded 2 (seconds % 3600 / 60) ++ ":"
    ++ zeroPadded 2 (seconds % 60) ++ "Z"

example : utcTimestamp 1700000000 = some "2023-11-14T22:13:20Z" := by decide +kernel

/-! ## The year of an era -/

theorem checkedAdd_eq {a b : ℕ} (h : a + b < u64Size) : checkedAdd a b = some (a + b) := if_pos h

theorem checkedMul_eq {a b : ℕ} (h : a * b < u64Size) : checkedMul a b = some (a * b) := if_pos h

theorem checkedSub_eq {a b : ℕ} (h : b ≤ a) : checkedSub a b = some (a - b) := if_pos h

/-- A step that succeeds hands its value on. -/
theorem bind_of_eq {α β : Type} {x : Option α} {f : α → Option β} {a : α} {result : Option β}
    (hx : x = some a) (hf : f a = result) : (x >>= f) = result := by
  rw [hx]
  exact hf

/-- A day of an era within a century, four years of it, a year of these: every
fourth year is a day longer, the last of a century but the era's is not. -/
theorem exists_dayOfEra {dayOfEra : ℕ} (h : dayOfEra < 146097) :
    ∃ c a b k, c ≤ 3 ∧ a ≤ 24 ∧ b ≤ 3 ∧ (k < 365 ∨ k = 365 ∧ b = 3 ∧ (a < 24 ∨ c = 3)) ∧
      dayOfEra = 36524 * c + (1461 * a + 365 * b + k) := by
  obtain ⟨c, r, hc, hr, hday⟩ : ∃ c r, c ≤ 3 ∧ (r < 36524 ∨ r = 36524 ∧ c = 3) ∧
      dayOfEra = 36524 * c + r := by
    rcases Nat.lt_or_ge dayOfEra 146096 with hlt | hlast
    · exact ⟨dayOfEra / 36524, dayOfEra % 36524, by omega, by omega, by omega⟩
    · exact ⟨3, 36524, by omega, by omega, by omega⟩
  obtain ⟨b, k, hb, hk, hrest⟩ : ∃ b k, b ≤ 3 ∧ (k < 365 ∨ k = 365 ∧ b = 3) ∧
      r % 1461 = 365 * b + k := by
    rcases Nat.lt_or_ge (r % 1461) 1460 with hlt | hlast
    · exact ⟨r % 1461 / 365, r % 1461 % 365, by omega, by omega, by omega⟩
    · exact ⟨3, 365, by omega, by omega, by omega⟩
  exact ⟨c, r / 1461, b, k, hc, by omega, hb, by omega, by omega⟩

/-- The year of an era its day is in, as the code computes it. -/
def yearOfEra (dayOfEra : ℕ) : ℕ :=
  (dayOfEra - dayOfEra / 1460 + dayOfEra / 36524 - dayOfEra / 146096) / 365

/-- What is taken away for the leap days leaves years of 365. -/
theorem yearOfEra_eq {c a b k : ℕ} (hc : c ≤ 3) (ha : a ≤ 24) (hb : b ≤ 3)
    (hk : k < 365 ∨ k = 365 ∧ b = 3 ∧ (a < 24 ∨ c = 3)) :
    yearOfEra (36524 * c + (1461 * a + 365 * b + k)) = 100 * c + 4 * a + b := by
  obtain ⟨r, hr⟩ : ∃ r, r = 1461 * a + 365 * b + k := ⟨_, rfl⟩
  have hlast : r < 36524 ∨ r = 36524 ∧ c = 3 := by omega
  have hcentury : (36524 * c + r) / 36524 = c + r / 36524 := by
    clear hk hr
    omega
  have hera : (36524 * c + r) / 146096 = r / 36524 := by
    clear hk hr
    rcases hlast with h | ⟨rfl, rfl⟩
    · rw [Nat.div_eq_of_lt h, Nat.div_eq_of_lt (by omega)]
    · rfl
  -- The days a century is short of whole fours of years put at most one more into `q`.
  obtain ⟨q, hq⟩ : ∃ q, q = (24 * c + a + 365 * b + k) / 1460 := ⟨_, rfl⟩
  have hfourth : (36524 * c + r) / 1460 = 25 * c + a + q := by
    clear hk hlast hcentury hera
    rw [hq, hr, ← Nat.mul_add_div (by decide)]
    congr 1
    omega
  have hqk : q ≤ k ∧ k < 365 + q := by
    clear hfourth hera hcentury hlast hr
    rcases hk with hk | ⟨rfl, rfl, h⟩ <;> omega
  have hsum : 36524 * c + r - (25 * c + a + q) + (c + r / 36524) - r / 36524
      = 365 * (100 * c + 4 * a + b) + (k - q) := by
    clear hk hlast hcentury hera hfourth hq
    omega
  rw [← hr, yearOfEra, hcentury, hera, hfourth, hsum, Nat.mul_add_div (by decide),
    Nat.div_eq_of_lt (by omega)]
  rfl

/-- The day is one of the year it is put in. -/
theorem yearOfEra_spec {dayOfEra : ℕ} (h : dayOfEra < 146097) :
    yearOfEra dayOfEra < 400 ∧ yearStart (yearOfEra dayOfEra) ≤ dayOfEra ∧
      dayOfEra < yearStart (yearOfEra dayOfEra + 1) := by
  obtain ⟨c, a, b, k, hc, ha, hb, hk, rfl⟩ := exists_dayOfEra h
  rw [yearOfEra_eq hc ha hb hk, yearStart_succ]
  have hstart : yearStart (100 * c + 4 * a + b) = 36524 * c + 1461 * a + 365 * b := by
    clear hk h
    unfold yearStart
    omega
  have hlength : k < yearLength (100 * c + 4 * a + b) := by
    rcases hk with hk | ⟨rfl, rfl, hleap⟩
    · exact lt_of_lt_of_le hk (le_yearLength _)
    · have hleap' : Leap (100 * c + 4 * a + 3 + 1) := by
        unfold Leap
        omega
      rw [yearLength_of_leap hleap']
      decide
  rw [hstart]
  omega

/-- **No step overflows or underflows, and the date is the day's.** -/
theorem civilFromDays_eq {days : ℕ} (h : days + 719468 < u64Size) :
    ∃ date : Date, date.Numbered (days + 719468) ∧
      civilFromDays days = some (date.year, date.month, date.day) := by
  have hsize : u64Size = 18446744073709551616 := rfl
  have hadd : checkedAdd days 719468 = some (days + 719468) := checkedAdd_eq h
  rw [civilFromDays, hadd, Option.bind_eq_bind, Option.bind_some]
  -- The count from here on is a name: its literal is never computed with.
  obtain ⟨shifted, hshifted⟩ : ∃ shifted, days + 719468 = shifted := ⟨_, rfl⟩
  rw [hshifted] at h ⊢
  obtain ⟨era, hera⟩ : ∃ era, shifted / 146097 = era := ⟨_, rfl⟩
  obtain ⟨dayOfEra, hday⟩ : ∃ dayOfEra, shifted % 146097 = dayOfEra := ⟨_, rfl⟩
  have hlt : dayOfEra < 146097 := by omega
  obtain ⟨hyear, hstart, hend⟩ := yearOfEra_spec hlt
  obtain ⟨year, hyearOf⟩ : ∃ year, yearOfEra dayOfEra = year := ⟨_, rfl⟩
  rw [hyearOf] at hyear hstart hend
  obtain ⟨dayOfYear, hdayOfYear⟩ : ∃ dayOfYear, dayOfEra = yearStart year + dayOfYear :=
    Nat.exists_eq_add_of_le hstart
  have hstarts : yearStart year = 365 * year + year / 4 - year / 100 := by
    unfold yearStart
    omega
  have hwithin : dayOfYear < yearLength (year + era * 400) := by
    have hnext := yearStart_era era (year + 1)
    have hthis := yearStart_era era year
    rw [show year + 1 + era * 400 = year + era * 400 + 1 by omega, yearStart_succ] at hnext
    omega
  have hlength := yearLength_le (year + era * 400)
  refine ⟨ofMarch (year + era * 400) dayOfYear hwithin, ⟨_, _, hwithin, ?_, rfl⟩, ?_⟩
  · rw [yearStart_era]
    omega
  have hfourths : dayOfEra / 1460 ≤ dayOfEra := Nat.div_le_self _ _
  have hcenturies : dayOfEra / 146096 ≤ dayOfEra / 36524 :=
    Nat.div_le_div_left (by decide) (by decide)
  have hmonth := marchMonth_le hwithin
  have hmonthStart := (monthStart_le dayOfYear).1
  obtain ⟨month, hmonthOf⟩ : ∃ month, marchMonth dayOfYear = month := ⟨_, rfl⟩
  rw [hmonthOf] at hmonth hmonthStart
  -- One equation for each step that is checked, in the code's order.
  have hless : checkedSub dayOfEra (dayOfEra / 1460) = some (dayOfEra - dayOfEra / 1460) :=
    checkedSub_eq hfourths
  have hmore : checkedAdd (dayOfEra - dayOfEra / 1460) (dayOfEra / 36524)
      = some (dayOfEra - dayOfEra / 1460 + dayOfEra / 36524) := checkedAdd_eq (by omega)
  have hcommon : checkedSub (dayOfEra - dayOfEra / 1460 + dayOfEra / 36524) (dayOfEra / 146096)
      = some (dayOfEra - dayOfEra / 1460 + dayOfEra / 36524 - dayOfEra / 146096) :=
    checkedSub_eq (by omega)
  have hquotient : (dayOfEra - dayOfEra / 1460 + dayOfEra / 36524 - dayOfEra / 146096) / 365
      = year := hyearOf
  have hdays : checkedMul 365 year = some (365 * year) := checkedMul_eq (by omega)
  have hleap : checkedAdd (365 * year) (year / 4) = some (365 * year + year / 4) :=
    checkedAdd_eq (by omega)
  have hcentury : checkedSub (365 * year + year / 4) (year / 100) = some (yearStart year) := by
    rw [checkedSub_eq (by omega), hstarts]
  have hrest : checkedSub dayOfEra (yearStart year) = some dayOfYear := by
    rw [checkedSub_eq hstart, hdayOfYear, Nat.add_sub_cancel_left]
  have hfive : checkedMul 5 dayOfYear = some (5 * dayOfYear) := checkedMul_eq (by omega)
  have hfifths : checkedAdd (5 * dayOfYear) 2 = some (5 * dayOfYear + 2) :=
    checkedAdd_eq (by omega)
  have hmonthIs : (5 * dayOfYear + 2) / 153 = month := hmonthOf
  have hmonths : checkedMul 153 month = some (153 * month) := checkedMul_eq (by omega)
  have hmonths' : checkedAdd (153 * month) 2 = some (153 * month + 2) := checkedAdd_eq (by omega)
  have hdayOf : checkedSub dayOfYear ((153 * month + 2) / 5)
      = some (dayOfYear - monthStart month) := checkedSub_eq hmonthStart
  have hdayIs : checkedAdd (dayOfYear - monthStart month) 1
      = some (dayOfYear - monthStart month + 1) := checkedAdd_eq (by omega)
  have hcalendar : (if month < 10 then checkedAdd month 3 else checkedSub month 9)
      = some (monthOf month) := by
    unfold monthOf
    split_ifs
    · exact checkedAdd_eq (by omega)
    · exact checkedSub_eq (by omega)
  have hera' : checkedMul era 400 = some (era * 400) := checkedMul_eq (by omega)
  have hyears : checkedAdd year (era * 400) = some (year + era * 400) := checkedAdd_eq (by omega)
  have hyearIs : checkedAdd (year + era * 400) (if monthOf month ≤ 2 then 1 else 0)
      = some (yearOf (year + era * 400) month) := by
    unfold yearOf monthOf
    split_ifs <;> first | omega | exact checkedAdd_eq (by omega)
  rw [hera, hday]
  refine bind_of_eq hless (bind_of_eq hmore (bind_of_eq hcommon ?_))
  rw [hquotient]
  refine bind_of_eq hdays (bind_of_eq hleap (bind_of_eq hcentury (bind_of_eq hrest ?_)))
  refine bind_of_eq hfive (bind_of_eq hfifths ?_)
  rw [hmonthIs]
  refine bind_of_eq hmonths (bind_of_eq hmonths' (bind_of_eq hdayOf (bind_of_eq hdayIs ?_)))
  refine bind_of_eq hcalendar (bind_of_eq hera' (bind_of_eq hyears (bind_of_eq hyearIs ?_)))
  simp only [ofMarch, hmonthOf, Option.pure_def]

/-! ## The date of a timestamp -/

/-- The day the timestamps start on. -/
def epoch : Date :=
  ⟨1970, 1, 1, Nat.le_refl 1, Nat.le_of_ble_eq_true rfl, Nat.le_refl 1,
    Nat.le_of_ble_eq_true rfl⟩

theorem epoch_numbered : epoch.Numbered 719468 :=
  ⟨1969, 306, by decide, rfl, Date.ext rfl rfl rfl⟩

/-- A date as the code hands it on. -/
def parts (date : Date) : ℕ × ℕ × ℕ := (date.year, date.month, date.day)

theorem parts_injective : Function.Injective parts := by
  intro date date' h
  obtain ⟨hyear, hrest⟩ := Prod.mk.inj h
  obtain ⟨hmonth, hday⟩ := Prod.mk.inj hrest
  exact Date.ext hyear hmonth hday

/-- **The date is the one the calendar reaches from 1970-01-01.** -/
theorem civilFromDays_after {days : ℕ} (h : days + 719468 < u64Size) :
    civilFromDays days = some (parts (epoch.after days)) := by
  obtain ⟨date, hnumbered, hdate⟩ := civilFromDays_eq h
  have hepoch : (epoch.after days).Numbered (days + 719468) := by
    rw [Nat.add_comm]
    exact epoch_numbered.after days
  rw [hdate, hnumbered.unique hepoch, parts]

/-- The text of a date and a second of it. -/
def printed (date : Date) (seconds : ℕ) : String :=
  zeroPadded 4 date.year ++ "-" ++ zeroPadded 2 date.month ++ "-" ++ zeroPadded 2 date.day ++ "T"
    ++ zeroPadded 2 (seconds / 3600) ++ ":" ++ zeroPadded 2 (seconds % 3600 / 60) ++ ":"
    ++ zeroPadded 2 (seconds % 60) ++ "Z"

theorem days_lt {timestamp : ℕ} (h : timestamp < u64Size) :
    timestamp / 86400 + 719468 < u64Size := by
  have hsize : u64Size = 18446744073709551616 := rfl
  omega

theorem utcTimestamp_eq {timestamp : ℕ} (h : timestamp < u64Size) :
    utcTimestamp timestamp
      = some (printed (epoch.after (timestamp / 86400)) (timestamp % 86400)) := by
  rw [utcTimestamp, civilFromDays_after (days_lt h), parts]
  rfl

/-- A text tells its date and its second. -/
theorem printed_inj {date date' : Date} {seconds seconds' : ℕ}
    (h : printed date seconds = printed date' seconds') : date = date' ∧ seconds = seconds' := by
  have hlist := congrArg String.toList h
  simp only [printed, zeroPadded, String.toList_append, String.toList_ofList,
    List.append_assoc] at hlist
  obtain ⟨hyear, hlist⟩ := Decimal.pad_append_cons_inj (by decide) hlist
  obtain ⟨hmonth, hlist⟩ := Decimal.pad_append_cons_inj (by decide) hlist
  obtain ⟨hday, hlist⟩ := Decimal.pad_append_cons_inj (by decide) hlist
  obtain ⟨hhour, hlist⟩ := Decimal.pad_append_cons_inj (by decide) hlist
  obtain ⟨hminute, hlist⟩ := Decimal.pad_append_cons_inj (by decide) hlist
  obtain ⟨hsecond, -⟩ := Decimal.pad_append_cons_inj (by decide) hlist
  exact ⟨Date.ext hyear hmonth hday, by omega⟩

/-- **Audit timestamps are the true UTC instant.** No step of either function
fails for any 64-bit timestamp; the days are the calendar's dates from
1970-01-01 on, one after the other; a text is its date and the time in it, a
later timestamp's date is later or the same with a later second, and no two
timestamps share a text. -/
theorem utcTimestamp_instant :
    civilFromDays 0 = some (1970, 1, 1) ∧
    (∀ days, days + 719468 < u64Size →
      ∃ date : Date, civilFromDays days = some (date.year, date.month, date.day)) ∧
    (∀ days, days + 1 + 719468 < u64Size → ∀ date : Date,
      civilFromDays days = some (date.year, date.month, date.day) →
      civilFromDays (days + 1) = some (date.next.year, date.next.month, date.next.day)) ∧
    (∀ timestamp < u64Size, ∃ date : Date,
      civilFromDays (timestamp / 86400) = some (date.year, date.month, date.day) ∧
      utcTimestamp timestamp = some (printed date (timestamp % 86400))) ∧
    ∀ timestamp < u64Size, ∀ later < u64Size, timestamp < later →
      utcTimestamp timestamp ≠ utcTimestamp later ∧
      ∃ date date' : Date,
        civilFromDays (timestamp / 86400) = some (date.year, date.month, date.day) ∧
        civilFromDays (later / 86400) = some (date'.year, date'.month, date'.day) ∧
        (date < date' ∨ date = date' ∧ timestamp % 86400 < later % 86400) := by
  refine ⟨?_, ?_, ?_, ?_, ?_⟩
  · exact civilFromDays_after (by decide)
  · intro days h
    exact ⟨_, civilFromDays_after h⟩
  · intro days h date hdate
    have hthis : parts date = parts (epoch.after days) :=
      Option.some.inj (hdate.symm.trans (civilFromDays_after (by omega)))
    have heq : date = epoch.after days := parts_injective hthis
    rw [civilFromDays_after h, Date.after_succ, ← heq, parts]
  · intro timestamp h
    exact ⟨_, civilFromDays_after (days_lt h), utcTimestamp_eq h⟩
  · intro timestamp h later hlater hlt
    refine ⟨?_, _, _, civilFromDays_after (days_lt h), civilFromDays_after (days_lt hlater), ?_⟩
    · intro heq
      rw [utcTimestamp_eq h, utcTimestamp_eq hlater] at heq
      obtain ⟨hdate, hseconds⟩ := printed_inj (Option.some.inj heq)
      have hdays := epoch.after_strictMono.injective hdate
      omega
    · rcases Nat.lt_or_ge (timestamp / 86400) (later / 86400) with hdays | hdays
      · exact .inl (epoch.after_strictMono hdays)
      · have hsame : timestamp / 86400 = later / 86400 := by omega
        exact .inr ⟨by rw [hsame], by omega⟩

end Dependaboard.Ui
