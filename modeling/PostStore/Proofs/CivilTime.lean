import Mathlib.Algebra.Order.BigOperators.Group.List
import Mathlib.Algebra.Order.SuccPred
import Mathlib.Data.Int.SuccPred
import Mathlib.Tactic.IntervalCases
import PostStore.Calendar.Instant
import PostStore.Proofs.Calendar
/-!
# Calendar and clock

An instant as calendar and clock show it: a date, the seconds since midnight, and the fraction of
the second.  Days in succession have dates in succession, and a microsecond moves the clock on with
carries into the second, the day, the month and the year.  The end of a leap second is a carry too.
-/

namespace PostStore

/-! ## Days in succession -/

namespace Date

/-- The date of the day after: the next of the month, the first of the next month, or the first of
the next year. -/
def next (date : Date) : Date :=
  if date.day < daysInMonth date.year date.month then ⟨date.year, date.month, date.day + 1⟩
  else if date.month < 12 then ⟨date.year, date.month + 1, 1⟩
  else ⟨date.year + 1, 1, 1⟩

/-- The days of a year are those before the month after December. -/
theorem daysBeforeYear_succ (year : Int) :
    daysBeforeYear (year + 1) = daysBeforeYear year + daysBeforeMonth (isLeap year) 13 := by
  have leap : isLeap year = true ↔ year % 4 = 0 ∧ (year % 100 ≠ 0 ∨ year % 400 = 0) := by
    simp only [isLeap, Bool.and_eq_true, Bool.or_eq_true, decide_eq_true_eq]
  have length : daysBeforeMonth (isLeap year) 13 = if isLeap year = true then 366 else 365 := by
    cases isLeap year <;> rfl
  rw [length]
  simp only [daysBeforeYear, Int.add_sub_cancel, leap]
  split <;> omega

theorem monotone_daysBeforeMonth (leap : Bool) : Monotone (daysBeforeMonth leap) :=
  fun _ _ h => (monthLengths leap).monotone_sum_take (Nat.sub_le_sub_right h 1)

/-- The days before a month and those of the month are the days before the next. -/
theorem daysBeforeMonth_succ (year : Int) {month : Nat} (low : 1 ≤ month) (high : month ≤ 12) :
    daysBeforeMonth (isLeap year) (month + 1) =
      daysBeforeMonth (isLeap year) month + daysInMonth year month := by
  unfold daysInMonth
  interval_cases month <;> cases isLeap year <;> rfl

theorem one_le_daysInMonth (year : Int) {month : Nat} (low : 1 ≤ month) (high : month ≤ 12) :
    1 ≤ daysInMonth year month := by
  unfold daysInMonth
  interval_cases month <;> cases isLeap year <;> decide

theorem valid_next (date : Date) : date.next.Valid := by
  unfold Date.next
  split
  case isTrue within => exact ⟨Nat.le_add_left 1 date.day, within⟩
  split
  case isTrue before =>
    exact ⟨Nat.le_refl 1, one_le_daysInMonth date.year (Nat.le_add_left 1 date.month) before⟩
  case isFalse =>
    have january : 1 ≤ 1 ∧ 1 ≤ 12 := by decide
    exact ⟨Nat.le_refl 1, one_le_daysInMonth (date.year + 1) january.1 january.2⟩

theorem toDays_next {date : Date} (valid : date.Valid) : date.next.toDays = date.toDays + 1 := by
  obtain ⟨⟨low, high⟩, -⟩ := valid.bounds
  have nextMonth := daysBeforeMonth_succ date.year low high
  have lastDay := valid.2
  unfold Date.next
  split
  case isTrue within =>
    simp only [toDays]
    omega
  case isFalse ended =>
    split
    case isTrue before =>
      simp only [toDays]
      omega
    case isFalse =>
      have december : date.month = 12 := by omega
      have nextYear := daysBeforeYear_succ date.year
      have first : daysBeforeMonth (isLeap (date.year + 1)) 1 = 0 := rfl
      rw [december] at nextMonth ended lastDay
      change daysBeforeMonth _ 13 = _ at nextMonth
      simp only [toDays, first, december]
      omega

/-- Spans that follow one another have nothing in common. -/
theorem eq_of_between {α : Type} [LinearOrder α] [Add α] [One α] [SuccAddOrder α] {f : α → Int}
    (mono : ∀ ⦃a b : α⦄, a ≤ b → f a ≤ f b) {a b : α} {x : Int} (la : f a ≤ x)
    (ha : x < f (a + 1)) (lb : f b ≤ x) (hb : x < f (b + 1)) : a = b := by
  rcases lt_trichotomy a b with before | same | after
  · have := mono (Order.add_one_le_of_lt before)
    omega
  · exact same
  · have := mono (Order.add_one_le_of_lt after)
    omega

/-- The day of a date lies in its month, and the month in its year. -/
theorem Valid.between {date : Date} (valid : date.Valid) :
    (daysBeforeYear date.year ≤ date.toDays + epochDay ∧
      date.toDays + epochDay < daysBeforeYear (date.year + 1)) ∧
    (daysBeforeMonth (isLeap date.year) date.month : Int) ≤
        date.toDays + epochDay - daysBeforeYear date.year ∧
      date.toDays + epochDay - daysBeforeYear date.year <
        daysBeforeMonth (isLeap date.year) (date.month + 1) := by
  obtain ⟨⟨low, high⟩, first, -⟩ := valid.bounds
  have nextMonth := daysBeforeMonth_succ date.year low high
  have nextYear := daysBeforeYear_succ date.year
  have rest : daysBeforeMonth (isLeap date.year) (date.month + 1) ≤
      daysBeforeMonth (isLeap date.year) 13 :=
    monotone_daysBeforeMonth (isLeap date.year) (Nat.add_le_add_right high 1)
  have lastDay := valid.2
  unfold toDays
  omega

/-- No two dates of the calendar have one day number. -/
theorem eq_of_toDays_eq {date date' : Date} (valid : date.Valid) (valid' : date'.Valid)
    (same : date.toDays = date'.toDays) : date = date' := by
  obtain ⟨⟨startYear, endYear⟩, startMonth, endMonth⟩ := valid.between
  obtain ⟨⟨startYear', endYear'⟩, startMonth', endMonth'⟩ := valid'.between
  have first := valid.bounds.2.1
  have first' := valid'.bounds.2.1
  obtain ⟨year, month, day⟩ := date
  obtain ⟨year', month', day'⟩ := date'
  rw [← same] at startYear' endYear' startMonth' endMonth'
  obtain rfl : year = year' :=
    eq_of_between (fun _ _ => daysBeforeYear_mono) startYear endYear startYear' endYear'
  have months ⦃m n : Nat⦄ (h : m ≤ n) :
      (daysBeforeMonth (isLeap year) m : Int) ≤ daysBeforeMonth (isLeap year) n :=
    Int.ofNat_le.2 (monotone_daysBeforeMonth (isLeap year) h)
  obtain rfl : month = month' := eq_of_between months startMonth endMonth startMonth' endMonth'
  simp only [toDays] at same first first'
  obtain rfl : day = day' := by omega
  rfl

/-- **Days in succession have dates in succession.** -/
theorem ofDays_add_one (days : Int) : ofDays (days + 1) = (ofDays days).next := by
  obtain ⟨valid, number, -⟩ := ofDays_spec days
  obtain ⟨valid', number', -⟩ := ofDays_spec (days + 1)
  refine eq_of_toDays_eq valid' (valid_next _) ?_
  rw [number', toDays_next valid, number]

theorem ofDays_injective : Function.Injective ofDays := fun days days' same => by
  rw [← (ofDays_spec days).2.1, same, (ofDays_spec days').2.1]

end Date

/-! ## The clock -/

/-- What calendar and clock show: the date, the whole seconds since midnight and the nanoseconds of
the second, a second or more of them in a leap second. -/
structure Civil where
  date : Date
  second : Nat
  nanos : Nat
  deriving DecidableEq

namespace Civil

/-- What is shown at so many seconds after the start of 1970. -/
def ofParts (seconds : Int) (nanos : Nat) : Civil :=
  ⟨Date.ofDays (seconds / 86400), (seconds % 86400).toNat, nanos⟩

/-- Where the second ends of which so many nanoseconds are shown. -/
def secondEnd (nanos : Nat) : Nat := if nanos < 1000000000 then 1000000000 else 2000000000

/-- What is shown a microsecond later: what is past the end of the second is carried over to the
next, and past midnight to the next day. -/
def tick (shown : Civil) : Civil :=
  if shown.nanos + 1000 < secondEnd shown.nanos then ⟨shown.date, shown.second, shown.nanos + 1000⟩
  else if shown.second < 86399 then
    ⟨shown.date, shown.second + 1, shown.nanos + 1000 - secondEnd shown.nanos⟩
  else ⟨shown.date.next, 0, shown.nanos + 1000 - secondEnd shown.nanos⟩

theorem ofParts_inj {seconds seconds' : Int} {nanos nanos' : Nat} :
    ofParts seconds nanos = ofParts seconds' nanos' ↔ seconds = seconds' ∧ nanos = nanos' := by
  refine ⟨fun same => ?_, fun ⟨first, second⟩ => by rw [first, second]⟩
  obtain ⟨days, second, fraction⟩ := Civil.mk.inj same
  have day := Date.ofDays_injective days
  exact ⟨by omega, fraction⟩

/-- The clock moves on to the next second, or at midnight to the next day. -/
theorem ofParts_add_one (seconds : Int) (nanos : Nat) :
    ofParts (seconds + 1) nanos =
      if (seconds % 86400).toNat < 86399 then
        ⟨Date.ofDays (seconds / 86400), (seconds % 86400).toNat + 1, nanos⟩
      else ⟨(Date.ofDays (seconds / 86400)).next, 0, nanos⟩ := by
  unfold ofParts
  split
  case isTrue before =>
    have day : (seconds + 1) / 86400 = seconds / 86400 := by omega
    have second : ((seconds + 1) % 86400).toNat = (seconds % 86400).toNat + 1 := by omega
    rw [day, second]
  case isFalse midnight =>
    have day : (seconds + 1) / 86400 = seconds / 86400 + 1 := by omega
    have second : ((seconds + 1) % 86400).toNat = 0 := by omega
    rw [day, second, Date.ofDays_add_one]

theorem tick_ofParts (seconds : Int) (nanos : Nat) :
    (ofParts seconds nanos).tick =
      if nanos + 1000 < secondEnd nanos then ofParts seconds (nanos + 1000)
      else ofParts (seconds + 1) (nanos + 1000 - secondEnd nanos) := by
  rw [ofParts_add_one]
  rfl

end Civil

namespace Instant

/-- What calendar and clock show at an instant. -/
def civil (t : Instant) : Civil := ⟨t.date, t.secondOfDay, t.nanos⟩

theorem civil_eq_ofParts (t : Instant) : t.civil = Civil.ofParts t.seconds t.nanos := rfl

/-- Calendar and clock show no two instants alike. -/
theorem civil_injective : Function.Injective civil := fun t u same => by
  obtain ⟨seconds, nanos⟩ := Civil.ofParts_inj.1 same
  cases t
  cases u
  simp_all

theorem ofParts?_eq_some_iff {seconds : Int} {nanos : Nat} {t : Instant} :
    ofParts? seconds nanos = some t ↔ t.seconds = seconds ∧ t.nanos = nanos :=
  ⟨ofParts?_eq_some, fun ⟨first, second⟩ => first ▸ second ▸ t.ofParts?_parts⟩

theorem addMicro?_eq (t : Instant) :
    t.addMicro? =
      if t.nanos + 1000 < Civil.secondEnd t.nanos then ofParts? t.seconds (t.nanos + 1000)
      else ofParts? (t.seconds + 1) (t.nanos + 1000 - Civil.secondEnd t.nanos) := by
  unfold addMicro? Civil.secondEnd
  split <;> rfl

/-- **The instant a microsecond later is the one at which the clock shows a microsecond more.** -/
theorem addMicro?_eq_some_iff {t later : Instant} :
    t.addMicro? = some later ↔ later.civil = t.civil.tick := by
  rw [addMicro?_eq, civil_eq_ofParts, civil_eq_ofParts, Civil.tick_ofParts]
  split <;> rw [ofParts?_eq_some_iff, Civil.ofParts_inj]

end Instant

end PostStore
