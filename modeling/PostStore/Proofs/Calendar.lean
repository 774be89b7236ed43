import PostStore.Calendar.Date
/-!
# Counting days there and back

The date with a day number has that number, exists in the calendar, and lies in a year that is told
by the number.
-/

namespace PostStore

namespace Date

/-! ## Months -/

/-- The month that holds a day of a year: the days before it, and the days up to its end. -/
theorem monthOfDay_spec (lengths : List Nat) :
    ∀ first day : Nat, day < lengths.foldr (· + ·) 0 →
      ∃ place, ∃ h : place < lengths.length,
        (monthOfDay first lengths day).1 = first + place ∧
        (lengths.take place).foldr (· + ·) 0 + (monthOfDay first lengths day).2 = day + 1 ∧
        1 ≤ (monthOfDay first lengths day).2 ∧
        (monthOfDay first lengths day).2 ≤ lengths[place] := by
  induction lengths with
  | nil => exact fun _ _ h => absurd h (Nat.not_lt_zero _)
  | cons length rest ih =>
    intro first day h
    rw [List.foldr_cons] at h
    rw [monthOfDay]
    by_cases here : day < length
    · rw [if_pos here]
      refine ⟨0, Nat.zero_lt_succ _, rfl, ?_, by omega, here⟩
      simp
    · rw [if_neg here]
      obtain ⟨place, bound, month, before, low, high⟩ := ih (first + 1)
        (day - length) (by omega)
      refine ⟨place + 1, Nat.succ_lt_succ bound, by omega, ?_, low, high⟩
      rw [List.take_succ_cons, List.foldr_cons]
      omega

/-- The days of the twelve months. -/
theorem sum_monthLengths (leap : Bool) :
    (monthLengths leap).foldr (· + ·) 0 = if leap then 366 else 365 := by
  cases leap <;> rfl

theorem le_of_mem_monthLengths {leap : Bool} {length : Nat} (h : length ∈ monthLengths leap) :
    length ≤ 31 := by
  revert length
  cases leap <;> decide

/-- A date of the calendar has one of twelve months and one of at most 31 days. -/
theorem Valid.bounds {date : Date} (valid : date.Valid) :
    (1 ≤ date.month ∧ date.month ≤ 12) ∧ 1 ≤ date.day ∧ date.day ≤ 31 := by
  obtain ⟨first, last⟩ := valid
  unfold daysInMonth at last
  split at last
  · omega
  · rw [List.getD_eq_getElem?_getD] at last
    cases found : (monthLengths (isLeap date.year))[date.month - 1]? with
    | none =>
      rw [found, Option.getD_none] at last
      omega
    | some length =>
      rw [found, Option.getD_some] at last
      have short := le_of_mem_monthLengths (List.mem_of_getElem? found)
      have place := (List.getElem?_eq_some_iff.1 found).1
      have twelve : (monthLengths (isLeap date.year)).length = 12 := rfl
      omega

/-! ## Years -/

/-- A day of a cycle by centuries, spans of four years, years and days: a year has a day more when
it is the last of four, unless it ends one of the first three centuries. -/
theorem yearOfCycle_spec {day : Nat} (h : day < 146097) :
    ∃ century quad year, yearOfCycle day =
        (100 * century + 4 * quad + year, day - 36524 * century - 1461 * quad - 365 * year) ∧
      century ≤ 3 ∧ quad ≤ 24 ∧ year ≤ 3 ∧
      36524 * century + 1461 * quad + 365 * year ≤ day ∧
      (day ≤ 36524 * century + 1461 * quad + 365 * year + 364 ∨
        day = 36524 * century + 1461 * quad + 365 * year + 365 ∧ year = 3 ∧
          (quad = 24 → century = 3)) := by
  -- the last century of a cycle is a day longer than the others
  have inCentury : day - 36524 * min 3 (day / 36524) ≤ 36524 := by omega
  have short : min 3 (day / 36524) < 3 → day - 36524 * min 3 (day / 36524) < 36524 := by omega
  have before : 36524 * min 3 (day / 36524) ≤ day := by omega
  refine ⟨min 3 (day / 36524), (day - 36524 * min 3 (day / 36524)) / 1461,
    min 3 ((day - 36524 * min 3 (day / 36524)) % 1461 / 365), ?_, Nat.min_le_left _ _, ?_,
    Nat.min_le_left _ _, ?_, ?_⟩
  · simp only [yearOfCycle]
    congr 1
    omega
  · omega
  · omega
  · omega

/-- The days before a year of a cycle. -/
theorem daysBeforeYear_cycle (cycle : Int) {century quad year : Nat} (hc : century ≤ 3)
    (hq : quad ≤ 24) (hy : year ≤ 3) :
    daysBeforeYear (400 * cycle + (100 * century + 4 * quad + year : Nat) + 1) =
      146097 * cycle + (36524 * century + 1461 * quad + 365 * year : Nat) := by
  unfold daysBeforeYear
  omega

/-- Whether a year of a cycle is a leap year. -/
theorem isLeap_cycle (cycle : Int) {century quad year : Nat} (hc : century ≤ 3)
    (hq : quad ≤ 24) (hy : year ≤ 3) :
    isLeap (400 * cycle + (100 * century + 4 * quad + year : Nat) + 1) = true ↔
      year = 3 ∧ (quad = 24 → century = 3) := by
  simp only [isLeap, Bool.and_eq_true, Bool.or_eq_true, decide_eq_true_eq, ne_eq]
  omega

/-! ## Dates -/

/-- **The date with a day number exists in the calendar and has that number,** and the number is
that of a day of its year. -/
theorem ofDays_spec (days : Int) :
    (ofDays days).Valid ∧ (ofDays days).toDays = days ∧
      daysBeforeYear (ofDays days).year ≤ days + epochDay ∧
      days + epochDay ≤ daysBeforeYear (ofDays days).year + 365 := by
  -- the calendar repeats itself every 400 years
  have day : ((days + epochDay) % 146097).toNat < 146097 := by omega
  obtain ⟨century, quad, year, split, hc, hq, hy, before, within⟩ := yearOfCycle_spec day
  have start := daysBeforeYear_cycle ((days + epochDay) / 146097) hc hq hy
  have leap := isLeap_cycle ((days + epochDay) / 146097) hc hq hy
  simp only [ofDays, split]
  generalize 400 * ((days + epochDay) / 146097) +
    ((100 * century + 4 * quad + year : Nat) : Int) + 1 = inYear at start leap ⊢
  -- the day falls within the year, so walking its months ends in one of them
  have short : ((days + epochDay) % 146097).toNat - 36524 * century - 1461 * quad - 365 * year <
      (monthLengths (isLeap inYear)).foldr (· + ·) 0 := by
    rw [sum_monthLengths]
    by_cases long : isLeap inYear = true
    · rw [if_pos long]
      omega
    · rw [if_neg long]
      have common := mt leap.2 long
      omega
  obtain ⟨place, bound, month, sum, low, high⟩ := monthOfDay_spec _ 1 _ short
  rw [month]
  refine ⟨⟨low, ?_⟩, ?_, by omega, by omega⟩
  · have real : 1 + place ≠ 0 := by omega
    rw [daysInMonth, if_neg real, Nat.add_sub_cancel_left, List.getD_eq_getElem?_getD,
      List.getElem?_eq_getElem bound]
    exact high
  · simp only [toDays, daysBeforeMonth, Nat.add_sub_cancel_left, start]
    unfold epochDay at *
    omega

/-- A later year starts no earlier. -/
theorem daysBeforeYear_mono {year year' : Int} (h : year ≤ year') :
    daysBeforeYear year ≤ daysBeforeYear year' := by
  have quads : (year - 1) / 4 ≤ (year' - 1) / 4 := Int.ediv_le_ediv (by omega) (by omega)
  have cycles : (year - 1) / 400 ≤ (year' - 1) / 400 := Int.ediv_le_ediv (by omega) (by omega)
  unfold daysBeforeYear
  omega

/-- The days of the time line lie in its years. -/
theorem year_ofDays_bounds {days : Int} (low : -96465292 ≤ days) (high : days ≤ 95026236) :
    -262143 ≤ (ofDays days).year ∧ (ofDays days).year ≤ 262142 := by
  obtain ⟨_, _, first, last⟩ := ofDays_spec days
  have before : daysBeforeYear (-262144) + 365 < -96465292 + epochDay := by decide
  have after : 95026236 + epochDay < daysBeforeYear 262143 := by decide
  constructor
  · by_cases h : (ofDays days).year ≤ -262144
    · have := daysBeforeYear_mono h
      omega
    · omega
  · by_cases h : 262143 ≤ (ofDays days).year
    · have := daysBeforeYear_mono h
      omega
    · omega

end Date

end PostStore
