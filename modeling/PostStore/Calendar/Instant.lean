import PostStore.Calendar.Date
/-!
# Instants

A point of the UTC time line with nanosecond resolution: whole seconds since 1970 and a fraction.
A leap second shares its whole second with the one before it and has a fraction of a second or more.
The time line reaches from the year -262143 to the year 262142.

An instant made by hand may have a leap second anywhere.  Where a leap second ends a minute, as in
all that is read from a text or from a clock, the instant is regular.
-/

namespace PostStore

/-- The first whole second of the time line. -/
def Instant.firstSecond : Int := -8334601228800

/-- The last whole second of the time line. -/
def Instant.lastSecond : Int := 8210266876799

/-- A point of the UTC time line; nothing is asked of the second in which a leap second runs. -/
structure Instant where
  seconds : Int
  nanos : Nat
  bounded : Instant.firstSecond ≤ seconds ∧ seconds ≤ Instant.lastSecond
  fine : nanos < 2000000000
  deriving DecidableEq

namespace Instant

/-! ## Construction -/

/-- The instant with the given parts, if the time line has it. -/
def ofParts? (seconds : Int) (nanos : Nat) : Option Instant :=
  if h : (firstSecond ≤ seconds ∧ seconds ≤ lastSecond) ∧ nanos < 2000000000 then
    some ⟨seconds, nanos, h.1, h.2⟩
  else none

/-- The start of 1970. -/
def epoch : Instant := ⟨0, 0, by decide, by decide⟩

instance : Inhabited Instant := ⟨epoch⟩

/-- Every instant is made of its parts. -/
theorem ofParts?_parts (t : Instant) : ofParts? t.seconds t.nanos = some t := by
  unfold ofParts?
  rw [dif_pos ⟨t.bounded, t.fine⟩]

/-- An instant that is made of parts has those parts. -/
theorem ofParts?_eq_some {seconds : Int} {nanos : Nat} {t : Instant}
    (h : ofParts? seconds nanos = some t) : t.seconds = seconds ∧ t.nanos = nanos := by
  unfold ofParts? at h
  split at h
  · cases h
    exact ⟨rfl, rfl⟩
  · cases h

/-! ## Leap seconds -/

/-- A leap second, if one runs, ends a minute. -/
def Regular (t : Instant) : Prop := 1000000000 ≤ t.nanos → t.seconds % 60 = 59

instance (t : Instant) : Decidable t.Regular := by unfold Regular; infer_instance

/-- Nothing is irregular where no leap second runs. -/
theorem regular_of_lt {t : Instant} (small : t.nanos < 1000000000) : t.Regular :=
  fun leap => absurd small (Nat.not_lt.2 leap)

/-! ## Order -/

instance : LT Instant where
  lt a b := a.seconds < b.seconds ∨ (a.seconds = b.seconds ∧ a.nanos < b.nanos)

instance : LE Instant where
  le a b := a.seconds < b.seconds ∨ (a.seconds = b.seconds ∧ a.nanos ≤ b.nanos)

instance (a b : Instant) : Decidable (a < b) :=
  inferInstanceAs (Decidable (a.seconds < b.seconds ∨ (a.seconds = b.seconds ∧ a.nanos < b.nanos)))

instance (a b : Instant) : Decidable (a ≤ b) :=
  inferInstanceAs (Decidable (a.seconds < b.seconds ∨ (a.seconds = b.seconds ∧ a.nanos ≤ b.nanos)))

/-- What it means for one instant to come before another. -/
theorem lt_def {a b : Instant} :
    a < b ↔ a.seconds < b.seconds ∨ (a.seconds = b.seconds ∧ a.nanos < b.nanos) := Iff.rfl

/-- What it means for one instant not to come after another. -/
theorem le_def {a b : Instant} :
    a ≤ b ↔ a.seconds < b.seconds ∨ (a.seconds = b.seconds ∧ a.nanos ≤ b.nanos) := Iff.rfl

/-- Of two instants, one comes before the other unless they are the same or the other way round. -/
theorem not_lt {a b : Instant} : ¬ a < b ↔ b ≤ a := by
  rw [lt_def, le_def]; omega

/-! ## Microseconds -/

/-- The instant without the digits below a microsecond. -/
def truncateToMicros (t : Instant) : Instant :=
  ⟨t.seconds, t.nanos - t.nanos % 1000, t.bounded, by have := t.fine; omega⟩

/-- Whether the instant is a whole number of microseconds. -/
def WholeMicros (t : Instant) : Prop := t.nanos % 1000 = 0

instance (t : Instant) : Decidable t.WholeMicros := by unfold WholeMicros; infer_instance

/-- A truncated instant is a whole number of microseconds. -/
theorem wholeMicros_truncateToMicros (t : Instant) : t.truncateToMicros.WholeMicros := by
  simp only [WholeMicros, truncateToMicros]; omega

/-- A truncated instant has its leap second where it was. -/
theorem Regular.truncateToMicros {t : Instant} (regular : t.Regular) :
    t.truncateToMicros.Regular :=
  fun leap => regular (Nat.le_trans leap (Nat.sub_le _ _))

/-- The instant one microsecond later.  A leap second is left for the start of the next second. -/
def addMicro? (t : Instant) : Option Instant :=
  let nanos := t.nanos + 1000
  if t.nanos < 1000000000 then
    if nanos < 1000000000 then ofParts? t.seconds nanos
    else ofParts? (t.seconds + 1) (nanos - 1000000000)
  else
    if nanos < 2000000000 then ofParts? t.seconds nanos
    else ofParts? (t.seconds + 1) (nanos - 2000000000)

/-- The time of a change made at clock reading `clock` to something last changed at `previous`: the
clock reading in whole microseconds, but at least a microsecond after `previous`.  There is none
when the time line ends before. -/
def next? (previous clock : Instant) : Option Instant :=
  previous.addMicro?.map fun floor =>
    if floor < clock.truncateToMicros then clock.truncateToMicros else floor

/-- What comes a microsecond after a regular instant is regular. -/
theorem Regular.addMicro? {t later : Instant} (regular : t.Regular)
    (h : t.addMicro? = some later) : later.Regular := by
  intro leap
  simp only [Instant.addMicro?] at h
  have fine := t.fine
  split at h
  · split at h <;> obtain ⟨seconds, nanos⟩ := ofParts?_eq_some h <;> omega
  · rename_i running
    have last := regular (Nat.not_lt.1 running)
    split at h <;> obtain ⟨seconds, nanos⟩ := ofParts?_eq_some h <;> omega

/-- A change of what was regular at a regular reading is regular. -/
theorem Regular.next? {previous clock t : Instant} (before : previous.Regular)
    (reading : clock.Regular) (h : previous.next? clock = some t) : t.Regular := by
  obtain ⟨floor, later, rfl⟩ := Option.map_eq_some_iff.1 h
  split
  · exact reading.truncateToMicros
  · exact before.addMicro? later

/-- Microseconds since 1970, without the digits below. -/
def toMicros (t : Instant) : Int := t.seconds * 1000000 + t.nanos / 1000

/-- The instant a number of microseconds after 1970, if the time line has it. -/
def ofMicros? (micros : Int) : Option Instant :=
  ofParts? (micros / 1000000) ((micros % 1000000).toNat * 1000)

/-- No leap second runs at a number of microseconds after 1970. -/
theorem regular_of_ofMicros? {micros : Int} {t : Instant} (h : ofMicros? micros = some t) :
    t.Regular := by
  refine regular_of_lt ?_
  rw [(ofParts?_eq_some h).2]
  omega

/-! ## Dates -/

/-- The date of an instant. -/
def date (t : Instant) : Date := Date.ofDays (t.seconds / 86400)

/-- The whole seconds passed since midnight. -/
def secondOfDay (t : Instant) : Nat := (t.seconds % 86400).toNat

end Instant

/-! ## Clocks -/

/-- What a clock reads. -/
structure ClockReading extends Instant where
  regular : toInstant.Regular
  deriving DecidableEq

namespace ClockReading

instance : Coe ClockReading Instant := ⟨toInstant⟩

/-- A clock that stands at the start of 1970. -/
def epoch : ClockReading := ⟨.epoch, by decide⟩

instance : Inhabited ClockReading := ⟨epoch⟩

/-- The reading a number of microseconds after 1970, if the time line has it. -/
def ofMicros? (micros : Int) : Option ClockReading :=
  match h : Instant.ofMicros? micros with
  | some t => some ⟨t, Instant.regular_of_ofMicros? h⟩
  | none => none

/-- A reading that has been found is the instant there. -/
theorem ofMicros?_eq_some {micros : Int} {clock : ClockReading}
    (h : ofMicros? micros = some clock) : Instant.ofMicros? micros = some clock := by
  unfold ofMicros? at h
  split at h
  · rename_i there
    cases h
    exact there
  · cases h

end ClockReading

end PostStore
