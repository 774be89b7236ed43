import Mathlib.Algebra.Group.Nat.Defs
import Mathlib.Data.List.Nodup
import PostStore.Fixture
import PostStore.Post.Supply
/-!
# Users of their own

A check makes its users of a label and an identifier that was not used before.  Identifiers are
lower-case hexadecimal numbers, and so the identifier can be told from the name of the user,
whatever the label is.  Users that are made of different identifiers are different, and none of them
was there before when the identifiers are not part of the name of any user who was.
-/

namespace PostStore

/-! ## The identifier in the name of a user -/

/-- Whether a character is a digit of a hexadecimal number in lower case. -/
def lowerHex (c : Char) : Bool := ('0' ≤ c && c ≤ '9') || ('a' ≤ c && c ≤ 'f')

/-- Whether an identifier is a hexadecimal number in lower case. -/
structure IsHexId (id : String) : Prop where
  nonempty : id.toList ≠ []
  digits : ∀ c ∈ id.toList, lowerHex c = true

/-- The digits of the last hexadecimal number in a text. -/
def lastHex (text : List Char) : List Char :=
  ((text.reverse.dropWhile fun c => !lowerHex c).takeWhile lowerHex).reverse

/-- The last number is part of the text. -/
theorem lastHex_isInfix (text : List Char) : lastHex text <:+: text := by
  have part : (text.reverse.dropWhile fun c => !lowerHex c).takeWhile lowerHex <:+: text.reverse :=
    (List.takeWhile_prefix lowerHex).isInfix.trans (List.dropWhile_suffix _).isInfix
  have turned := List.reverse_infix.2 part
  rwa [List.reverse_reverse] at turned

/-- A number behind a dash is the last one, unless there are other digits behind it. -/
theorem lastHex_append {front digits back : List Char} (nonempty : digits ≠ [])
    (all : ∀ c ∈ digits, lowerHex c = true) (plain : ∀ c ∈ back, lowerHex c = false) :
    lastHex (front ++ '-' :: (digits ++ back)) = digits := by
  have turned : (front ++ '-' :: (digits ++ back)).reverse =
      back.reverse ++ (digits.reverse ++ '-' :: front.reverse) := by
    simp only [List.reverse_append, List.reverse_cons, List.append_assoc, List.cons_append,
      List.nil_append]
  have dropped : (back.reverse ++ (digits.reverse ++ '-' :: front.reverse)).dropWhile
      (fun c => !lowerHex c) = digits.reverse ++ '-' :: front.reverse := by
    rw [List.dropWhile_append_of_pos fun c member => by
      rw [plain c (List.mem_reverse.1 member), Bool.not_false]]
    obtain ⟨last, others, eq⟩ := List.exists_cons_of_ne_nil (mt List.reverse_eq_nil_iff.1 nonempty)
    have digit : lowerHex last = true := all last (List.mem_reverse.1 (eq ▸ List.mem_cons_self))
    rw [eq, List.cons_append, List.dropWhile_cons_of_neg (by rw [digit]; decide)]
  have taken : (digits.reverse ++ '-' :: front.reverse).takeWhile lowerHex = digits.reverse := by
    rw [List.takeWhile_append_of_pos fun c member => all c (List.mem_reverse.1 member),
      List.takeWhile_cons_of_neg (by decide), List.append_nil]
  rw [lastHex, turned, dropped, taken, List.reverse_reverse]

/-- The identifier that a user was made of is the last number in the name, also when more is added
to the name that is no digit. -/
theorem lastHex_user {label id : String} (hex : IsHexId id) {back : String}
    (plain : ∀ c ∈ back.toList, lowerHex c = false) :
    lastHex (Fixture.user label id ++ back).toList = id.toList := by
  have spelled : (Fixture.user label id ++ back).toList =
      label.toList ++ '-' :: (id.toList ++ back.toList) := by
    rw [Fixture.user, String.toList_append, String.toList_append, String.toList_append]
    simp only [List.append_assoc]
    rfl
  rw [spelled, lastHex_append hex.nonempty hex.digits plain]

namespace Supply

/-! ## What is handed out next -/

/-- What is handed out after some others. -/
def item (supply : Supply) (index : Nat) : Fresh := supply.nth (supply.count + index)

/-- The supply when some have been handed out. -/
def skip (supply : Supply) (count : Nat) : Supply := { supply with count := supply.count + count }

/-- The user that a check makes of a label and an item. -/
def user (supply : Supply) (label : String) (index : Nat) : String :=
  Fixture.user label (supply.item index).id

theorem skip_skip (supply : Supply) (count more : Nat) :
    (supply.skip count).skip more = supply.skip (count + more) := by
  simp only [skip, Nat.add_assoc]

theorem item_skip (supply : Supply) (count index : Nat) :
    (supply.skip count).item index = supply.item (count + index) := by
  simp only [item, skip, Nat.add_assoc]

theorem takeMany_eq (count : Nat) : ∀ supply : Supply,
    supply.takeMany count = (List.range count).map supply.item := by
  induction count with
  | zero => exact fun _ => rfl
  | succ count ih =>
    intro supply
    rw [takeMany, ih, List.range_succ_eq_map, List.map_cons, List.map_map]
    congr 1
    refine List.map_congr_left fun index _ => ?_
    rw [Function.comp_apply, show supply.take.2 = supply.skip 1 from rfl, item_skip,
      Nat.add_comm 1 index]

/-- What a run of checks needs of the next ones that are handed out: identifiers that differ and are
hexadecimal numbers, and clock readings that leave a few seconds on the time line. -/
structure Good (supply : Supply) (count : Nat) : Prop where
  hex : ∀ fresh ∈ supply.takeMany count, IsHexId fresh.id
  distinct : ((supply.takeMany count).map Fresh.id).Nodup
  early : ∀ fresh ∈ supply.takeMany count, fresh.clock.seconds + 3 ≤ Instant.lastSecond

section Good

variable {supply : Supply} {count index other : Nat}

theorem item_mem (index : Nat) (less : index < count) :
    supply.item index ∈ supply.takeMany count := by
  rw [takeMany_eq]
  exact List.mem_map_of_mem (List.mem_range.2 less)

/-- Different items have different identifiers. -/
theorem Good.eq_of_id (good : supply.Good count) (less : index < count) (less' : other < count)
    (same : (supply.item index).id = (supply.item other).id) : index = other := by
  have distinct := good.distinct
  rw [takeMany_eq, List.map_map] at distinct
  exact List.inj_on_of_nodup_map distinct (List.mem_range.2 less) (List.mem_range.2 less') same

theorem Good.item_ne (good : supply.Good count) (less : index < other) (less' : other < count) :
    (supply.item index).id ≠ (supply.item other).id :=
  fun same => Nat.ne_of_lt less (good.eq_of_id (Nat.lt_trans less less') less' same)

theorem takeMany_add (first count : Nat) :
    supply.takeMany (first + count) =
      supply.takeMany first ++ (supply.skip first).takeMany count := by
  rw [takeMany_eq, takeMany_eq, takeMany_eq, List.range_add, List.map_append, List.map_map]
  congr 1
  exact List.map_congr_left fun index _ => (item_skip supply first index).symm

theorem Good.front {first : Nat} (good : supply.Good (first + count)) : supply.Good first where
  hex fresh member := good.hex fresh (takeMany_add first count ▸ List.mem_append_left _ member)
  distinct := by
    have distinct := good.distinct
    rw [takeMany_add, List.map_append] at distinct
    exact distinct.of_append_left
  early fresh member :=
    good.early fresh (takeMany_add first count ▸ List.mem_append_left _ member)

theorem Good.back {first : Nat} (good : supply.Good (first + count)) :
    (supply.skip first).Good count where
  hex fresh member := good.hex fresh (takeMany_add first count ▸ List.mem_append_right _ member)
  distinct := by
    have distinct := good.distinct
    rw [takeMany_add, List.map_append] at distinct
    exact distinct.of_append_right
  early fresh member :=
    good.early fresh (takeMany_add first count ▸ List.mem_append_right _ member)

end Good

/-! ## Whom a supply names -/

/-- Whether a user is named with one of the first identifiers that are handed out. -/
def Names (supply : Supply) (count : Nat) (user : String) : Prop :=
  ∃ index < count, lastHex user.toList = (supply.item index).id.toList

section Names

variable {supply : Supply} {count more : Nat} {user : String}

theorem Names.mono (named : supply.Names count user) (le : count ≤ more) :
    supply.Names more user := by
  obtain ⟨index, less, same⟩ := named
  exact ⟨index, Nat.lt_of_lt_of_le less le, same⟩

theorem names_add :
    supply.Names (count + more) user ↔
      supply.Names count user ∨ (supply.skip count).Names more user := by
  constructor
  · rintro ⟨index, less, same⟩
    rcases Nat.lt_or_ge index count with early | late
    · exact .inl ⟨index, early, same⟩
    · refine .inr ⟨index - count, by omega, ?_⟩
      rwa [item_skip, Nat.add_sub_cancel' late]
  · rintro (⟨index, less, same⟩ | ⟨index, less, same⟩)
    · exact ⟨index, by omega, same⟩
    · rw [item_skip] at same
      exact ⟨count + index, by omega, same⟩

theorem Good.lastHex_user (good : supply.Good more) (index : Nat) (less : index < more)
    (label : String) {back : String} (plain : ∀ c ∈ back.toList, lowerHex c = false) :
    lastHex (supply.user label index ++ back).toList = (supply.item index).id.toList :=
  PostStore.lastHex_user (good.hex _ (item_mem index less)) plain

/-- A user that a check makes is named with the identifier it was made of, -/
theorem Good.names_append (good : supply.Good more) (index : Nat) (less : index < more)
    (label : String) {back : String} (plain : ∀ c ∈ back.toList, lowerHex c = false) :
    supply.Names (index + 1) (supply.user label index ++ back) :=
  ⟨index, Nat.lt_succ_self index, good.lastHex_user index less label plain⟩

theorem Good.names (good : supply.Good more) (index : Nat) (less : index < more)
    (label : String) : supply.Names (index + 1) (supply.user label index) := by
  have plain : ∀ c ∈ "".toList, lowerHex c = false := by simp
  have named := good.names_append index less label plain
  rwa [String.append_empty] at named

/-- and with no other. -/
theorem Good.not_names (good : supply.Good (count + more))
    (named : (supply.skip count).Names more user) : ¬ supply.Names count user := by
  obtain ⟨index, less, same⟩ := named
  rintro ⟨other, less', same'⟩
  rw [item_skip] at same
  have eq := good.eq_of_id (by omega) (by omega) (String.toList_injective (same'.symm.trans same))
  omega

/-- Users that are made of different items are different. -/
theorem Good.user_ne_append (good : supply.Good more) {first second : Nat} (less : first < second)
    (less' : second < more) (label label' : String) {back : String}
    (plain : ∀ c ∈ back.toList, lowerHex c = false) :
    supply.user label' second ≠ supply.user label first ++ back := by
  intro same
  have front : ∀ c ∈ "".toList, lowerHex c = false := by simp
  have id := good.lastHex_user second less' label' front
  rw [String.append_empty, same,
    good.lastHex_user first (Nat.lt_trans less less') label plain] at id
  exact good.item_ne less less' (String.toList_injective id)

theorem Good.user_ne (good : supply.Good more) {first second : Nat} (less : first < second)
    (less' : second < more) (label label' : String) :
    supply.user label' second ≠ supply.user label first := by
  have plain : ∀ c ∈ "".toList, lowerHex c = false := by simp
  have differ := good.user_ne_append less less' label label' plain
  rwa [String.append_empty] at differ

end Names

end Supply

/-! ## Identifiers as they are made -/

theorem lowerHex_hexDigit {n : Nat} (less : n < 16) : lowerHex (Text.hexDigit n) = true := by
  revert n
  decide

theorem hexDigit_inj {n n' : Nat} (less : n < 16) (less' : n' < 16)
    (same : Text.hexDigit n = Text.hexDigit n') : n = n' := by
  have injective : ∀ n < 16, ∀ n' < 16, Text.hexDigit n = Text.hexDigit n' → n = n' := by decide
  exact injective n less n' less' same

theorem length_fixedHexDigits (count : Nat) : ∀ n, (fixedHexDigits count n).length = count := by
  induction count with
  | zero => exact fun _ => rfl
  | succ count ih =>
    intro n
    rw [fixedHexDigits, List.length_append, ih, List.length_singleton]

theorem lowerHex_fixedHexDigits (count : Nat) :
    ∀ n, ∀ c ∈ fixedHexDigits count n, lowerHex c = true := by
  induction count with
  | zero => exact fun _ _ member => absurd member List.not_mem_nil
  | succ count ih =>
    intro n c member
    rw [fixedHexDigits, List.mem_append, List.mem_singleton] at member
    rcases member with member | rfl
    · exact ih (n / 16) c member
    · exact lowerHex_hexDigit (Nat.mod_lt n (by decide))

/-- Numbers with the same digits agree, as far as the digits go. -/
theorem mod_eq_of_fixedHexDigits (count : Nat) : ∀ {n n' : Nat},
    fixedHexDigits count n = fixedHexDigits count n' → n % 16 ^ count = n' % 16 ^ count := by
  induction count with
  | zero =>
    intro n n' _
    rw [Nat.pow_zero, Nat.mod_one, Nat.mod_one]
  | succ count ih =>
    intro n n' same
    rw [fixedHexDigits, fixedHexDigits] at same
    obtain ⟨front, last⟩ := List.append_inj' same rfl
    have digit : n % 16 = n' % 16 :=
      hexDigit_inj (Nat.mod_lt n (by decide)) (Nat.mod_lt n' (by decide))
        (List.head_eq_of_cons_eq last)
    rw [Nat.pow_succ', Nat.mod_mul, Nat.mod_mul, digit, ih front]

theorem toList_makeId (millis count : Nat) : (Post.makeId millis count).toList =
    fixedHexDigits 12 millis ++ '7' :: fixedHexDigits 3 (count / Nat.pow 2 62) ++
      fixedHexDigits 16 (Nat.pow 2 63 + count % Nat.pow 2 62) := by
  rw [Post.makeId, String.toList_ofList]

theorem length_makeId (millis count : Nat) : (Post.makeId millis count).toList.length = 32 := by
  simp only [toList_makeId, List.length_append, List.length_cons, length_fixedHexDigits]

/-- An identifier is a hexadecimal number. -/
theorem isHexId_makeId (millis count : Nat) : IsHexId (Post.makeId millis count) where
  nonempty := List.ne_nil_of_length_eq_add_one (length_makeId millis count)
  digits c member := by
    rw [toList_makeId, List.mem_append, List.mem_append, List.mem_cons] at member
    rcases member with (member | rfl | member) | member
    · exact lowerHex_fixedHexDigits 12 _ c member
    · rfl
    · exact lowerHex_fixedHexDigits 3 _ c member
    · exact lowerHex_fixedHexDigits 16 _ c member

/-- Identifiers made with different counts differ, in whatever milliseconds they are made. -/
theorem makeId_inj {millis millis' count count' : Nat} (less : count < 2 ^ 62)
    (less' : count' < 2 ^ 62)
    (same : Post.makeId millis count = Post.makeId millis' count') : count = count' := by
  have spelled := congrArg String.toList same
  rw [toList_makeId, toList_makeId] at spelled
  have rests := (List.append_inj' spelled (by simp only [length_fixedHexDigits])).2
  have agree := mod_eq_of_fixedHexDigits 16 rests
  simp only [Nat.pow_eq] at agree
  omega

namespace Supply

variable {start : ClockReading} {count : Nat}

theorem eq_nth_starting {fresh : Fresh} (member : fresh ∈ (starting start).takeMany count) :
    ∃ index < count, fresh = (starting start).nth index := by
  rw [takeMany_eq, List.mem_map] at member
  obtain ⟨index, member, rfl⟩ := member
  refine ⟨index, List.mem_range.1 member, ?_⟩
  rw [item, show (starting start).count = 0 from rfl, Nat.zero_add]

/-- All identifiers of a supply that starts at an instant are of one length. -/
theorem length_starting {fresh : Fresh} (member : fresh ∈ (starting start).takeMany count) :
    fresh.id.toList.length = 32 := by
  obtain ⟨index, -, rfl⟩ := eq_nth_starting member
  exact length_makeId _ _

/-- A supply that starts at an instant is as checks need it when there is time enough left. -/
theorem good_starting (few : count ≤ 2 ^ 62)
    (early : start.seconds + count + 5 ≤ Instant.lastSecond) : (starting start).Good count := by
  refine ⟨?_, ?_, ?_⟩
  · intro fresh member
    obtain ⟨index, -, rfl⟩ := eq_nth_starting member
    exact isHexId_makeId _ _
  · rw [takeMany_eq, List.map_map]
    refine List.Nodup.map_on ?_ List.nodup_range
    intro first member second member' same
    rw [List.mem_range] at member member'
    have counts := makeId_inj (by show 0 + first < _; omega) (by show 0 + second < _; omega) same
    exact Nat.add_left_cancel counts
  · intro fresh member
    obtain ⟨index, less, rfl⟩ := eq_nth_starting member
    show ((ClockReading.ofMicros? (start.toMicros + index)).getD start).seconds + 3 ≤ _
    cases read : ClockReading.ofMicros? (start.toMicros + index) with
    | none =>
      rw [Option.getD_none]
      omega
    | some clock =>
      obtain ⟨seconds, -⟩ := Instant.ofParts?_eq_some (ClockReading.ofMicros?_eq_some read)
      have fine := start.fine
      rw [Option.getD_some, seconds, Instant.toMicros]
      omega

end Supply

end PostStore
